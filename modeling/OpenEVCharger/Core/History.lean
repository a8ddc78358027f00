import OpenEVCharger.Core.GfciPolicy
import OpenEVCharger.Core.J1772
import OpenEVCharger.Core.OverTemp
import OpenEVCharger.Lib.Machine
import OpenEVCharger.Lib.Streak

/-!
# The debounced detectors over whole histories

Each of the pure detectors counts samples in a row, up to a cap, and keeps a latch
beside the counter. Here the counter is the streak of the history, and what the
detector reports at a tick is said in terms of the samples up to that tick.
-/

namespace OpenEVCharger

/-! ## GFCI policy -/

structure GfciSample where
  pe2Low : Bool
  policy : ℕ

/-- `s_gfci_policy_ctx` at power-up. -/
def gfciPolicyInit : GfciPolicyCtx := ⟨0, false, false⟩

def gfciMachine : Machine GfciPolicyCtx GfciSample GfciPolicyCtx where
  boot c := c
  step i c := (gfciPolicyStep c i.pe2Low i.policy).2

/-- The context before tick `n`. -/
def gfciCtxAt (ins : ℕ → GfciSample) (n : ℕ) : GfciPolicyCtx :=
  gfciMachine.run gfciPolicyInit ins n

/-- What the detector returns at tick `n`. -/
def gfciAction (ins : ℕ → GfciSample) (n : ℕ) : GfciPolicyAction :=
  (gfciPolicyStep (gfciCtxAt ins n) (ins n).pe2Low (ins n).policy).1

/-- At tick `n` the last three or more samples were asserted. -/
def GfciAsserted (ins : ℕ → GfciSample) (n : ℕ) : Prop :=
  gfciPersistTicks ≤ Streak.length (fun k => (ins k).pe2Low = true) (n + 1)

/-- At tick `n` a fault is due: asserted, under a policy that does not only warn. -/
structure GfciDue (ins : ℕ → GfciSample) (n : ℕ) : Prop where
  asserted : GfciAsserted ins n
  policy : (ins n).policy ≠ gfciPolWarn

section Gfci

variable {ins : ℕ → GfciSample} {n : ℕ}

theorem gfciCtxAt_succ (ins : ℕ → GfciSample) (n : ℕ) :
    gfciCtxAt ins (n + 1) = (gfciPolicyStep (gfciCtxAt ins n) (ins n).pe2Low (ins n).policy).2 :=
  rfl

/-- What a step does with the counter and the two latches. -/
theorem gfciPolicyStep_spec (c : GfciPolicyCtx) (low : Bool) (policy : ℕ) :
    let r := gfciPolicyStep c low policy
    let streak := if low = true then
      (if c.tripStreak < gfciPersistTicks then c.tripStreak + 1 else c.tripStreak) else 0
    r.2.tripStreak = streak ∧
      (r.1 = .raiseFault ↔
        gfciPersistTicks ≤ streak ∧ policy ≠ gfciPolWarn ∧ c.faultActive = false) ∧
      (r.1 = .warnEmit ↔
        gfciPersistTicks ≤ streak ∧ policy = gfciPolWarn ∧ (low && c.warned) = false) ∧
      (r.2.faultActive = true ↔ c.faultActive = true ∨ r.1 = .raiseFault) ∧
      (r.2.warned = true ↔ (low = true ∧ c.warned = true) ∨ r.1 = .warnEmit) := by
  unfold gfciPolicyStep
  cases low <;> grind

theorem tripStreak_gfciCtxAt (ins : ℕ → GfciSample) (n : ℕ) :
    (gfciCtxAt ins n).tripStreak =
      min gfciPersistTicks (Streak.length (fun k => (ins k).pe2Low = true) n) := by
  refine Streak.capped (c := fun n => (gfciCtxAt ins n).tripStreak) gfciPersistTicks rfl ?_ n
  intro n
  exact (gfciPolicyStep_spec _ _ _).1

/-- The counter of a step has reached the cap when the samples up to it are asserted. -/
theorem gfciAsserted_iff : gfciPersistTicks ≤ (gfciCtxAt ins (n + 1)).tripStreak ↔
    GfciAsserted ins n :=
  Streak.le_capped_iff (tripStreak_gfciCtxAt ins (n + 1)) (Nat.le_refl _)

theorem gfciAction_raise_iff : gfciAction ins n = .raiseFault ↔
    GfciDue ins n ∧ (gfciCtxAt ins n).faultActive = false := by
  obtain ⟨hstreak, hraise, -⟩ := gfciPolicyStep_spec (gfciCtxAt ins n) (ins n).pe2Low (ins n).policy
  rw [gfciAction, hraise, ← hstreak, ← gfciCtxAt_succ, gfciAsserted_iff]
  exact ⟨fun h => ⟨⟨h.1, h.2.1⟩, h.2.2⟩, fun h => ⟨h.1.asserted, h.1.policy, h.2⟩⟩

theorem gfciAction_warn_iff : gfciAction ins n = .warnEmit ↔
    GfciAsserted ins n ∧ (ins n).policy = gfciPolWarn ∧
      ((ins n).pe2Low && (gfciCtxAt ins n).warned) = false := by
  obtain ⟨hstreak, -, hwarn, -⟩ :=
    gfciPolicyStep_spec (gfciCtxAt ins n) (ins n).pe2Low (ins n).policy
  rw [gfciAction, hwarn, ← hstreak, ← gfciCtxAt_succ, gfciAsserted_iff]

/-- The latch of the fault: one was raised before. -/
theorem gfci_faultActive_iff : (gfciCtxAt ins n).faultActive = true ↔
    ∃ k < n, gfciAction ins k = .raiseFault := by
  induction n with
  | zero => exact iff_of_false nofun fun ⟨k, hk, _⟩ => Nat.not_lt_zero k hk
  | succ n ih =>
    obtain ⟨-, -, -, hactive, -⟩ :=
      gfciPolicyStep_spec (gfciCtxAt ins n) (ins n).pe2Low (ins n).policy
    rw [gfciCtxAt_succ, hactive, ih]
    constructor
    · rintro (⟨k, hk, hraise⟩ | hraise)
      · exact ⟨k, Nat.lt_succ_of_lt hk, hraise⟩
      · exact ⟨n, Nat.lt_succ_self n, hraise⟩
    · rintro ⟨k, hk, hraise⟩
      rcases Nat.lt_succ_iff_lt_or_eq.mp hk with hlt | rfl
      · exact .inl ⟨k, hlt, hraise⟩
      · exact .inr hraise

theorem GfciAsserted.low (h : GfciAsserted ins n) : (ins n).pe2Low = true :=
  (Streak.le_length_iff.mp h).2 n (by rw [gfciPersistTicks]; omega) (Nat.lt_succ_self n)

/-- The latch of the warning: one was emitted since the line was last released. -/
theorem gfci_warned_iff : (gfciCtxAt ins n).warned = true ↔
    ∃ k < n, gfciAction ins k = .warnEmit ∧ ∀ j, k ≤ j → j < n → (ins j).pe2Low = true := by
  induction n with
  | zero => exact iff_of_false nofun fun ⟨k, hk, _⟩ => Nat.not_lt_zero k hk
  | succ n ih =>
    obtain ⟨-, -, -, -, hwarned⟩ :=
      gfciPolicyStep_spec (gfciCtxAt ins n) (ins n).pe2Low (ins n).policy
    rw [gfciCtxAt_succ, hwarned, ih]
    constructor
    · rintro (⟨hlow, k, hk, hwarn, hall⟩ | hwarn)
      · refine ⟨k, Nat.lt_succ_of_lt hk, hwarn, fun j hkj hjn => ?_⟩
        rcases Nat.lt_succ_iff_lt_or_eq.mp hjn with hlt | rfl
        · exact hall j hkj hlt
        · exact hlow
      · refine ⟨n, Nat.lt_succ_self n, hwarn, fun j hnj hjn => ?_⟩
        have hj : j = n := Nat.le_antisymm (Nat.le_of_lt_succ hjn) hnj
        subst hj
        exact (gfciAction_warn_iff.mp hwarn).1.low
    · rintro ⟨k, hk, hwarn, hall⟩
      rcases Nat.lt_succ_iff_lt_or_eq.mp hk with hlt | rfl
      · exact .inl ⟨hall n (Nat.le_of_lt hlt) (Nat.lt_succ_self n), k, hlt, hwarn,
          fun j hkj hjn => hall j hkj (Nat.lt_succ_of_lt hjn)⟩
      · exact .inr hwarn

/-- A fault that is due has been raised by then. -/
theorem GfciDue.raised (h : GfciDue ins n) : ∃ k ≤ n, gfciAction ins k = .raiseFault := by
  by_cases hactive : (gfciCtxAt ins n).faultActive = true
  · obtain ⟨k, hk, hraise⟩ := gfci_faultActive_iff.mp hactive
    exact ⟨k, Nat.le_of_lt hk, hraise⟩
  · exact ⟨n, Nat.le_refl n, gfciAction_raise_iff.mpr ⟨h, Bool.eq_false_iff.mpr hactive⟩⟩

/-- The fault is raised at the first tick at which it is due. -/
theorem gfci_raise_first_due : gfciAction ins n = .raiseFault ↔
    GfciDue ins n ∧ ∀ k < n, ¬ GfciDue ins k := by
  rw [gfciAction_raise_iff]
  refine and_congr_right fun _ => ?_
  rw [← Bool.not_eq_true, gfci_faultActive_iff]
  constructor
  · intro hnone k hk hdue
    obtain ⟨j, hj, hraise⟩ := hdue.raised
    exact hnone ⟨j, Nat.lt_of_le_of_lt hj hk, hraise⟩
  · rintro hnone ⟨k, hk, hraise⟩
    exact hnone k hk (gfciAction_raise_iff.mp hraise).1

/-- For every sequence of samples and policies: the fault is raised exactly at the first
tick at which the last three or more samples were asserted under another policy than
the warning one, and so once at most; a warning is returned under the warning policy
alone, and once between two releases of the line; and whatever the policies were
before, an asserted tick has had its fault raised or its episode warned of. -/
theorem gfci_policy_history (ins : ℕ → GfciSample) :
    (∀ n, gfciAction ins n = .raiseFault ↔ GfciDue ins n ∧ ∀ k < n, ¬ GfciDue ins k) ∧
      (∀ m n, gfciAction ins m = .raiseFault → gfciAction ins n = .raiseFault → m = n) ∧
      (∀ n, gfciAction ins n = .warnEmit →
        GfciAsserted ins n ∧ (ins n).policy = gfciPolWarn) ∧
      (∀ m n, m < n → gfciAction ins m = .warnEmit → gfciAction ins n = .warnEmit →
        ∃ k, m < k ∧ k < n ∧ (ins k).pe2Low = false) ∧
      (∀ n, GfciAsserted ins n → (ins n).policy ≠ gfciPolWarn →
        ∃ k ≤ n, gfciAction ins k = .raiseFault) ∧
      (∀ n, GfciAsserted ins n → (ins n).policy = gfciPolWarn →
        ∃ k ≤ n, gfciAction ins k = .warnEmit ∧
          ∀ j, k ≤ j → j ≤ n → (ins j).pe2Low = true) := by
  refine ⟨fun n => gfci_raise_first_due, fun m n hm hn => ?_, fun n hwarn => ?_,
    fun m n hmn hm hn => ?_, fun n h hpolicy => GfciDue.raised ⟨h, hpolicy⟩,
    fun n h hpolicy => ?_⟩
  · have hdue := (gfci_raise_first_due.mp hm).1
    have hdue' := (gfci_raise_first_due.mp hn).1
    rcases Nat.lt_trichotomy m n with hlt | rfl | hgt
    · exact absurd hdue ((gfci_raise_first_due.mp hn).2 m hlt)
    · rfl
    · exact absurd hdue' ((gfci_raise_first_due.mp hm).2 n hgt)
  · obtain ⟨hasserted, hpolicy, -⟩ := gfciAction_warn_iff.mp hwarn
    exact ⟨hasserted, hpolicy⟩
  · obtain ⟨hasserted, -, hnot⟩ := gfciAction_warn_iff.mp hn
    rw [hasserted.low, Bool.true_and, ← Bool.not_eq_true, gfci_warned_iff] at hnot
    have hgap : ¬ ∀ k, m ≤ k → k < n → (ins k).pe2Low = true :=
      fun hall => hnot ⟨m, hmn, hm, hall⟩
    have hlow := (gfciAction_warn_iff.mp hm).1.low
    rw [not_forall] at hgap
    obtain ⟨k, hk⟩ := hgap
    rw [Classical.not_imp, Classical.not_imp] at hk
    obtain ⟨hmk, hkn, hrelease⟩ := hk
    refine ⟨k, Nat.lt_of_le_of_ne hmk ?_, hkn, Bool.eq_false_iff.mpr hrelease⟩
    rintro rfl
    exact hrelease hlow
  · by_cases hwarned : (gfciCtxAt ins n).warned = true
    · obtain ⟨k, hk, hwarn, hall⟩ := gfci_warned_iff.mp hwarned
      refine ⟨k, Nat.le_of_lt hk, hwarn, fun j hkj hjn => ?_⟩
      rcases Nat.lt_or_eq_of_le hjn with hlt | rfl
      · exact hall j hkj hlt
      · exact h.low
    · refine ⟨n, Nat.le_refl n, gfciAction_warn_iff.mpr ⟨h, hpolicy, ?_⟩, fun j hnj hjn => ?_⟩
      · rw [Bool.eq_false_iff.mpr hwarned, Bool.and_false]
      · exact Nat.le_antisymm hjn hnj ▸ h.low

end Gfci

/-! ## J1772 classifier -/

/-- The band of reading `k`. -/
def bandAt (mv : ℕ → Int) (k : ℕ) : J1772State := classifyStrict (mv k)

/-- `j1772_step` with a fixed debounce count. -/
def j1772Machine (debounceN : UInt8) : Machine J1772Ctx Int J1772Ctx where
  boot c := c
  step mv c := j1772Step c mv debounceN.toNat

/-- The context after `m` readings. -/
def j1772CtxAt (debounceN : UInt8) (mv : ℕ → Int) (m : ℕ) : J1772Ctx :=
  (j1772Machine debounceN).run j1772Init mv m

/-- The readings from `a` to before `e`, of the first `m`, are a maximal run of band `b`. -/
structure MaximalRun (mv : ℕ → Int) (m a e : ℕ) (b : J1772State) : Prop where
  nonempty : a < e
  bound : e ≤ m
  band : ∀ k, a ≤ k → k < e → bandAt mv k = b
  left : a = 0 ∨ bandAt mv (a - 1) ≠ b
  right : e = m ∨ bandAt mv e ≠ b

/-- The band of the last reading has been read so often in a row. -/
def bandStreak (mv : ℕ → Int) (m : ℕ) : ℕ :=
  Streak.length (fun k => bandAt mv k = bandAt mv (m - 1)) m

section J1772

variable {debounceN : UInt8} {mv : ℕ → Int} {m a e : ℕ} {b : J1772State}

theorem j1772CtxAt_succ (debounceN : UInt8) (mv : ℕ → Int) (m : ℕ) :
    j1772CtxAt debounceN mv (m + 1) =
      j1772Step (j1772CtxAt debounceN mv m) (mv m) debounceN.toNat := rfl

theorem bandAt_ne_invalid (mv : ℕ → Int) (k : ℕ) : bandAt mv k ≠ .invalid := by
  unfold bandAt classifyStrict
  repeat' split
  all_goals decide

/-- A step makes the band the candidate, counts it, and commits it after enough readings. -/
theorem j1772Step_spec (c : J1772Ctx) (mv : Int) (n : ℕ) :
    let r := j1772Step c mv n
    r.candidate = classifyStrict mv ∧
      r.streak = (if classifyStrict mv = c.candidate then
        (if c.streak < 0xFF then c.streak + 1 else c.streak) else 1) ∧
      r.committed = if n ≤ r.streak then classifyStrict mv else c.committed := by
  unfold j1772Step
  grind

theorem bandStreak_succ_succ (mv : ℕ → Int) (m : ℕ) :
    bandStreak mv (m + 2) =
      if bandAt mv (m + 1) = bandAt mv m then bandStreak mv (m + 1) + 1 else 1 := by
  have hlast : bandStreak mv (m + 2) =
      Streak.length (fun k => bandAt mv k = bandAt mv (m + 1)) (m + 1) + 1 :=
    Streak.length_succ_of rfl
  rw [hlast]
  split
  · next hsame => rw [hsame, bandStreak, Nat.add_sub_cancel]
  · next hother => rw [Streak.length_succ_of_not (fun h => hother h.symm)]

/-- The candidate is the last band, and the counter its streak, up to 255. -/
theorem j1772CtxAt_streak (debounceN : UInt8) (mv : ℕ → Int) (m : ℕ) :
    (j1772CtxAt debounceN mv (m + 1)).candidate = bandAt mv m ∧
      (j1772CtxAt debounceN mv (m + 1)).streak = min 255 (bandStreak mv (m + 1)) := by
  induction m with
  | zero =>
    obtain ⟨hcandidate, hstreak, -⟩ := j1772Step_spec j1772Init (mv 0) debounceN.toNat
    refine ⟨hcandidate, hstreak.trans ?_⟩
    have hone : bandStreak mv 1 = 1 := Streak.length_succ_of rfl
    rw [hone]
    exact if_neg (bandAt_ne_invalid mv 0)
  | succ m ih =>
    obtain ⟨hcandidate, hstreak, -⟩ :=
      j1772Step_spec (j1772CtxAt debounceN mv (m + 1)) (mv (m + 1)) debounceN.toNat
    refine ⟨hcandidate, hstreak.trans ?_⟩
    have hband : classifyStrict (mv (m + 1)) = bandAt mv (m + 1) := rfl
    rw [ih.1, ih.2, bandStreak_succ_succ, hband]
    by_cases hsame : bandAt mv (m + 1) = bandAt mv m
    · rw [if_pos hsame, if_pos hsame]
      split <;> omega
    · rw [if_neg hsame, if_neg hsame]
      rfl

/-- A reading commits its band when it is the last of enough readings in a row. -/
theorem committed_succ (debounceN : UInt8) (mv : ℕ → Int) (m : ℕ) :
    (j1772CtxAt debounceN mv (m + 1)).committed =
      if debounceN.toNat ≤ bandStreak mv (m + 1) then bandAt mv m
      else (j1772CtxAt debounceN mv m).committed := by
  obtain ⟨-, -, hcommitted⟩ :=
    j1772Step_spec (j1772CtxAt debounceN mv m) (mv m) debounceN.toNat
  rw [← j1772CtxAt_succ, (j1772CtxAt_streak debounceN mv m).2] at hcommitted
  rw [hcommitted]
  have hbyte : debounceN.toNat ≤ 255 := Nat.le_of_lt_succ debounceN.toNat_lt
  have hcap : debounceN.toNat ≤ min 255 (bandStreak mv (m + 1)) ↔
      debounceN.toNat ≤ bandStreak mv (m + 1) :=
    Streak.le_capped_iff rfl hbyte
  exact if_congr hcap rfl rfl

/-- Without enough readings in a row between two points nothing is committed. -/
theorem committed_eq_of_short (ham : a ≤ m)
    (hshort : ∀ k, a < k → k ≤ m → bandStreak mv k < debounceN.toNat) :
    (j1772CtxAt debounceN mv m).committed = (j1772CtxAt debounceN mv a).committed := by
  induction m, ham using Nat.le_induction with
  | base => rfl
  | succ m ham ih =>
    have hlast := hshort (m + 1) (Nat.lt_succ_of_le ham) (Nat.le_refl _)
    rw [committed_succ, if_neg (Nat.not_le_of_lt hlast)]
    exact ih fun k hak hkm => hshort k hak (Nat.le_succ_of_le hkm)

/-- The streak at the end of a run is as long as the run at least. -/
theorem MaximalRun.le_bandStreak (h : MaximalRun mv m a e b) : e - a ≤ bandStreak mv e := by
  have hne := h.nonempty
  refine Streak.le_length_iff.mpr ⟨Nat.sub_le e a, fun k hk hlt => ?_⟩
  rw [h.band k (by omega) hlt, h.band (e - 1) (by omega) (by omega)]

theorem MaximalRun.commits (h : MaximalRun mv m a e b) (hlen : debounceN.toNat ≤ e - a) :
    (j1772CtxAt debounceN mv e).committed = b := by
  have hne := h.nonempty
  obtain ⟨k, rfl⟩ : ∃ k, e = k + 1 := ⟨e - 1, by omega⟩
  rw [committed_succ, if_pos (Nat.le_trans hlen h.le_bandStreak)]
  exact h.band k (by omega) (Nat.lt_succ_self k)

/-- Readings of one band go on to a point where the run ends. -/
theorem exists_right_end {k : ℕ} (hkm : k ≤ m) :
    ∃ e, k ≤ e ∧ e ≤ m ∧ (∀ j, k ≤ j → j < e → bandAt mv j = b) ∧
      (e = m ∨ bandAt mv e ≠ b) := by
  obtain ⟨d, rfl⟩ : ∃ d, m = k + d := ⟨m - k, by omega⟩
  induction d with
  | zero =>
    exact ⟨k, Nat.le_refl k, Nat.le_refl k, fun j h1 h2 => by omega, .inl rfl⟩
  | succ d ih =>
    obtain ⟨e, hke, hem, hband, hend⟩ := ih (Nat.le_add_right k d)
    by_cases hgo : e = k + d ∧ bandAt mv e = b
    · obtain ⟨rfl, hlast⟩ := hgo
      refine ⟨k + d + 1, by omega, by omega, fun j hkj hje => ?_, .inl rfl⟩
      rcases Nat.lt_succ_iff_lt_or_eq.mp hje with hlt | rfl
      · exact hband j hkj hlt
      · exact hlast
    · refine ⟨e, hke, by omega, hband, ?_⟩
      rcases hend with hlast | hother
      · exact .inr fun hb => hgo ⟨hlast, hb⟩
      · exact .inr hother

/-- Enough readings in a row up to a point are part of a run that ends there or later. -/
theorem exists_maximalRun {k n : ℕ} (hkm : k ≤ m) (hn : 0 < n) (hlong : n ≤ bandStreak mv k) :
    ∃ a e b, MaximalRun mv m a e b ∧ n ≤ e - a ∧ k ≤ e := by
  have hle : bandStreak mv k ≤ k := Streak.length_le _ _
  obtain ⟨e, hke, hem, hband, hend⟩ := @exists_right_end mv _ (bandAt mv (k - 1)) k hkm
  have hstreak : ∀ j, k - bandStreak mv k ≤ j → j < k → bandAt mv j = bandAt mv (k - 1) :=
    fun j hj hjk => Streak.of_length (p := fun j => bandAt mv j = bandAt mv (k - 1))
      (show k ≤ j + bandStreak mv k by omega) hjk
  refine ⟨k - bandStreak mv k, e, bandAt mv (k - 1), ⟨by omega, hem, fun j hj hje => ?_, ?_, hend⟩,
    by omega, hke⟩
  · rcases Nat.lt_or_ge j k with hjk | hkj
    · exact hstreak j hj hjk
    · exact hband j hkj hje
  · -- the streak stops where the band was another
    rcases Nat.eq_zero_or_pos (k - bandStreak mv k) with hzero | hpos
    · exact .inl hzero
    · refine .inr fun hsame => ?_
      have hmore : bandStreak mv k + 1 ≤ bandStreak mv k := by
        refine Streak.le_length_iff.mpr ⟨by omega, fun j hj hjk => ?_⟩
        rcases Nat.lt_or_ge j (k - bandStreak mv k) with hlt | hge
        · have hj' : j = k - bandStreak mv k - 1 := by omega
          rw [hj', hsame]
        · exact hstreak j hge hjk
      exact absurd hmore (Nat.not_succ_le_self _)

/-- For every sequence of readings and every debounce count: after the sequence the state
committed is the band of the most recent maximal run of so many readings at least, or
the initial state without such a run; and it does not change between two points if no
band has been read so often in a row anywhere between them. -/
theorem j1772_commits_last_run (debounceN : UInt8) (hn : 0 < debounceN.toNat) (mv : ℕ → Int)
    (m : ℕ) :
    (∀ a e b, MaximalRun mv m a e b → debounceN.toNat ≤ e - a →
        (∀ a' e' b', MaximalRun mv m a' e' b' → debounceN.toNat ≤ e' - a' → e' ≤ e) →
        (j1772CtxAt debounceN mv m).committed = b) ∧
      ((∀ a e b, MaximalRun mv m a e b → e - a < debounceN.toNat) →
        (j1772CtxAt debounceN mv m).committed = j1772Init.committed) ∧
      ∀ i ≤ m, (∀ a e b, a < e → i < e → e ≤ m → (∀ k, a ≤ k → k < e → bandAt mv k = b) →
          e - a < debounceN.toNat) →
        (j1772CtxAt debounceN mv m).committed = (j1772CtxAt debounceN mv i).committed := by
  refine ⟨fun a e b hrun hlen hlast => ?_, fun hnone => ?_, fun i him hnone => ?_⟩
  · rw [← hrun.commits hlen]
    refine committed_eq_of_short hrun.bound fun k hek hkm => ?_
    refine Nat.lt_of_not_le fun hlong => ?_
    obtain ⟨a', e', b', hrun', hlen', hke'⟩ := exists_maximalRun hkm hn hlong
    have hle := hlast a' e' b' hrun' hlen'
    omega
  · refine committed_eq_of_short (Nat.zero_le m) fun k _ hkm => ?_
    refine Nat.lt_of_not_le fun hlong => ?_
    obtain ⟨a', e', b', hrun', hlen', -⟩ := exists_maximalRun hkm hn hlong
    have hshort := hnone a' e' b' hrun'
    omega
  · refine committed_eq_of_short him fun k hik hkm => ?_
    have hle : bandStreak mv k ≤ k := Streak.length_le _ _
    rcases Nat.eq_zero_or_pos (bandStreak mv k) with hzero | hpos
    · rw [hzero]
      exact hn
    · have hshort := hnone (k - bandStreak mv k) k (bandAt mv (k - 1)) (by omega) hik hkm
        fun j hj hjk => Streak.of_length (p := fun j => bandAt mv j = bandAt mv (k - 1))
          (show k ≤ j + bandStreak mv k by omega) hjk
      omega

theorem j1772_commits_last_run_two :
    let mv : ℕ → Int := fun k => if k < 2 then 12000 else 9000
    (∀ a e b, MaximalRun mv 5 a e b → (2 : UInt8).toNat ≤ e - a →
        (∀ a' e' b', MaximalRun mv 5 a' e' b' → (2 : UInt8).toNat ≤ e' - a' → e' ≤ e) →
        (j1772CtxAt 2 mv 5).committed = b) ∧
      ((∀ a e b, MaximalRun mv 5 a e b → e - a < (2 : UInt8).toNat) →
        (j1772CtxAt 2 mv 5).committed = j1772Init.committed) ∧
      ∀ i ≤ 5, (∀ a e b, a < e → i < e → e ≤ 5 → (∀ k, a ≤ k → k < e → bandAt mv k = b) →
          e - a < (2 : UInt8).toNat) →
        (j1772CtxAt 2 mv 5).committed = (j1772CtxAt 2 mv i).committed :=
  j1772_commits_last_run 2 (by decide) _ 5

end J1772

/-! ## Over-temperature detector -/

structure NtcSample where
  ntc1Raw : ℕ
  ntc2Raw : ℕ
  ntc1Present : Bool
  ntc2Present : Bool

namespace NtcSample

/-- The counts of the populated channels. -/
def populated (s : NtcSample) : List ℕ :=
  (if s.ntc1Present && overTempPopulated s.ntc1Raw then [s.ntc1Raw] else []) ++
    if s.ntc2Present && overTempPopulated s.ntc2Raw then [s.ntc2Raw] else []

/-- The count of the hottest populated sensor. -/
def hottest (s : NtcSample) : Option ℕ := s.populated.min?

/-- The hottest populated sensor is at or below the trip count. -/
def Hot (s : NtcSample) : Prop := ∃ h ∈ s.hottest, h ≤ otTripRaw

/-- The hottest populated sensor is at or above the clear count. -/
def Cool (s : NtcSample) : Prop := ∃ h ∈ s.hottest, otClearRaw ≤ h

instance (s : NtcSample) : Decidable s.Hot :=
  match h : s.hottest with
  | none => isFalse fun ⟨_, hmem, _⟩ => by rw [h] at hmem; cases hmem
  | some c => decidable_of_iff (c ≤ otTripRaw)
      ⟨fun hle => ⟨c, h, hle⟩, fun ⟨_, hmem, hle⟩ => by rw [h] at hmem; cases hmem; exact hle⟩

end NtcSample

def overTempInit : OverTempCtx := ⟨0, false⟩

def overTempMachine : Machine OverTempCtx NtcSample OverTempCtx where
  boot c := c
  step s c := (overTempStep c s.ntc1Raw s.ntc2Raw s.ntc1Present s.ntc2Present).2

/-- The context before tick `n`. -/
def overTempCtxAt (ins : ℕ → NtcSample) (n : ℕ) : OverTempCtx :=
  overTempMachine.run overTempInit ins n

/-- What the detector returns at tick `n`. -/
def overTempActionAt (ins : ℕ → NtcSample) (n : ℕ) : OverTempAction :=
  (overTempStep (overTempCtxAt ins n) (ins n).ntc1Raw (ins n).ntc2Raw (ins n).ntc1Present
    (ins n).ntc2Present).1

/-- The trips (`true`) and the clears (`false`) before tick `n`. -/
def overTempEvents (ins : ℕ → NtcSample) : ℕ → List Bool
  | 0 => []
  | n + 1 => overTempEvents ins n ++ ((if (overTempActionAt ins n).trip then [true] else []) ++
      if (overTempActionAt ins n).clear then [false] else [])

section OverTemp

variable {ins : ℕ → NtcSample} {n : ℕ}

/-- A step looks at the hottest populated sensor alone. -/
theorem overTempStep_eq (c : OverTempCtx) (s : NtcSample) :
    overTempStep c s.ntc1Raw s.ntc2Raw s.ntc1Present s.ntc2Present =
      match s.hottest with
      | none => (⟨false, false⟩, { c with tripStreak := 0 })
      | some h =>
        if !c.faultActive && decide (h ≤ otTripRaw) then
          let streak := if c.tripStreak < otPersistTicks then c.tripStreak + 1 else c.tripStreak
          if otPersistTicks ≤ streak then
            (⟨true, false⟩, { tripStreak := streak, faultActive := true })
          else (⟨false, false⟩, { c with tripStreak := streak })
        else if c.faultActive && decide (otClearRaw ≤ h) then
          (⟨false, true⟩, { tripStreak := 0, faultActive := false })
        else (⟨false, false⟩, { c with tripStreak := 0 }) := by
  have hmin : ∀ p1 p2 : Bool, (p1 = true → s.ntc1Raw < 0xFFFF) → (p2 = true → s.ntc2Raw < 0xFFFF) →
      ((if p1 then [s.ntc1Raw] else []) ++ if p2 then [s.ntc2Raw] else []).min? =
        if !p1 && !p2 then none else some (hottestRaw p1 p2 s.ntc1Raw s.ntc2Raw) := by
    intro p1 p2 h1 h2
    unfold hottestRaw
    cases p1 <;> cases p2 <;> simp at h1 h2 ⊢ <;> grind
  have hlt : ∀ (present : Bool) (r : ℕ), (present && overTempPopulated r) = true → r < 0xFFFF := by
    intro present r h
    rw [overTempPopulated, Bool.and_eq_true, Bool.and_eq_true, decide_eq_true_iff,
      decide_eq_true_iff] at h
    exact Nat.lt_trans h.2.2 (by decide)
  rw [NtcSample.hottest, NtcSample.populated, hmin _ _ (hlt _ _) (hlt _ _), overTempStep]
  generalize (s.ntc1Present && overTempPopulated s.ntc1Raw) = p1
  generalize (s.ntc2Present && overTempPopulated s.ntc2Raw) = p2
  dsimp only
  by_cases hnone : (!p1 && !p2) = true
  · rw [if_pos hnone, if_pos hnone]
  · rw [if_neg hnone, if_neg hnone]

/-- What a step does: it counts a hot sample until it trips, clears on a cool one, and
otherwise starts counting over. -/
theorem overTempStep_spec (c : OverTempCtx) (s : NtcSample) :
    let r := overTempStep c s.ntc1Raw s.ntc2Raw s.ntc1Present s.ntc2Present
    (r.1.trip = true ↔ c.faultActive = false ∧ s.Hot ∧ otPersistTicks ≤ c.tripStreak + 1) ∧
      (r.1.clear = true ↔ c.faultActive = true ∧ s.Cool) ∧
      (s.hottest = none → r.1 = ⟨false, false⟩) ∧
      (c.faultActive = false → r.2.faultActive = false → s.Hot →
        r.2.tripStreak = c.tripStreak + 1) ∧
      (r.2.faultActive = false → ¬ s.Hot → r.2.tripStreak = 0) ∧
      (c.faultActive = true → r.2.faultActive = false → ¬ s.Hot) := by
  rw [overTempStep_eq, NtcSample.Hot, NtcSample.Cool]
  cases s.hottest with
  | none => simp
  | some h =>
    simp only [Option.mem_some_iff, exists_eq_left']
    by_cases hhot : h ≤ otTripRaw
    · have hcool : ¬ otClearRaw ≤ h := by
        simp only [otTripRaw, otClearRaw] at hhot ⊢
        omega
      cases hactive : c.faultActive with
      | false =>
        simp only [hhot, Bool.not_false, decide_true, Bool.and_self, if_true]
        simp only [otPersistTicks]
        split <;> split <;> simp <;> omega
      | true => simp [hcool, hhot]
    · cases hactive : c.faultActive with
      | false => simp [hhot]
      | true =>
        by_cases hcool : otClearRaw ≤ h
        · simp [hhot, hcool]
        · simp [hhot, hcool]

/-- While the detector has not tripped its counter is the streak of hot samples. -/
theorem overTempCtxAt_streak (hclear : (overTempCtxAt ins n).faultActive = false) :
    (overTempCtxAt ins n).tripStreak = Streak.length (fun k => (ins k).Hot) n ∧
      Streak.length (fun k => (ins k).Hot) n < otPersistTicks := by
  induction n with
  | zero => exact ⟨rfl, show 0 < otPersistTicks by decide⟩
  | succ n ih =>
    obtain ⟨htrip, -, -, hcount, hreset, hcool⟩ := overTempStep_spec (overTempCtxAt ins n) (ins n)
    have hcases := overTempStep_cases (overTempCtxAt ins n) (ins n).ntc1Raw (ins n).ntc2Raw
      (ins n).ntc1Present (ins n).ntc2Present
    by_cases hhot : (ins n).Hot
    · -- a hot sample was counted, and did not trip
      have hbefore : (overTempCtxAt ins n).faultActive = false :=
        Bool.eq_false_iff.mpr fun hactive => hcool hactive hclear hhot
      obtain ⟨hstreak, -⟩ := ih hbefore
      rw [Streak.length_succ_of (p := fun k => (ins k).Hot) hhot, ← hstreak]
      refine ⟨hcount hbefore hclear hhot, Nat.lt_of_not_le fun hfull => ?_⟩
      have htripped := htrip.mpr ⟨hbefore, hhot, hfull⟩
      rcases hcases with ⟨-, -, hset⟩ | ⟨hact, -, -⟩ | ⟨hact, -⟩
      · exact absurd (hset.symm.trans hclear) nofun
      · rw [hact] at htripped
        cases htripped
      · rw [hact] at htripped
        cases htripped
    · rw [Streak.length_succ_of_not (p := fun k => (ins k).Hot) hhot]
      exact ⟨hreset hclear hhot, by decide⟩

/-- The detector is tripped after an odd number of events. -/
theorem overTempCtxAt_faultActive (ins : ℕ → NtcSample) (n : ℕ) :
    (overTempCtxAt ins n).faultActive = decide ((overTempEvents ins n).length % 2 = 1) ∧
      overTempEvents ins n =
        (List.range (overTempEvents ins n).length).map fun i => decide (i % 2 = 0) := by
  induction n with
  | zero => exact ⟨rfl, rfl⟩
  | succ n ih =>
    have hcases := overTempStep_cases (overTempCtxAt ins n) (ins n).ntc1Raw (ins n).ntc2Raw
      (ins n).ntc1Present (ins n).ntc2Present
    obtain ⟨hactive, hevents⟩ := ih
    have hevents' : overTempEvents ins (n + 1) = overTempEvents ins n ++
        ((if (overTempActionAt ins n).trip then [true] else []) ++
          if (overTempActionAt ins n).clear then [false] else []) := rfl
    have hone : ∀ (b : Bool) (l : List Bool), l = (List.range l.length).map (fun i => decide (i % 2 = 0)) →
        b = decide (l.length % 2 = 0) →
        l ++ [b] = (List.range (l ++ [b]).length).map fun i => decide (i % 2 = 0) := by
      intro b l hl hb
      rw [List.length_append, List.length_singleton, List.range_succ, List.map_append,
        List.map_singleton, ← hl, ← hb]
    rcases hcases with ⟨hact, hbefore, hafter⟩ | ⟨hact, hbefore, hafter⟩ | ⟨hact, hkept⟩
    · have hstep : overTempEvents ins (n + 1) = overTempEvents ins n ++ [true] := by
        rw [hevents', overTempActionAt, hact]
        rfl
      rw [hbefore] at hactive
      have heven : (overTempEvents ins n).length % 2 = 0 := by
        have := of_decide_eq_false hactive.symm
        omega
      rw [hstep]
      refine ⟨?_, hone true _ hevents (by rw [heven]; rfl)⟩
      rw [List.length_append, List.length_singleton]
      refine hafter.trans (decide_eq_true ?_).symm
      omega
    · have hstep : overTempEvents ins (n + 1) = overTempEvents ins n ++ [false] := by
        rw [hevents', overTempActionAt, hact]
        rfl
      rw [hbefore] at hactive
      have hodd := of_decide_eq_true hactive.symm
      rw [hstep]
      refine ⟨?_, hone false _ hevents (by rw [hodd]; rfl)⟩
      rw [List.length_append, List.length_singleton]
      refine hafter.trans (decide_eq_false ?_).symm
      omega
    · have hstep : overTempEvents ins (n + 1) = overTempEvents ins n := by
        rw [hevents', overTempActionAt, hact]
        exact List.append_nil _
      rw [hstep]
      exact ⟨hkept.trans hactive, hevents⟩

/-- For every sequence of samples: the detector trips exactly at the ticks where it is not
tripped and the hottest populated sensor has been at or below the trip count on this
tick and the four before it; it clears exactly when it is tripped and the hottest
populated sensor is at or above the clear count; it does neither without a populated
sensor; and its events are a trip, a clear, a trip and so on. -/
theorem over_temp_history (ins : ℕ → NtcSample) :
    (∀ n, (overTempActionAt ins n).trip = true ↔ (overTempCtxAt ins n).faultActive = false ∧
        otPersistTicks ≤ n + 1 ∧ ∀ k, n + 1 ≤ k + otPersistTicks → k ≤ n → (ins k).Hot) ∧
      (∀ n, (overTempActionAt ins n).clear = true ↔
        (overTempCtxAt ins n).faultActive = true ∧ (ins n).Cool) ∧
      (∀ n, (ins n).hottest = none → overTempActionAt ins n = ⟨false, false⟩) ∧
      ∀ n, overTempEvents ins n =
        (List.range (overTempEvents ins n).length).map fun i => decide (i % 2 = 0) := by
  refine ⟨fun n => ?_, fun n => (overTempStep_spec _ (ins n)).2.1,
    fun n => (overTempStep_spec _ (ins n)).2.2.1, fun n => (overTempCtxAt_faultActive ins n).2⟩
  have hstreak : otPersistTicks ≤ Streak.length (fun k => (ins k).Hot) (n + 1) ↔
      otPersistTicks ≤ n + 1 ∧ ∀ k, n + 1 ≤ k + otPersistTicks → k ≤ n → (ins k).Hot := by
    rw [Streak.le_length_iff]
    simp only [Nat.lt_succ_iff]
  rw [overTempActionAt, (overTempStep_spec _ (ins n)).1, ← hstreak]
  refine and_congr_right fun hclear => ?_
  obtain ⟨hcount, -⟩ := overTempCtxAt_streak hclear
  rw [hcount]
  constructor
  · rintro ⟨hhot, hfull⟩
    rw [Streak.length_succ_of (p := fun k => (ins k).Hot) hhot]
    exact hfull
  · intro hfull
    by_cases hhot : (ins n).Hot
    · rw [Streak.length_succ_of (p := fun k => (ins k).Hot) hhot] at hfull
      exact ⟨hhot, hfull⟩
    · rw [Streak.length_succ_of_not (p := fun k => (ins k).Hot) hhot] at hfull
      exact absurd hfull (by decide)

end OverTemp

end OpenEVCharger
