import OpenEVCharger.Safety.Contactor

/-!
# User pauses

A pause is one value of the EVSE state and nothing else, so what moves the EVSE
out of USER_PAUSED forgets it. FAULT is harmless, because only a fault clear
leaves it. Two moves nobody asked for are not: a thermal trip, whose cool-down
ends in READY, and the end of a replug window the pause was made in.
-/

namespace OpenEVCharger

open Interlock (Detected)

/-- The requests that may end a pause. -/
def releasesPause : SafetyReq → Prop
  | .userResume => True
  | .simulateReplug => True
  | .clearFault _ => True
  | _ => False

/-- The tick processes a `USER_PAUSE` that puts the EVSE into USER_PAUSED, and
then the requests `post`. -/
def PauseAccepted (i : TickInput) (σ : System) (post : List SafetyReq) : Prop :=
  ∃ pre reason, received i σ = pre ++ .userPause reason :: post ∧
    let s := pre.foldl (fun s r => processRequest i r s) (σ.atTick i).task
    s.evse = .ready ∨ s.evse = .charging

/-- The tick takes the EVSE out of USER_PAUSED without having been asked: a replug
window ends, or the over-temperature detector trips. -/
def ReleasesItself (fl : BuildFlags) (i : TickInput) (σ : System) : Prop :=
  ((drainInbox i σ).task.evse = .userPaused ∧ (drainInbox i σ).task.replugWindowTicks = 1) ∨
    ((beforeOverTemp fl i σ).evse = .userPaused ∧
      (overTempAction fl i (beforeOverTemp fl i σ)).trip = true)

instance (fl : BuildFlags) (i : TickInput) (σ : System) : Decidable (ReleasesItself fl i σ) := by
  unfold ReleasesItself
  infer_instance

/-! ## Paused or in FAULT -/

/-- A paused session stays in USER_PAUSED or sits in FAULT. -/
def PausedOrFault (c : Interlock) : Prop := c.evse = .userPaused ∨ c.evse = .fault

theorem PausedOrFault.detected {c c' : Interlock} (h : PausedOrFault c) (hd : Detected c c') :
    PausedOrFault c' := by
  rcases hd.frame.tripped_or_same with hf | rfl
  · exact .inr hf
  · exact h

theorem PausedOrFault.serviceWindow {c : Interlock} (h : PausedOrFault c)
    (hw : ¬ (c.evse = .userPaused ∧ c.window = 1)) : PausedOrFault c.serviceWindow := by
  unfold Interlock.serviceWindow
  split
  · exact h
  · split
    · next h1 =>
      -- the window ends in FAULT, where there is nothing to resume
      have hf : c.evse = .fault := h.resolve_left fun hp => hw ⟨hp, h1⟩
      right
      simp [Interlock.resume, hf]
    · exact h

theorem PausedOrFault.update {c : Interlock} (h : PausedOrFault c) (hA : c.cp.committed ≠ .A)
    (d : Nat) (g : Bool) : PausedOrFault (c.update d g) := by
  unfold Interlock.update
  rcases h with hp | hf
  · left
    simp [hp, hA, Interlock.dropAuth]
  · right
    simp [hf]

/-- A request that is no release leaves a paused session alone. -/
theorem PausedOrFault.request {c c' : Interlock} {ticks : Nat} {r : SafetyReq}
    (h : PausedOrFault c) (hr : Interlock.Request ticks c r c') (hq : ¬ releasesPause r) :
    PausedOrFault c' := by
  cases hr with
  | clearRefused fid => exact h
  | clear fid latched _ _ => exact absurd trivial hq
  | userPause _ =>
    have hno : ¬ (c.evse = .ready ∨ c.evse = .charging) := by
      rcases h with hp | hf
      · simp [hp]
      · simp [hf]
    unfold Interlock.pause
    rw [if_neg hno]
    exact h
  | userResume => exact absurd trivial hq
  | simulateReplug => exact absurd trivial hq
  | _ => exact h

theorem pausedOrFault_foldl {i : TickInput} (reqs : List SafetyReq) {s : SafetyTask}
    (hreq : ∀ q ∈ reqs, ¬ releasesPause q) (h : PausedOrFault (view s)) :
    PausedOrFault (view (reqs.foldl (fun s r => processRequest i r s) s)) := by
  induction reqs generalizing s with
  | nil => exact h
  | cons r reqs ih =>
    have hr : PausedOrFault (view (processRequest i r s)) :=
      h.request (request_processRequest i r s) (hreq r (List.mem_cons_self ..))
    exact ih (fun q hq => hreq q (List.mem_cons_of_mem _ hq)) hr

/-! ## One tick -/

theorem pausedOrFault_drain {i : TickInput} {σ : System}
    (hreq : ∀ q ∈ received i σ, ¬ releasesPause q) (h : PausedOrFault (view σ.task)) :
    PausedOrFault (view (drainInbox i σ).task) := by
  rw [drainInbox_task]
  exact pausedOrFault_foldl (received i σ) hreq h

theorem pausedOrFault_accepted {i : TickInput} {σ : System} {post : List SafetyReq}
    (hpause : PauseAccepted i σ post) (hpost : ∀ q ∈ post, ¬ releasesPause q) :
    PausedOrFault (view (drainInbox i σ).task) := by
  obtain ⟨pre, reason, hrec, hidle⟩ := hpause
  rw [drainInbox_task, hrec, List.foldl_append, List.foldl_cons]
  refine pausedOrFault_foldl post hpost (.inl ?_)
  generalize pre.foldl (fun s r => processRequest i r s) (σ.atTick i).task = s at hidle
  have hidle' : (view s).evse = .ready ∨ (view s).evse = .charging := hidle
  rw [processRequest, view_processUserPause]
  unfold Interlock.pause
  rw [if_pos hidle']
  exact Interlock.move_evse _

/-- From the inbox on, a tick that does not release itself and reads no state A
leaves a paused session alone. -/
theorem pausedOrFault_tick {fl : BuildFlags} {i : TickInput} {σ : System}
    (hself : ¬ ReleasesItself fl i σ) (hA : (tick fl i σ).task.cp.committed ≠ .A)
    (h : PausedOrFault (view (drainInbox i σ).task)) :
    PausedOrFault (view (afterUpdate fl i σ)) ∧ PausedOrFault (view (tick fl i σ).task) := by
  have hpilot : PausedOrFault (view (beforeDetectors i σ)) := by
    rw [view_beforeDetectors]
    exact h.serviceWindow fun hw => hself (.inl hw)
  have hover : PausedOrFault (view (beforeOverTemp fl i σ)) :=
    hpilot.detected (detected_beforeOverTemp fl i σ)
  have hbefore : PausedOrFault (view (beforeUpdate fl i σ)) := by
    have hcheck := overTemp_beforeUpdate fl i σ
    have hne : (beforeOverTemp fl i σ).evse ≠ .coolingDown := by
      intro he
      rcases hover with hp | hf
      · exact absurd (hp.symm.trans he) (by decide)
      · exact absurd (hf.symm.trans he) (by decide)
    rcases hcheck.frame.moves with he | he | ⟨he, _⟩
    · unfold PausedOrFault
      rw [he]
      exact hover
    · rcases hover with hp | hf
      · exact absurd (.inr ⟨hp, overTempAction_trip hne he⟩) hself
      · exact .inr (Interlock.overTemp_of_fault hcheck hf)
    · exact absurd he hne
  have hafter : PausedOrFault (view (afterUpdate fl i σ)) := by
    rw [view_afterUpdate]
    refine hbefore.update ?_ _ _
    rw [committed_tick] at hA
    exact hA
  have hout : PausedOrFault (view (afterUpdate fl i σ)).outputs := hafter
  have hrfid : PausedOrFault (view (beforeRfid fl i σ).task) :=
    hout.detected (detected_beforeRfid fl i σ)
  refine ⟨hafter, ?_⟩
  unfold PausedOrFault
  rw [view_tick, Interlock.authorize_evse]
  exact hrfid

/-! ## Runs -/

/-- After an accepted pause the unit does not charge, in any run up to a release,
a reading of state A or a tick that releases itself. -/
theorem pause_holds (fl : BuildFlags) (b : BootInput) (ins : ℕ → TickInput) {m n : ℕ}
    (hmn : m ≤ n) (post : List SafetyReq)
    (hpause : PauseAccepted (ins m) (safetyRun fl b ins m) post)
    (hpost : ∀ q ∈ post, ¬ releasesPause q)
    (hreq : ∀ k, m < k → k ≤ n → ∀ q ∈ received (ins k) (safetyRun fl b ins k),
      ¬ releasesPause q)
    (hplug : ∀ k, m ≤ k → k ≤ n → (safetyRun fl b ins (k + 1)).task.cp.committed ≠ .A)
    (hself : ∀ k, m ≤ k → k ≤ n → ¬ ReleasesItself fl (ins k) (safetyRun fl b ins k)) :
    (afterUpdate fl (ins n) (safetyRun fl b ins n)).evse ≠ .charging ∧
      (safetyRun fl b ins (n + 1)).task.evse ≠ .charging := by
  have hrest : ∀ c : Interlock, PausedOrFault c → c.evse ≠ .charging := by
    intro c h he
    rcases h with hp | hf
    · exact absurd (hp.symm.trans he) (by decide)
    · exact absurd (hf.symm.trans he) (by decide)
  -- a tick ends paused if its inbox does
  have htick : ∀ k, m ≤ k → k ≤ n →
      PausedOrFault (view (drainInbox (ins k) (safetyRun fl b ins k)).task) →
      PausedOrFault (view (afterUpdate fl (ins k) (safetyRun fl b ins k))) ∧
        PausedOrFault (view (safetyRun fl b ins (k + 1)).task) :=
    fun k hmk hkn h => pausedOrFault_tick (hself k hmk hkn) (hplug k hmk hkn) h
  have hfirst : PausedOrFault (view (drainInbox (ins m) (safetyRun fl b ins m)).task) :=
    pausedOrFault_accepted hpause hpost
  have hlast : PausedOrFault (view (drainInbox (ins n) (safetyRun fl b ins n)).task) := by
    rcases Nat.eq_or_lt_of_le hmn with rfl | hlt
    · exact hfirst
    · have hkept : PausedOrFault (view (safetyRun fl b ins n).task) :=
        Machine.kept_between (P := fun σ : System => PausedOrFault (view σ.task)) hlt
          (fun k hmk hkn h => (htick k (Nat.le_of_succ_le hmk) (Nat.le_of_lt hkn)
            (pausedOrFault_drain (hreq k hmk (Nat.le_of_lt hkn)) h)).2)
          (htick m (Nat.le_refl m) hmn hfirst).2
      exact pausedOrFault_drain (hreq n hlt (Nat.le_refl n)) hkept
  obtain ⟨hafter, hend⟩ := htick n hmn (Nat.le_refl n) hlast
  exact ⟨hrest _ hafter, hrest _ hend⟩

set_option maxRecDepth 4000 in
/-- A car that would charge after tick 49 is paused in the first tick. -/
theorem pause_holds_first :
    let ins := fun k => quietTick 6000 2000 (if k = 0 then [.userPause 0] else [])
    (safetyRun defaultFlags (quietBoot 6000) ins 52).task.evse ≠ .charging := by
  intro ins
  have hpause : PauseAccepted (ins 0) (safetyRun defaultFlags (quietBoot 6000) ins 0) [] :=
    ⟨[], 0, by decide +kernel, by decide +kernel⟩
  have hreq : ∀ k ≤ 51, 0 < k →
      received (ins k) (safetyRun defaultFlags (quietBoot 6000) ins k) = [] := by decide +kernel
  have hplug : ∀ k ≤ 51, (safetyRun defaultFlags (quietBoot 6000) ins (k + 1)).task.cp.committed
      ≠ .A := by decide +kernel
  have hself : ∀ k ≤ 51,
      ¬ ReleasesItself defaultFlags (ins k) (safetyRun defaultFlags (quietBoot 6000) ins k) := by
    decide +kernel
  refine (pause_holds defaultFlags (quietBoot 6000) ins (m := 0) (n := 51) (by decide) [] hpause
    (fun q hq => absurd hq List.not_mem_nil) (fun k hk hkn q hq => ?_)
    (fun k _ hk => hplug k hk) (fun k _ hk => hself k hk)).2
  rw [hreq k hkn hk] at hq
  exact absurd hq List.not_mem_nil

/-- A car with a hot plug is paused, and then the plug cools. -/
def pausedHotRun (k : ℕ) : TickInput :=
  if k = 0 then quietTick 6000 350 [.userPause 0]
  else if k < 5 then quietTick 6000 350 []
  else quietTick 6000 2000 []

set_option maxRecDepth 4000 in
/-- The cool-down ends in READY, and the paused session charges. -/
theorem pause_forgotten_after_cool_down :
    PauseAccepted (pausedHotRun 0) (safetyRun defaultFlags (quietBoot 6000) pausedHotRun 0) [] ∧
      (∀ k, 0 < k → k ≤ 54 →
        received (pausedHotRun k) (safetyRun defaultFlags (quietBoot 6000) pausedHotRun k) = []) ∧
      (∀ k ≤ 54, (safetyRun defaultFlags (quietBoot 6000) pausedHotRun (k + 1)).task.cp.committed
        ≠ .A) ∧
      (safetyRun defaultFlags (quietBoot 6000) pausedHotRun 1).task.evse = .userPaused ∧
      (safetyRun defaultFlags (quietBoot 6000) pausedHotRun 55).task.evse = .charging := by
  have hreq : ∀ k ≤ 54, 0 < k →
      received (pausedHotRun k) (safetyRun defaultFlags (quietBoot 6000) pausedHotRun k) = [] := by
    decide +kernel
  refine ⟨⟨[], 0, by decide +kernel, by decide +kernel⟩, fun k hk hkn => hreq k hkn hk, ?_, ?_, ?_⟩
  · decide +kernel
  · decide +kernel
  · decide +kernel

end OpenEVCharger
