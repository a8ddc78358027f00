import OpenEVCharger.Lib.Machine
import OpenEVCharger.Persist.BootRecords
import OpenEVCharger.Persist.Interrupted

/-!
# Counting crash restarts

The count of boots that ended in a crash is kept in the flash, raised or cleared by every
boot and cleared by the alive confirmation a minute later. The confirmation clears the
copy in RAM before it stores it, so that one that failed outside safe-fail mode is
answered by the next one without a store, while the flash still has the old count.
-/

namespace OpenEVCharger

open NorFlash (Mem)

/-! ## The unit -/

/-- The flash, and the copies in RAM. -/
structure CrashUnit where
  flash : Mem
  state : CrashState

/-- A boot or a confirmation, and how the writes it does end. A boot after a power loss,
which the reset cause does not take for a crash, finds what the loss has left of the write
it came into. -/
structure CrashInput where
  op : CrashOp
  outcomes : List WriteOutcome
  lost : Option Mem
  power_on : lost.isSome → op = .bootIncrement false

/-- A boot finds the static variables cleared. -/
def CrashOp.found (op : CrashOp) (s : CrashState) : CrashState :=
  match op with
  | .bootIncrement _ => crashStatePowerUp
  | .resetAlive => s

def crashCall (i : CrashInput) (σ : CrashUnit) : CrashStateResult :=
  crashStep i.op (i.op.found σ.state) ⟨i.lost.getD σ.flash, i.outcomes⟩

def crashMachine : Machine Mem CrashInput CrashUnit where
  boot flash := ⟨flash, crashStatePowerUp⟩
  step i σ := ⟨(crashCall i σ).chip.mem, (crashCall i σ).state⟩

def crashRun (flash : Mem) (ins : ℕ → CrashInput) (n : ℕ) : CrashUnit :=
  crashMachine.run flash ins n

/-- The count of the record in the flash, zero without one. -/
def crashCount (m : Mem) : ℕ := (CrashRecord.fastRestartCount (crashStateRead m).2).toNat

/-- The boots in a row that a crash has caused, since the last other one and the last
confirmation that returned zero, as far as the counter goes. -/
def nextRestarts (i : CrashInput) (σ : CrashUnit) (count : ℕ) : ℕ :=
  match i.op with
  | .bootIncrement true => min (count + 1) 255
  | .bootIncrement false => 0
  | .resetAlive => if (crashCall i σ).rc = 0 then 0 else count

def restarts (flash : Mem) (ins : ℕ → CrashInput) (n : ℕ) : ℕ :=
  crashMachine.history flash ins nextRestarts (crashCount flash) n

/-! ## What can go wrong -/

/-- A boot whose store succeeds. -/
def BootStored (i : CrashInput) : Prop :=
  match i.op with
  | .bootIncrement _ => AllDone i.outcomes
  | .resetAlive => True

/-- A write of the confirmation that times out leaves the record that a load finds. -/
def FailureKeepsRecord (i : CrashInput) (σ : CrashUnit) : Prop :=
  match i.op with
  | .bootIncrement _ => True
  | .resetAlive =>
    WritesTorn (fun _ _ left => crashStateRead left = crashStateRead σ.flash)
      (storeWrites crashStateSlotA crashStateSlotB
        ((CrashRecord.setVersion σ.state.cs).setFastRestartCount 0).bytes σ.flash)
      i.outcomes σ.flash

/-- The confirmation finds the copy cleared, and the flash not. -/
def ConfirmsUnstored (i : CrashInput) (σ : CrashUnit) : Prop :=
  i.op = .resetAlive ∧ CrashRecord.fastRestartCount σ.state.cs = 0 ∧ σ.state.safeFail = false ∧
    crashCount σ.flash ≠ 0

/-! ## One call -/

variable {i : CrashInput} {σ : CrashUnit} {count : ℕ} {m : Mem} {s : CrashState} {d : W25q}

theorem fastRestartCount_setVersion (r : CrashRecord) :
    (CrashRecord.setVersion r).fastRestartCount = r.fastRestartCount :=
  Packed.byteAt_set_other (.inr (by decide)) r

theorem fastRestartCount_set (n : UInt8) (r : CrashRecord) :
    (CrashRecord.setFastRestartCount n r).fastRestartCount = n :=
  Packed.byteAt_setByte (by decide) r

theorem fastRestartCount_store (r : CrashRecord) (d : W25q) :
    CrashRecord.fastRestartCount (crashStateStore r d).record = r.fastRestartCount :=
  getD_packedStore (.inr (by decide)) (by decide)

/-- After a store that succeeds the flash has the count stored. -/
theorem crashCount_store {r : CrashRecord} (hrc : (crashStateStore r d).rc = 0) :
    crashCount (crashStateStore r d).chip.mem = r.fastRestartCount.toNat := by
  have hread : crashStateRead (crashStateStore r d).chip.mem = (0, (crashStateStore r d).record) :=
    packedRead_store slotPair_crashState rfl hrc
  rw [crashCount, hread, fastRestartCount_store]

theorem crashStateRead_cases (m : Mem) :
    (∃ r, crashStateRead m = (0, r)) ∨ crashStateRead m = (1, .zero 32) := by
  have hsplit : ∀ x : Int × CrashRecord, x.1 = 0 ∨ x = (1, .zero 32) →
      (∃ r, x = (0, r)) ∨ x = (1, .zero 32) := by
    intro x hx
    rcases hx with hfound | hnone
    · exact .inl ⟨x.2, Prod.ext hfound rfl⟩
    · exact .inr hnone
  exact hsplit _ (packedRead_cases rfl m)

/-- The count of a restart, up to what the counter holds. -/
theorem countRestart_count (wasCrash : Bool) (r : CrashRecord) :
    (countRestart wasCrash r).fastRestartCount.toNat =
      if wasCrash then min (r.fastRestartCount.toNat + 1) 255 else 0 := by
  cases wasCrash with
  | false =>
    rw [countRestart, if_neg nofun, if_neg nofun, fastRestartCount_set]
    rfl
  | true =>
    rw [countRestart, if_pos rfl, if_pos rfl]
    have hlt := r.fastRestartCount.toNat_lt
    split
    · next hroom =>
      have hroom' : r.fastRestartCount.toNat < 255 := UInt8.lt_iff_toNat_lt.mp hroom
      rw [fastRestartCount_set, UInt8.toNat_add]
      show (r.fastRestartCount.toNat + 1) % 256 = _
      omega
    · next hfull =>
      have hfull' : ¬ r.fastRestartCount.toNat < 255 := fun h => hfull (UInt8.lt_iff_toNat_lt.mpr h)
      omega

/-- A boot stores the next count of the one it finds. -/
theorem crashStateBootIncrement_eq (wasCrash : Bool) (s : CrashState) (d : W25q) :
    ∃ r : CrashRecord, r.fastRestartCount.toNat =
        (if wasCrash then min (crashCount d.mem + 1) 255 else 0) ∧
      (crashStateBootIncrement wasCrash s d).chip = (crashStateStore r d).chip ∧
      (crashStateBootIncrement wasCrash s d).state.safeFail =
        decide (crashLoopThreshold ≤ r.fastRestartCount) := by
  have hstored : ∀ r, ((countRestart wasCrash r).setVersion).fastRestartCount =
      (countRestart wasCrash r).fastRestartCount := fun r => fastRestartCount_setVersion _
  rw [crashStateBootIncrement, crashCount]
  rcases crashStateRead_cases d.mem with ⟨r, hread⟩ | hread
  · refine ⟨(countRestart wasCrash r).setVersion, ?_⟩
    rw [hread, hstored]
    exact ⟨countRestart_count wasCrash r, rfl, rfl⟩
  · refine ⟨(countRestart wasCrash
      ((CrashRecord.setVersion (.zero 32)).setFastRestartCount 0)).setVersion, ?_⟩
    rw [hread, hstored, countRestart_count, fastRestartCount_set]
    exact ⟨rfl, rfl, rfl⟩

theorem pingpongSizeOk_record (r : CrashRecord) : pingpongSizeOk r.bytes.length = true := by
  rw [r.size]
  rfl

/-- A boot whose store succeeds leaves the next count in the flash, and enters safe-fail
mode when it has reached the threshold. -/
theorem boot_count {wasCrash : Bool} (hdone : AllDone d.outcomes) :
    crashCount (crashStateBootIncrement wasCrash s d).chip.mem =
        (if wasCrash then min (crashCount d.mem + 1) 255 else 0) ∧
      ((crashStateBootIncrement wasCrash s d).state.safeFail = true ↔
        5 ≤ crashCount (crashStateBootIncrement wasCrash s d).chip.mem) := by
  obtain ⟨r, hcount, hchip, hsafe⟩ := crashStateBootIncrement_eq wasCrash s d
  have hrc : (crashStateStore r d).rc = 0 :=
    (pingpongStore_done slotPair_crashState (pingpongSizeOk_record r) hdone).1
  rw [hchip, hsafe, crashCount_store hrc, decide_eq_true_iff, UInt8.le_iff_toNat_le]
  exact ⟨hcount, Iff.rfl⟩

/-- The result of a confirmation that stores. -/
def aliveResult (safeFail : Bool) (st : PackedStored 32) : CrashStateResult :=
  if st.rc < 0 then ⟨st.rc, ⟨st.record, safeFail⟩, st.chip⟩
  else ⟨0, ⟨st.record, false⟩, st.chip⟩

theorem aliveResult_chip (safeFail : Bool) (st : PackedStored 32) :
    (aliveResult safeFail st).chip = st.chip := by
  rw [aliveResult]
  split
  · rfl
  · rfl

theorem aliveResult_rc (safeFail : Bool) {st : PackedStored 32} (hrc : st.rc = 0 ∨ st.rc < 0) :
    (aliveResult safeFail st).rc = st.rc := by
  rw [aliveResult]
  split
  · rfl
  · next hneg => exact (hrc.resolve_right hneg).symm

/-- The record that a confirmation stores. -/
def aliveRecord (s : CrashState) : CrashRecord :=
  (CrashRecord.setVersion s.cs).setFastRestartCount 0

theorem resetAlive_cleared
    (h : CrashRecord.fastRestartCount s.cs = 0 ∧ s.safeFail = false) :
    crashStateResetAlive s d = ⟨0, s, d⟩ := by
  rw [crashStateResetAlive, if_pos h]

theorem resetAlive_stores
    (h : ¬ (CrashRecord.fastRestartCount s.cs = 0 ∧ s.safeFail = false)) :
    crashStateResetAlive s d = aliveResult s.safeFail (crashStateStore (aliveRecord s) d) := by
  rw [crashStateResetAlive, if_neg h, aliveResult, aliveRecord]

/-- After a store that fails, a load finds what it found before. -/
theorem crashCount_storeFailed {r : CrashRecord} (hrc : (crashStateStore r d).rc ≠ 0)
    (htorn : WritesTorn (fun _ _ left => crashStateRead left = crashStateRead d.mem)
      (storeWrites crashStateSlotA crashStateSlotB r.bytes d.mem) d.outcomes d.mem) :
    crashCount (crashStateStore r d).chip.mem = crashCount d.mem := by
  obtain ⟨_, _, hleft⟩ := pingpongStore_failed slotPair_crashState (pingpongSizeOk_record r)
    htorn hrc
  have hread : crashStateRead (crashStateStore r d).chip.mem = crashStateRead d.mem := hleft
  rw [crashCount, crashCount, hread]

/-- A confirmation that returns zero has cleared the count in the flash, unless it found
the copy cleared; one that fails leaves it. -/
theorem resetAlive_count
    (htorn : WritesTorn (fun _ _ left => crashStateRead left = crashStateRead d.mem)
      (storeWrites crashStateSlotA crashStateSlotB
        ((CrashRecord.setVersion s.cs).setFastRestartCount 0).bytes d.mem) d.outcomes d.mem) :
    crashCount (crashStateResetAlive s d).chip.mem =
        (if (crashStateResetAlive s d).rc = 0 then 0 else crashCount d.mem) ↔
      ¬ (CrashRecord.fastRestartCount s.cs = 0 ∧ s.safeFail = false ∧ crashCount d.mem ≠ 0) := by
  by_cases hcleared : CrashRecord.fastRestartCount s.cs = 0 ∧ s.safeFail = false
  · rw [resetAlive_cleared hcleared, if_pos rfl]
    constructor
    · rintro hzero ⟨_, _, hne⟩
      exact hne hzero
    · intro h
      by_contra hne
      exact h ⟨hcleared.1, hcleared.2, hne⟩
  · refine iff_of_true ?_ fun h => hcleared ⟨h.1, h.2.1⟩
    have hzero : (aliveRecord s).fastRestartCount = 0 := fastRestartCount_set _ _
    have hrc : (crashStateStore (aliveRecord s) d).rc = 0 ∨ (crashStateStore (aliveRecord s) d).rc < 0 :=
      packedStore_rc
    rw [resetAlive_stores hcleared, aliveResult_chip, aliveResult_rc _ hrc]
    by_cases hok : (crashStateStore (aliveRecord s) d).rc = 0
    · rw [if_pos hok, crashCount_store hok, hzero]
      rfl
    · rw [if_neg hok, crashCount_storeFailed hok htorn]

/-! ## Runs -/

variable {flash : Mem} {ins : ℕ → CrashInput} {n k : ℕ}

theorem crashCall_boot {wasCrash : Bool} {outcomes : List WriteOutcome} {lost : Option Mem}
    {h : lost.isSome → CrashOp.bootIncrement wasCrash = .bootIncrement false} :
    crashCall ⟨.bootIncrement wasCrash, outcomes, lost, h⟩ σ =
      crashStateBootIncrement wasCrash crashStatePowerUp ⟨lost.getD σ.flash, outcomes⟩ := rfl

theorem crashCall_alive {outcomes : List WriteOutcome}
    {h : Option.isSome (α := Mem) none → CrashOp.resetAlive = .bootIncrement false} :
    crashCall ⟨.resetAlive, outcomes, none, h⟩ σ =
      crashStateResetAlive σ.state ⟨σ.flash, outcomes⟩ := rfl

/-- The count that a boot leaves does not depend on what a power loss before it has left. -/
theorem boot_restarts {wasCrash : Bool} {lost : Option Mem}
    (h : lost.isSome → CrashOp.bootIncrement wasCrash = .bootIncrement false) :
    (if wasCrash then min (crashCount (lost.getD m) + 1) 255 else 0) =
      if wasCrash then min (crashCount m + 1) 255 else 0 := by
  cases lost with
  | none => rfl
  | some left =>
    have hpower := CrashOp.bootIncrement.inj (h rfl)
    rw [hpower, if_neg nofun, if_neg nofun]

theorem nextRestarts_boot {wasCrash : Bool} {outcomes : List WriteOutcome} {lost : Option Mem}
    {h : lost.isSome → CrashOp.bootIncrement wasCrash = .bootIncrement false} :
    nextRestarts ⟨.bootIncrement wasCrash, outcomes, lost, h⟩ σ count =
      if wasCrash then min (count + 1) 255 else 0 := by
  cases wasCrash with
  | false => rfl
  | true => rfl

/-- A call keeps the count right exactly when it does not confirm what is not stored. -/
theorem crashCall_count (hboot : BootStored i) (hfail : FailureKeepsRecord i σ) :
    crashCount (crashCall i σ).chip.mem = nextRestarts i σ (crashCount σ.flash) ↔
      ¬ ConfirmsUnstored i σ := by
  obtain ⟨op, outcomes, lost, hpower⟩ := i
  cases op with
  | bootIncrement wasCrash =>
    refine iff_of_true ?_ fun h => nomatch h.1
    have hdone : AllDone outcomes := hboot
    rw [crashCall_boot, (boot_count (d := ⟨_, outcomes⟩) hdone).1, boot_restarts hpower,
      nextRestarts_boot]
  | resetAlive =>
    cases lost with
    | some left => exact nomatch hpower rfl
    | none =>
      rw [ConfirmsUnstored, and_iff_right rfl, nextRestarts, crashCall_alive]
      exact resetAlive_count hfail

theorem crashRun_zero : (crashRun flash ins 0).flash = flash := rfl

theorem restarts_zero : restarts flash ins 0 = crashCount flash := by
  rw [restarts, Machine.history]

theorem crashRun_flash :
    (crashRun flash ins (k + 1)).flash = (crashCall (ins k) (crashRun flash ins k)).chip.mem := rfl

theorem crashRun_state :
    (crashRun flash ins (k + 1)).state = (crashCall (ins k) (crashRun flash ins k)).state := rfl

theorem restarts_succ :
    restarts flash ins (k + 1) =
      nextRestarts (ins k) (crashRun flash ins k) (restarts flash ins k) := rfl

/-- The count in the flash is right after every call, and safe-fail mode is entered by
the boots that bring it to the threshold, exactly when no confirmation finds the copy
cleared and the flash not. -/
theorem crash_restarts_counted (flash : Mem) (ins : ℕ → CrashInput) (n : ℕ)
    (hboots : ∀ k < n, BootStored (ins k))
    (hfails : ∀ k < n, FailureKeepsRecord (ins k) (crashRun flash ins k)) :
    ((∀ k ≤ n, crashCount (crashRun flash ins k).flash = restarts flash ins k) ∧
      ∀ k < n, ∀ wasCrash, (ins k).op = .bootIncrement wasCrash →
        ((crashRun flash ins (k + 1)).state.safeFail = true ↔ 5 ≤ restarts flash ins (k + 1))) ↔
      ∀ k < n, ¬ ConfirmsUnstored (ins k) (crashRun flash ins k) := by
  have hstep : ∀ k < n, crashCount (crashRun flash ins k).flash = restarts flash ins k →
      (crashCount (crashRun flash ins (k + 1)).flash = restarts flash ins (k + 1) ↔
        ¬ ConfirmsUnstored (ins k) (crashRun flash ins k)) := by
    intro k hk hcount
    have hcall := crashCall_count (hboots k hk) (hfails k hk)
    rw [hcount] at hcall
    rw [crashRun_flash, restarts_succ]
    exact hcall
  constructor
  · rintro ⟨hcounts, _⟩ k hk
    exact (hstep k hk (hcounts k (Nat.le_of_lt hk))).mp (hcounts (k + 1) hk)
  · intro h
    have hcounts : ∀ k ≤ n, crashCount (crashRun flash ins k).flash = restarts flash ins k := by
      intro k
      induction k with
      | zero =>
        intro _
        rw [crashRun_zero, restarts_zero]
      | succ k ih => exact fun hk => (hstep k hk (ih (Nat.le_of_lt hk))).mpr (h k hk)
    refine ⟨hcounts, fun k hk wasCrash hop => ?_⟩
    rw [← hcounts (k + 1) hk, crashRun_flash, crashRun_state]
    have hdone := hboots k hk
    generalize ins k = i at hop hdone ⊢
    obtain ⟨op, outcomes, lost, hpower⟩ := i
    cases hop
    have hdone : AllDone outcomes := hdone
    rw [crashCall_boot]
    exact (boot_count (d := ⟨_, outcomes⟩) hdone).2

/-! ## A confirmation that is lost -/

def blankCrashChip : Mem := fun _ => NorFlash.blank

/-- A boot after a crash, and a confirmation. -/
def crashThenAlive (k : ℕ) : CrashInput :=
  ⟨if k = 0 then .bootIncrement true else .resetAlive, [], none, nofun⟩

theorem crash_restarts_counted_once :
    crashCount (crashRun blankCrashChip crashThenAlive 1).flash =
      restarts blankCrashChip crashThenAlive 1 := by
  refine ((crash_restarts_counted blankCrashChip crashThenAlive 1 ?_ ?_).mpr ?_).1 1 (Nat.le_refl 1)
  · intro k hk
    cases Nat.lt_one_iff.mp hk
    nofun
  · intro k hk
    cases Nat.lt_one_iff.mp hk
    trivial
  · intro k hk
    cases Nat.lt_one_iff.mp hk
    exact fun h => nomatch h.1

/-- The erase of the first confirmation times out; the second one returns zero. -/
def aliveTwice (k : ℕ) : CrashInput :=
  ⟨if k = 0 then .bootIncrement true else .resetAlive,
    if k = 1 then [.timeout blankCrashChip] else [], none, nofun⟩

/-- The second confirmation returns zero, and the flash still counts the crash. -/
theorem alive_not_stored :
    (crashCall (aliveTwice 1) (crashRun blankCrashChip aliveTwice 1)).rc = -2 ∧
      (crashCall (aliveTwice 2) (crashRun blankCrashChip aliveTwice 2)).rc = 0 ∧
      crashCount (crashRun blankCrashChip aliveTwice 3).flash = 1 ∧
      restarts blankCrashChip aliveTwice 3 = 0 := by
  refine ⟨?_, ?_, ?_, ?_⟩
  · decide +kernel
  · decide +kernel
  · decide +kernel
  · decide +kernel

end OpenEVCharger
