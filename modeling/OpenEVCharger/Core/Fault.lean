import Mathlib.Data.BitVec

/-!
# Fault catalogue

The fault bitmap of `core/fault.c`: one bit per fault id, latched ids below
`faultFirstSelfClearing` and self-clearing ids from it on. The functions take
plain ids, as the C functions do, because `CLEAR_FAULT` hands them a number
from the wire.
-/

namespace OpenEVCharger

/-- `fault_id_t`. -/
inductive FaultId where
  | none
  | gfci
  | relayWeld
  | relayStuckOpen
  | peContinuity
  | cpNoPilot
  | diodeCheck
  | bootSelfTest
  | gfciSelfTest
  | relayWeldAtBoot
  | relayOpenAtBoot
  | adcOutOfRange
  | hardOverCurrent
  | crashLoopSafeFail
  | overTemp
  | softOverCurrent
  | ccOutOfRange
  | acAbsent
  | cpRegression
  deriving DecidableEq, Repr

/-- The numeric value of a fault id, which is also its bit index. -/
def FaultId.code : FaultId → Nat
  | .none => 0
  | .gfci => 1
  | .relayWeld => 2
  | .relayStuckOpen => 3
  | .peContinuity => 4
  | .cpNoPilot => 5
  | .diodeCheck => 6
  | .bootSelfTest => 7
  | .gfciSelfTest => 8
  | .relayWeldAtBoot => 9
  | .relayOpenAtBoot => 10
  | .adcOutOfRange => 11
  | .hardOverCurrent => 12
  | .crashLoopSafeFail => 13
  | .overTemp => 16
  | .softOverCurrent => 17
  | .ccOutOfRange => 18
  | .acAbsent => 19
  | .cpRegression => 20

instance : Coe FaultId Nat := ⟨FaultId.code⟩

abbrev faultCount : Nat := 21

abbrev faultFirstSelfClearing : Nat := FaultId.overTemp.code

/-- `fault_state_t`. -/
structure FaultState where
  activeBits : BitVec 32
  /-- First fault that drove the EVSE into FAULT, `0` when there is none. -/
  firstRaised : Nat
  deriving DecidableEq, Repr

/-- `FID_OK`. -/
def fidOk (id : Nat) : Bool := decide (0 < id) && decide (id < faultCount)

def faultInit : FaultState := ⟨0#32, FaultId.none⟩

def faultIsLatchedKind (id : Nat) : Bool :=
  fidOk id && decide (id < faultFirstSelfClearing)

def faultIsActive (s : FaultState) (id : Nat) : Bool :=
  fidOk id && s.activeBits.getLsbD id

/-- The mask `fault_any_latched_active` builds: bits `1` to `15`. -/
def latchedMask : BitVec 32 :=
  (List.range' 1 (faultFirstSelfClearing - 1)).foldl (fun mask i => mask ||| (1#32 <<< i)) 0#32

def faultAnyLatchedActive (s : FaultState) : Bool :=
  s.activeBits &&& latchedMask != 0#32

/-- Returns `1` on a new raise, `0` when the bit was set, `-1` on a bad id. -/
def faultRaise (s : FaultState) (id : Nat) : Int × FaultState :=
  if !fidOk id then (-1, s)
  else if s.activeBits.getLsbD id then (0, s)
  else
    (1, { activeBits := s.activeBits ||| (1#32 <<< id)
          firstRaised := if s.firstRaised = FaultId.none.code then id else s.firstRaised })

/-- The lowest active fault id, the scan both clear functions end with. -/
def lowestActive (bits : BitVec 32) : Nat :=
  ((List.range' 1 (faultCount - 1)).find? (fun i => bits.getLsbD i)).getD FaultId.none.code

/-- Returns `1` when the bit was cleared, `0` when it was clear already, `-1`
on a bad id and on GFCI, which only a power cycle clears. -/
def faultClear (s : FaultState) (id : Nat) : Int × FaultState :=
  if !fidOk id then (-1, s)
  else if id = FaultId.gfci.code then (-1, s)
  else if !s.activeBits.getLsbD id then (0, s)
  else
    let bits := s.activeBits &&& ~~~(1#32 <<< id)
    (1, { activeBits := bits
          firstRaised := if s.firstRaised = id then lowestActive bits else s.firstRaised })

/-- One iteration of the loop of `fault_clear_all_clearable`. -/
def clearClearable (acc : Nat × BitVec 32) (i : Nat) : Nat × BitVec 32 :=
  if i = FaultId.gfci.code then acc
  else if acc.2.getLsbD i then (acc.1 + 1, acc.2 &&& ~~~(1#32 <<< i))
  else acc

/-- Clears every latched fault except GFCI and returns how many it cleared. -/
def faultClearAllClearable (s : FaultState) : Nat × FaultState :=
  let r := (List.range' 1 (faultFirstSelfClearing - 1)).foldl clearClearable (0, s.activeBits)
  (r.1, { activeBits := r.2, firstRaised := lowestActive r.2 })

/-! ## Which bits are active -/

theorem faultIsActive_init (id : Nat) : faultIsActive faultInit id = false := by
  simp [faultIsActive, faultInit]

theorem faultIsActive_lt {s : FaultState} {id : Nat} (h : faultIsActive s id = true) :
    0 < id ∧ id < faultCount := by
  simp only [faultIsActive, fidOk, Bool.and_eq_true, decide_eq_true_eq] at h
  exact h.1

theorem fidOk_iff {id : Nat} : fidOk id = true ↔ 0 < id ∧ id < 21 := by
  simp [fidOk, faultCount]

theorem getLsbD_one_shiftLeft {i j : Nat} (hj : j < 32) :
    (1#32 <<< i).getLsbD j = decide (i = j) := by
  rw [← BitVec.twoPow_eq, BitVec.getLsbD_twoPow]
  by_cases h : i = j <;> simp [h, hj]

theorem faultIsActive_raise (s : FaultState) {id : Nat} (hid : fidOk id = true) (j : Nat) :
    faultIsActive (faultRaise s id).2 j = (faultIsActive s j || decide (j = id)) := by
  by_cases hj : fidOk j = true
  · have hj' : j < 32 := by
      have := fidOk_iff.mp hj
      omega
    by_cases hb : s.activeBits.getLsbD id = true
    · by_cases hji : j = id
      · subst hji
        simp [faultRaise, faultIsActive, hid, hb]
      · simp [faultRaise, hid, hb, hji]
    · simp only [faultRaise, faultIsActive, hid, hb, hj, Bool.not_true, Bool.false_eq_true,
        if_false, BitVec.getLsbD_or, getLsbD_one_shiftLeft hj', Bool.true_and]
      by_cases hji : j = id
      · simp [hji]
      · simp [hji, Ne.symm hji]
  · have hji : j ≠ id := by
      rintro rfl
      exact hj hid
    simp [faultIsActive, hj, hji]

theorem faultIsActive_clear (s : FaultState) (id j : Nat) :
    faultIsActive (faultClear s id).2 j =
      (faultIsActive s j && !(decide (j = id) && decide (id ≠ FaultId.gfci.code))) := by
  by_cases hj : fidOk j = true
  · have hj' : j < 32 := by
      have := fidOk_iff.mp hj
      omega
    by_cases hid : fidOk id = true
    · by_cases hg : id = FaultId.gfci.code
      · simp [faultClear, hg]
      · by_cases hb : s.activeBits.getLsbD id = true
        · simp only [faultClear, faultIsActive, hid, hj, hg, hb, Bool.not_true,
            Bool.false_eq_true, if_false, BitVec.getLsbD_and, BitVec.getLsbD_not,
            getLsbD_one_shiftLeft hj', hj', decide_true, Bool.true_and, ne_eq, not_false_eq_true,
            Bool.and_true]
          by_cases hji : j = id
          · simp [hji]
          · simp [hji, Ne.symm hji]
        · have hsame : (faultClear s id).2 = s := by
            simp only [faultClear, hid, hg, hb, if_false, if_true, Bool.not_true, Bool.not_false,
              Bool.false_eq_true]
          rw [hsame]
          by_cases hji : j = id
          · subst hji
            simp [faultIsActive, hb]
          · simp [hji]
    · have hji : j ≠ id := by
        rintro rfl
        exact hid hj
      simp [faultClear, hid, hji]
  · simp [faultIsActive, hj]

theorem clearClearable_getLsbD (acc : Nat × BitVec 32) (i : Nat) {j : Nat} (hj : j < 32) :
    (clearClearable acc i).2.getLsbD j =
      (acc.2.getLsbD j && !(decide (j = i) && decide (i ≠ FaultId.gfci.code))) := by
  by_cases hg : i = FaultId.gfci.code
  · simp [clearClearable, hg]
  · by_cases hb : acc.2.getLsbD i = true
    · simp only [clearClearable, hg, hb, if_false, if_true, BitVec.getLsbD_and,
        BitVec.getLsbD_not, getLsbD_one_shiftLeft hj, hj, decide_true, Bool.true_and]
      by_cases hji : j = i
      · simp [hji, hg]
      · simp [hji, Ne.symm hji]
    · by_cases hji : j = i
      · subst hji
        simp [clearClearable, hg, hb]
      · simp [clearClearable, hg, hb, hji]

theorem foldl_clearClearable_getLsbD {j : Nat} (hj : j < 32) (is : List Nat) :
    ∀ acc : Nat × BitVec 32, (is.foldl clearClearable acc).2.getLsbD j =
      (acc.2.getLsbD j && !(decide (j ∈ is) && decide (j ≠ FaultId.gfci.code))) := by
  induction is with
  | nil => intro acc; simp
  | cons i is ih =>
    intro acc
    rw [List.foldl_cons, ih, clearClearable_getLsbD acc i hj]
    by_cases hji : j = i
    · subst hji
      by_cases hg : j = FaultId.gfci.code <;> simp [hg]
    · simp [hji]

/-- Only GFCI and the self-clearing bits survive a clear-all. -/
theorem faultIsActive_clearAll (s : FaultState) (j : Nat) :
    faultIsActive (faultClearAllClearable s).2 j =
      (faultIsActive s j && !(decide (j < faultFirstSelfClearing) &&
        decide (j ≠ FaultId.gfci.code))) := by
  by_cases hj : fidOk j = true
  · have hb : 0 < j ∧ j < 32 := by
      have := fidOk_iff.mp hj
      omega
    have hmem : j ∈ List.range' 1 (faultFirstSelfClearing - 1) ↔ j < faultFirstSelfClearing := by
      rw [List.mem_range'_1]
      simp only [faultFirstSelfClearing, FaultId.code]
      omega
    simp only [faultClearAllClearable, faultIsActive, hj, Bool.true_and,
      foldl_clearClearable_getLsbD hb.2, hmem]
  · simp [faultIsActive, hj]

theorem faultAnyLatchedActive_iff (s : FaultState) :
    faultAnyLatchedActive s = true ↔
      ∃ id, id < faultFirstSelfClearing ∧ faultIsActive s id = true := by
  have hmask : ∀ j : Nat, latchedMask.getLsbD j = (decide (0 < j) && decide (j < 16)) := by
    intro j
    rcases Nat.lt_or_ge j 32 with hj | hj
    · revert j
      decide
    · rw [BitVec.getLsbD_of_ge _ _ hj]
      have : ¬ j < 16 := by omega
      simp [this]
  simp only [faultAnyLatchedActive, bne_iff_ne, ne_eq]
  constructor
  · intro h
    by_contra hno
    apply h
    apply BitVec.eq_of_getLsbD_eq
    intro j hj
    simp only [BitVec.getLsbD_and, hmask, BitVec.getLsbD_zero]
    by_cases hj16 : 0 < j ∧ j < 16
    · have : faultIsActive s j ≠ true := fun ha => hno ⟨j, hj16.2, ha⟩
      have hok : fidOk j = true := fidOk_iff.mpr (by omega)
      simpa [faultIsActive, hok, hj16.1, hj16.2] using this
    · rcases Nat.eq_zero_or_pos j with h0 | h0
      · simp [h0]
      · have : ¬ j < 16 := fun hlt => hj16 ⟨h0, hlt⟩
        simp [this]
  · rintro ⟨id, hid, hact⟩ hz
    have hb := faultIsActive_lt hact
    have h1 : (s.activeBits &&& latchedMask).getLsbD id = false := by
      rw [hz]
      simp
    have hid' : id < 16 := hid
    simp only [faultIsActive, Bool.and_eq_true] at hact
    simp [BitVec.getLsbD_and, hmask, hact.2, hb.1, hid'] at h1

theorem faultAnyLatchedActive_of {s : FaultState} {id : Nat} (h : id < faultFirstSelfClearing)
    (ha : faultIsActive s id = true) : faultAnyLatchedActive s = true :=
  (faultAnyLatchedActive_iff s).mpr ⟨id, h, ha⟩

theorem not_faultAnyLatchedActive_init : faultAnyLatchedActive faultInit = false := by
  decide

/-- Two fault sets with the same latched bits agree on whether one is active. -/
theorem faultAnyLatchedActive_congr {s t : FaultState}
    (h : ∀ id < faultFirstSelfClearing, faultIsActive t id = faultIsActive s id) :
    faultAnyLatchedActive t = faultAnyLatchedActive s := by
  rw [Bool.eq_iff_iff, faultAnyLatchedActive_iff, faultAnyLatchedActive_iff]
  constructor
  · rintro ⟨id, hid, hact⟩
    exact ⟨id, hid, (h id hid) ▸ hact⟩
  · rintro ⟨id, hid, hact⟩
    exact ⟨id, hid, (h id hid).symm ▸ hact⟩

/-- Removing bits never makes a latched fault active. -/
theorem faultAnyLatchedActive_of_subset {s t : FaultState}
    (h : ∀ id, faultIsActive t id = true → faultIsActive s id = true)
    (ht : faultAnyLatchedActive t = true) : faultAnyLatchedActive s = true := by
  obtain ⟨id, hid, hact⟩ := (faultAnyLatchedActive_iff t).mp ht
  exact faultAnyLatchedActive_of hid (h id hact)

theorem faultAnyLatchedActive_raise (s : FaultState) {id : Nat} (hid : fidOk id = true) :
    faultAnyLatchedActive (faultRaise s id).2 =
      (faultAnyLatchedActive s || decide (id < faultFirstSelfClearing)) := by
  by_cases hlt : id < faultFirstSelfClearing
  · have hact : faultIsActive (faultRaise s id).2 id = true := by
      simp [faultIsActive_raise s hid]
    rw [faultAnyLatchedActive_of hlt hact]
    simp [hlt]
  · have hsame : ∀ j < faultFirstSelfClearing,
        faultIsActive (faultRaise s id).2 j = faultIsActive s j := by
      intro j hj
      have hji : j ≠ id := by omega
      simp [faultIsActive_raise s hid, hji]
    rw [faultAnyLatchedActive_congr hsame]
    simp [hlt]

theorem faultAnyLatchedActive_clear_selfClearing (s : FaultState) {id : Nat}
    (hid : faultFirstSelfClearing ≤ id) :
    faultAnyLatchedActive (faultClear s id).2 = faultAnyLatchedActive s := by
  apply faultAnyLatchedActive_congr
  intro j hj
  have hji : j ≠ id := by omega
  simp [faultIsActive_clear, hji]

theorem faultIsActive_clear_ne (s : FaultState) {id j : Nat} (h : j ≠ id) :
    faultIsActive (faultClear s id).2 j = faultIsActive s j := by
  simp [faultIsActive_clear, h]

theorem faultIsActive_clear_self (s : FaultState) {id : Nat} (h : id ≠ FaultId.gfci.code) :
    faultIsActive (faultClear s id).2 id = false := by
  simp [faultIsActive_clear, h]

/-- GFCI is refused. -/
theorem faultClear_gfci (s : FaultState) : faultClear s FaultId.gfci.code = (-1, s) := rfl

theorem faultIsActive_clearAll_gfci (s : FaultState) :
    faultIsActive (faultClearAllClearable s).2 FaultId.gfci.code =
      faultIsActive s FaultId.gfci.code := by
  rw [faultIsActive_clearAll]
  simp

theorem faultIsActive_clearAll_selfClearing (s : FaultState) {id : Nat}
    (h : faultFirstSelfClearing ≤ id) :
    faultIsActive (faultClearAllClearable s).2 id = faultIsActive s id := by
  have hlt : ¬ id < faultFirstSelfClearing := Nat.not_lt.mpr h
  simp [faultIsActive_clearAll, hlt]

theorem faultIsActive_of_clear {s : FaultState} {id j : Nat}
    (h : faultIsActive (faultClear s id).2 j = true) : faultIsActive s j = true := by
  rw [faultIsActive_clear, Bool.and_eq_true] at h
  exact h.1

theorem faultIsActive_of_clearAll {s : FaultState} {j : Nat}
    (h : faultIsActive (faultClearAllClearable s).2 j = true) : faultIsActive s j = true := by
  rw [faultIsActive_clearAll, Bool.and_eq_true] at h
  exact h.1

end OpenEVCharger
