import OpenEVCharger.Safety.Thermal

/-!
# The first fault raised

`first_raised` names the fault that drove the EVSE into FAULT. Raises and single
clears keep it until that fault is cleared. A clear-all picks the lowest fault that
is left, and a `CLEAR_FAULT` that leaves FAULT writes it off, whatever is still
active; the runs here are those in which neither happens to the wrong fault.
-/

namespace OpenEVCharger

/-! ## Operations -/

inductive FaultOp where
  | raise (id : Nat)
  | clear (id : Nat)
  | clearAll
  | request (fid : Nat)

/-- An operation, and the safety task around the fault set that a request finds. -/
structure FaultInput where
  op : FaultOp
  task : SafetyTask

def FaultInput.taskWith (i : FaultInput) (f : FaultState) : SafetyTask := { i.task with faults := f }

def faultStep (i : FaultInput) (f : FaultState) : FaultState :=
  match i.op with
  | .raise id => (faultRaise f id).2
  | .clear id => (faultClear f id).2
  | .clearAll => (faultClearAllClearable f).2
  | .request fid => (processClearFault fid (i.taskWith f)).faults

def faultMachine : Machine Unit FaultInput FaultState where
  boot _ := faultInit
  step := faultStep

def faultRun (ins : ℕ → FaultInput) (n : ℕ) : FaultState := faultMachine.run () ins n

/-! ## What the field promises -/

/-- The field is empty exactly when no fault is active, and names an active one else. -/
structure FirstRaisedOk (f : FaultState) : Prop where
  none_iff : f.firstRaised = FaultId.none.code ↔ f.activeBits = 0#32
  active : f.firstRaised ≠ FaultId.none.code → faultIsActive f f.firstRaised = true

/-- A fault that is named and stays active stays named. -/
def FirstRaisedKept (f f' : FaultState) : Prop :=
  f.firstRaised ≠ FaultId.none.code → faultIsActive f' f.firstRaised = true →
    f'.firstRaised = f.firstRaised

/-- The faults that a clear-all leaves. -/
def SurvivesClearAll (id : Nat) : Prop := id = FaultId.gfci.code ∨ faultFirstSelfClearing ≤ id

/-- A clear-all leaves the named fault and one below it. -/
def PassesOver (f : FaultState) : Prop :=
  SurvivesClearAll f.firstRaised ∧
    ∃ id, id < f.firstRaised ∧ SurvivesClearAll id ∧ faultIsActive f id = true

/-- A `CLEAR_FAULT` takes the EVSE out of FAULT while a fault that clears itself is
active. -/
def ForgetsActive (fid : Nat) (s : SafetyTask) : Prop :=
  s.evse = .fault ∧ clearsLatched fid s.faults ∧
    ∃ id, faultFirstSelfClearing ≤ id ∧ id ≠ fid ∧ faultIsActive s.faults id = true

def LosesFirst (i : FaultInput) (f : FaultState) : Prop :=
  match i.op with
  | .raise _ => False
  | .clear _ => False
  | .clearAll => PassesOver f
  | .request fid => fid = 0 ∧ PassesOver f ∨ ForgetsActive fid (i.taskWith f)

/-! ## Active bits -/

variable {f : FaultState} {id fid : Nat} {s : SafetyTask}

/-- Only the bits of faults are set. -/
def BitsInRange (f : FaultState) : Prop := ∀ j, f.activeBits.getLsbD j = true → fidOk j = true

theorem isActive_of_bit (h : BitsInRange f) {j : Nat} (hj : f.activeBits.getLsbD j = true) :
    faultIsActive f j = true := by
  rw [faultIsActive, h j hj, hj]
  rfl

theorem activeBits_eq_zero_iff (h : BitsInRange f) :
    f.activeBits = 0#32 ↔ ∀ j, faultIsActive f j = false := by
  constructor
  · intro hzero j
    rw [faultIsActive, hzero, BitVec.getLsbD_zero, Bool.and_false]
  · intro hnone
    refine BitVec.eq_of_getLsbD_eq fun j _ => ?_
    rw [BitVec.getLsbD_zero]
    refine Bool.eq_false_iff.mpr fun hj => ?_
    exact Bool.eq_false_iff.mp (hnone j) (isActive_of_bit h hj)

theorem fidOk_none : fidOk FaultId.none.code = false := rfl

theorem not_isActive_none (f : FaultState) : faultIsActive f FaultId.none.code = false := by
  rw [faultIsActive, fidOk_none]
  rfl

theorem ne_none_of_isActive (h : faultIsActive f id = true) : id ≠ FaultId.none.code := by
  rintro rfl
  rw [not_isActive_none] at h
  cases h

/-- A field that names an active fault is as it should be. -/
theorem FirstRaisedOk.of_active (h : faultIsActive f f.firstRaised = true) : FirstRaisedOk f := by
  refine ⟨?_, fun _ => h⟩
  have hne := ne_none_of_isActive h
  refine iff_of_false hne fun hzero => ?_
  rw [faultIsActive, hzero, BitVec.getLsbD_zero, Bool.and_false] at h
  cases h

/-! ## The lowest fault -/

theorem mem_faultIds {j : Nat} : j ∈ List.range' 1 (faultCount - 1) ↔ fidOk j = true := by
  rw [List.mem_range'_1, fidOk_iff]
  show 1 ≤ j ∧ j < 21 ↔ _
  omega

/-- The scan finds the lowest active fault. -/
theorem lowestActive_eq_iff {bits : BitVec 32} (hid : fidOk id = true) :
    lowestActive bits = id ↔
      bits.getLsbD id = true ∧ ∀ j, fidOk j = true → j < id → bits.getLsbD j = false := by
  have hpos : id ≠ FaultId.none.code := fun heq => by
    rw [heq, fidOk_none] at hid
    cases hid
  rw [lowestActive]
  cases hfind : (List.range' 1 (faultCount - 1)).find? (fun i => bits.getLsbD i) with
  | none =>
    refine iff_of_false (Ne.symm hpos) fun h => ?_
    exact List.find?_eq_none.mp hfind id (mem_faultIds.mpr hid) h.1
  | some i =>
    obtain ⟨hi, hmem, hmin⟩ := List.find?_range'_eq_some.mp hfind
    constructor
    · rintro rfl
      refine ⟨hi, fun j hj hlt => ?_⟩
      have hj1 := (fidOk_iff.mp hj).1
      simpa using hmin j hj1 hlt
    · rintro ⟨hbit, hlow⟩
      have hid1 := (fidOk_iff.mp hid).1
      rcases Nat.lt_trichotomy i id with hlt | heq | hgt
      · have hoff := hlow i (mem_faultIds.mp hmem) hlt
        rw [hoff] at hi
        cases hi
      · exact heq
      · have hoff := hmin id hid1 hgt
        rw [hbit] at hoff
        cases hoff

theorem lowestActive_eq_none_iff {bits : BitVec 32} :
    lowestActive bits = FaultId.none.code ↔ ∀ j, fidOk j = true → bits.getLsbD j = false := by
  rw [lowestActive]
  cases hfind : (List.range' 1 (faultCount - 1)).find? (fun i => bits.getLsbD i) with
  | none =>
    refine iff_of_true rfl fun j hj => ?_
    exact Bool.eq_false_iff.mpr (List.find?_eq_none.mp hfind j (mem_faultIds.mpr hj))
  | some i =>
    obtain ⟨hi, hmem, _⟩ := List.find?_range'_eq_some.mp hfind
    have hok := mem_faultIds.mp hmem
    refine iff_of_false (fun heq => ?_) fun h => ?_
    · rw [show i = FaultId.none.code from heq, fidOk_none] at hok
      cases hok
    · rw [h i hok] at hi
      cases hi

/-- A fault set whose field is the lowest active fault is as it should be. -/
theorem FirstRaisedOk.of_lowest (h : BitsInRange f) (hlow : f.firstRaised = lowestActive f.activeBits) :
    FirstRaisedOk f := by
  by_cases hnone : f.firstRaised = FaultId.none.code
  · have hoff := lowestActive_eq_none_iff.mp (hlow.symm.trans hnone)
    refine ⟨iff_of_true hnone ?_, fun hne => absurd hnone hne⟩
    rw [activeBits_eq_zero_iff h]
    intro j
    rw [faultIsActive]
    cases hj : fidOk j with
    | false => rfl
    | true => exact hoff j hj
  · have hid : fidOk f.firstRaised = true := by
      rw [hlow, lowestActive]
      cases hfind : (List.range' 1 (faultCount - 1)).find? (fun i => f.activeBits.getLsbD i) with
      | none =>
        rw [hlow, lowestActive, hfind] at hnone
        exact absurd rfl hnone
      | some i => exact mem_faultIds.mp (List.find?_range'_eq_some.mp hfind).2.1
    have hbit := ((lowestActive_eq_iff hid).mp hlow.symm).1
    exact .of_active (isActive_of_bit h hbit)

/-! ## One operation -/

theorem getLsbD_lt {bits : BitVec 32} {j : Nat} (h : bits.getLsbD j = true) : j < 32 := by
  by_contra hge
  rw [BitVec.getLsbD_of_ge _ _ (Nat.not_lt.mp hge)] at h
  cases h

/-- What a raise can do. -/
theorem faultRaise_cases (f : FaultState) (id : Nat) :
    (faultRaise f id).2 = f ∨
      fidOk id = true ∧ (faultRaise f id).2 =
        ⟨f.activeBits ||| (1#32 <<< id),
          if f.firstRaised = FaultId.none.code then id else f.firstRaised⟩ := by
  cases hok : fidOk id with
  | false =>
    rw [faultRaise, hok]
    exact .inl rfl
  | true =>
    rw [faultRaise, hok]
    cases hset : f.activeBits.getLsbD id with
    | true => exact .inl rfl
    | false => exact .inr ⟨rfl, rfl⟩

/-- What a clear can do. -/
theorem faultClear_cases (f : FaultState) (id : Nat) :
    (faultClear f id).2 = f ∨
      fidOk id = true ∧ id ≠ FaultId.gfci.code ∧ (faultClear f id).2 =
        ⟨f.activeBits &&& ~~~(1#32 <<< id),
          if f.firstRaised = id then lowestActive (f.activeBits &&& ~~~(1#32 <<< id))
          else f.firstRaised⟩ := by
  cases hok : fidOk id with
  | false =>
    rw [faultClear, hok]
    exact .inl rfl
  | true =>
    rw [faultClear, hok]
    by_cases hgfci : id = FaultId.gfci.code
    · rw [Bool.not_true, if_neg Bool.false_ne_true, if_pos hgfci]
      exact .inl rfl
    · rw [Bool.not_true, if_neg Bool.false_ne_true, if_neg hgfci]
      cases hset : f.activeBits.getLsbD id with
      | false => exact .inl rfl
      | true => exact .inr ⟨rfl, hgfci, rfl⟩

theorem bitsInRange_raise (h : BitsInRange f) (id : Nat) : BitsInRange (faultRaise f id).2 := by
  rcases faultRaise_cases f id with hsame | ⟨hok, hraise⟩
  · rw [hsame]
    exact h
  · rw [hraise]
    intro j hj
    have hlt := getLsbD_lt hj
    rw [BitVec.getLsbD_or, getLsbD_one_shiftLeft hlt] at hj
    rcases Bool.or_eq_true_iff.mp hj with hold | hnew
    · exact h j hold
    · rw [← of_decide_eq_true hnew]
      exact hok

theorem bitsInRange_clear (h : BitsInRange f) (id : Nat) : BitsInRange (faultClear f id).2 := by
  rcases faultClear_cases f id with hsame | ⟨_, _, hclear⟩
  · rw [hsame]
    exact h
  · rw [hclear]
    intro j hj
    rw [BitVec.getLsbD_and, Bool.and_eq_true] at hj
    exact h j hj.1

theorem bitsInRange_clearAll (h : BitsInRange f) : BitsInRange (faultClearAllClearable f).2 := by
  intro j hj
  have hlt := getLsbD_lt hj
  have hbit : ((List.range' 1 (faultFirstSelfClearing - 1)).foldl clearClearable
      (0, f.activeBits)).2.getLsbD j = true := hj
  rw [foldl_clearClearable_getLsbD hlt, Bool.and_eq_true] at hbit
  exact h j hbit.1

/-- A raise names the new fault when none is named. -/
theorem raise_kept (h : FirstRaisedOk f) (id : Nat) :
    FirstRaisedOk (faultRaise f id).2 ∧ FirstRaisedKept f (faultRaise f id).2 := by
  rcases faultRaise_cases f id with hsame | ⟨hok, hraise⟩
  · rw [hsame]
    exact ⟨h, fun _ _ => rfl⟩
  have hactive := faultIsActive_raise f hok
  by_cases hnone : f.firstRaised = FaultId.none.code
  · have hfirst : (faultRaise f id).2.firstRaised = id := by
      rw [hraise]
      exact if_pos hnone
    refine ⟨.of_active ?_, fun hne => absurd hnone hne⟩
    rw [hactive, hfirst, decide_eq_true rfl, Bool.or_true]
  · have hfirst : (faultRaise f id).2.firstRaised = f.firstRaised := by
      rw [hraise]
      exact if_neg hnone
    refine ⟨.of_active ?_, fun _ _ => hfirst⟩
    rw [hactive, hfirst, h.active hnone, Bool.true_or]

/-- A clear of another fault keeps the name; a clear of the named one takes the lowest. -/
theorem clear_kept (h : FirstRaisedOk f) (hbits : BitsInRange f) (id : Nat) :
    FirstRaisedOk (faultClear f id).2 ∧ FirstRaisedKept f (faultClear f id).2 := by
  have hrange := bitsInRange_clear hbits id
  have hactive := faultIsActive_clear f id
  rcases faultClear_cases f id with hsame | ⟨hok, hgfci, hclear⟩
  · rw [hsame]
    exact ⟨h, fun _ _ => rfl⟩
  by_cases hid : f.firstRaised = id
  · refine ⟨.of_lowest hrange ?_, fun _ hstill => ?_⟩
    · rw [hclear]
      exact if_pos hid
    · rw [hid, faultIsActive_clear_self f hgfci] at hstill
      cases hstill
  · have hfirst : (faultClear f id).2.firstRaised = f.firstRaised := by
      rw [hclear]
      exact if_neg hid
    refine ⟨?_, fun _ _ => hfirst⟩
    by_cases hnone : f.firstRaised = FaultId.none.code
    · -- nothing was active, so nothing is
      have hoff := (activeBits_eq_zero_iff hbits).mp (h.none_iff.mp hnone)
      refine ⟨iff_of_true (hfirst.trans hnone) ?_, fun hne => absurd (hfirst.trans hnone) hne⟩
      rw [activeBits_eq_zero_iff hrange]
      intro j
      rw [hactive, hoff, Bool.false_and]
    · refine .of_active ?_
      rw [hfirst, faultIsActive_clear_ne f hid, h.active hnone]

/-! ## Clear-all -/

theorem isActive_clearAll_iff {j : Nat} :
    faultIsActive (faultClearAllClearable f).2 j = true ↔
      faultIsActive f j = true ∧ SurvivesClearAll j := by
  rw [faultIsActive_clearAll, Bool.and_eq_true, Bool.not_eq_true', Bool.and_eq_false_iff,
    decide_eq_false_iff_not, decide_eq_false_iff_not, not_not, Nat.not_lt, SurvivesClearAll, or_comm]

/-- A clear-all keeps the named fault unless it leaves one below it. -/
theorem clearAll_kept_iff (hbits : BitsInRange f) (h : FirstRaisedOk f) :
    FirstRaisedKept f (faultClearAllClearable f).2 ↔ ¬ PassesOver f := by
  have hlow : (faultClearAllClearable f).2.firstRaised =
      lowestActive (faultClearAllClearable f).2.activeBits := rfl
  have hrange := bitsInRange_clearAll hbits
  generalize hg : (faultClearAllClearable f).2 = g at hlow hrange
  have hactive : ∀ j, faultIsActive g j = true ↔ faultIsActive f j = true ∧ SurvivesClearAll j := by
    intro j
    rw [← hg]
    exact isActive_clearAll_iff
  constructor
  · rintro hkept ⟨hsurvives, id, hlt, hid, hidActive⟩
    have hne : f.firstRaised ≠ FaultId.none.code := by
      rintro heq
      rw [heq] at hlt
      exact Nat.not_lt_zero id hlt
    have hfirst := h.active hne
    have hstill : faultIsActive g f.firstRaised = true := (hactive _).mpr ⟨hfirst, hsurvives⟩
    have hsame := hkept hne hstill
    have hok : fidOk f.firstRaised = true := fidOk_iff.mpr (faultIsActive_lt hfirst)
    have hmin := ((lowestActive_eq_iff hok).mp (hlow.symm.trans hsame)).2 id
      (fidOk_iff.mpr (faultIsActive_lt hidActive)) hlt
    have hidStill := (hactive id).mpr ⟨hidActive, hid⟩
    rw [faultIsActive, hmin, Bool.and_false] at hidStill
    cases hidStill
  · intro hpass hne hstill
    obtain ⟨hfirst, hsurvives⟩ := (hactive _).mp hstill
    have hok : fidOk f.firstRaised = true := fidOk_iff.mpr (faultIsActive_lt hfirst)
    rw [hlow, lowestActive_eq_iff hok]
    rw [faultIsActive, hok, Bool.true_and] at hstill
    refine ⟨hstill, fun j hj hlt => ?_⟩
    refine Bool.eq_false_iff.mpr fun hbit => hpass ⟨hsurvives, j, hlt, ?_⟩
    exact (((hactive j).mp (isActive_of_bit hrange hbit)).symm)

/-! ## Requests -/

/-- The faults that the clear of a request leaves. -/
def clearedFaults (fid : Nat) (f : FaultState) : FaultState :=
  if fid = 0 then (faultClearAllClearable f).2 else (faultClear f fid).2

/-- The fault set written off by a request that leaves FAULT. -/
def FaultState.forget (f : FaultState) : FaultState := { f with firstRaised := FaultId.none.code }

theorem faults_leaveFaultIfClear (s : SafetyTask) :
    (leaveFaultIfClear s).faults =
      if s.evse = .fault ∧ (leaveFaultIfClear s).evse ≠ .fault then s.faults.forget
      else s.faults := by
  by_cases hf : s.evse = .fault
  · have hleaves := evse_leaveFaultIfClear hf
    by_cases hl : faultAnyLatchedActive s.faults = false
    · rw [if_pos ⟨hf, hleaves.mpr hl⟩, leaveFaultIfClear, if_pos ⟨hf, hl⟩,
        ← faults_evseTransition .ready s]
      rfl
    · rw [if_neg (fun h => hl (hleaves.mp h.2)), leaveFaultIfClear, if_neg (fun h => hl h.2)]
  · rw [if_neg (fun h => hf h.1), leaveFaultIfClear, if_neg (fun h => hf h.1)]

theorem faultClear_refused {rc : Int} (hrc : (faultClear f id).1 = rc) (hneg : rc < 0) :
    (faultClear f id).2 = f := by
  subst hrc
  rcases faultClear_cases f id with hsame | ⟨hok, hgfci, _⟩
  · exact hsame
  · rw [faultClear, hok, Bool.not_true, if_neg Bool.false_ne_true, if_neg hgfci] at hneg
    split at hneg
    · cases hneg
    · cases hneg

/-- A request clears, and writes the field off when it leaves FAULT. -/
theorem faults_processClearFault (fid : Nat) (s : SafetyTask) :
    (processClearFault fid s).faults =
      if s.evse = .fault ∧ (processClearFault fid s).evse ≠ .fault then
        (clearedFaults fid s.faults).forget
      else clearedFaults fid s.faults := by
  rw [processClearFault, clearedFaults]
  by_cases h0 : fid = 0
  · rw [if_pos h0, if_pos h0]
    dsimp only
    rw [faults_leaveFaultIfClear, faults_ite_publishCleared, apply_ite SafetyTask.evse,
      evse_publishCleared, ite_self]
  rw [if_neg h0, if_neg h0]
  by_cases hlt : fid < faultCount
  · rw [if_pos hlt]
    dsimp only
    by_cases hneg : (faultClear s.faults fid).1 < 0
    · rw [if_pos hneg, if_neg (fun h => h.2 h.1), faultClear_refused rfl hneg]
    · rw [if_neg hneg, faults_leaveFaultIfClear, faults_ite_publishCleared,
        apply_ite SafetyTask.evse, evse_publishCleared, ite_self]
  · rw [if_neg hlt, if_neg (fun h => h.2 h.1)]
    have hbad : fidOk fid = false := by
      refine Bool.eq_false_iff.mpr fun hok => hlt ?_
      exact (fidOk_iff.mp hok).2
    rw [faultClear, hbad]
    rfl

theorem bitsInRange_cleared (h : BitsInRange f) (fid : Nat) : BitsInRange (clearedFaults fid f) := by
  rw [clearedFaults]
  split
  · exact bitsInRange_clearAll h
  · exact bitsInRange_clear h fid

/-- After a clear that leaves nothing latched, what is active clears itself. -/
theorem isActive_cleared_iff (hclears : clearsLatched fid f) {j : Nat} :
    faultIsActive (clearedFaults fid f) j = true ↔
      faultFirstSelfClearing ≤ j ∧ j ≠ fid ∧ faultIsActive f j = true := by
  obtain ⟨hcount, hgfci, hlatched⟩ := hclears
  have hself : faultIsActive f j = true → (fid = 0 → SurvivesClearAll j) → (j = fid → False) →
      faultFirstSelfClearing ≤ j := by
    intro hj hsurvives hne
    by_contra hlt
    have hkind : faultIsLatchedKind j = true :=
      latchedKind_iff.mpr ⟨(faultIsActive_lt hj).1, Nat.not_le.mp hlt⟩
    obtain ⟨hzero | hsame, hnot⟩ := hlatched j hkind hj
    · exact (hsurvives hzero).elim hnot hlt
    · exact hne hsame
  rw [clearedFaults]
  by_cases h0 : fid = 0
  · rw [if_pos h0, isActive_clearAll_iff]
    constructor
    · rintro ⟨hj, hsurvives⟩
      have hne : j ≠ fid := fun heq => ne_none_of_isActive hj (heq.trans h0)
      exact ⟨hself hj (fun _ => hsurvives) hne, hne, hj⟩
    · rintro ⟨hge, _, hj⟩
      exact ⟨hj, .inr hge⟩
  · rw [if_neg h0, faultIsActive_clear, Bool.and_eq_true, Bool.not_eq_true', Bool.and_eq_false_iff,
      decide_eq_false_iff_not, decide_eq_false_iff_not]
    constructor
    · rintro ⟨hj, hne | hnot⟩
      · exact ⟨hself hj (fun hz => absurd hz h0) hne, hne, hj⟩
      · exact absurd hgfci hnot
    · rintro ⟨_, hne, hj⟩
      exact ⟨hj, .inl hne⟩

/-- A request keeps the field right unless it passes the named fault over or writes off
an active one. -/
theorem request_kept_iff (hbits : BitsInRange s.faults) (h : FirstRaisedOk s.faults) (fid : Nat) :
    FirstRaisedOk (processClearFault fid s).faults ∧
        FirstRaisedKept s.faults (processClearFault fid s).faults ↔
      ¬ (fid = 0 ∧ PassesOver s.faults ∨ ForgetsActive fid s) := by
  have hrange := bitsInRange_cleared hbits fid
  rw [faults_processClearFault]
  by_cases hleaves : s.evse = .fault ∧ (processClearFault fid s).evse ≠ .fault
  · rw [if_pos hleaves]
    have hclears := (processClearFault_leaves_fault hleaves.1 fid).mp hleaves.2
    have hactive := fun j => isActive_cleared_iff (j := j) hclears
    generalize clearedFaults fid s.faults = g at hactive hrange
    have hforget : FirstRaisedOk g.forget ↔ ∀ j, faultIsActive g j = false := by
      rw [← activeBits_eq_zero_iff hrange]
      constructor
      · exact fun hok => hok.none_iff.mp rfl
      · exact fun hzero => ⟨iff_of_true rfl hzero, fun hne => absurd rfl hne⟩
    rw [hforget]
    constructor
    · rintro ⟨hnone, _⟩ (⟨hzero, hsurvives, id, hlt, hid, hidActive⟩ | ⟨_, _, id, hge, hne, hid⟩)
      · -- the lower fault is not GFCI, so it is still active
        have hidNot : id ≠ FaultId.gfci.code := by
          rintro rfl
          have hkind : faultIsLatchedKind FaultId.gfci.code = true := rfl
          exact (hclears.2.2 _ hkind hidActive).2 rfl
        have hstill := (hactive id).mpr ⟨hid.resolve_left hidNot,
          fun heq => ne_none_of_isActive hidActive (heq.trans hzero), hidActive⟩
        rw [hnone] at hstill
        cases hstill
      · have hstill := (hactive id).mpr ⟨hge, hne, hid⟩
        rw [hnone] at hstill
        cases hstill
    · intro hnot
      have hnone : ∀ j, faultIsActive g j = false := by
        refine fun j => Bool.eq_false_iff.mpr fun hj => hnot (.inr ⟨hleaves.1, hclears, j, ?_⟩)
        exact (hactive j).mp hj
      refine ⟨hnone, fun _ hstill => ?_⟩
      have hoff : faultIsActive g s.faults.firstRaised = true := hstill
      rw [hnone] at hoff
      cases hoff
  · rw [if_neg hleaves]
    have hnot : ¬ ForgetsActive fid s := fun hforgets =>
      hleaves ⟨hforgets.1, (processClearFault_leaves_fault hforgets.1 fid).mpr hforgets.2.1⟩
    rw [clearedFaults]
    by_cases h0 : fid = 0
    · rw [if_pos h0, clearAll_kept_iff hbits h]
      have hok : FirstRaisedOk (faultClearAllClearable s.faults).2 :=
        .of_lowest (bitsInRange_clearAll hbits) rfl
      constructor
      · rintro ⟨_, hpass⟩ (⟨_, hpasses⟩ | hforgets)
        · exact hpass hpasses
        · exact hnot hforgets
      · exact fun hkeeps => ⟨hok, fun hpasses => hkeeps (.inl ⟨h0, hpasses⟩)⟩
    · rw [if_neg h0]
      refine iff_of_true (clear_kept h hbits fid) ?_
      rintro (⟨hzero, _⟩ | hforgets)
      · exact h0 hzero
      · exact hnot hforgets

/-! ## Runs -/

variable {i : FaultInput}

theorem bitsInRange_step (h : BitsInRange f) (i : FaultInput) : BitsInRange (faultStep i f) := by
  rw [faultStep]
  split
  · exact bitsInRange_raise h _
  · exact bitsInRange_clear h _
  · exact bitsInRange_clearAll h
  · have hcleared := bitsInRange_cleared h
    rw [faults_processClearFault]
    split
    · exact hcleared _
    · exact hcleared _

/-- An operation keeps the field right exactly when it does not lose it. -/
theorem faultStep_kept_iff (hbits : BitsInRange f) (h : FirstRaisedOk f) (i : FaultInput) :
    FirstRaisedOk (faultStep i f) ∧ FirstRaisedKept f (faultStep i f) ↔ ¬ LosesFirst i f := by
  rw [faultStep, LosesFirst]
  split
  · exact iff_of_true (raise_kept h _) nofun
  · exact iff_of_true (clear_kept h hbits _) nofun
  · rw [clearAll_kept_iff hbits h]
    exact and_iff_right (.of_lowest (bitsInRange_clearAll hbits) rfl)
  · exact request_kept_iff (s := i.taskWith f) hbits h _

theorem bitsInRange_run (ins : ℕ → FaultInput) (n : ℕ) : BitsInRange (faultRun ins n) := by
  refine faultMachine.invariant (P := BitsInRange) ?_ (fun i f h => bitsInRange_step h i) n
  intro j hj
  have hzero : (0#32).getLsbD j = true := hj
  rw [BitVec.getLsbD_zero] at hzero
  cases hzero

/-- Over a run the field has been right and kept exactly when no operation lost it. -/
theorem first_raised_iff (ins : ℕ → FaultInput) (n : ℕ) :
    ((∀ k ≤ n, FirstRaisedOk (faultRun ins k)) ∧
        ∀ k < n, FirstRaisedKept (faultRun ins k) (faultRun ins (k + 1))) ↔
      ∀ k < n, ¬ LosesFirst (ins k) (faultRun ins k) := by
  have hstep : ∀ k, FirstRaisedOk (faultRun ins k) →
      (FirstRaisedOk (faultRun ins (k + 1)) ∧
        FirstRaisedKept (faultRun ins k) (faultRun ins (k + 1)) ↔
      ¬ LosesFirst (ins k) (faultRun ins k)) := fun k hk =>
    faultStep_kept_iff (bitsInRange_run ins k) hk (ins k)
  constructor
  · rintro ⟨hok, hkept⟩ k hk
    exact (hstep k (hok k (Nat.le_of_lt hk))).mp ⟨hok (k + 1) hk, hkept k hk⟩
  · intro h
    have hok : ∀ k ≤ n, FirstRaisedOk (faultRun ins k) := by
      intro k
      induction k with
      | zero => exact fun _ => ⟨iff_of_true rfl rfl, fun hne => absurd rfl hne⟩
      | succ k ih => exact fun hk => ((hstep k (ih (Nat.le_of_lt hk))).mpr (h k hk)).1
    exact ⟨hok, fun k hk => ((hstep k (hok k (Nat.le_of_lt hk))).mpr (h k hk)).2⟩

/-- A latched fault, over-temperature while in FAULT, and a clear of everything. -/
def clearBesideOverTemp (k : ℕ) : FaultInput where
  op :=
    if k = 0 then .raise FaultId.peContinuity.code
    else if k = 1 then .raise FaultId.overTemp.code
    else .request 0
  task := { safetyTaskInit 0 with evse := .fault }

/-- Over-temperature first, and a clear-all after a ground fault has joined it. -/
def clearAllBesideGfci (k : ℕ) : FaultInput where
  op :=
    if k = 0 then .raise FaultId.overTemp.code
    else if k = 1 then .raise FaultId.gfci.code
    else .clearAll
  task := safetyTaskInit 0

/-- The request writes the active fault off; the clear-all names another one. -/
theorem first_raised_lost :
    ¬ FirstRaisedOk (faultRun clearBesideOverTemp 3) ∧
      ¬ FirstRaisedKept (faultRun clearAllBesideGfci 2) (faultRun clearAllBesideGfci 3) := by
  have hforgot : faultRun clearBesideOverTemp 3 = ⟨0x10000#32, FaultId.none.code⟩ := by
    decide +kernel
  have hbefore : faultRun clearAllBesideGfci 2 = ⟨0x10002#32, FaultId.overTemp.code⟩ := by
    decide +kernel
  have hafter : faultRun clearAllBesideGfci 3 = ⟨0x10002#32, FaultId.gfci.code⟩ := by
    decide +kernel
  constructor
  · rw [hforgot]
    intro h
    cases h.none_iff.mp rfl
  · rw [hbefore, hafter]
    intro h
    cases h nofun rfl

end OpenEVCharger
