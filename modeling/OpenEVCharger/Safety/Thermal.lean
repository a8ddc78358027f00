import OpenEVCharger.Safety.Contactor

/-!
# The over-temperature hold

OVER_TEMP is not a latched fault. What keeps the contactor open while it is
active is that the EVSE sits in COOLING_DOWN or FAULT. `ThermalHold` says so;
it is kept by everything but two kinds of request, and the runs here show what
those two do. COOLING_DOWN in turn needs the fault bit and the memory of the
detector to agree, which a `CLEAR_FAULT` of a self-clearing fault destroys.
-/

namespace OpenEVCharger

open Interlock (Detected)

/-! ## Fault clears -/

/-- `CLEAR_FAULT fid` leaves no latched fault active: it is a valid request that
clears every one there is, and GFCI is not among them. -/
def clearsLatched (fid : Nat) (f : FaultState) : Prop :=
  fid < faultCount ∧ fid ≠ FaultId.gfci.code ∧
    ∀ id, faultIsLatchedKind id = true → faultIsActive f id = true →
      (fid = 0 ∨ id = fid) ∧ id ≠ FaultId.gfci.code

theorem evse_leaveFaultIfClear {s : SafetyTask} (hf : s.evse = .fault) :
    (leaveFaultIfClear s).evse ≠ .fault ↔ faultAnyLatchedActive s.faults = false := by
  have hview : (leaveFaultIfClear s).evse = (view (leaveFaultIfClear s)).evse := rfl
  rw [hview, view_leaveFaultIfClear]
  cases hl : faultAnyLatchedActive s.faults <;> simp [hf, view]

theorem latchedKind_iff {id : Nat} :
    faultIsLatchedKind id = true ↔ 0 < id ∧ id < faultFirstSelfClearing := by
  simp only [faultIsLatchedKind, fidOk, Bool.and_eq_true, decide_eq_true_eq]
  constructor
  · exact fun h => ⟨h.1.1, h.2⟩
  · exact fun h => ⟨⟨h.1, Nat.lt_trans h.2 (by decide)⟩, h.2⟩

/-- `CLEAR_FAULT` takes the EVSE out of FAULT exactly when it leaves no latched
fault active. -/
theorem processClearFault_leaves_fault {s : SafetyTask} (hf : s.evse = .fault) (fid : Nat) :
    (processClearFault fid s).evse ≠ .fault ↔ clearsLatched fid s.faults := by
  unfold processClearFault
  by_cases h0 : fid = 0
  · rw [if_pos h0]
    dsimp only
    rw [evse_leaveFaultIfClear, faults_ite_publishCleared, not_latched_iff]
    · simp only [faultIsActive_clearAll, clearsLatched]
      subst h0
      constructor
      · intro h
        refine ⟨by decide, by decide, fun id hid hact => ⟨.inl rfl, ?_⟩⟩
        have := h id hid
        have hlt := (latchedKind_iff.mp hid).2
        simpa [hact, hlt] using this
      · intro h id hid
        have hlt := (latchedKind_iff.mp hid).2
        cases hact : faultIsActive s.faults id
        · rfl
        · simp [hlt, (h.2.2 id hid hact).2]
    · rw [apply_ite SafetyTask.evse, evse_publishCleared, ite_self]
      exact hf
  · rw [if_neg h0]
    by_cases hlt : fid < faultCount
    · rw [if_pos hlt]
      dsimp only
      by_cases hg : fid = FaultId.gfci.code
      · have hrc : (faultClear s.faults fid).1 < 0 := by
          rw [hg, faultClear_gfci]
          exact Int.negSucc_lt_zero 0
        rw [if_pos hrc]
        simp [hf, clearsLatched, hg]
      · have hok : fidOk fid = true := fidOk_iff.mpr ⟨by omega, hlt⟩
        have hrc : ¬ (faultClear s.faults fid).1 < 0 := by
          unfold faultClear
          rw [if_neg (by simp [hok]), if_neg hg]
          split <;> simp
        rw [if_neg hrc, evse_leaveFaultIfClear, faults_ite_publishCleared, not_latched_iff]
        · simp only [faultIsActive_clear, clearsLatched]
          constructor
          · intro h
            refine ⟨hlt, hg, fun id hid hact => ?_⟩
            have hid' : id = fid := by simpa [hact, hg] using h id hid
            exact ⟨.inr hid', hid' ▸ hg⟩
          · intro h id hid
            cases hact : faultIsActive s.faults id
            · rfl
            · have hid' : id = fid := (h.2.2 id hid hact).1.resolve_left h0
              simp [hid', hg]
        · rw [apply_ite SafetyTask.evse, evse_publishCleared, ite_self]
          exact hf
    · rw [if_neg hlt]
      simp [hf, clearsLatched, hlt]

/-! ## The hold -/

/-- While OVER_TEMP is active the EVSE is in COOLING_DOWN or FAULT. -/
def ThermalHold (c : Interlock) : Prop :=
  c.overTemp = true → c.evse = .coolingDown ∨ c.evse = .fault

/-- The requests that end the hold while OVER_TEMP is active: a replug accepted in
COOLING_DOWN, and a fault clear that leaves FAULT but not OVER_TEMP. -/
def dropsThermalHold (s : SafetyTask) : SafetyReq → Prop
  | .simulateReplug =>
    faultIsActive s.faults FaultId.overTemp.code = true ∧ s.evse = .coolingDown ∧
      plugPresent s.cp = true
  | .clearFault fid =>
    faultIsActive s.faults FaultId.overTemp.code = true ∧ s.evse = .fault ∧
      fid ≠ FaultId.overTemp.code ∧ clearsLatched fid s.faults
  | _ => False

theorem thermalHold_move {c : Interlock} (h : c.overTemp = false) (next : EvseState) :
    ThermalHold (c.move next) := by
  intro ho
  rw [Interlock.move_overTemp, h] at ho
  exact absurd ho (by decide)

theorem ThermalHold.cool {c : Interlock} (h : ThermalHold c)
    (he : c.evse = .ready ∨ c.evse = .charging ∨ c.evse = .userPaused) : c.overTemp = false := by
  refine Bool.eq_false_iff.mpr fun ho => ?_
  rcases h ho with hc | hf
  · simp [hc] at he
  · simp [hf] at he

theorem ThermalHold.resume {c : Interlock} (h : ThermalHold c) : ThermalHold c.resume := by
  unfold Interlock.resume
  split
  · next he => exact thermalHold_move (h.cool (.inr (.inr he))) _
  · exact h

theorem ThermalHold.serviceWindow {c : Interlock} (h : ThermalHold c) :
    ThermalHold c.serviceWindow := by
  unfold Interlock.serviceWindow
  split
  · exact h
  · split
    · exact h.resume
    · exact h

theorem ThermalHold.detected {c c' : Interlock} (h : ThermalHold c) (hd : Detected c c') :
    ThermalHold c' := by
  rcases hd.frame.tripped_or_same with hf | rfl
  · exact fun _ => .inr hf
  · exact h

theorem ThermalHold.overTemp {c c' : Interlock} (h : ThermalHold c)
    (ho : Interlock.OverTemp c c') : ThermalHold c' := by
  cases ho with
  | hold => exact h
  | trip _ =>
    intro _
    by_cases hf : c.evse = .fault
    · rw [if_pos hf]
      exact .inr hf
    · rw [if_neg hf]
      exact .inl (Interlock.move_evse _)
  | clear _ =>
    intro hact
    split at hact <;> simp at hact

theorem ThermalHold.charge {c : Interlock} (h : ThermalHold c) (d : Nat) (g : Bool) :
    ThermalHold (c.charge d g) := by
  unfold Interlock.charge
  split
  · next hm => exact thermalHold_move (h.cool (.inl (Interlock.mayCharge_iff.mp hm).1)) _
  · split
    · next hc => exact thermalHold_move (h.cool (.inr (.inl hc.1))) _
    · exact h

theorem ThermalHold.update {c : Interlock} (h : ThermalHold c) (d : Nat) (g : Bool) :
    ThermalHold (c.update d g) := by
  unfold Interlock.update
  split
  · exact h
  · split
    · next hp =>
      have hcool : c.overTemp = false := h.cool (.inr (.inr hp))
      split
      · refine thermalHold_move ?_ _
        exact hcool
      · exact h
    · have hc : ThermalHold (c.dropAuth.countDwell d) := h
      exact hc.charge d g

theorem stable_thermalHold : Stable ThermalHold where
  serviceWindow _ h := h.serviceWindow
  samplePilot _ _ h := h
  detected _ _ hd h := h.detected hd
  overTemp _ _ ho h := h.overTemp ho
  update _ _ h := h.update _ _
  outputs _ h := h
  authorize _ _ h := h

theorem thermalHold_clearFault {s : SafetyTask} {fid : Nat} (h : ThermalHold (view s))
    (hr : ¬ dropsThermalHold s (.clearFault fid)) :
    ThermalHold (view (processClearFault fid s)) := by
  intro ho
  obtain hsame | ⟨latched, hclear⟩ := (request_processClearFault fid s).clearFault_cases
  · rw [hsame] at ho ⊢
    exact h ho
  · rw [hclear, Interlock.clear_overTemp, Bool.and_eq_true, decide_eq_true_eq] at ho
    by_cases hf : s.evse = .fault
    · -- the request may leave FAULT, but then it would drop the hold
      right
      by_contra hne
      have hleft : (processClearFault fid s).evse ≠ .fault := hne
      exact hr ⟨ho.1, hf, ho.2, (processClearFault_leaves_fault hf fid).mp hleft⟩
    · have hev : (view (processClearFault fid s)).evse = s.evse := by
        have hf' : (view s).evse ≠ .fault := hf
        rw [hclear]
        simp [Interlock.clear, hf']
        rfl
      rw [hev]
      exact h ho.1

/-- A request keeps the hold unless it is one of those that drop it. -/
theorem thermalHold_processRequest {i : TickInput} {r : SafetyReq} {s : SafetyTask}
    (hr : ¬ dropsThermalHold s r) (h : ThermalHold (view s)) :
    ThermalHold (view (processRequest i r s)) := by
  cases r with
  | clearFault fid => exact thermalHold_clearFault h hr
  | userPause reason =>
    rw [processRequest, view_processUserPause]
    unfold Interlock.pause
    split
    · next he => exact thermalHold_move (h.cool (he.imp id .inl)) _
    · exact h
  | userResume =>
    rw [processRequest, view_processUserResume]
    exact h.resume
  | simulateReplug =>
    rw [processRequest, view_processSimulateReplug]
    unfold Interlock.replug
    split
    · next hready =>
      have hcool : (view s).overTemp = false := by
        rcases hready.2 with he | he | he | he
        · exact h.cool (.inl he)
        · exact h.cool (.inr (.inl he))
        · exact h.cool (.inr (.inr he))
        · refine Bool.eq_false_iff.mpr fun ho => hr ⟨ho, he, ?_⟩
          have hacc := (replugReady_iff s).mpr hready
          exact (Bool.and_eq_true _ _ ▸ hacc).1
      exact thermalHold_move hcool _
    · exact h
  | rfidLearnArm => exact h
  | publishRfidConfig => exact h
  | publishGfciPolicy => exact h
  | runGfciCalTest =>
    unfold processRequest
    dsimp only
    split <;> exact h

theorem thermalHold_tick {fl : BuildFlags} {i : TickInput} {σ : System}
    (hreq : ∀ p ∈ requestTrace i σ, ¬ dropsThermalHold p.1 p.2) (h : ThermalHold (view σ.task)) :
    ThermalHold (view (tick fl i σ).task) :=
  stable_thermalHold.step (fun p hp => thermalHold_processRequest (hreq p hp)) h

/-- In a run that processes no request dropping the thermal hold, the unit is not
charging and its contactor is commanded open at the end of every tick with
OVER_TEMP active. -/
theorem over_temp_keeps_contactor_open (fl : BuildFlags) (b : BootInput) (ins : ℕ → TickInput)
    (n : ℕ)
    (hreq : ∀ k ≤ n, ∀ p ∈ requestTrace (ins k) (safetyRun fl b ins k),
      ¬ dropsThermalHold p.1 p.2)
    (hot : faultIsActive (safetyRun fl b ins (n + 1)).task.faults FaultId.overTemp.code = true) :
    (safetyRun fl b ins (n + 1)).task.evse ≠ .charging ∧
      (safetyRun fl b ins (n + 1)).task.mainCmd = false := by
  have hboot : ThermalHold (view (safetyRun fl b ins 0).task) := by
    intro ho
    rw [(booted_run fl b ins).not_overTemp] at ho
    exact absurd ho (by decide)
  have hhold : ThermalHold (view (safetyRun fl b ins (n + 1)).task) :=
    Machine.kept_between (P := fun σ : System => ThermalHold (view σ.task)) (Nat.zero_le _)
      (fun k _ hk h => thermalHold_tick (hreq k (Nat.lt_succ_iff.mp hk)) h) hboot
  have hset := settled_run fl b ins (n + 1)
  have hev : (safetyRun fl b ins (n + 1)).task.evse ≠ .charging := by
    intro hc
    rcases hhold hot with he | he
    · exact absurd (hc.symm.trans he) (by decide)
    · exact absurd (hc.symm.trans he) (by decide)
  exact ⟨hev, Bool.eq_false_iff.mpr fun hcl => hev (hset.closed_iff.mp hcl)⟩

/-- Five hot ticks after a quiet boot. -/
theorem over_temp_keeps_contactor_open_hot :
    let ins := fun _ => quietTick 9000 350 []
    faultIsActive (safetyRun defaultFlags (quietBoot 9000) ins 5).task.faults
        FaultId.overTemp.code = true ∧
      (safetyRun defaultFlags (quietBoot 9000) ins 5).task.evse ≠ .charging ∧
      (safetyRun defaultFlags (quietBoot 9000) ins 5).task.mainCmd = false := by
  intro ins
  have hot : faultIsActive (safetyRun defaultFlags (quietBoot 9000) ins 5).task.faults
      FaultId.overTemp.code = true := by decide +kernel
  have hnone : ∀ k ≤ 4, requestTrace (ins k) (safetyRun defaultFlags (quietBoot 9000) ins k) = [] :=
    by decide +kernel
  refine ⟨hot, over_temp_keeps_contactor_open defaultFlags (quietBoot 9000) ins 4 ?_ hot⟩
  intro k hk p hp
  rw [hnone k hk] at hp
  exact absurd hp List.not_mem_nil

/-- A unit that boots into FAULT with a hot wall plug, is cleared and then asked
for current. -/
def hotClearRun (k : ℕ) : TickInput :=
  if k < 5 then quietTick 0 350 []
  else if k = 5 then quietTick 6000 350 [.clearFault 0]
  else quietTick 6000 350 []

set_option maxRecDepth 4000 in
/-- The clear leaves FAULT with OVER_TEMP still active, and the contactor closes
one dwell later. -/
theorem over_temp_charging_after_clear :
    let s := (safetyRun defaultFlags (quietBoot 0) hotClearRun 57).task
    faultIsActive s.faults FaultId.overTemp.code = true ∧ s.evse = .charging ∧
      s.mainCmd = true := by
  decide +kernel

/-! ## COOLING_DOWN -/

theorem faultIsActive_leaveFaultIfClear (s : SafetyTask) (id : Nat) :
    faultIsActive (leaveFaultIfClear s).faults id = faultIsActive s.faults id := by
  unfold leaveFaultIfClear
  split
  · have hset : faultIsActive (resetPilot (resetFirstRaised (evseTransition .ready s))).faults id =
        faultIsActive (evseTransition .ready s).faults id := rfl
    rw [hset, faults_evseTransition]
  · rfl

/-- A fault clear removes a self-clearing fault exactly when it names it. -/
theorem faultIsActive_processClearFault (fid : Nat) (s : SafetyTask) {id : Nat}
    (hid : faultFirstSelfClearing ≤ id) :
    faultIsActive (processClearFault fid s).faults id =
      (faultIsActive s.faults id && decide (fid ≠ id)) := by
  have hid16 : 16 ≤ id := hid
  unfold processClearFault
  by_cases h0 : fid = 0
  · have hne : fid ≠ id := by omega
    rw [if_pos h0, faultIsActive_leaveFaultIfClear, faults_ite_publishCleared]
    simp [faultIsActive_clearAll_selfClearing s.faults hid, hne]
  · rw [if_neg h0]
    by_cases hlt : fid < faultCount
    · rw [if_pos hlt]
      dsimp only
      by_cases hrc : (faultClear s.faults fid).1 < 0
      · have hg : fid = FaultId.gfci.code := by
          by_contra hg
          have hok : fidOk fid = true := fidOk_iff.mpr ⟨by omega, hlt⟩
          unfold faultClear at hrc
          rw [if_neg (by simp [hok]), if_neg hg] at hrc
          split at hrc <;> simp at hrc
        have hne : fid ≠ id := by
          have h1 : fid = 1 := hg
          omega
        rw [if_pos hrc]
        simp [hne]
      · have hg : fid ≠ FaultId.gfci.code := by
          rintro rfl
          rw [faultClear_gfci] at hrc
          exact hrc (Int.negSucc_lt_zero 0)
        rw [if_neg hrc, faultIsActive_leaveFaultIfClear, faults_ite_publishCleared]
        by_cases hne : fid = id
        · subst hne
          simp [faultIsActive_clear_self s.faults hg]
        · simp [faultIsActive_clear_ne s.faults (Ne.symm hne), hne]
    · rw [if_neg hlt]
      by_cases hne : fid = id
      · have hoff : faultIsActive s.faults id = false := by
          refine Bool.eq_false_iff.mpr fun hact => hlt ?_
          rw [hne]
          exact (faultIsActive_lt hact).2
        simp [hoff]
      · simp [hne]

/-- A `CLEAR_FAULT` that names an active self-clearing fault. -/
def clearsSelfClearing (s : SafetyTask) : SafetyReq → Prop
  | .clearFault fid => faultFirstSelfClearing ≤ fid ∧ faultIsActive s.faults fid = true
  | _ => False

/-- COOLING_DOWN is backed by the fault bit. -/
def CoolingBacked (c : Interlock) : Prop := c.evse = .coolingDown → c.overTemp = true

theorem coolingBacked_move {c : Interlock} {next : EvseState} (hn : next ≠ .coolingDown) :
    CoolingBacked (c.move next) := by
  intro he
  rw [Interlock.move_evse] at he
  exact absurd he hn

theorem CoolingBacked.resume {c : Interlock} (h : CoolingBacked c) : CoolingBacked c.resume := by
  unfold Interlock.resume
  split
  · exact coolingBacked_move (by decide)
  · exact h

theorem CoolingBacked.serviceWindow {c : Interlock} (h : CoolingBacked c) :
    CoolingBacked c.serviceWindow := by
  unfold Interlock.serviceWindow
  split
  · exact h
  · split
    · exact h.resume
    · exact h

theorem CoolingBacked.detected {c c' : Interlock} (h : CoolingBacked c) (hd : Detected c c') :
    CoolingBacked c' := by
  rcases hd.frame.tripped_or_same with hf | rfl
  · intro he
    exact absurd (hf.symm.trans he) (by decide)
  · exact h

theorem CoolingBacked.overTemp {c c' : Interlock} (h : CoolingBacked c)
    (ho : Interlock.OverTemp c c') : CoolingBacked c' := by
  cases ho with
  | hold => exact h
  | trip _ =>
    intro _
    split <;> simp
  | clear _ =>
    split
    · exact coolingBacked_move (by decide)
    · next hne => exact fun he => absurd he hne

theorem CoolingBacked.update {c : Interlock} (h : CoolingBacked c) (d : Nat) (g : Bool) :
    CoolingBacked (c.update d g) := by
  have hc : CoolingBacked (c.dropAuth.countDwell d) := h
  unfold Interlock.update
  split
  · exact h
  · split
    · split
      · exact coolingBacked_move (by decide)
      · exact h
    · unfold Interlock.charge
      repeat' split
      · exact coolingBacked_move (by decide)
      · exact coolingBacked_move (by decide)
      · exact hc

theorem stable_coolingBacked : Stable CoolingBacked where
  serviceWindow _ h := h.serviceWindow
  samplePilot _ _ h := h
  detected _ _ hd h := h.detected hd
  overTemp _ _ ho h := h.overTemp ho
  update _ _ h := h.update _ _
  outputs _ h := h
  authorize _ _ h := h

theorem coolingBacked_processRequest {i : TickInput} {r : SafetyReq} {s : SafetyTask}
    (hr : ¬ clearsSelfClearing s r) (h : CoolingBacked (view s)) :
    CoolingBacked (view (processRequest i r s)) := by
  cases r with
  | clearFault fid =>
    intro he
    have hbit : (view (processRequest i (.clearFault fid) s)).overTemp =
        (faultIsActive s.faults FaultId.overTemp.code && decide (fid ≠ FaultId.overTemp.code)) :=
      faultIsActive_processClearFault fid s (Nat.le_refl _)
    have hcool : s.evse = .coolingDown := by
      obtain hsame | ⟨latched, hclear⟩ := (request_processClearFault fid s).clearFault_cases
      · exact (congrArg Interlock.evse hsame).symm.trans he
      · have he' : ((view s).clear fid latched).evse = .coolingDown :=
          (congrArg Interlock.evse hclear).symm.trans he
        unfold Interlock.clear at he'
        dsimp only at he'
        split at he'
        · rw [Interlock.move_evse] at he'
          exact absurd he' (by decide)
        · exact he'
    have hact : faultIsActive s.faults FaultId.overTemp.code = true := h hcool
    have hne : fid ≠ FaultId.overTemp.code := by
      rintro rfl
      exact hr ⟨Nat.le_refl _, hact⟩
    rw [hbit]
    simp [hact, hne]
  | userPause reason =>
    rw [processRequest, view_processUserPause]
    unfold Interlock.pause
    split
    · exact coolingBacked_move (by decide)
    · exact h
  | userResume =>
    rw [processRequest, view_processUserResume]
    exact h.resume
  | simulateReplug =>
    rw [processRequest, view_processSimulateReplug]
    unfold Interlock.replug
    split
    · exact coolingBacked_move (by decide)
    · exact h
  | rfidLearnArm => exact h
  | publishRfidConfig => exact h
  | publishGfciPolicy => exact h
  | runGfciCalTest =>
    unfold processRequest
    dsimp only
    split <;> exact h

/-- The over-temperature check leaves the detector's memory equal to the bit. -/
theorem overTemp_synced {c c' : Interlock} (ho : Interlock.OverTemp c c') :
    c'.tripped = c'.overTemp := by
  cases ho with
  | hold => rfl
  | trip _ => split <;> simp
  | clear _ => split <;> simp

/-- What is promised about one tick of a run: COOLING_DOWN at its end is backed by
the fault bit and by the memory of the detector, and no fault clear of the tick
removes a self-clearing fault. -/
def CoolingConsistent (fl : BuildFlags) (b : BootInput) (ins : ℕ → TickInput) (n : ℕ) : Prop :=
  ((safetyRun fl b ins (n + 1)).task.evse = .coolingDown →
    faultIsActive (safetyRun fl b ins (n + 1)).task.faults FaultId.overTemp.code = true ∧
      (safetyRun fl b ins (n + 1)).task.otCtx.faultActive = true) ∧
  ∀ p ∈ requestTrace (ins n) (safetyRun fl b ins n), ∀ fid, p.2 = .clearFault fid →
    ∀ id, faultFirstSelfClearing ≤ id → faultIsActive p.1.faults id = true →
      faultIsActive (processRequest (ins n) p.2 p.1).faults id = true

/-- A run is consistent about COOLING_DOWN at every tick exactly when it processes
no `CLEAR_FAULT` that names an active self-clearing fault. -/
theorem cooling_consistent_iff (fl : BuildFlags) (b : BootInput) (ins : ℕ → TickInput) :
    (∀ n, CoolingConsistent fl b ins n) ↔
      ∀ n, ∀ p ∈ requestTrace (ins n) (safetyRun fl b ins n), ¬ clearsSelfClearing p.1 p.2 := by
  constructor
  · rintro hall n ⟨s, r⟩ hp hclears
    cases r with
    | clearFault fid =>
      have hkept := (hall n).2 (s, .clearFault fid) hp fid rfl fid hclears.1 hclears.2
      have hgone := faultIsActive_processClearFault fid s hclears.1
      rw [decide_eq_false (fun hne => hne rfl), Bool.and_false] at hgone
      exact absurd (hkept.symm.trans hgone) (by decide)
    | _ => exact hclears
  · intro hnone n
    have hboot : CoolingBacked (view (safetyRun fl b ins 0).task) := by
      intro he
      rcases (booted_run fl b ins).idle with hr | hf
      · exact absurd (hr.symm.trans he) (by decide)
      · exact absurd (hf.symm.trans he) (by decide)
    have hback : CoolingBacked (view (safetyRun fl b ins (n + 1)).task) :=
      Machine.kept_between (P := fun σ : System => CoolingBacked (view σ.task)) (Nat.zero_le _)
        (fun k _ _ h => stable_coolingBacked.step
          (fun p hp => coolingBacked_processRequest (hnone k p hp)) h) hboot
    refine ⟨fun he => ⟨hback he, ?_⟩, ?_⟩
    · have hsync : (view (safetyRun fl b ins (n + 1)).task).tripped =
          (view (safetyRun fl b ins (n + 1)).task).overTemp := by
        have ht := tick_frame fl (ins n) (safetyRun fl b ins n)
        have hs := overTemp_synced (overTemp_beforeUpdate fl (ins n) (safetyRun fl b ins n))
        exact ht.tripped.trans (hs.trans ht.overTemp.symm)
      exact hsync.trans (hback he)
    · rintro ⟨s, r⟩ hp fid rfl id hid hact
      have hne : fid ≠ id := by
        rintro rfl
        exact hnone n _ hp ⟨hid, hact⟩
      have hbit := faultIsActive_processClearFault fid s hid
      rw [hact, decide_eq_true hne] at hbit
      exact hbit

/-- The clear strands the unit: COOLING_DOWN with nothing left to end it. -/
theorem cooling_down_stranded :
    let ins := fun k => if k < 5 then quietTick 9000 350 [] else quietTick 9000 450 [.clearFault 16]
    let s := (safetyRun defaultFlags (quietBoot 9000) ins 6).task
    s.evse = .coolingDown ∧ faultIsActive s.faults FaultId.overTemp.code = false ∧
      s.otCtx.faultActive = false := by
  decide +kernel

/-! ## Clearing OVER_TEMP -/

theorem overTemp_processRequest {i : TickInput} {r : SafetyReq} {s : SafetyTask}
    (hr : r ≠ .clearFault FaultId.overTemp.code) (h : (view s).overTemp = true) :
    (view (processRequest i r s)).overTemp = true := by
  cases r with
  | clearFault fid =>
    have hne : fid ≠ FaultId.overTemp.code := fun he => hr (he ▸ rfl)
    have hbit : (view (processRequest i (.clearFault fid) s)).overTemp =
        (faultIsActive s.faults FaultId.overTemp.code && decide (fid ≠ FaultId.overTemp.code)) :=
      faultIsActive_processClearFault fid s (Nat.le_refl _)
    have hact : faultIsActive s.faults FaultId.overTemp.code = true := h
    rw [hbit, hact, decide_eq_true hne]
    rfl
  | userPause reason =>
    rw [processRequest, view_processUserPause]
    unfold Interlock.pause
    split <;> simpa using h
  | userResume =>
    rw [processRequest, view_processUserResume, (Interlock.resume_frame _).overTemp]
    exact h
  | simulateReplug =>
    rw [processRequest, view_processSimulateReplug]
    unfold Interlock.replug
    split <;> simpa using h
  | rfidLearnArm => exact h
  | publishRfidConfig => exact h
  | publishGfciPolicy => exact h
  | runGfciCalTest =>
    unfold processRequest
    dsimp only
    split <;> exact h

/-- A tick that processes no `CLEAR_FAULT` of OVER_TEMP takes the fault away only
when some fitted sensor is populated, and every fitted sensor reads a count at or
below the low guard or at or above the clear count. -/
theorem over_temp_cleared_only_when_cool (fl : BuildFlags) (b : BootInput)
    (ins : ℕ → TickInput) (n : ℕ)
    (hon : faultIsActive (safetyRun fl b ins n).task.faults FaultId.overTemp.code = true)
    (hreq : ∀ p ∈ requestTrace (ins n) (safetyRun fl b ins n),
      p.2 ≠ .clearFault FaultId.overTemp.code)
    (hoff : faultIsActive (safetyRun fl b ins (n + 1)).task.faults FaultId.overTemp.code = false) :
    ((fl.ntc1Present = true ∧ overTempPopulated (ins n).adc.ntc1 = true) ∨
      (fl.gunNtcPresent = true ∧ overTempPopulated (ins n).adc.ac = true)) ∧
    (fl.ntc1Present = true →
      (ins n).adc.ntc1 ≤ otGuardLo ∨ otClearRaw ≤ (ins n).adc.ntc1) ∧
    (fl.gunNtcPresent = true →
      (ins n).adc.ac ≤ otGuardLo ∨ otClearRaw ≤ (ins n).adc.ac) := by
  have hdrain : (view (drainInbox (ins n) (safetyRun fl b ins n)).task).overTemp = true :=
    view_drain_kept (P := fun c => c.overTemp = true)
      (fun p hp h => overTemp_processRequest (hreq p hp) h) hon
  have hbefore : (view (beforeOverTemp fl (ins n) (safetyRun fl b ins n))).overTemp = true :=
    (overTemp_beforeOverTemp fl (ins n) _).trans hdrain
  have hafter : (view (beforeUpdate fl (ins n) (safetyRun fl b ins n))).overTemp = false :=
    (tick_frame fl (ins n) _).overTemp.symm.trans hoff
  have hclear := overTempAction_clear hbefore hafter
  obtain ⟨_, hpop, h1, h2⟩ := overTempStep_clear hclear
  have hguard : ∀ raw, (overTempPopulated raw = true → otClearRaw ≤ raw) →
      raw ≤ otGuardLo ∨ otClearRaw ≤ raw := by
    intro raw h
    by_cases hp : overTempPopulated raw = true
    · exact .inr (h hp)
    · simp only [overTempPopulated, Bool.and_eq_true, decide_eq_true_eq] at hp
      simp only [otGuardLo, otGuardHi, otClearRaw] at hp ⊢
      omega
  exact ⟨hpop, fun hm => hguard _ (h1 hm), fun hm => hguard _ (h2 hm)⟩

/-- Five hot ticks and a cool one. -/
theorem over_temp_cleared_only_when_cool_run :
    let ins := fun k => if k < 5 then quietTick 9000 350 [] else quietTick 9000 600 []
    faultIsActive (safetyRun defaultFlags (quietBoot 9000) ins 6).task.faults
        FaultId.overTemp.code = false ∧
      ((ins 5).adc.ntc1 ≤ otGuardLo ∨ otClearRaw ≤ (ins 5).adc.ntc1) := by
  intro ins
  have hon : faultIsActive (safetyRun defaultFlags (quietBoot 9000) ins 5).task.faults
      FaultId.overTemp.code = true := by decide +kernel
  have hoff : faultIsActive (safetyRun defaultFlags (quietBoot 9000) ins 6).task.faults
      FaultId.overTemp.code = false := by decide +kernel
  have hnone : requestTrace (ins 5) (safetyRun defaultFlags (quietBoot 9000) ins 5) = [] := by
    decide +kernel
  have hcool := over_temp_cleared_only_when_cool defaultFlags (quietBoot 9000) ins 5 hon
    (fun p hp => absurd (hnone ▸ hp) List.not_mem_nil) hoff
  exact ⟨hoff, hcool.2.1 rfl⟩

/-- The wall-plug sensor trips the fault and keeps heating: below the low guard it
counts as not fitted, and the cool gun sensor clears the fault. -/
theorem over_temp_cleared_while_heating :
    let ins := fun k => if k < 5 then quietTick 9000 350 [] else quietTick 9000 290 []
    defaultFlags.ntc1Present = true ∧ (ins 5).adc.ntc1 ≤ otTripRaw ∧
      faultIsActive (safetyRun defaultFlags (quietBoot 9000) ins 5).task.faults
        FaultId.overTemp.code = true ∧
      faultIsActive (safetyRun defaultFlags (quietBoot 9000) ins 6).task.faults
        FaultId.overTemp.code = false := by
  decide +kernel

end OpenEVCharger
