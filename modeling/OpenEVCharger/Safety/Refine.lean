import OpenEVCharger.Safety.Tick
import OpenEVCharger.Safety.Interlock

/-!
# The safety task refines the interlock

`view` keeps of the task state what the interlock has. Each function of the task
is, under `view`, one operation of the interlock; the detectors of a tick
together are one `Detected`.
-/

namespace OpenEVCharger

open Interlock (Detected)

def view (s : SafetyTask) : Interlock where
  evse := s.evse
  cp := s.cp
  dwell := s.evseCStreak
  window := s.replugWindowTicks
  authorized := s.sessionAuthorized
  latched := faultAnyLatchedActive s.faults
  gfci := faultIsActive s.faults FaultId.gfci.code
  overTemp := faultIsActive s.faults FaultId.overTemp.code
  tripped := s.otCtx.faultActive
  closed := s.mainCmd
  forceOpen := s.forceOpen
  pilotF := decide (s.cpCcr = cpPwmCcrLow)

/-! ## Events and transitions -/

@[simp] theorem view_commsPublishEvent (e : CommsEvent) (s : SafetyTask) :
    view (commsPublishEvent e s) = view s := rfl

@[simp] theorem view_emit (o : Output) (s : SafetyTask) : view (emit o s) = view s := rfl

theorem view_sessionEnd (reason : SessionEndReason) (s : SafetyTask) :
    view (sessionEnd reason s) = view s := by
  simp only [sessionEnd, clearSocDerateForSessionEnd]
  repeat' split
  all_goals rfl

theorem view_postFaultEvent (fid : FaultId) (js : J1772State) (cpMv : Int) (s : SafetyTask) :
    view (postFaultEvent fid js cpMv s) = view s := by
  unfold postFaultEvent
  dsimp only
  split <;> rfl

theorem view_evseTransition (next : EvseState) (s : SafetyTask) :
    view (evseTransition next s) = (view s).move next := by
  have hsession : ∀ t, t = (if next = .charging then sessionStart s
      else if s.evse = .charging then
        sessionEnd (if next = .fault then .fault else .normal) s
      else s) → view t = view s := by
    rintro t rfl
    split
    · rfl
    · split
      · exact view_sessionEnd _ s
      · rfl
  unfold evseTransition Interlock.move
  by_cases he : s.evse = next
  · simp [he, view]
  · have he' : (view s).evse ≠ next := he
    simp only [he, he', if_false]
    generalize ht : (if next = .charging then sessionStart s
      else if s.evse = .charging then
        sessionEnd (if next = .fault then .fault else .normal) s
      else s) = t
    have hv : view t = view s := hsession t ht.symm
    rw [← hv]
    by_cases hf : next = .fault
    · subst hf
      simp only [if_true]
      rfl
    · simp only [hf, if_false]
      cases hfo : t.forceOpen <;> simp [view, relayForceOpenRelease, hfo]

theorem faults_sessionEnd (reason : SessionEndReason) (s : SafetyTask) :
    (sessionEnd reason s).faults = s.faults := by
  simp only [sessionEnd, clearSocDerateForSessionEnd]
  repeat' split
  all_goals rfl

/-- No change of the EVSE state touches the fault set. -/
theorem faults_evseTransition (next : EvseState) (s : SafetyTask) :
    (evseTransition next s).faults = s.faults := by
  have hend := faults_sessionEnd
  unfold evseTransition
  dsimp only
  repeat' split
  all_goals first | rfl | exact hend _ s

/-! ## Faults -/

theorem view_raiseFault {fid : FaultId} (hfid : fidOk fid.code = true) (js : J1772State)
    (cpMv : Int) (s : SafetyTask) :
    view (raiseFault fid js cpMv s) =
      { view s with
        latched := (view s).latched || decide (fid.code < faultFirstSelfClearing)
        gfci := (view s).gfci || decide (FaultId.gfci.code = fid.code)
        overTemp := (view s).overTemp || decide (FaultId.overTemp.code = fid.code) } := by
  have hset : view { s with faults := (faultRaise s.faults fid.code).2 } =
      { view s with
        latched := (view s).latched || decide (fid.code < faultFirstSelfClearing)
        gfci := (view s).gfci || decide (FaultId.gfci.code = fid.code)
        overTemp := (view s).overTemp || decide (FaultId.overTemp.code = fid.code) } := by
    simp only [view, faultAnyLatchedActive_raise _ hfid, faultIsActive_raise _ hfid]
  unfold raiseFault
  dsimp only
  split
  · rw [view_postFaultEvent, hset]
  · exact hset

theorem view_raiseToFault {fid : FaultId} (hok : fidOk fid.code = true) (hne : fid ≠ .overTemp)
    (js : J1772State) (cpMv : Int) (s : SafetyTask) :
    view (raiseToFault fid js cpMv s) =
      (view s).trip (decide (fid.code < faultFirstSelfClearing))
        (decide (FaultId.gfci.code = fid.code)) := by
  have hne' : ¬ FaultId.overTemp.code = fid.code := by
    revert hne
    cases fid <;> decide
  rw [raiseToFault, view_evseTransition, view_raiseFault hok, Interlock.trip]
  simp [hne']

/-- A detector that changes only its own counters before it raises its fault. -/
theorem detected_raiseToFault {s s' : SafetyTask} {fid : FaultId} {js : J1772State} {cpMv : Int}
    (hok : fidOk fid.code = true) (hne : fid ≠ .overTemp) (hv : view s' = view s) :
    Detected (view s) (view (raiseToFault fid js cpMv s')) := by
  rw [view_raiseToFault hok hne, hv]
  refine .trip _ _ fun hg => ?_
  have h1 : 1 = fid.code := of_decide_eq_true hg
  have hlt : fid.code < 16 := by omega
  exact decide_eq_true hlt

theorem Interlock.Detected.of_eq {s s' : SafetyTask} (hv : view s' = view s) :
    Detected (view s) (view s') := by
  rw [hv]
  exact .quiet

theorem detected_latchAfter {s s' : SafetyTask} {fid : FaultId} {need streak : Nat}
    {js : J1772State} {cpMv : Int} (hok : fidOk fid.code = true) (hne : fid ≠ .overTemp)
    (hv : view s' = view s) :
    Detected (view s) (view (latchAfter need streak fid js cpMv s')) := by
  unfold latchAfter
  split
  · exact detected_raiseToFault hok hne hv
  · exact .of_eq hv

/-- Raising or clearing a self-clearing fault other than OVER_TEMP is not visible
to the interlock. -/
theorem view_raiseFault_selfClearing {fid : FaultId} (hfid : fidOk fid.code = true)
    (h : faultFirstSelfClearing < fid.code) (js : J1772State) (cpMv : Int) (s : SafetyTask) :
    view (raiseFault fid js cpMv s) = view s := by
  have h16 : 16 < fid.code := h
  have hl : ¬ fid.code < faultFirstSelfClearing := Nat.not_lt.mpr (Nat.le_of_lt h)
  have hg : ¬ FaultId.gfci.code = fid.code := by
    show ¬ 1 = fid.code
    omega
  have ho : ¬ FaultId.overTemp.code = fid.code := by
    show ¬ 16 = fid.code
    omega
  rw [view_raiseFault hfid]
  simp [hl, hg, ho]

theorem view_faultClear_selfClearing (id : Nat) (h : faultFirstSelfClearing < id)
    (s : SafetyTask) : view { s with faults := (faultClear s.faults id).2 } = view s := by
  have h16 : 16 < id := h
  have hg : ¬ FaultId.gfci.code = id := by
    show ¬ 1 = id
    omega
  have ho : ¬ FaultId.overTemp.code = id := by
    show ¬ 16 = id
    omega
  simp only [view, faultAnyLatchedActive_clear_selfClearing _ (Nat.le_of_lt h),
    faultIsActive_clear]
  simp [hg, ho]

/-! ## Detectors -/

theorem detected_checkSafeFail (safeFail : Bool) (js : J1772State) (cpMv : Int) (s : SafetyTask) :
    Detected (view s) (view (checkSafeFail safeFail js cpMv s)) := by
  unfold checkSafeFail
  split
  · exact detected_raiseToFault (by decide) (by decide) rfl
  · exact .of_eq rfl

theorem detected_checkRelayWeld (sensed : Bool) (js : J1772State) (cpMv : Int) (s : SafetyTask) :
    Detected (view s) (view (checkRelayWeld sensed js cpMv s))  := by
  unfold checkRelayWeld
  exact detected_latchAfter (by decide) (by decide) rfl

theorem detected_checkRelayStuckOpen (sensed : Bool) (js : J1772State) (cpMv : Int)
    (s : SafetyTask) : Detected (view s) (view (checkRelayStuckOpen sensed js cpMv s)) := by
  unfold checkRelayStuckOpen
  split
  · exact .of_eq rfl
  · exact detected_latchAfter (by decide) (by decide) rfl

theorem detected_checkRelayFeedback (fl : BuildFlags) (js : J1772State) (cpMv : Int)
    (s : SafetyTask) : Detected (view s) (view (checkRelayFeedback fl js cpMv s)) := by
  unfold checkRelayFeedback
  split
  · exact (detected_checkRelayWeld _ js cpMv s).trans (detected_checkRelayStuckOpen _ js cpMv _)
  · exact .of_eq rfl

theorem detected_checkGfci (i : TickInput) (js : J1772State) (cpMv : Int) (s : SafetyTask) :
    Detected (view s) (view (checkGfci i js cpMv s)) := by
  unfold checkGfci
  dsimp only
  split
  · exact .of_eq rfl
  · rw [view_postFaultEvent]
    exact .of_eq rfl
  · exact detected_raiseToFault (by decide) (by decide) rfl

theorem view_logPe (i : TickInput) (js : J1772State) (s : SafetyTask) :
    view (logPe i js s) = view s := by
  unfold logPe
  split <;> rfl

theorem detected_checkPeContinuity (fl : BuildFlags) (i : TickInput) (js : J1772State)
    (cpMv : Int) (s : SafetyTask) :
    Detected (view s) (view (checkPeContinuity fl i js cpMv s)) := by
  unfold checkPeContinuity
  split
  · exact .of_eq rfl
  · rw [← view_logPe i js s]
    dsimp only
    split
    · exact detected_latchAfter (by decide) (by decide) rfl
    · exact .of_eq rfl

theorem detected_checkAdcRuntime (i : TickInput) (js : J1772State) (cpMv : Int)
    (s : SafetyTask) : Detected (view s) (view (checkAdcRuntime i js cpMv s)) := by
  unfold checkAdcRuntime
  split
  · exact .of_eq rfl
  · exact detected_latchAfter (by decide) (by decide) rfl

theorem detected_checkCcOutOfRange (fl : BuildFlags) (i : TickInput) (js : J1772State)
    (cpMv : Int) (s : SafetyTask) :
    Detected (view s) (view (checkCcOutOfRange fl i js cpMv s)) := by
  unfold checkCcOutOfRange
  split
  · exact .of_eq rfl
  · split
    · exact .of_eq rfl
    · exact detected_latchAfter (by decide) (by decide) rfl

theorem detected_checkCpE (js : J1772State) (cpMv : Int) (s : SafetyTask) :
    Detected (view s) (view (checkCpE js cpMv s)) := by
  unfold checkCpE
  split
  · exact .of_eq rfl
  · exact detected_latchAfter (by decide) (by decide) rfl

/-- The detectors of a tick change the interlock only by tripping it. -/
theorem detected_runDetectors (fl : BuildFlags) (i : TickInput) (js : J1772State) (cpMv : Int)
    (s : SafetyTask) : Detected (view s) (view (runDetectors fl i js cpMv s)) := by
  unfold runDetectors
  exact (detected_checkSafeFail _ js cpMv s).trans <|
    (detected_checkRelayFeedback fl js cpMv _).trans <|
    (detected_checkGfci i js cpMv _).trans <|
    (detected_checkPeContinuity fl i js cpMv _).trans <|
    (detected_checkAdcRuntime i js cpMv _).trans <|
    (detected_checkCcOutOfRange fl i js cpMv _).trans <|
    detected_checkCpE js cpMv _

/-! ## Metering -/

theorem view_checkAcAbsent (bl : Bl0939Readings) (js : J1772State) (cpMv : Int)
    (s : SafetyTask) : view (checkAcAbsent bl js cpMv s) = view s := by
  unfold checkAcAbsent
  split
  · rfl
  · split
    · dsimp only
      split
      · exact view_raiseFault_selfClearing (by decide) (by decide) js cpMv
          { s with acAbsentStreak := _ }
      · rfl
    · dsimp only
      split
      · exact view_faultClear_selfClearing _ (by decide) { s with acAbsentStreak := _ }
      · rfl

theorem detected_checkRelayWeldBl0939 (i : TickInput) (bl : Bl0939Readings) (js : J1772State)
    (cpMv : Int) (s : SafetyTask) :
    Detected (view s) (view (checkRelayWeldBl0939 i bl js cpMv s)) := by
  unfold checkRelayWeldBl0939
  split
  · exact .of_eq rfl
  · split
    · exact .of_eq rfl
    · dsimp only
      split
      · exact .of_eq rfl
      · exact detected_latchAfter (by decide) (by decide) rfl

theorem detected_checkRelayStuckOpenBl0939 (i : TickInput) (bl : Bl0939Readings)
    (js : J1772State) (cpMv : Int) (s : SafetyTask) :
    Detected (view s) (view (checkRelayStuckOpenBl0939 i bl js cpMv s)) := by
  unfold checkRelayStuckOpenBl0939
  split
  · exact .of_eq rfl
  · split
    · exact .of_eq rfl
    · split
      · exact .of_eq rfl
      · exact detected_latchAfter (by decide) (by decide) rfl

theorem detected_checkHardOverCurrent (i : TickInput) (bl : Bl0939Readings) (js : J1772State)
    (cpMv : Int) (s : SafetyTask) :
    Detected (view s) (view (checkHardOverCurrent i bl js cpMv s)) := by
  unfold checkHardOverCurrent
  split
  · exact .of_eq rfl
  · split
    · exact .of_eq rfl
    · split
      · exact .of_eq rfl
      · exact detected_latchAfter (by decide) (by decide) rfl

theorem view_clearSoftOverCurrent (s : SafetyTask) : view (clearSoftOverCurrent s) = view s := by
  have hclear := view_faultClear_selfClearing FaultId.softOverCurrent.code (by decide)
    { s with socStreak := 0 }
  unfold clearSoftOverCurrent
  dsimp only at hclear ⊢
  split
  · split
    · exact hclear
    · exact hclear
  · rfl

theorem view_rampSoftOverCurrent (adv : Nat) (js : J1772State) (cpMv : Int) (s : SafetyTask) :
    view (rampSoftOverCurrent adv js cpMv s) = view s := by
  unfold rampSoftOverCurrent
  split
  · rfl
  · split
    · rfl
    · exact view_raiseFault_selfClearing (by decide) (by decide) js cpMv s

theorem view_checkSoftOverCurrent (i : TickInput) (bl : Bl0939Readings) (js : J1772State)
    (cpMv : Int) (s : SafetyTask) : view (checkSoftOverCurrent i bl js cpMv s) = view s := by
  unfold checkSoftOverCurrent
  split
  · rfl
  · split
    · rfl
    · split
      · rfl
      · dsimp only
        split
        · exact view_clearSoftOverCurrent s
        · split
          · rfl
          · exact view_rampSoftOverCurrent _ js cpMv s

theorem view_integrateEnergy (i : TickInput) (bl : Bl0939Readings) (s : SafetyTask) :
    view (integrateEnergy i bl s) = view s := by
  unfold integrateEnergy
  split
  · dsimp only
    split <;> rfl
  · rfl

/-- The metering block changes the interlock only by tripping it. -/
theorem detected_meteringStep (i : TickInput) (js : J1772State) (cpMv : Int) (s : SafetyTask) :
    Detected (view s) (view (meteringStep i js cpMv s)) := by
  unfold meteringStep
  split
  · exact .of_eq rfl
  · dsimp only
    rw [view_integrateEnergy, view_checkSoftOverCurrent]
    have hac := view_checkAcAbsent (bl0939Poll i.freqConst i.bl0939 s.readings) js cpMv
      { s with bl0939PollDiv := 0, readings := bl0939Poll i.freqConst i.bl0939 s.readings }
    have hs : view s = _ := hac.symm
    rw [hs]
    exact (detected_checkRelayWeldBl0939 i _ js cpMv _).trans <|
      (detected_checkRelayStuckOpenBl0939 i _ js cpMv _).trans <|
      detected_checkHardOverCurrent i _ js cpMv _

/-! ## Requests -/

theorem view_publishCleared (fid : Nat) (s : SafetyTask) :
    view (publishCleared fid s) = view s := by
  unfold publishCleared
  dsimp only
  split <;> rfl

theorem evse_publishCleared (fid : Nat) (s : SafetyTask) :
    (publishCleared fid s).evse = s.evse := congrArg Interlock.evse (view_publishCleared fid s)

theorem faults_publishCleared (fid : Nat) (s : SafetyTask) :
    (publishCleared fid s).faults = s.faults := by
  unfold publishCleared
  dsimp only
  split <;> rfl

theorem view_resetPilot (s : SafetyTask) :
    view (resetPilot s) = { view s with cp := j1772Init } := rfl

theorem view_leaveFaultIfClear (s : SafetyTask) :
    view (leaveFaultIfClear s) =
      if s.evse = .fault ∧ faultAnyLatchedActive s.faults = false then
        { (view s).move .ready with cp := j1772Init }
      else view s := by
  unfold leaveFaultIfClear
  split
  · rw [← view_evseTransition]
    rfl
  · rfl

/-- A fault clear that was not refused, for the fault set `f` it leaves. -/
theorem request_clearFault {s t : SafetyTask} {fid : Nat} {f : FaultState}
    (hsub : ∀ id, faultIsActive f id = true → faultIsActive s.faults id = true)
    (hgfci : faultIsActive f FaultId.gfci.code = faultIsActive s.faults FaultId.gfci.code)
    (hot : faultIsActive f FaultId.overTemp.code =
      (faultIsActive s.faults FaultId.overTemp.code && decide (fid ≠ FaultId.overTemp.code)))
    (ht : view t = view { s with faults := f }) (hf : t.faults = f) :
    Interlock.Request safetyReplugWindowTicks (view s) (.clearFault fid)
      (view (leaveFaultIfClear t)) := by
  have hle : faultAnyLatchedActive f = true → (view s).latched = true :=
    faultAnyLatchedActive_of_subset hsub
  have hg : (view s).gfci = true → faultAnyLatchedActive f = true := by
    intro hact
    have hf1 : faultIsActive f FaultId.gfci.code = true := hgfci.trans hact
    exact faultAnyLatchedActive_of (show FaultId.gfci.code < faultFirstSelfClearing by decide) hf1
  have hset : view { s with faults := f } =
      { view s with
        latched := faultAnyLatchedActive f
        overTemp := (view s).overTemp && decide (fid ≠ FaultId.overTemp.code) } := by
    simp only [view, hgfci, hot]
  have hev : t.evse = s.evse := congrArg Interlock.evse ht
  have hview : view (leaveFaultIfClear t) = (view s).clear fid (faultAnyLatchedActive f) := by
    rw [view_leaveFaultIfClear, ht, hset, hev, hf]
    rfl
  rw [hview]
  exact .clear fid _ hle hg

/-- Publishing the clear is not visible to the interlock. -/
theorem view_ite_publishCleared (p : Prop) [Decidable p] (fid : Nat) (s : SafetyTask) :
    view (if p then publishCleared fid s else s) = view s := by
  rw [apply_ite view, view_publishCleared, ite_self]

theorem faults_ite_publishCleared (p : Prop) [Decidable p] (fid : Nat) (s : SafetyTask) :
    (if p then publishCleared fid s else s).faults = s.faults := by
  rw [apply_ite SafetyTask.faults, faults_publishCleared, ite_self]

theorem request_processClearFault (fid : Nat) (s : SafetyTask) :
    Interlock.Request safetyReplugWindowTicks (view s) (.clearFault fid)
      (view (processClearFault fid s)) := by
  unfold processClearFault
  by_cases h0 : fid = 0
  · have hne : fid ≠ FaultId.overTemp.code := by
      subst h0
      decide
    rw [if_pos h0]
    refine request_clearFault (fun id => faultIsActive_of_clearAll)
      (faultIsActive_clearAll_gfci s.faults) ?_ (view_ite_publishCleared _ _ _)
      (faults_ite_publishCleared _ _ _)
    rw [faultIsActive_clearAll_selfClearing s.faults (Nat.le_refl _)]
    simp [hne]
  · rw [if_neg h0]
    by_cases hlt : fid < faultCount
    · rw [if_pos hlt]
      dsimp only
      split
      · exact .clearRefused fid
      · rename_i hneg
        have hng : FaultId.gfci.code ≠ fid := by
          rintro rfl
          rw [faultClear_gfci] at hneg
          exact hneg (show (-1 : Int) < 0 by decide)
        refine request_clearFault (fun id => faultIsActive_of_clear)
          (faultIsActive_clear_ne s.faults hng) ?_ (view_ite_publishCleared _ _ _)
          (faults_ite_publishCleared _ _ _)
        by_cases h16 : FaultId.overTemp.code = fid
        · rw [← h16, faultIsActive_clear_self s.faults (by decide)]
          simp
        · rw [faultIsActive_clear_ne s.faults h16]
          simp [Ne.symm h16]
    · rw [if_neg hlt]
      exact .clearRefused fid

theorem view_processUserPause (s : SafetyTask) :
    view (processUserPause s) = (view s).pause := by
  unfold processUserPause Interlock.pause
  rw [apply_ite view, view_evseTransition]
  rfl

theorem view_processUserResume (s : SafetyTask) :
    view (processUserResume s) = (view s).resume := by
  unfold processUserResume Interlock.resume
  rw [apply_ite view, view_evseTransition]
  rfl

theorem replugReady_iff (s : SafetyTask) :
    (plugPresent s.cp && replugAllowed s.evse) = true ↔ (view s).ReplugReady := by
  simp [plugPresent, replugAllowed, Interlock.ReplugReady, view, or_assoc]

theorem view_processSimulateReplug (s : SafetyTask) :
    view (processSimulateReplug s) = (view s).replug safetyReplugWindowTicks := by
  unfold processSimulateReplug Interlock.replug
  by_cases h : (view s).ReplugReady
  · rw [if_pos h, if_pos ((replugReady_iff s).mpr h), ← view_evseTransition]
    rfl
  · rw [if_neg h, if_neg (fun hr => h ((replugReady_iff s).mp hr))]

/-- Every request is one request step of the interlock. -/
theorem request_processRequest (i : TickInput) (r : SafetyReq) (s : SafetyTask) :
    Interlock.Request safetyReplugWindowTicks (view s) r (view (processRequest i r s)) := by
  cases r with
  | clearFault fid => exact request_processClearFault fid s
  | userPause reason =>
    rw [processRequest, view_processUserPause]
    exact .userPause reason
  | userResume =>
    rw [processRequest, view_processUserResume]
    exact .userResume
  | simulateReplug =>
    rw [processRequest, view_processSimulateReplug]
    exact .simulateReplug
  | rfidLearnArm => exact .rfidLearnArm
  | publishRfidConfig => exact .publishRfidConfig
  | publishGfciPolicy => exact .publishGfciPolicy
  | runGfciCalTest =>
    unfold processRequest
    dsimp only
    split
    · exact .runGfciCalTest
    · exact .runGfciCalTest

/-! ## The rest of the tick -/

theorem view_serviceReplugWindow (s : SafetyTask) :
    view (serviceReplugWindow s) = (view s).serviceWindow := by
  have hw : (view s).window = s.replugWindowTicks := rfl
  have hev : (view s).evse = s.evse := rfl
  unfold serviceReplugWindow Interlock.serviceWindow
  dsimp only
  rw [hw]
  by_cases h0 : s.replugWindowTicks = 0
  · rw [if_neg (by omega), if_pos h0]
  · rw [if_pos (by omega), if_neg h0]
    by_cases h1 : s.replugWindowTicks = 1
    · rw [if_pos (by omega), if_pos h1, view_resetPilot, apply_ite view, view_evseTransition,
        Interlock.resume, hev]
      have hset : view { s with replugWindowTicks := s.replugWindowTicks - 1 } =
          { view s with window := 0 } := by
        rw [h1]
        rfl
      rw [hset]
      by_cases hp : s.evse = .userPaused
      · rw [if_pos hp, if_pos hp]
        simp [Interlock.move, hev, hp]
      · rw [if_neg hp, if_neg hp]
    · rw [if_neg (by omega), if_neg h1]
      rfl

theorem view_readPilot (i : TickInput) (s : SafetyTask) :
    view (readPilot i s) = (view s).samplePilot i.cpHighMv j1772DebounceN := by
  unfold readPilot
  dsimp only
  split <;> rfl

theorem overTemp_checkOverTemp (fl : BuildFlags) (i : TickInput) (s : SafetyTask) :
    Interlock.OverTemp (view s) (view (checkOverTemp fl i s)) := by
  unfold checkOverTemp
  dsimp only
  generalize hr : overTempStep
    { s.otCtx with faultActive := faultIsActive s.faults FaultId.overTemp.code }
    i.adc.ntc1 i.adc.ac fl.ntc1Present fl.gunNtcPresent = r
  have hcases := overTempStep_cases
    { s.otCtx with faultActive := faultIsActive s.faults FaultId.overTemp.code }
    i.adc.ntc1 i.adc.ac fl.ntc1Present fl.gunNtcPresent
  rw [hr] at hcases
  rcases hcases with ⟨hact, hpre, hpost⟩ | ⟨hact, hpre, hpost⟩ | ⟨hact, hpost⟩
  · -- a trip edge: the fault is raised, and only FAULT is left alone
    have hraise : view (raiseFault .overTemp .invalid 0 { s with otCtx := r.2 }) =
        { view s with overTemp := true, tripped := true } := by
      rw [view_raiseFault (by decide)]
      have hg : ¬ FaultId.gfci.code = FaultId.overTemp.code := by decide
      simp [view, hpost, hg]
    have hev : (raiseFault .overTemp .invalid 0 { s with otCtx := r.2 }).evse = s.evse :=
      congrArg Interlock.evse hraise
    simp only [hact, if_true]
    rw [hev, apply_ite view, view_evseTransition, hraise]
    have htrip : (view s).overTemp = false := hpre
    by_cases hf : s.evse = .fault
    · have hvf : (view s).evse = .fault := hf
      have := Interlock.OverTemp.trip htrip
      simpa [hf, hvf] using this
    · have hvf : (view s).evse ≠ .fault := hf
      have := Interlock.OverTemp.trip htrip
      simpa [hf, hvf] using this
  · -- a clear edge: the bit goes, and COOLING_DOWN is left
    have hclear : view { s with
          otCtx := r.2
          faults := (faultClear s.faults FaultId.overTemp.code).2 } =
        { view s with overTemp := false, tripped := false } := by
      have hl := faultAnyLatchedActive_clear_selfClearing s.faults
        (Nat.le_refl FaultId.overTemp.code)
      have hg := faultIsActive_clear s.faults FaultId.overTemp.code FaultId.gfci.code
      have ho := faultIsActive_clear s.faults FaultId.overTemp.code FaultId.overTemp.code
      simp only [FaultId.code] at hl hg ho
      simp [view, hpost, FaultId.code, hl, hg, ho]
    simp only [hact, if_true, Bool.false_eq_true, if_false]
    rw [apply_ite view, view_evseTransition, hclear]
    exact Interlock.OverTemp.clear hpre
  · have hhold : view { s with otCtx := r.2 } =
        { view s with tripped := (view s).overTemp } := by
      simp [view, hpost]
    simp only [hact, if_false, Bool.false_eq_true]
    rw [hhold]
    exact .hold

/-- The detector step of a tick. -/
def overTempAction (fl : BuildFlags) (i : TickInput) (s : SafetyTask) : OverTempAction :=
  (overTempStep { s.otCtx with faultActive := faultIsActive s.faults FaultId.overTemp.code }
    i.adc.ntc1 i.adc.ac fl.ntc1Present fl.gunNtcPresent).1

/-- The check takes the bit away only on the clear edge of the detector. -/
theorem overTempAction_clear {fl : BuildFlags} {i : TickInput} {s : SafetyTask}
    (hon : (view s).overTemp = true) (hoff : (view (checkOverTemp fl i s)).overTemp = false) :
    (overTempAction fl i s).clear = true := by
  have hact : faultIsActive s.faults FaultId.overTemp.code = true := hon
  rcases overTempStep_cases
    { s.otCtx with faultActive := faultIsActive s.faults FaultId.overTemp.code }
    i.adc.ntc1 i.adc.ac fl.ntc1Present fl.gunNtcPresent with
    ⟨_, hpre, _⟩ | ⟨hedge, _, _⟩ | ⟨hedge, _⟩
  · exact absurd (hact.symm.trans hpre) (by decide)
  · unfold overTempAction
    rw [hedge]
  · exfalso
    have hsame : (view (checkOverTemp fl i s)).overTemp = (view s).overTemp := by
      unfold checkOverTemp
      dsimp only
      rw [hedge]
      rfl
    rw [hsame, hon] at hoff
    exact absurd hoff (by decide)

/-- The check moves the EVSE to COOLING_DOWN only on the trip edge. -/
theorem overTempAction_trip {fl : BuildFlags} {i : TickInput} {s : SafetyTask}
    (hne : s.evse ≠ .coolingDown) (he : (checkOverTemp fl i s).evse = .coolingDown) :
    (overTempAction fl i s).trip = true := by
  by_contra hno
  unfold overTempAction at hno
  unfold checkOverTemp at he
  dsimp only at he
  rw [if_neg hno] at he
  split at he <;> exact hne he

theorem view_clearAuthOnUnplug (i : TickInput) (s : SafetyTask) :
    view (clearAuthOnUnplug i s.cp.committed s) = (view s).dropAuth := by
  unfold clearAuthOnUnplug Interlock.dropAuth
  by_cases hA : s.cp.committed = .A
  · cases hauth : s.sessionAuthorized
    · simp [view, hauth]
    · simp [view, hA, publishRfidConfig, commsPublishEvent, emit]
  · simp [view, hA]

theorem view_updateCharging (i : TickInput) (s : SafetyTask) :
    view (updateCharging i s.cp.committed s) =
      ((view s).countDwell evseCDwellTicks).charge evseCDwellTicks (!i.requireRfidAuth) := by
  unfold updateCharging Interlock.charge
  dsimp only
  have hcount : view { s with
        evseCStreak := if s.cp.committed = .C then bump evseCDwellTicks s.evseCStreak else 0 } =
      (view s).countDwell evseCDwellTicks := rfl
  rw [apply_ite view, apply_ite view, view_evseTransition, view_evseTransition, hcount,
    if_congr Interlock.mayCharge_iff rfl rfl]
  rfl

theorem view_updateEvseFromJ1772 (i : TickInput) (s : SafetyTask) :
    view (updateEvseFromJ1772 i s.cp.committed s) =
      (view s).update evseCDwellTicks (!i.requireRfidAuth) := by
  have hauth := view_clearAuthOnUnplug i s
  unfold updateEvseFromJ1772 Interlock.update
  generalize clearAuthOnUnplug i s.cp.committed s = t at hauth
  have hcp : t.cp = s.cp := congrArg Interlock.cp hauth
  have hev : t.evse = (view s).evse := congrArg Interlock.evse hauth
  have hzero : view { t with evseCStreak := 0 } = { (view s).dropAuth with dwell := 0 } := by
    rw [← hauth]
    rfl
  dsimp only at hzero ⊢
  by_cases he : s.evse = .fault ∨ s.evse = .boot ∨ s.evse = .selfTest ∨ s.evse = .coolingDown
  · have he' : (view s).evse = .fault ∨ (view s).evse = .boot ∨ (view s).evse = .selfTest ∨
        (view s).evse = .coolingDown := he
    rw [if_pos he, if_pos he']
    rfl
  · have he' : ¬ ((view s).evse = .fault ∨ (view s).evse = .boot ∨ (view s).evse = .selfTest ∨
        (view s).evse = .coolingDown) := he
    rw [if_neg he, if_neg he']
    by_cases hp : (view s).evse = .userPaused
    · rw [if_pos hp, if_pos (hev.trans hp), apply_ite view, view_evseTransition, hzero]
      rfl
    · rw [if_neg hp, if_neg (fun h => hp (hev ▸ h)), ← hauth, ← view_updateCharging, hcp]

theorem view_checkCpRegression (js : J1772State) (cpMv : Int) (s : SafetyTask) :
    view (checkCpRegression js cpMv s) = view s := by
  unfold checkCpRegression
  split
  · exact view_postFaultEvent _ js cpMv s
  · rfl

/-- Advertising a current never drives the pilot to state F. -/
theorem cpPwmSetAdvertiseAmps_cpCcr (amps : Nat) (s : SafetyTask) :
    (cpPwmSetAdvertiseAmps amps s).cpCcr ≠ cpPwmCcrLow := by
  unfold cpPwmSetAdvertiseAmps
  split
  · simp [cpPwmSetIdleHigh, cpPwmCcrHigh, cpPwmCcrLow]
  · dsimp only [cpPwmCcrLow]
    repeat' split
    all_goals omega

theorem view_applyRelayState (s : SafetyTask) :
    view (applyRelayState s.cp.committed s) =
      { view s with
        closed := decide (s.evse = .charging) && decide (s.cp.committed = .C)
          && !faultAnyLatchedActive s.faults } := by
  unfold applyRelayState
  dsimp only
  generalize (decide (s.evse = .charging) && decide (s.cp.committed = .C)
    && !faultAnyLatchedActive s.faults) = want
  cases want <;> cases hm : s.mainCmd <;>
    simp [view, relayMainClose, relayMainOpen, hm]

theorem view_applyCpForState (i : TickInput) (js : J1772State) (s : SafetyTask) :
    view (applyCpForState i js s) =
      { view s with
        pilotF := decide (0 < s.replugWindowTicks) || decide (s.evse = .fault) } := by
  have hlow : cpPwmCcrHigh ≠ cpPwmCcrLow := by decide
  unfold applyCpForState
  by_cases hw : 0 < s.replugWindowTicks
  · simp [hw, view, cpPwmSetStateF]
  · by_cases hf : s.evse = .fault
    · simp [hw, hf, view, cpPwmSetStateF]
    · have hidle : view (cpPwmSetIdleHigh s) = { view s with pilotF := false } := by
        simp [view, cpPwmSetIdleHigh, hlow]
      have hadv : ∀ amps, view (cpPwmSetAdvertiseAmps amps s) =
          { view s with pilotF := false } := by
        intro amps
        have hne := cpPwmSetAdvertiseAmps_cpCcr amps s
        have hrest : { view (cpPwmSetAdvertiseAmps amps s) with pilotF := false } =
            ({ view s with pilotF := false } : Interlock) := by
          unfold cpPwmSetAdvertiseAmps
          split <;> rfl
        rw [← hrest]
        simp [view, hne]
      simp only [hw, hf, if_false, decide_false, Bool.or_self]
      repeat' split
      all_goals first | exact hidle | exact hadv _

/-- The outputs of a tick, for the pilot state the tick committed. -/
theorem view_applyOutputs (i : TickInput) (cpMv : Int) (s : SafetyTask) :
    view (applyOutputs i s.cp.committed cpMv s) = (view s).outputs := by
  have hreg := view_checkCpRegression s.cp.committed cpMv s
  generalize ht : checkCpRegression s.cp.committed cpMv s = t at hreg
  have hcp : t.cp = s.cp := congrArg Interlock.cp hreg
  have hout : view (applyOutputs i s.cp.committed cpMv s) =
      view (applyCpForState i s.cp.committed (applyRelayState s.cp.committed t)) := by
    unfold applyOutputs
    rw [ht]
    rfl
  have hrel := view_applyRelayState t
  rw [hcp] at hrel
  have hwin : (applyRelayState s.cp.committed t).replugWindowTicks = t.replugWindowTicks :=
    congrArg Interlock.window hrel
  have hev : (applyRelayState s.cp.committed t).evse = t.evse := congrArg Interlock.evse hrel
  rw [hout, view_applyCpForState, hrel, hwin, hev, ← hreg]
  rw [← hcp]
  rfl

/-! ## RFID -/

/-- A card of the authorised list was put on the reader, and no learning is
armed: the swipe that grants a session. -/
def swipeAuthorized (i : TickInput) (s : SafetyTask) : Bool :=
  let a := (rfidFeed s.rfidCtx i.rfidRx).2.2
  decide (i.rfidRx ≠ []) && a.edge && a.present && decide (a.uid ≠ 0)
    && decide (s.rfidLearnTicks = 0) && i.authlist.contains a.uid

theorem view_rfidTimers (s : SafetyTask) : view (rfidTimers s) = view s := by
  unfold rfidTimers
  dsimp only
  split <;> rfl

theorem view_rfidGrant (i : TickInput) (σ : System) :
    view (rfidGrant i σ).2.task = (view σ.task).authorize true := by
  have hgrant : (view σ.task).authorize true = { view σ.task with authorized := true } := by
    simp [Interlock.authorize]
  rw [hgrant]
  unfold rfidGrant
  dsimp only
  cases σ.task.sessionAuthorized <;> rfl

theorem authorize_false (c : Interlock) : c.authorize false = c := by
  simp [Interlock.authorize]

theorem view_rfidCard (i : TickInput) (uid : Nat) (σ : System) :
    view (rfidCard i uid σ).2.task =
      (view σ.task).authorize
        (decide (σ.task.rfidLearnTicks = 0) && i.authlist.contains uid) := by
  unfold rfidCard
  dsimp only
  by_cases hlearn : σ.task.rfidLearnTicks = 0
  · rw [if_neg (by omega), decide_eq_true hlearn, Bool.true_and]
    cases hin : i.authlist.contains uid
    · rw [if_neg (by simp), authorize_false]
    · rw [if_pos rfl, view_rfidGrant]
  · rw [if_pos (by omega), decide_eq_false hlearn, Bool.false_and, authorize_false]
    split <;> rfl

theorem view_rfidEdge (i : TickInput) (a : RfidAction) (σ : System) :
    view (rfidEdge i a σ).task =
      (view σ.task).authorize (a.present && decide (a.uid ≠ 0) &&
        (decide (σ.task.rfidLearnTicks = 0) && i.authlist.contains a.uid)) := by
  unfold rfidEdge
  dsimp only
  cases hcard : (a.present && decide (a.uid ≠ 0))
  · rw [if_neg (by simp), Bool.false_and, authorize_false]
    rfl
  · rw [if_pos rfl, view_commsPublishEvent, view_rfidCard, Bool.true_and]
    rfl

theorem view_rfidReceive (i : TickInput) (σ : System) :
    view (rfidReceive i σ).task = (view σ.task).authorize (swipeAuthorized i σ.task) := by
  unfold rfidReceive swipeAuthorized
  dsimp only
  by_cases hrx : i.rfidRx = []
  · simp [hrx, authorize_false]
  · rw [if_neg hrx, decide_eq_true hrx, Bool.true_and]
    generalize rfidFeed σ.task.rfidCtx i.rfidRx = r
    cases hedge : r.2.2.edge
    · simp [view, Interlock.authorize]
    · rw [if_pos rfl, view_rfidEdge]
      simp only [Bool.true_and, Bool.and_assoc]
      rfl

/-- The RFID block changes the interlock only by granting the session, and does
so exactly on an authorised swipe. -/
theorem view_rfidStep (i : TickInput) (σ : System) :
    view (rfidStep i σ).task = (view σ.task).authorize (swipeAuthorized i σ.task) := by
  unfold rfidStep
  dsimp only
  rw [view_rfidTimers, view_rfidReceive]

end OpenEVCharger
