import OpenEVCharger.Safety.Run

/-!
# What the operations of a tick leave alone

Most operations of a tick reach the session, the derating and the counters of the metering
block through a transition of the EVSE, if at all. One view of these holds what they have in
common, and each operation is one transition at most as far as the view goes.
-/

namespace OpenEVCharger

/-! ## The view -/

def isSessionEvent : CommsEvent → Bool
  | .sessionBegan _ | .sessionEnded .. => true
  | _ => false

/-- The session events among the outputs, oldest first. -/
def sessionEvents (outputs : List Output) : List CommsEvent :=
  outputs.filterMap fun
    | .publish e => if isSessionEvent e then some e else none
    | _ => none

/-- What a session is made of: the EVSE state, whether a session is active, its
milliwatt-seconds, and the events published. -/
structure SessionView where
  evse : EvseState
  active : Bool
  mws : Int
  events : List CommsEvent

def sessionView (s : SafetyTask) : SessionView :=
  ⟨s.evse, s.session.active, s.session.mwsAccum, sessionEvents s.outputs⟩

/-- What the metering block remembers from poll to poll, the weld detector's view of the
contactor apart. -/
structure MeterView where
  acAbsentStreak : Nat
  weldBlStreak : Nat
  stuckOpenBlStreak : Nat
  hocStreak : Nat
  socStreak : Nat
  readings : Bl0939Readings
  bl0939PollDiv : Nat

def meterView (s : SafetyTask) : MeterView :=
  ⟨s.acAbsentStreak, s.weldBlStreak, s.stuckOpenBlStreak, s.hocStreak, s.socStreak, s.readings,
    s.bl0939PollDiv⟩

/-- What is reached through transitions only, apart from the checks of the metering block. -/
structure CoreView where
  session : SessionView
  derate : Nat
  meter : MeterView

def coreView (s : SafetyTask) : CoreView := ⟨sessionView s, s.socDerateAmps, meterView s⟩

variable {s s' u : SafetyTask} {i : TickInput} {js : J1772State} {cpMv : Int} {fid : FaultId}

theorem sessionEvents_append (xs ys : List Output) :
    sessionEvents (xs ++ ys) = sessionEvents xs ++ sessionEvents ys :=
  List.filterMap_append

theorem coreView_emit {o : Output} (h : sessionEvents [o] = []) (s : SafetyTask) :
    coreView (emit o s) = coreView s := by
  have hsession : sessionView (emit o s) = sessionView s := by
    rw [sessionView, emit, sessionEvents_append, h, List.append_nil]
    rfl
  rw [coreView, hsession]
  rfl

theorem coreView_publish {e : CommsEvent} (h : isSessionEvent e = false) (s : SafetyTask) :
    coreView (commsPublishEvent e s) = coreView s :=
  coreView_emit (by simp [sessionEvents, h]) s

theorem coreView_postFaultEvent (fid : FaultId) (js : J1772State) (cpMv : Int)
    (s : SafetyTask) : coreView (postFaultEvent fid js cpMv s) = coreView s := by
  rw [postFaultEvent, coreView_publish rfl]
  split
  · exact coreView_emit rfl s
  · exact coreView_emit rfl s

theorem coreView_raiseFault (fid : FaultId) (js : J1772State) (cpMv : Int) (s : SafetyTask) :
    coreView (raiseFault fid js cpMv s) = coreView s := by
  rw [raiseFault]
  split
  · exact coreView_postFaultEvent ..
  · rfl

/-- At most one transition of the EVSE, and nothing else of what is viewed. -/
def Through (s s' : SafetyTask) : Prop :=
  ∃ u next, coreView u = coreView s ∧ coreView s' = coreView (evseTransition next u)

theorem evseTransition_same (s : SafetyTask) : evseTransition s.evse s = s := by
  rw [evseTransition, if_pos rfl]

theorem Through.quiet (h : coreView s' = coreView s) : Through s s' :=
  ⟨s, s.evse, rfl, by rw [evseTransition_same, h]⟩

theorem Through.transition (next : EvseState) (h : coreView u = coreView s) :
    Through s (evseTransition next u) := ⟨u, next, h, rfl⟩

theorem Through.then (h : Through s u) (hquiet : coreView s' = coreView u) : Through s s' := by
  obtain ⟨v, next, hv, hu⟩ := h
  exact ⟨v, next, hv, hquiet.trans hu⟩

theorem Through.first (hquiet : coreView u = coreView s) (h : Through u s') : Through s s' := by
  obtain ⟨v, next, hv, hs'⟩ := h
  exact ⟨v, next, hv.trans hquiet, hs'⟩

theorem through_raiseToFault (h : coreView u = coreView s) :
    Through s (raiseToFault fid js cpMv u) :=
  .transition .fault ((coreView_raiseFault ..).trans h)

theorem through_latchAfter {need streak : Nat} (h : coreView u = coreView s) :
    Through s (latchAfter need streak fid js cpMv u) := by
  rw [latchAfter]
  split
  · exact through_raiseToFault h
  · exact .quiet h

/-! ### Requests -/

theorem coreView_publishCleared (fid : Nat) (s : SafetyTask) :
    coreView (publishCleared fid s) = coreView s := by
  rw [publishCleared]
  split
  · exact coreView_publish rfl s
  · exact coreView_publish rfl s

theorem through_leaveFaultIfClear (h : coreView u = coreView s) :
    Through s (leaveFaultIfClear u) := by
  rw [leaveFaultIfClear]
  split
  · exact (Through.transition .ready h).then rfl
  · exact .quiet h

theorem through_processClearFault (fid : Nat) (s : SafetyTask) : Through s (processClearFault fid s) := by
  have hcleared : ∀ (p : Prop) [Decidable p] (f : FaultState),
      coreView (if p then publishCleared fid { s with faults := f } else { s with faults := f }) =
        coreView s := by
    intro p _ f
    split
    · exact coreView_publishCleared fid { s with faults := f }
    · rfl
  rw [processClearFault]
  split
  · exact through_leaveFaultIfClear (hcleared _ _)
  split
  · dsimp only
    split
    · exact .quiet rfl
    · exact through_leaveFaultIfClear (hcleared _ _)
  · exact .quiet rfl

theorem through_processRequest (i : TickInput) (r : SafetyReq) (s : SafetyTask) :
    Through s (processRequest i r s) := by
  cases r with
  | clearFault fid => exact through_processClearFault fid s
  | userPause reason =>
    rw [processRequest, processUserPause]
    split
    · exact .transition .userPaused rfl
    · exact .quiet rfl
  | userResume =>
    rw [processRequest, processUserResume]
    split
    · exact .transition .ready rfl
    · exact .quiet rfl
  | rfidLearnArm => exact .quiet rfl
  | publishRfidConfig => exact .quiet (coreView_publish rfl s)
  | publishGfciPolicy => exact .quiet (coreView_publish rfl s)
  | simulateReplug =>
    rw [processRequest, processSimulateReplug]
    split
    · exact (Through.transition .userPaused rfl).then rfl
    · exact .quiet rfl
  | runGfciCalTest =>
    rw [processRequest]
    split
    · exact .quiet rfl
    · exact .quiet (coreView_emit rfl s)

/-! ### The control operations -/

theorem through_serviceReplugWindow (s : SafetyTask) : Through s (serviceReplugWindow s) := by
  have hmove : ∀ u, coreView u = coreView s → Through s (resetPilot (evseTransition .ready u)) :=
    fun _ hu => (Through.transition .ready hu).then rfl
  rw [serviceReplugWindow]
  split
  · dsimp only
    split
    · split
      · exact hmove _ rfl
      · exact .quiet rfl
    · exact .quiet rfl
  · exact .quiet rfl

theorem through_readPilot (i : TickInput) (s : SafetyTask) : Through s (readPilot i s) := by
  rw [readPilot]
  dsimp only
  split
  · exact .quiet (coreView_publish rfl _)
  · exact .quiet rfl

theorem through_checkSafeFail (safeFail : Bool) (js : J1772State) (cpMv : Int) (s : SafetyTask) :
    Through s (checkSafeFail safeFail js cpMv s) := by
  rw [checkSafeFail]
  split
  · exact through_raiseToFault rfl
  · exact .quiet rfl

/-- Without a closed-feedback signal the weld detector never latches. -/
theorem through_checkRelayFeedback (fl : BuildFlags) (js : J1772State) (cpMv : Int) (s : SafetyTask) :
    Through s (checkRelayFeedback fl js cpMv s) := by
  have hweld : coreView (checkRelayWeld relayMainSenseClosed js cpMv s) = coreView s := by
    have hsense : relayMainSenseClosed = false := rfl
    rw [checkRelayWeld, hsense, Bool.false_and, if_neg Bool.false_ne_true, latchAfter, if_neg]
    · rfl
    · rintro ⟨hneed, -⟩
      exact absurd hneed (by decide)
  rw [checkRelayFeedback]
  split
  · refine .first hweld ?_
    rw [checkRelayStuckOpen]
    split
    · exact .quiet rfl
    · exact through_latchAfter rfl
  · exact .quiet rfl

theorem through_checkGfci (i : TickInput) (js : J1772State) (cpMv : Int) (s : SafetyTask) :
    Through s (checkGfci i js cpMv s) := by
  rw [checkGfci]
  split
  · exact .quiet rfl
  · exact .quiet (coreView_postFaultEvent ..)
  · exact through_raiseToFault rfl

theorem through_checkPeContinuity (fl : BuildFlags) (i : TickInput) (js : J1772State) (cpMv : Int)
    (s : SafetyTask) : Through s (checkPeContinuity fl i js cpMv s) := by
  have hlog : coreView (logPe i js s) = coreView s := by
    rw [logPe]
    split
    · exact coreView_publish rfl _
    · rfl
  rw [checkPeContinuity]
  split
  · exact .quiet rfl
  · refine .first hlog ?_
    dsimp only
    split
    · exact through_latchAfter rfl
    · exact .quiet rfl

theorem through_checkAdcRuntime (i : TickInput) (js : J1772State) (cpMv : Int) (s : SafetyTask) :
    Through s (checkAdcRuntime i js cpMv s) := by
  rw [checkAdcRuntime]
  split
  · exact .quiet rfl
  · exact through_latchAfter rfl

theorem through_checkCcOutOfRange (fl : BuildFlags) (i : TickInput) (js : J1772State) (cpMv : Int)
    (s : SafetyTask) : Through s (checkCcOutOfRange fl i js cpMv s) := by
  rw [checkCcOutOfRange]
  split
  · exact .quiet rfl
  split
  · exact .quiet rfl
  · exact through_latchAfter rfl

theorem through_checkCpE (js : J1772State) (cpMv : Int) (s : SafetyTask) :
    Through s (checkCpE js cpMv s) := by
  rw [checkCpE]
  split
  · exact .quiet rfl
  · exact through_latchAfter rfl

theorem through_checkOverTemp (fl : BuildFlags) (i : TickInput) (s : SafetyTask) :
    Through s (checkOverTemp fl i s) := by
  rw [checkOverTemp]
  dsimp only
  split
  · split
    · exact .transition .coolingDown (coreView_raiseFault ..)
    · exact .quiet (coreView_raiseFault ..)
  split
  · split
    · exact .transition .ready rfl
    · exact .quiet rfl
  · exact .quiet rfl

theorem through_updateEvseFromJ1772 (i : TickInput) (js : J1772State) (s : SafetyTask) :
    Through s (updateEvseFromJ1772 i js s) := by
  have hunplug : coreView (clearAuthOnUnplug i js s) = coreView s := by
    rw [clearAuthOnUnplug]
    split
    · exact coreView_publish rfl _
    · rfl
  rw [updateEvseFromJ1772]
  split
  · exact .quiet rfl
  · refine .first hunplug ?_
    dsimp only
    split
    · split
      · exact .transition .ready rfl
      · exact .quiet rfl
    · rw [updateCharging]
      dsimp only
      generalize (if js = .C then bump evseCDwellTicks (clearAuthOnUnplug i js s).evseCStreak
        else 0) = streak
      split
      · exact .transition .charging rfl
      split
      · exact .transition .ready rfl
      · exact .quiet rfl

theorem through_applyOutputs (i : TickInput) (js : J1772State) (cpMv : Int) (s : SafetyTask) :
    Through s (applyOutputs i js cpMv s) := by
  have hregress : coreView (checkCpRegression js cpMv s) = coreView s := by
    rw [checkCpRegression]
    split
    · exact coreView_postFaultEvent ..
    · rfl
  have hrelay : ∀ s, coreView (applyRelayState js s) = coreView s := by
    intro s
    rw [applyRelayState]
    split
    · rfl
    split
    · rfl
    · rfl
  have hpilot : ∀ s, coreView (applyCpForState i js s) = coreView s := by
    intro s
    have hamps : ∀ amps, coreView (cpPwmSetAdvertiseAmps amps s) = coreView s := by
      intro amps
      rw [cpPwmSetAdvertiseAmps]
      split
      · rfl
      · rfl
    rw [applyCpForState]
    split
    · rfl
    split
    · rfl
    split
    · rfl
    split
    · rfl
    split
    · exact hamps _
    · rfl
  refine .quiet ?_
  rw [applyOutputs]
  exact (hpilot _).trans ((hrelay _).trans hregress)

/-! ### Metering and RFID -/

/-! ### RFID -/

theorem coreView_rfidCard (i : TickInput) (uid : Nat) (σ : System) :
    coreView (rfidCard i uid σ).2.task = coreView σ.task := by
  rw [rfidCard]
  split
  · dsimp only
    split
    · rfl
    · exact coreView_emit rfl _
  split
  · rw [rfidGrant]
    dsimp only
    split
    · rfl
    · exact coreView_publish rfl _
  · rfl

theorem through_rfidStep (i : TickInput) (σ : System) : Through σ.task (rfidStep i σ).task := by
  have hedge : ∀ a σ, coreView (rfidEdge i a σ).task = coreView σ.task := by
    intro a σ
    rw [rfidEdge]
    dsimp only
    split
    · rw [coreView_publish rfl, coreView_rfidCard, coreView_publish rfl]
    · exact coreView_publish rfl _
  have hreceive : coreView (rfidReceive i σ).task = coreView σ.task := by
    rw [rfidReceive]
    split
    · rfl
    · dsimp only
      split
      · exact hedge _ _
      · rfl
  refine .quiet ?_
  rw [rfidStep]
  dsimp only
  rw [rfidTimers]
  dsimp only
  split
  · exact (coreView_emit rfl _).trans hreceive
  · exact hreceive

/-! ## The parts of the view -/

/-- At most one transition of the EVSE, and nothing else that a session could notice. -/
def Via (s s' : SafetyTask) : Prop :=
  ∃ u next, sessionView u = sessionView s ∧ sessionView s' = sessionView (evseTransition next u)

theorem Through.via (h : Through s s') : Via s s' := by
  obtain ⟨u, next, hu, hs'⟩ := h
  exact ⟨u, next, congrArg CoreView.session hu, congrArg CoreView.session hs'⟩

theorem meterView_sessionEnd (reason : SessionEndReason) (s : SafetyTask) :
    meterView (sessionEnd reason s) = meterView s := by
  have hderate : ∀ s, meterView (clearSocDerateForSessionEnd s) = meterView s := by
    intro s
    rw [clearSocDerateForSessionEnd]
    split
    · rfl
    · rfl
  rw [sessionEnd]
  split
  · rfl
  · dsimp only
    rw [hderate]
    split
    · rfl
    · rfl

theorem meterView_evseTransition (next : EvseState) (s : SafetyTask) :
    meterView (evseTransition next s) = meterView s := by
  have hsession : meterView
      (if next = .charging then sessionStart s
      else if s.evse = .charging then
        sessionEnd (if next = .fault then .fault else .normal) s
      else s) = meterView s := by
    split
    · rfl
    split
    · exact meterView_sessionEnd ..
    · rfl
  rw [evseTransition]
  split
  · rfl
  · dsimp only
    rw [← hsession]
    generalize (if next = .charging then sessionStart s
      else if s.evse = .charging then
        sessionEnd (if next = .fault then .fault else .normal) s
      else s) = u
    split
    · rfl
    split
    · rfl
    · rfl

theorem Through.meter (h : Through s s') : meterView s' = meterView s := by
  obtain ⟨u, next, hu, hs'⟩ := h
  have hafter : meterView s' = meterView (evseTransition next u) := congrArg CoreView.meter hs'
  rw [hafter, meterView_evseTransition]
  exact congrArg CoreView.meter hu

end OpenEVCharger
