import OpenEVCharger.Safety.Frames

/-!
# Sessions

A tick is a sequence of operations, each of which changes the EVSE state at most once. A
session is begun and ended with the CHARGING state it accompanies, whichever operation enters
or leaves it, and its energy is that of the polls whose integration falls inside.
-/

namespace OpenEVCharger

/-! ## The operations of a tick -/

/-- One operation of a tick, with the milliwatt-seconds that a poll of the metering chip
accounts for at its integration point; any other operation accounts for none. -/
structure TaskOp where
  run : SafetyTask → SafetyTask
  energy : Int

/-- 400 ms at the power read, in milliwatt-seconds; power the other way does not count. -/
def pollEnergy (i : TickInput) (bl : Bl0939Readings) : Int :=
  max 0 (bl.aWatt * i.paUwPerRaw) * 400 / 1000000

def plainOps (fs : List (SafetyTask → SafetyTask)) : List TaskOp := fs.map fun f => ⟨f, 0⟩

/-- The operations before the metering block. -/
def controlOps (fl : BuildFlags) (i : TickInput) (σ : System) : List (SafetyTask → SafetyTask) :=
  let js := (beforeDetectors i σ).cp.committed
  let cpMv := i.cpHighMv
  [fun s => { s with tickCount := i.tickCount }] ++
  (received i σ).map (processRequest i) ++
  [serviceReplugWindow, readPilot i, checkSafeFail i.crashSafeFail js cpMv,
    checkRelayFeedback fl js cpMv, checkGfci i js cpMv, checkPeContinuity fl i js cpMv,
    checkAdcRuntime i js cpMv, checkCcOutOfRange fl i js cpMv, checkCpE js cpMv,
    checkOverTemp fl i, updateEvseFromJ1772 i (beforeUpdate fl i σ).cp.committed,
    applyOutputs i (afterUpdate fl i σ).cp.committed cpMv]

/-- The operations of the metering block up to the integration, in a tick that polls. -/
def pollOps (i : TickInput) (bl : Bl0939Readings) (js : J1772State) :
    List (SafetyTask → SafetyTask) :=
  [fun s => { s with bl0939PollDiv := 0, readings := bl }, checkAcAbsent bl js i.cpHighMv,
    checkRelayWeldBl0939 i bl js i.cpHighMv, checkRelayStuckOpenBl0939 i bl js i.cpHighMv,
    checkHardOverCurrent i bl js i.cpHighMv, checkSoftOverCurrent i bl js i.cpHighMv]

/-- The operations of `meteringStep` in the state `s`. -/
def meteringOps (i : TickInput) (js : J1772State) (s : SafetyTask) : List TaskOp :=
  if s.bl0939PollDiv + 1 < bl0939PollTicks then
    plainOps [fun s => { s with bl0939PollDiv := s.bl0939PollDiv + 1 }]
  else
    let bl := bl0939Poll i.freqConst i.bl0939 s.readings
    plainOps (pollOps i bl js) ++ [⟨integrateEnergy i bl, pollEnergy i bl⟩]

def beforeMetering (fl : BuildFlags) (i : TickInput) (σ : System) : SafetyTask :=
  let s := afterUpdate fl i σ
  applyOutputs i s.cp.committed i.cpHighMv s

/-- The operations of a tick, in their order. -/
def tickOps (fl : BuildFlags) (i : TickInput) (σ : System) : List TaskOp :=
  plainOps (controlOps fl i σ) ++
  meteringOps i (afterUpdate fl i σ).cp.committed (beforeMetering fl i σ) ++
  plainOps [fun s => (rfidStep i ⟨s, (beforeRfid fl i σ).inbox⟩).task]

/-- An operation in the state it is applied to. -/
abbrev TaskStep := SafetyTask × TaskOp

def TaskStep.before (st : TaskStep) : SafetyTask := st.1

def TaskStep.after (st : TaskStep) : SafetyTask := st.2.run st.1

def TaskStep.energy (st : TaskStep) : Int := st.2.energy

def tickSteps (fl : BuildFlags) (i : TickInput) (σ : System) : List TaskStep :=
  foldTrace TaskOp.run σ.task (tickOps fl i σ)

/-- The steps of the first `n` ticks of a run. -/
def taskSteps (fl : BuildFlags) (b : BootInput) (ins : ℕ → TickInput) (n : ℕ) : List TaskStep :=
  (List.range n).flatMap fun k => tickSteps fl (ins k) (safetyRun fl b ins k)

theorem foldl_plainOps (fs : List (SafetyTask → SafetyTask)) (s : SafetyTask) :
    (plainOps fs).foldl (fun s op => op.run s) s = fs.foldl (fun s f => f s) s := by
  rw [plainOps, List.foldl_map]

theorem foldl_controlOps (fl : BuildFlags) (i : TickInput) (σ : System) :
    (controlOps fl i σ).foldl (fun s f => f s) σ.task = beforeMetering fl i σ := by
  rw [controlOps, List.foldl_append, List.foldl_append, List.foldl_map]
  have hdrain := drainInbox_task i σ
  rw [System.atTick] at hdrain
  simp only [List.foldl_cons, List.foldl_nil]
  rw [← hdrain]
  rfl

theorem foldl_meteringOps (i : TickInput) (js : J1772State) (s : SafetyTask) :
    (meteringOps i js s).foldl (fun s op => op.run s) s = meteringStep i js i.cpHighMv s := by
  rw [meteringOps, meteringStep]
  split
  · rfl
  · rw [List.foldl_append, foldl_plainOps]
    rfl

/-- The operations of a tick, one after the other, are the tick. -/
theorem foldl_tickOps (fl : BuildFlags) (i : TickInput) (σ : System) :
    (tickOps fl i σ).foldl (fun s op => op.run s) σ.task = (tick fl i σ).task := by
  rw [tickOps, List.foldl_append, List.foldl_append, foldl_plainOps (controlOps fl i σ),
    foldl_controlOps,
    foldl_meteringOps, foldl_plainOps]
  rfl
/-! ## What an operation does to the session -/

variable {s s' u : SafetyTask} {i : TickInput} {js : J1772State} {cpMv : Int} {fid : FaultId}
  {bl : Bl0939Readings}

theorem sessionView_publish {e : CommsEvent} (h : isSessionEvent e = false) (s : SafetyTask) :
    sessionView (commsPublishEvent e s) = sessionView s :=
  congrArg CoreView.session (coreView_publish h s)

theorem sessionView_raiseFault (fid : FaultId) (js : J1772State) (cpMv : Int) (s : SafetyTask) :
    sessionView (raiseFault fid js cpMv s) = sessionView s :=
  congrArg CoreView.session (coreView_raiseFault fid js cpMv s)

theorem Via.quiet (h : sessionView s' = sessionView s) : Via s s' :=
  ⟨s, s.evse, rfl, by rw [evseTransition_same, h]⟩

theorem Via.transition (next : EvseState) (h : sessionView u = sessionView s) :
    Via s (evseTransition next u) := ⟨u, next, h, rfl⟩

theorem Via.then (h : Via s u) (hquiet : sessionView s' = sessionView u) : Via s s' := by
  obtain ⟨v, next, hv, hu⟩ := h
  exact ⟨v, next, hv, hquiet.trans hu⟩

theorem Via.first (hquiet : sessionView u = sessionView s) (h : Via u s') : Via s s' := by
  obtain ⟨v, next, hv, hs'⟩ := h
  exact ⟨v, next, hv.trans hquiet, hs'⟩

theorem via_latchAfter {need streak : Nat} (h : sessionView u = sessionView s) :
    Via s (latchAfter need streak fid js cpMv u) :=
  .first h (through_latchAfter rfl).via

theorem via_checkAcAbsent (bl : Bl0939Readings) (js : J1772State) (cpMv : Int) (s : SafetyTask) :
    Via s (checkAcAbsent bl js cpMv s) := by
  rw [checkAcAbsent]
  dsimp only
  split
  · exact .quiet rfl
  split
  · split
    · exact .quiet (sessionView_raiseFault ..)
    · exact .quiet rfl
  · split
    · exact .quiet rfl
    · exact .quiet rfl

theorem via_checkRelayWeldBl0939 (i : TickInput) (bl : Bl0939Readings) (js : J1772State)
    (cpMv : Int) (s : SafetyTask) : Via s (checkRelayWeldBl0939 i bl js cpMv s) := by
  rw [checkRelayWeldBl0939]
  dsimp only
  split
  · exact .quiet rfl
  split
  · exact .quiet rfl
  split
  · exact .quiet rfl
  · exact via_latchAfter rfl

theorem via_checkRelayStuckOpenBl0939 (i : TickInput) (bl : Bl0939Readings) (js : J1772State)
    (cpMv : Int) (s : SafetyTask) : Via s (checkRelayStuckOpenBl0939 i bl js cpMv s) := by
  rw [checkRelayStuckOpenBl0939]
  dsimp only
  split
  · exact .quiet rfl
  split
  · exact .quiet rfl
  split
  · exact .quiet rfl
  · exact via_latchAfter rfl

theorem via_checkHardOverCurrent (i : TickInput) (bl : Bl0939Readings) (js : J1772State)
    (cpMv : Int) (s : SafetyTask) : Via s (checkHardOverCurrent i bl js cpMv s) := by
  rw [checkHardOverCurrent]
  dsimp only
  split
  · exact .quiet rfl
  split
  · exact .quiet rfl
  split
  · exact .quiet rfl
  · exact via_latchAfter rfl

theorem via_checkSoftOverCurrent (i : TickInput) (bl : Bl0939Readings) (js : J1772State)
    (cpMv : Int) (s : SafetyTask) : Via s (checkSoftOverCurrent i bl js cpMv s) := by
  have hclear : sessionView (clearSoftOverCurrent s) = sessionView s := by
    rw [clearSoftOverCurrent]
    dsimp only
    split
    · split
      · exact sessionView_publish rfl _
      · rfl
    · rfl
  have hramp : ∀ adv, sessionView (rampSoftOverCurrent adv js cpMv s) = sessionView s := by
    intro adv
    rw [rampSoftOverCurrent]
    split
    · rfl
    split
    · rfl
    · exact sessionView_raiseFault ..
  rw [checkSoftOverCurrent]
  dsimp only
  split
  · exact .quiet rfl
  split
  · exact .quiet rfl
  split
  · exact .quiet rfl
  split
  · exact .quiet hclear
  split
  · exact .quiet rfl
  · exact .quiet (hramp _)
/-! ## What a step does to the session -/

/-- The effect of a step that accounts for `e` milliwatt-seconds on the session. -/
structure SessionStep (s s' : SafetyTask) (e : Int) : Prop where
  nonneg : 0 ≤ e
  active : s'.session.active = decide (s'.evse = .charging)
  idle : s.evse ≠ .charging → s'.evse ≠ .charging →
    sessionEvents s'.outputs = sessionEvents s.outputs
  runs : s.evse = .charging → s'.evse = .charging →
    sessionEvents s'.outputs = sessionEvents s.outputs ∧
      s'.session.mwsAccum = s.session.mwsAccum + e
  begins : s.evse ≠ .charging → s'.evse = .charging →
    s'.session.mwsAccum = 0 ∧ ∃ startTs,
      sessionEvents s'.outputs = sessionEvents s.outputs ++ [.sessionBegan startTs]
  ends : s.evse = .charging → s'.evse ≠ .charging →
    ∃ durMs reason, (reason = .fault ↔ s'.evse = .fault) ∧
      sessionEvents s'.outputs = sessionEvents s.outputs ++
        [.sessionEnded (sessionMwh s.session.mwsAccum) durMs reason]

/-- The interlock side of a transition is not seen by the session. -/
theorem sessionView_transition (next : EvseState) (h : s.evse ≠ next) :
    sessionView (evseTransition next s) =
      { sessionView
          (if next = .charging then sessionStart s
          else if s.evse = .charging then
            sessionEnd (if next = .fault then .fault else .normal) s
          else s) with evse := next } := by
  rw [evseTransition, if_neg h]
  dsimp only
  generalize (if next = .charging then sessionStart s
    else if s.evse = .charging then
      sessionEnd (if next = .fault then .fault else .normal) s
    else s) = u
  split
  · rfl
  split
  · rfl
  · rfl

theorem sessionView_sessionEnd (reason : SessionEndReason) (h : s.session.active = true) :
    ∃ durMs, sessionView (sessionEnd reason s) =
      ⟨s.evse, false, s.session.mwsAccum, sessionEvents s.outputs ++
        [.sessionEnded (sessionMwh s.session.mwsAccum) durMs reason]⟩ := by
  refine ⟨s.tickCount - s.session.startTs, ?_⟩
  have hderate : ∀ s, sessionView (clearSocDerateForSessionEnd s) = sessionView s := by
    intro s
    rw [clearSocDerateForSessionEnd]
    split
    · rfl
    · rfl
  rw [sessionEnd, if_neg (by rw [h]; exact Bool.noConfusion)]
  dsimp only
  rw [hderate]
  split
  · simp [sessionView, commsPublishEvent, emit, sessionEvents, isSessionEvent]
  · simp [sessionView, commsPublishEvent, emit, sessionEvents, isSessionEvent]

theorem sessionView_sessionStart (s : SafetyTask) :
    sessionView (sessionStart s) =
      ⟨s.evse, true, 0, sessionEvents s.outputs ++ [.sessionBegan s.tickCount]⟩ := by
  simp [sessionView, sessionStart, commsPublishEvent, emit, sessionEvents, isSessionEvent]

/-- An operation that goes through one transition at most pairs the session with it. -/
theorem Via.sessionStep (h : Via s s') (hactive : s.session.active = decide (s.evse = .charging)) :
    SessionStep s s' 0 := by
  obtain ⟨u, next, hu, hs'⟩ := h
  rw [sessionView, sessionView, SessionView.mk.injEq] at hu
  obtain ⟨huevse, huactive, humws, huevents⟩ := hu
  by_cases hsame : u.evse = next
  · -- nothing happens
    rw [← hsame, evseTransition_same, sessionView, sessionView, SessionView.mk.injEq] at hs'
    obtain ⟨hevse, hact, hmws, hevents⟩ := hs'
    rw [huevse] at hevse
    refine ⟨le_rfl, ?_, fun _ _ => hevents.trans huevents, fun _ _ => ⟨hevents.trans huevents, ?_⟩,
      ?_, ?_⟩
    · rw [hact, huactive, hactive, hevse]
    · rw [hmws, humws, Int.add_zero]
    · intro hno hyes
      exact absurd (hevse ▸ hyes) hno
    · intro hyes hno
      exact absurd (hevse.trans hyes) hno
  · rw [sessionView_transition next hsame] at hs'
    by_cases hcharge : next = .charging
    · have hno : s.evse ≠ .charging := by
        rw [← huevse, ← hcharge]
        exact hsame
      rw [if_pos hcharge, sessionView_sessionStart, sessionView, SessionView.mk.injEq] at hs'
      obtain ⟨hevse, hact, hmws, hevents⟩ := hs'
      have hnow : s'.evse = .charging := hevse.trans hcharge
      refine ⟨le_rfl, ?_, fun _ hnot => absurd hnow hnot, fun hyes => absurd hyes hno, ?_,
        fun hyes => absurd hyes hno⟩
      · rw [hact, hnow]
        rfl
      · intro _ _
        exact ⟨hmws, u.tickCount, by rw [hevents, huevents]⟩
    · rw [if_neg hcharge] at hs'
      by_cases hwas : u.evse = .charging
      · have hyes : s.evse = .charging := huevse ▸ hwas
        have huact : u.session.active = true := by rw [huactive, hactive, hyes]; rfl
        obtain ⟨durMs, hend⟩ :=
          sessionView_sessionEnd (if next = .fault then .fault else .normal) huact
        rw [if_pos hwas, hend, sessionView, SessionView.mk.injEq] at hs'
        obtain ⟨hevse, hact, -, hevents⟩ := hs'
        have hnot : s'.evse ≠ .charging := by rw [hevse]; exact hcharge
        refine ⟨le_rfl, ?_, fun hno => absurd hyes hno, fun _ hnow => absurd hnow hnot,
          fun hno => absurd hyes hno, ?_⟩
        · rw [hact, eq_comm, decide_eq_false_iff_not]
          exact hnot
        · intro _ _
          refine ⟨durMs, if next = .fault then .fault else .normal, ?_, ?_⟩
          · rw [hevse]
            split
            · next hfault => exact iff_of_true rfl hfault
            · next hfault => exact iff_of_false (by decide) hfault
          · rw [hevents, huevents, humws]
      · rw [if_neg hwas, sessionView, sessionView, SessionView.mk.injEq] at hs'
        obtain ⟨hevse, hact, -, hevents⟩ := hs'
        have hno : s.evse ≠ .charging := by rw [← huevse]; exact hwas
        have hnot : s'.evse ≠ .charging := by rw [hevse]; exact hcharge
        refine ⟨le_rfl, ?_, ?_, fun hyes => absurd hyes hno, fun _ hnow => absurd hnow hnot,
          fun hyes => absurd hyes hno⟩
        · rw [hact, huactive, hactive, decide_eq_false hno, decide_eq_false hnot]
        · intro _ _
          exact hevents.trans huevents

/-- The integration adds what the poll accounts for, as the contactor is closed exactly while
charging. -/
theorem sessionStep_integrateEnergy (hactive : s.session.active = decide (s.evse = .charging))
    (hclosed : s.mainCmd = true ↔ s.evse = .charging) :
    SessionStep s (integrateEnergy i bl s) (pollEnergy i bl) := by
  have hnonneg : 0 ≤ pollEnergy i bl := by
    rw [pollEnergy]
    omega
  have hframe : (integrateEnergy i bl s).evse = s.evse ∧
      (integrateEnergy i bl s).session.active = s.session.active ∧
      (integrateEnergy i bl s).outputs = s.outputs := by
    rw [integrateEnergy]
    split
    · dsimp only
      split
      · exact ⟨rfl, rfl, rfl⟩
      · exact ⟨rfl, rfl, rfl⟩
    · exact ⟨rfl, rfl, rfl⟩
  obtain ⟨hevse, hact, hout⟩ := hframe
  refine ⟨hnonneg, ?_, fun _ _ => by rw [hout], fun hyes _ => ⟨by rw [hout], ?_⟩, ?_, ?_⟩
  · rw [hact, hevse, hactive]
  · have hon : s.session.active = true := by rw [hactive, hyes]; rfl
    have hcmd : s.mainCmd = true := hclosed.mpr hyes
    rw [integrateEnergy, hon, hcmd, Bool.true_and, Bool.true_and]
    split
    · next hscale =>
      dsimp only
      split
      · next huw =>
        rw [pollEnergy, max_eq_right huw.le, bl0939PollTicks, safetyTaskPeriodMs]
        dsimp only
        rw [Int.mul_assoc]
        rfl
      · next huw =>
        rw [pollEnergy, max_eq_left (not_lt.mp huw)]
        simp
    · next hscale =>
      have hzero : i.paUwPerRaw = 0 := by simpa using hscale
      rw [pollEnergy, hzero, mul_zero, max_self]
      simp
  · intro hno hyes
    exact absurd (hevse ▸ hyes) hno
  · intro hyes hno
    exact absurd (hevse.trans hyes) hno

/-! ## A tick -/

/-- The step treats the session as it should. -/
def TaskStep.Ok (st : TaskStep) : Prop := SessionStep st.before st.after st.energy

/-- Every step treats the session as it should, and the last one leaves the record active
exactly in CHARGING. -/
def Stepped (s : SafetyTask) (ops : List TaskOp) : Prop :=
  (∀ st ∈ foldTrace TaskOp.run s ops, TaskStep.Ok st) ∧
    ((ops.foldl (fun s op => op.run s) s).session.active =
      decide ((ops.foldl (fun s op => op.run s) s).evse = .charging))

theorem Stepped.append {ops ops' : List TaskOp} (h : Stepped s ops)
    (h' : Stepped (ops.foldl (fun s op => op.run s) s) ops') : Stepped s (ops ++ ops') := by
  rw [Stepped, foldTrace_append, List.foldl_append]
  refine ⟨?_, h'.2⟩
  intro st hst
  rcases List.mem_append.mp hst with hfirst | hsecond
  · exact h.1 st hfirst
  · exact h'.1 st hsecond

theorem stepped_singleton {op : TaskOp} (h : SessionStep s (op.run s) op.energy) :
    Stepped s [op] := by
  refine ⟨?_, h.active⟩
  intro st hst
  rw [List.mem_singleton.mp hst]
  exact h

/-- Operations that go through one transition at most each. -/
theorem stepped_plainOps {fs : List (SafetyTask → SafetyTask)} (h : ∀ f ∈ fs, ∀ s, Via s (f s))
    (hactive : s.session.active = decide (s.evse = .charging)) : Stepped s (plainOps fs) := by
  induction fs generalizing s with
  | nil => exact ⟨fun _ hst => absurd hst List.not_mem_nil, hactive⟩
  | cons f fs ih =>
    have hvia : Via s (f s) := h f (List.mem_cons_self ..) s
    have hstep : SessionStep s (f s) 0 := hvia.sessionStep hactive
    have hrest : Stepped (f s) (plainOps fs) :=
      ih (fun g hg => h g (List.mem_cons_of_mem _ hg)) hstep.active
    have hfirst : Stepped s [⟨f, 0⟩] := stepped_singleton hstep
    exact hfirst.append hrest

theorem through_controlOps (fl : BuildFlags) (i : TickInput) (σ : System) :
    ∀ f ∈ controlOps fl i σ, ∀ s, Through s (f s) := by
  intro f hf s
  rw [controlOps, List.mem_append, List.mem_append, List.mem_singleton, List.mem_map] at hf
  rcases hf with (rfl | ⟨r, -, rfl⟩) | hf
  · exact .quiet rfl
  · exact through_processRequest i r s
  · simp only [List.mem_cons, List.not_mem_nil, or_false] at hf
    rcases hf with rfl | rfl | rfl | rfl | rfl | rfl | rfl | rfl | rfl | rfl | rfl | rfl
    · exact through_serviceReplugWindow s
    · exact through_readPilot i s
    · exact through_checkSafeFail _ _ _ s
    · exact through_checkRelayFeedback fl _ _ s
    · exact through_checkGfci i _ _ s
    · exact through_checkPeContinuity fl i _ _ s
    · exact through_checkAdcRuntime i _ _ s
    · exact through_checkCcOutOfRange fl i _ _ s
    · exact through_checkCpE _ _ s
    · exact through_checkOverTemp fl i s
    · exact through_updateEvseFromJ1772 i _ s
    · exact through_applyOutputs i _ _ s

theorem via_pollOps (i : TickInput) (bl : Bl0939Readings) (js : J1772State) :
    ∀ f ∈ pollOps i bl js, ∀ s, Via s (f s) := by
  intro f hf s
  simp only [pollOps, List.mem_cons, List.not_mem_nil, or_false] at hf
  rcases hf with rfl | rfl | rfl | rfl | rfl | rfl
  · exact .quiet rfl
  · exact via_checkAcAbsent bl js _ s
  · exact via_checkRelayWeldBl0939 i bl js _ s
  · exact via_checkRelayStuckOpenBl0939 i bl js _ s
  · exact via_checkHardOverCurrent i bl js _ s
  · exact via_checkSoftOverCurrent i bl js _ s

theorem stepped_meteringOps (hactive : s.session.active = decide (s.evse = .charging))
    (hsettled : (view (meteringStep i js i.cpHighMv s)).Settled) :
    Stepped s (meteringOps i js s) := by
  have hsteps := foldl_meteringOps i js s
  rw [meteringOps] at hsteps ⊢
  split
  · exact stepped_plainOps (by
      intro f hf s
      rw [List.mem_singleton.mp hf]
      exact .quiet rfl) hactive
  · next hpoll =>
    rw [if_neg hpoll, List.foldl_append] at hsteps
    have hfirst := stepped_plainOps (via_pollOps i (bl0939Poll i.freqConst i.bl0939 s.readings) js)
      hactive
    refine hfirst.append ?_
    obtain ⟨-, hlast⟩ := hfirst
    generalize (plainOps (pollOps i (bl0939Poll i.freqConst i.bl0939 s.readings) js)).foldl
      (fun s op => op.run s) s = u at hlast hsteps ⊢
    -- the integration does not move the interlock, which ends the block settled
    have hview : view u = view (meteringStep i js i.cpHighMv s) := by
      rw [← hsteps]
      exact (view_integrateEnergy i _ u).symm
    rw [← hview] at hsettled
    exact stepped_singleton (sessionStep_integrateEnergy hlast hsettled.closed_iff)

/-- A tick from a safe state treats the session step by step. -/
theorem stepped_tickOps (fl : BuildFlags) (i : TickInput) {σ : System} (hsafe : (view σ.task).Safe)
    (hactive : σ.task.session.active = decide (σ.task.evse = .charging)) :
    Stepped σ.task (tickOps fl i σ) := by
  have hcontrol := stepped_plainOps (fun f hf s => (through_controlOps fl i σ f hf s).via) hactive
  have hmid : (plainOps (controlOps fl i σ)).foldl (fun s op => op.run s) σ.task =
      beforeMetering fl i σ := by
    rw [foldl_plainOps, foldl_controlOps]
  have hmeter : Stepped (beforeMetering fl i σ)
      (meteringOps i (afterUpdate fl i σ).cp.committed (beforeMetering fl i σ)) := by
    have hsettled := settled_beforeRfid fl i hsafe
    rw [beforeRfid_task, ← beforeMetering] at hsettled
    refine stepped_meteringOps ?_ hsettled
    rw [← hmid]
    exact hcontrol.2
  rw [tickOps]
  have hboth := @hcontrol.append _ _ (meteringOps i (afterUpdate fl i σ).cp.committed
    (beforeMetering fl i σ)) (by rw [hmid]; exact hmeter)
  refine hboth.append (stepped_plainOps ?_ hboth.2)
  intro f hf s
  rw [List.mem_singleton.mp hf]
  exact (through_rfidStep i ⟨s, _⟩).via

/-! ## A run -/

/-- Steps that follow each other from one state to another. -/
def Chained : SafetyTask → List TaskStep → SafetyTask → Prop
  | s, [], s' => s = s'
  | s, st :: steps, s' => st.before = s ∧ Chained st.after steps s'

theorem chained_foldTrace (s : SafetyTask) (ops : List TaskOp) :
    Chained s (foldTrace TaskOp.run s ops) (ops.foldl (fun s op => op.run s) s) := by
  induction ops generalizing s with
  | nil => rfl
  | cons op ops ih => exact ⟨rfl, ih (op.run s)⟩

theorem Chained.append {steps steps' : List TaskStep} (h : Chained s steps u)
    (h' : Chained u steps' s') : Chained s (steps ++ steps') s' := by
  induction steps generalizing s with
  | nil => exact h ▸ h'
  | cons st steps ih => exact ⟨h.1, ih h.2⟩

theorem Chained.split {steps steps' : List TaskStep} (h : Chained s (steps ++ steps') s') :
    ∃ u, Chained s steps u ∧ Chained u steps' s' := by
  induction steps generalizing s with
  | nil => exact ⟨s, rfl, h⟩
  | cons st steps ih =>
    obtain ⟨u, hfirst, hrest⟩ := ih h.2
    exact ⟨u, ⟨h.1, hfirst⟩, hrest⟩

/-- The steps of a run lead from the boot state to the state it is in. -/
theorem taskSteps_succ (fl : BuildFlags) (b : BootInput) (ins : ℕ → TickInput) (n : ℕ) :
    taskSteps fl b ins (n + 1) =
      taskSteps fl b ins n ++ tickSteps fl (ins n) (safetyRun fl b ins n) := by
  rw [taskSteps, List.range_succ, List.flatMap_append, List.flatMap_singleton]
  rfl

theorem taskSteps_chained (fl : BuildFlags) (b : BootInput) (ins : ℕ → TickInput) (n : ℕ) :
    Chained (safetyRun fl b ins 0).task (taskSteps fl b ins n) (safetyRun fl b ins n).task := by
  induction n with
  | zero => rfl
  | succ n ih =>
    rw [taskSteps_succ]
    refine ih.append ?_
    have htick := chained_foldTrace (safetyRun fl b ins n).task
      (tickOps fl (ins n) (safetyRun fl b ins n))
    rw [foldl_tickOps] at htick
    exact htick

theorem Via.active (h : Via s s') (hactive : s.session.active = decide (s.evse = .charging)) :
    s'.session.active = decide (s'.evse = .charging) := (h.sessionStep hactive).active

theorem boot_active (fl : BuildFlags) (b : BootInput) :
    (bootTask fl b).session.active = decide ((bootTask fl b).evse = .charging) := by
  have hcheck : ∀ failed fid js cpMv s, Via s (bootCheck failed fid js cpMv s) := by
    intro failed fid js cpMv s
    rw [bootCheck]
    split
    · exact (through_raiseToFault rfl).via
    · exact .quiet rfl
  have hready : ∀ s, Via s (if s.evse ≠ .fault then evseTransition .ready s else s) := by
    intro s
    split
    · exact .transition .ready rfl
    · exact .quiet rfl
  have hinit : (safetyTaskInit b.tickCount).session.active =
      decide ((safetyTaskInit b.tickCount).evse = .charging) := rfl
  have htest := (Via.transition .selfTest (s := safetyTaskInit b.tickCount) rfl).active hinit
  rw [bootTask]
  exact (Via.quiet (sessionView_publish rfl _)).active <| (hready _).active <|
    (through_checkSafeFail ..).via.active <| (hcheck ..).active <| (hcheck ..).active <|
    (Via.quiet rfl).active htest

theorem run_active (fl : BuildFlags) (b : BootInput) (ins : ℕ → TickInput) (n : ℕ) :
    (safetyRun fl b ins n).task.session.active =
      decide ((safetyRun fl b ins n).task.evse = .charging) := by
  induction n with
  | zero => exact boot_active fl b
  | succ n ih =>
    have hlast := (stepped_tickOps fl (ins n) (settled_run fl b ins n).toSafe ih).2
    rw [foldl_tickOps] at hlast
    exact hlast

theorem taskSteps_ok (fl : BuildFlags) (b : BootInput) (ins : ℕ → TickInput) (n : ℕ) :
    ∀ st ∈ taskSteps fl b ins n, st.Ok := by
  intro st hst
  obtain ⟨k, -, hst⟩ := List.mem_flatMap.mp hst
  exact (stepped_tickOps fl (ins k) (settled_run fl b ins k).toSafe (run_active fl b ins k)).1 st hst

theorem Chained.active {steps : List TaskStep} (h : Chained s steps s')
    (hok : ∀ st ∈ steps, st.Ok) (hactive : s.session.active = decide (s.evse = .charging)) :
    ∀ st ∈ steps, st.before.session.active = decide (st.before.evse = .charging) := by
  induction steps generalizing s with
  | nil => exact fun _ hst => absurd hst List.not_mem_nil
  | cons st steps ih =>
    intro st' hst'
    rcases List.mem_cons.mp hst' with rfl | hrest
    · rw [h.1]
      exact hactive
    · exact ih h.2 (fun t ht => hok t (List.mem_cons_of_mem _ ht))
        (hok st (List.mem_cons_self ..)).active st' hrest

/-- While the EVSE stays in CHARGING nothing is published of the session, and its
milliwatt-seconds grow by what the polls account for. -/
theorem Chained.charging {steps : List TaskStep} (h : Chained s steps s')
    (hok : ∀ st ∈ steps, st.Ok) (hs : s.evse = .charging)
    (hin : ∀ st ∈ steps, st.after.evse = .charging) :
    s'.evse = .charging ∧ sessionEvents s'.outputs = sessionEvents s.outputs ∧
      s'.session.mwsAccum = s.session.mwsAccum + (steps.map TaskStep.energy).sum ∧
      0 ≤ (steps.map TaskStep.energy).sum := by
  induction steps generalizing s with
  | nil =>
    cases h
    exact ⟨hs, rfl, (Int.add_zero _).symm, le_rfl⟩
  | cons st steps ih =>
    obtain ⟨hbefore, hrest⟩ := h
    have hst := hok st (List.mem_cons_self ..)
    have hafter := hin st (List.mem_cons_self ..)
    obtain ⟨hevents, hmws⟩ := hst.runs (hbefore ▸ hs) hafter
    have hpos := hst.nonneg
    obtain ⟨hend, hevents', hmws', hpos'⟩ := ih hrest
      (fun t ht => hok t (List.mem_cons_of_mem _ ht)) hafter
      (fun t ht => hin t (List.mem_cons_of_mem _ ht))
    rw [hbefore] at hevents hmws
    rw [List.map_cons, List.sum_cons]
    exact ⟨hend, hevents'.trans hevents, by omega, by omega⟩

/-- The `session_mwh` field of the snapshot that is published at the end of a tick. -/
def snapshotMwh (s : SafetyTask) : Nat := sessionMwh s.session.mwsAccum

theorem sessionMwh_eq {mws : Int} (h : 0 ≤ mws) :
    (sessionMwh mws : Int) = min (mws / 3600) 0xFFFFFFFF := by
  rw [sessionMwh]
  split <;> split <;> omega

theorem sessionMwh_mono {a c : Int} (h : a ≤ c) : sessionMwh a ≤ sessionMwh c := by
  rw [sessionMwh, sessionMwh]
  repeat' split
  all_goals omega

/-- A step that enters CHARGING, the steps for which it lasts and the one that leaves it. -/
theorem session_interval {enter leave : TaskStep} {inside : List TaskStep}
    (h : Chained s (enter :: (inside ++ [leave])) s')
    (hok : ∀ st ∈ enter :: (inside ++ [leave]), st.Ok) (hbefore : enter.before.evse ≠ .charging)
    (henter : enter.after.evse = .charging) (hin : ∀ st ∈ inside, st.after.evse = .charging)
    (hleave : leave.after.evse ≠ .charging) :
    ∃ startTs durMs reason, ∃ mwh : Nat,
      sessionEvents leave.after.outputs = sessionEvents enter.before.outputs ++
        [.sessionBegan startTs, .sessionEnded mwh durMs reason] ∧
      (reason = .fault ↔ leave.after.evse = .fault) ∧
      (mwh : Int) = min ((inside.map TaskStep.energy).sum / 3600) 0xFFFFFFFF := by
  obtain ⟨hzero, startTs, hbegan⟩ := (hok enter (List.mem_cons_self ..)).begins hbefore henter
  obtain ⟨u, hinside, hlast⟩ := Chained.split h.2
  obtain ⟨hu, hevents, hmws, hpos⟩ := hinside.charging
    (fun st hst => hok st (List.mem_cons_of_mem _ (List.mem_append_left _ hst))) henter hin
  have hstart : leave.before = u := hlast.1
  obtain ⟨durMs, reason, hreason, hended⟩ :=
    (hok leave (by simp)).ends (by rw [hstart]; exact hu) hleave
  refine ⟨startTs, durMs, reason, sessionMwh leave.before.session.mwsAccum, ?_, hreason, ?_⟩
  · rw [hended, hstart, hevents, hbegan, List.append_assoc]
    rfl
  · rw [hstart, sessionMwh_eq (by omega), hmws, hzero, Int.zero_add]

/-- Over every run of the safety task, step by step: the session record is active exactly in
CHARGING; outside nothing is published of a session; every interval of CHARGING publishes one
begin and one end, whose reason is FAULT exactly if the interval is left to FAULT and whose
energy is that of the polls integrated inside; and while CHARGING lasts the published energy
never decreases. -/
theorem sessions_paired (fl : BuildFlags) (b : BootInput) (ins : ℕ → TickInput) (n : ℕ) :
    (∀ st ∈ taskSteps fl b ins n,
      (st.before.session.active = true ↔ st.before.evse = .charging) ∧
      (st.after.session.active = true ↔ st.after.evse = .charging)) ∧
    (∀ st ∈ taskSteps fl b ins n, st.before.evse ≠ .charging → st.after.evse ≠ .charging →
      sessionEvents st.after.outputs = sessionEvents st.before.outputs) ∧
    (∀ first enter inside leave rest,
      taskSteps fl b ins n = first ++ enter :: (inside ++ leave :: rest) →
      enter.before.evse ≠ .charging → enter.after.evse = .charging →
      (∀ st ∈ inside, st.after.evse = .charging) → leave.after.evse ≠ .charging →
      ∃ startTs durMs reason, ∃ mwh : Nat,
        sessionEvents leave.after.outputs = sessionEvents enter.before.outputs ++
          [.sessionBegan startTs, .sessionEnded mwh durMs reason] ∧
        (reason = .fault ↔ leave.after.evse = .fault) ∧
        (mwh : Int) = min ((inside.map TaskStep.energy).sum / 3600) 0xFFFFFFFF) ∧
    (∀ first st inside last rest,
      taskSteps fl b ins n = first ++ st :: (inside ++ last :: rest) →
      st.after.evse = .charging → (∀ t ∈ inside, t.after.evse = .charging) →
      last.after.evse = .charging →
      sessionEvents last.after.outputs = sessionEvents st.after.outputs ∧
        snapshotMwh st.after ≤ snapshotMwh last.after) := by
  have hok := taskSteps_ok fl b ins n
  have hchain := taskSteps_chained fl b ins n
  have hactive := hchain.active hok (run_active fl b ins 0)
  generalize taskSteps fl b ins n = steps at hok hchain hactive
  refine ⟨?_, ?_, ?_, ?_⟩
  · intro st hst
    rw [hactive st hst, (hok st hst).active, decide_eq_true_eq, decide_eq_true_eq]
    exact ⟨Iff.rfl, Iff.rfl⟩
  · intro st hst
    exact (hok st hst).idle
  · intro first enter inside leave rest hsplit hbefore henter hin hleave
    have hmid : steps = first ++ (enter :: (inside ++ [leave]) ++ rest) := by simp [hsplit]
    rw [hmid] at hchain hok
    obtain ⟨u, -, htail⟩ := Chained.split hchain
    obtain ⟨v, hinterval, -⟩ := Chained.split htail
    exact session_interval hinterval
      (fun st hst => hok st (List.mem_append_right _ (List.mem_append_left _ hst)))
      hbefore henter hin hleave
  · intro first st inside last rest hsplit hst hin hlast
    have hmid : steps = first ++ (st :: (inside ++ [last]) ++ rest) := by simp [hsplit]
    rw [hmid] at hchain hok
    obtain ⟨u, -, htail⟩ := Chained.split hchain
    obtain ⟨v, hinterval, -⟩ := Chained.split htail
    have hall : ∀ t ∈ inside ++ [last], t.after.evse = .charging := by
      intro t ht
      rcases List.mem_append.mp ht with ht | ht
      · exact hin t ht
      · rw [List.mem_singleton.mp ht]
        exact hlast
    obtain ⟨w, hinside, hend⟩ := Chained.split hinterval.2
    have hv : last.after = v := hend.2
    obtain ⟨-, hevents, hmws, hpos⟩ := Chained.charging hinterval.2
      (fun t ht => hok t (List.mem_append_right _ (List.mem_append_left _
        (List.mem_cons_of_mem _ ht)))) hst hall
    rw [hv]
    refine ⟨hevents, sessionMwh_mono ?_⟩
    omega

end OpenEVCharger
