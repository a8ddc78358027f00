import OpenEVCharger.Safety.Refine

/-!
# Runs of the safety task

The tick as a sequence of interlock operations, the rule that carries a property
of the interlock through a tick, and what holds of every run: the task is safe
in every state, and its contactor is closed exactly in CHARGING at the end of
every tick.
-/

namespace OpenEVCharger

open Interlock (Detected)

/-- The run of the safety task from a boot. -/
abbrev safetyRun (fl : BuildFlags) (b : BootInput) (ins : ℕ → TickInput) (n : ℕ) : System :=
  (safetyMachine fl).run b ins n

/-! ## The tick under `view` -/

theorem view_beforeDetectors (i : TickInput) (σ : System) :
    view (beforeDetectors i σ) =
      (view (drainInbox i σ).task).serviceWindow.samplePilot i.cpHighMv j1772DebounceN := by
  unfold beforeDetectors
  rw [view_readPilot, ← view_serviceReplugWindow]

theorem detected_beforeOverTemp (fl : BuildFlags) (i : TickInput) (σ : System) :
    Detected (view (beforeDetectors i σ)) (view (beforeOverTemp fl i σ)) :=
  detected_runDetectors fl i _ _ _

theorem overTemp_beforeUpdate (fl : BuildFlags) (i : TickInput) (σ : System) :
    Interlock.OverTemp (view (beforeOverTemp fl i σ)) (view (beforeUpdate fl i σ)) :=
  overTemp_checkOverTemp fl i _

theorem view_afterUpdate (fl : BuildFlags) (i : TickInput) (σ : System) :
    view (afterUpdate fl i σ) =
      (view (beforeUpdate fl i σ)).update evseCDwellTicks (!i.requireRfidAuth) :=
  view_updateEvseFromJ1772 i _

theorem beforeRfid_task (fl : BuildFlags) (i : TickInput) (σ : System) :
    (beforeRfid fl i σ).task =
      meteringStep i (afterUpdate fl i σ).cp.committed i.cpHighMv
        (applyOutputs i (afterUpdate fl i σ).cp.committed i.cpHighMv (afterUpdate fl i σ)) := by
  rw [beforeRfid]

theorem detected_beforeRfid (fl : BuildFlags) (i : TickInput) (σ : System) :
    Detected (view (afterUpdate fl i σ)).outputs (view (beforeRfid fl i σ).task) := by
  rw [← view_applyOutputs i i.cpHighMv (afterUpdate fl i σ), beforeRfid_task]
  exact detected_meteringStep i _ _ _

theorem view_tick (fl : BuildFlags) (i : TickInput) (σ : System) :
    view (tick fl i σ).task =
      (view (beforeRfid fl i σ).task).authorize (swipeAuthorized i (beforeRfid fl i σ).task) :=
  view_rfidStep i _

/-- Between the inbox and the over-temperature check nothing changes the
over-temperature bit. -/
theorem overTemp_beforeOverTemp (fl : BuildFlags) (i : TickInput) (σ : System) :
    (view (beforeOverTemp fl i σ)).overTemp = (view (drainInbox i σ).task).overTemp := by
  rw [(detected_beforeOverTemp fl i σ).frame.overTemp, view_beforeDetectors,
    Interlock.samplePilot_overTemp]
  exact Interlock.serviceWindow_overTemp _

/-- What the part of a tick after the over-temperature check leaves alone. -/
structure TickFrame (c c' : Interlock) : Prop where
  cp : c'.cp = c.cp
  window : c'.window = c.window
  overTemp : c'.overTemp = c.overTemp
  tripped : c'.tripped = c.tripped

theorem tick_frame (fl : BuildFlags) (i : TickInput) (σ : System) :
    TickFrame (view (beforeUpdate fl i σ)) (view (tick fl i σ).task) := by
  have hd := (detected_beforeRfid fl i σ).frame
  have hu := Interlock.update_frame evseCDwellTicks (!i.requireRfidAuth)
    (view (beforeUpdate fl i σ))
  rw [← view_afterUpdate] at hu
  rw [view_tick]
  generalize view (beforeRfid fl i σ).task = c at hd
  exact ⟨hd.cp.trans hu.cp, hd.window.trans hu.window, hd.overTemp.trans hu.overTemp,
    hd.tripped.trans hu.tripped⟩

/-- The pilot state a tick ends with is the one its EVSE update looked at. -/
theorem committed_tick (fl : BuildFlags) (i : TickInput) (σ : System) :
    (tick fl i σ).task.cp.committed = (beforeUpdate fl i σ).cp.committed :=
  congrArg J1772Ctx.committed (tick_frame fl i σ).cp

/-! ## Carrying a property through a tick -/

/-- What the requests of a tick keep, the drain keeps. -/
theorem view_drain_kept {P : Interlock → Prop} {i : TickInput} {σ : System}
    (hreq : ∀ p ∈ requestTrace i σ, P (view p.1) → P (view (processRequest i p.2 p.1)))
    (h : P (view σ.task)) : P (view (drainInbox i σ).task) :=
  drainInbox_kept (P := fun s => P (view s)) hreq h

/-- A property of the interlock kept by every operation of a tick after the inbox
but the over-temperature check and the EVSE update. -/
structure Passive (P : Interlock → Prop) : Prop where
  serviceWindow : ∀ c, P c → P c.serviceWindow
  samplePilot : ∀ c mv, P c → P (c.samplePilot mv j1772DebounceN)
  detected : ∀ c c', Detected c c' → P c → P c'
  outputs : ∀ c, P c → P c.outputs
  authorize : ∀ c granted, P c → P (c.authorize granted)

namespace Passive

variable {P : Interlock → Prop} {fl : BuildFlags} {i : TickInput} {σ : System}

theorem beforeDetectors (hP : Passive P) (h : P (view (drainInbox i σ).task)) :
    P (view (beforeDetectors i σ)) := by
  rw [view_beforeDetectors]
  exact hP.samplePilot _ _ (hP.serviceWindow _ h)

theorem beforeOverTemp (hP : Passive P) (h : P (view (drainInbox i σ).task)) :
    P (view (beforeOverTemp fl i σ)) :=
  hP.detected _ _ (detected_beforeOverTemp fl i σ) (hP.beforeDetectors h)

theorem tick_of_afterUpdate (hP : Passive P) (h : P (view (afterUpdate fl i σ))) :
    P (view (tick fl i σ).task) := by
  rw [view_tick]
  exact hP.authorize _ _ (hP.detected _ _ (detected_beforeRfid fl i σ) (hP.outputs _ h))

end Passive

/-- A property of the interlock kept by every operation of a tick after the inbox. -/
structure Stable (P : Interlock → Prop) : Prop extends Passive P where
  overTemp : ∀ c c', Interlock.OverTemp c c' → P c → P c'
  update : ∀ c gateOpen, P c → P (c.update evseCDwellTicks gateOpen)

namespace Stable

variable {P : Interlock → Prop} {fl : BuildFlags} {i : TickInput} {σ : System}

theorem beforeUpdate (hP : Stable P) (h : P (view (drainInbox i σ).task)) :
    P (view (beforeUpdate fl i σ)) :=
  hP.overTemp _ _ (overTemp_beforeUpdate fl i σ) (hP.beforeOverTemp h)

theorem afterUpdate (hP : Stable P) (h : P (view (drainInbox i σ).task)) :
    P (view (afterUpdate fl i σ)) := by
  rw [view_afterUpdate]
  exact hP.update _ _ (hP.beforeUpdate h)

theorem tick (hP : Stable P) (h : P (view (drainInbox i σ).task)) :
    P (view (tick fl i σ).task) :=
  hP.tick_of_afterUpdate (hP.afterUpdate h)

/-- A property all requests of a tick keep as well is kept by the tick. -/
theorem step (hP : Stable P)
    (hreq : ∀ p ∈ requestTrace i σ, P (view p.1) → P (view (processRequest i p.2 p.1)))
    (h : P (view σ.task)) : P (view (OpenEVCharger.tick fl i σ).task) :=
  hP.tick (view_drain_kept hreq h)

end Stable

/-! ## From the start of a tick to the EVSE update -/

theorem drain_frame (i : TickInput) (σ : System) :
    Interlock.RequestFrame (view σ.task) (view (drainInbox i σ).task) :=
  view_drain_kept (P := Interlock.RequestFrame (view σ.task))
    (fun p _ h => h.trans (request_processRequest i p.2 p.1).frame) (.refl _)

/-- What the part of a tick before the EVSE update leaves alone. -/
structure BeforeUpdateFrame (c c' : Interlock) : Prop where
  dwell : c'.dwell = c.dwell
  authorized : c'.authorized = c.authorized
  charging : c'.evse = .charging → c.evse = .charging
  closed : c'.evse = .fault ∨ c'.closed = c.closed

theorem beforeUpdate_frame (fl : BuildFlags) (i : TickInput) (σ : System) :
    BeforeUpdateFrame (view σ.task) (view (beforeUpdate fl i σ)) := by
  have hw : Interlock.RequestFrame (view σ.task) (view (drainInbox i σ).task).serviceWindow :=
    (drain_frame i σ).trans (Interlock.serviceWindow_requestFrame _)
  have hb := view_beforeDetectors i σ
  have hd := (detected_beforeOverTemp fl i σ).frame
  have ho := (overTemp_beforeUpdate fl i σ).frame
  have hevb : (view (beforeDetectors i σ)).evse =
      (view (drainInbox i σ).task).serviceWindow.evse := by
    rw [hb, Interlock.samplePilot_evse]
  constructor
  · rw [ho.dwell, hd.dwell, hb, Interlock.samplePilot_dwell]
    exact hw.dwell
  · rw [ho.authorized, hd.authorized, hb, Interlock.samplePilot_authorized]
    exact hw.authorized
  · intro he
    apply hw.charging
    rw [← hevb]
    rcases ho.moves with hm | hm | ⟨_, hm⟩
    · rcases hd.tripped_or_same with hf | hsame
      · exact absurd (hf.symm.trans (hm.symm.trans he)) (by decide)
      · rw [← hsame, ← hm]
        exact he
    · exact absurd (hm.symm.trans he) (by decide)
    · exact absurd (hm.symm.trans he) (by decide)
  · rcases hd.tripped_or_same with hf | hsame
    · exact .inl (Interlock.overTemp_of_fault (overTemp_beforeUpdate fl i σ) hf)
    · right
      rw [ho.closed, hsame, hb, Interlock.samplePilot_closed]
      exact hw.closed

/-- CHARGING is entered only by the update of the EVSE. -/
def chargingStarts (fl : BuildFlags) (i : TickInput) (σ : System) : Prop :=
  (beforeUpdate fl i σ).evse ≠ .charging ∧ (afterUpdate fl i σ).evse = .charging

instance (fl : BuildFlags) (i : TickInput) (σ : System) :
    Decidable (chargingStarts fl i σ) := by
  unfold chargingStarts
  infer_instance

theorem afterUpdate_charging {fl : BuildFlags} {i : TickInput} {σ : System}
    (h : (tick fl i σ).task.evse = .charging) : (afterUpdate fl i σ).evse = .charging := by
  have hev : (view (tick fl i σ).task).evse = .charging := h
  rw [view_tick, Interlock.authorize_evse] at hev
  rcases (detected_beforeRfid fl i σ).frame.tripped_or_same with hf | hsame
  · exact absurd (hf.symm.trans hev) (by decide)
  · rw [hsame] at hev
    exact hev

theorem chargingStarts_of_ends {fl : BuildFlags} {i : TickInput} {σ : System}
    (hbefore : σ.task.evse ≠ .charging) (hafter : (tick fl i σ).task.evse = .charging) :
    chargingStarts fl i σ :=
  ⟨fun he => hbefore ((beforeUpdate_frame fl i σ).charging he), afterUpdate_charging hafter⟩

/-- A start of charging: the update found READY with state C committed, the dwell
one tick short at most, and the session allowed to start. -/
structure StartConditions (i : TickInput) (s : SafetyTask) : Prop where
  ready : s.evse = .ready
  stateC : s.cp.committed = .C
  dwell : evseCDwellTicks ≤ s.evseCStreak + 1
  mayStart : sessionMayStart i s = true

theorem bump_le (cap n : Nat) : bump cap n ≤ n + 1 := by
  unfold bump
  split <;> omega

theorem startConditions_of_chargingStarts {fl : BuildFlags} {i : TickInput} {σ : System}
    (h : chargingStarts fl i σ) : StartConditions i (beforeUpdate fl i σ) := by
  have hafter : (view (afterUpdate fl i σ)).evse = .charging := h.2
  rw [view_afterUpdate] at hafter
  have hbefore : (view (beforeUpdate fl i σ)).evse ≠ .charging := h.1
  obtain ⟨hr, hC, hd, hm⟩ := Interlock.update_starts (by decide) hbefore hafter
  refine ⟨hr, hC, Nat.le_trans hd (bump_le _ _), ?_⟩
  exact hm

/-! ## Every state is safe -/

theorem safe_outputs {c : Interlock} (h : c.Safe) : c.outputs.Safe where
  fault_of_latched := h.fault_of_latched
  forceOpen_iff := h.forceOpen_iff
  open_of_fault := by
    intro he
    have hf : c.evse = .fault := he
    simp [Interlock.outputs, hf]
  latched_of_gfci := h.latched_of_gfci

theorem stable_safe : Stable Interlock.Safe where
  serviceWindow _ h := h.serviceWindow
  samplePilot _ _ h := h.congr rfl rfl rfl rfl rfl
  detected _ _ hd h := h.detected hd
  overTemp _ _ ho h := h.overTemp ho
  update _ _ h := h.update _ _
  outputs _ h := safe_outputs h
  authorize _ _ h := h.congr rfl rfl rfl rfl rfl

theorem safe_processRequest {i : TickInput} {r : SafetyReq} {s : SafetyTask}
    (h : (view s).Safe) : (view (processRequest i r s)).Safe :=
  h.request (request_processRequest i r s)

theorem safe_drain {i : TickInput} {σ : System} (h : (view σ.task).Safe) :
    (view (drainInbox i σ).task).Safe :=
  view_drain_kept (fun _ _ hs => safe_processRequest hs) h

/-- The outputs of a tick from a safe state settle the interlock, and the metering block keeps
it so. -/
theorem settled_beforeRfid (fl : BuildFlags) (i : TickInput) {σ : System}
    (h : (view σ.task).Safe) : (view (beforeRfid fl i σ).task).Settled := by
  have hafter : (view (afterUpdate fl i σ)).Safe := stable_safe.afterUpdate (safe_drain h)
  have hC : (view (afterUpdate fl i σ)).evse = .charging →
      (view (afterUpdate fl i σ)).cp.committed = .C := by
    rw [view_afterUpdate]
    exact Interlock.update_charging_stateC (by decide)
  have hout : (view (afterUpdate fl i σ)).outputs.Settled := hafter.outputs hC
  exact hout.detected (detected_beforeRfid fl i σ)

/-- A tick from a safe state ends settled. -/
theorem settled_tick (fl : BuildFlags) (i : TickInput) {σ : System} (h : (view σ.task).Safe) :
    (view (tick fl i σ).task).Settled := by
  rw [view_tick]
  exact (settled_beforeRfid fl i h).authorize _

/-! ## Boot -/

theorem detected_bootCheck (failed : Bool) {fid : FaultId} (hok : fidOk fid.code = true)
    (hne : fid ≠ .overTemp) (js : J1772State) (cpMv : Int) (s : SafetyTask) :
    Detected (view s) (view (bootCheck failed fid js cpMv s)) := by
  unfold bootCheck
  split
  · exact detected_raiseToFault hok hne rfl
  · exact .of_eq rfl

/-- The unit boots into READY or FAULT with nothing accumulated. -/
structure Booted (c : Interlock) : Prop extends c.Settled where
  idle : c.evse = .ready ∨ c.evse = .fault
  dwell_zero : c.dwell = 0
  window_zero : c.window = 0
  not_authorized : c.authorized = false
  not_overTemp : c.overTemp = false

/-- The self-test state the boot checks run in. -/
def selfTestView (cp : J1772Ctx) : Interlock where
  evse := .selfTest
  cp := cp
  dwell := 0
  window := 0
  authorized := false
  latched := false
  gfci := false
  overTemp := false
  tripped := false
  closed := false
  forceOpen := false
  pilotF := false

/-- The end of the boot path: READY unless a check tripped. -/
theorem booted_of_detected {cp : J1772Ctx} {c : Interlock} (hd : Detected (selfTestView cp) c) :
    Booted (if c.evse ≠ .fault then c.move .ready else c) := by
  cases hd with
  | quiet =>
    constructor
    · constructor
      · constructor <;> simp [selfTestView, Interlock.move]
      · simp [selfTestView, Interlock.move]
      · simp [selfTestView, Interlock.move]
    all_goals simp [selfTestView, Interlock.move]
  | trip l g hg =>
    constructor
    · constructor
      · constructor
        case latched_of_gfci => simpa [selfTestView, Interlock.move, Interlock.trip] using hg
        all_goals simp [selfTestView, Interlock.move, Interlock.trip]
      · simp [selfTestView, Interlock.move, Interlock.trip]
      · simp [selfTestView, Interlock.move, Interlock.trip]
    all_goals simp [selfTestView, Interlock.move, Interlock.trip]

theorem view_safetyTaskInit (t : UInt32) :
    view (safetyTaskInit t) = { selfTestView j1772Init with evse := .boot } := by
  have hhigh : cpPwmCcrHigh ≠ cpPwmCcrLow := by decide
  simp [view, safetyTaskInit, selfTestView, not_faultAnyLatchedActive_init, faultIsActive_init,
    hhigh]

theorem view_bootPilot (b : BootInput) (s : SafetyTask) :
    view (bootPilot b s) = { view s with cp := (bootPilot b s).cp } := rfl

theorem booted_bootTask (fl : BuildFlags) (b : BootInput) : Booted (view (bootTask fl b)) := by
  have hinit : view (bootPilot b (evseTransition .selfTest (safetyTaskInit b.tickCount))) =
      selfTestView (bootPilot b (evseTransition .selfTest (safetyTaskInit b.tickCount))).cp := by
    rw [view_bootPilot, view_evseTransition, view_safetyTaskInit]
    simp [selfTestView, Interlock.move]
  unfold bootTask
  dsimp only
  generalize bootPilot b (evseTransition .selfTest (safetyTaskInit b.tickCount)) = s0 at hinit
  -- the three boot checks are one detection
  have hd := (detected_bootCheck (decide (0 < runBootSelfTest b.adc (b.cpHighMv 4)))
      (show fidOk FaultId.bootSelfTest.code = true by decide) (by decide) s0.cp.committed
      (b.cpHighMv 4) s0).trans <|
    (detected_bootCheck (fl.gfciCalSelfTest && !b.gfciCalPassed)
      (show fidOk FaultId.gfciSelfTest.code = true by decide) (by decide) s0.cp.committed
      (b.cpHighMv 4) _).trans <|
    detected_checkSafeFail b.crashSafeFail s0.cp.committed (b.cpHighMv 4) _
  rw [hinit] at hd
  rw [view_commsPublishEvent, apply_ite view, view_evseTransition]
  exact booted_of_detected hd

/-! ## Sample inputs -/

/-- A tick that reads nothing out of the ordinary: the pilot at `cpMv`, the wall
thermistor at `ntc1`, every other channel in its band, `reqs` posted before the
inbox is drained and no card. -/
def quietTick (cpMv : Int) (ntc1 : Nat) (reqs : List SafetyReq) : TickInput where
  tickCount := 0
  cpHighMv := cpMv
  adc := { ac := 2000, ntc1 := ntc1, ct := 2000, lct := 2000, cp := 2000, cc := 2000, pe := 0 }
  gfciFaultActive := false
  gfciInHandshakeWindow := false
  crashSafeFail := false
  requireRfidAuth := false
  gfciFaultPolicy := 0
  advertisedAmps := 0
  dip1Closed := true
  iaNaPerRaw := 0
  paUwPerRaw := 0
  freqConst := 271900
  bl0939 :=
    { v := ⟨true, 0x208cae⟩, ia := ⟨true, 0x000a70⟩, ib := ⟨true, 0⟩, aw := ⟨true, 0⟩,
      tp := ⟨true, 453⟩ }
  rfidRx := []
  authlist := []
  posts := fun k => if k = 0 then reqs else []

/-- A boot with every channel in its band and the pilot at `cpMv`. -/
def quietBoot (cpMv : Int) : BootInput where
  tickCount := 0
  cpHighMv := fun _ => cpMv
  adc := { ac := 2000, ntc1 := 2000, ct := 2000, lct := 2000, cp := 2000, cc := 2000, pe := 0 }
  gfciCalPassed := true
  crashSafeFail := false

/-- A tick of a unit that asks for a card, with `rx` sent by the reader. -/
def cardTick (cpMv : Int) (ntc1 : Nat) (reqs : List SafetyReq) (rx : List UInt8) : TickInput :=
  { quietTick cpMv ntc1 reqs with
    requireRfidAuth := true
    rfidRx := rx
    authlist := [0x12345678] }

/-- The frame of the one authorised card. -/
def cardFrame : List UInt8 := [0xAA, 0xD1, 0xD0, 0x02, 4, 0, 0x78, 0x56, 0x34, 0x12, 0x4C]

/-! ## Every run -/

theorem booted_run (fl : BuildFlags) (b : BootInput) (ins : ℕ → TickInput) :
    Booted (view (safetyRun fl b ins 0).task) := booted_bootTask fl b

theorem settled_run (fl : BuildFlags) (b : BootInput) (ins : ℕ → TickInput) (n : ℕ) :
    (view (safetyRun fl b ins n).task).Settled :=
  Machine.invariant (P := fun σ : System => (view σ.task).Settled) (booted_bootTask fl b).toSettled
    (fun i _ h => settled_tick fl i h.toSafe) n

end OpenEVCharger
