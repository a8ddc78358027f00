import OpenEVCharger.Core.Fault
import OpenEVCharger.Core.J1772
import OpenEVCharger.Core.GfciPolicy
import OpenEVCharger.Core.OverTemp
import OpenEVCharger.Core.Rfid

/-!
# Safety task state

The state of `tasks/safety_task.c`: the locals of `safety_task_run`, the file
statics, and the state of the drivers only this task writes (contactor,
force-open latch, control-pilot compare register, metering cache). The functions
here are the ones every later module goes through: session accounting, fault
events and `evse_transition`.

Log lines (`printk`) are left out; everything published to another task is kept
in `outputs`, oldest first.
-/

namespace OpenEVCharger

/-- `evse_state_t`. -/
inductive EvseState where
  | boot
  | selfTest
  | ready
  | charging
  | userPaused
  | coolingDown
  | fault
  deriving DecidableEq, Repr

/-! ## Build flags -/

/-- The preprocessor switches `safety_task.c` is compiled under. -/
structure BuildFlags where
  relayFeedbackKnown : Bool
  ccDetector : Bool
  gfciCalSelfTest : Bool
  peContinuityDetector : Bool
  ntc1Present : Bool
  gunNtcPresent : Bool
  deriving DecidableEq, Repr

/-- The flags of the default board, `boards/rippleon-roc001`. -/
def defaultFlags : BuildFlags where
  relayFeedbackKnown := false
  ccDetector := false
  gfciCalSelfTest := true
  peContinuityDetector := false
  ntc1Present := true
  gunNtcPresent := true

/-! ## Requests, readings and outputs -/

/-- An inbox entry, `struct safety_req` with its type and argument. -/
inductive SafetyReq where
  | clearFault (fid : Nat)
  | userPause (reason : Nat)
  | userResume
  | rfidLearnArm
  | publishRfidConfig
  | simulateReplug
  | runGfciCalTest
  | publishGfciPolicy
  deriving DecidableEq, Repr

/-- The ranks of the regular ADC scan the task looks at. -/
structure AdcScan where
  ac : Nat
  ntc1 : Nat
  ct : Nat
  lct : Nat
  cp : Nat
  cc : Nat
  pe : Nat
  deriving DecidableEq, Repr

/-- One register transfer of the metering chip: whether its checksum matched,
and the 24-bit value read. -/
structure Bl0939Read where
  ok : Bool
  val : Nat
  deriving DecidableEq, Repr

/-- The five transfers of one `bl0939_poll`. -/
structure Bl0939Poll where
  v : Bl0939Read
  ia : Bl0939Read
  ib : Bl0939Read
  aw : Bl0939Read
  tp : Bl0939Read
  deriving DecidableEq, Repr

/-- `struct bl0939_readings`. -/
structure Bl0939Readings where
  vRms : Nat
  iaRms : Nat
  ibRms : Nat
  aWatt : Int
  vPeriod : Nat
  vFreqHzX10 : Nat
  pollCount : Nat
  checksumFail : Nat
  valid : Bool
  deriving DecidableEq, Repr

/-- `session_end_reason_t`. -/
inductive SessionEndReason where
  | normal
  | fault
  | other
  deriving DecidableEq, Repr

/-- `RFID_AUTH_RESULT_*`. -/
inductive RfidAuthResult where
  | start
  | stop
  | learned
  | rejected
  | listFull
  | matchedNoop
  deriving DecidableEq, Repr

/-- `struct event_record`, the fields `post_fault_event` fills in with anything
but zero. -/
structure EventRecord where
  timestamp : UInt32
  faultId : Nat
  j1772State : J1772State
  evseState : EvseState
  cpMv : Int
  deriving DecidableEq, Repr

/-- `struct session_record`. -/
structure SessionRecord where
  startTs : UInt32
  endTs : UInt32
  mwhDelivered : Nat
  endReason : SessionEndReason
  j1772MaxStateSeen : J1772State
  faultCount : Nat
  maxTempDC : Nat
  deriving DecidableEq, Repr

/-- A frame handed to `comms_publish_event`. -/
inductive CommsEvent where
  | stateChanged (js : J1772State)
  | sessionBegan (startTs : UInt32)
  | sessionEnded (mwh : Nat) (durMs : UInt32) (reason : SessionEndReason)
  | faultRaised (faultId : Nat) (js : J1772State) (es : EvseState) (cpMv : Int)
  | faultCleared (fid : Nat)
  | rfidConfig (requireRfidAuth : Bool) (sessionAuthorized : Bool)
  | gfciPolicy (policy : Nat)
  | diagAdc (peAdcRaw : Nat) (js : J1772State) (es : EvseState)
  | rfidSwipe (uid : Nat) (present : Bool)
  | rfidAuthResult (uid : Nat) (result : RfidAuthResult)
  | bootComplete (selfTestPassed : Bool) (lastFaultId : Nat)
  deriving DecidableEq, Repr

/-- What the task hands to another task or driver without reading it back. -/
inductive Output where
  | publish (e : CommsEvent)
  | postEvent (r : EventRecord)
  | postSession (r : SessionRecord)
  | postAuthlistAdd (uid : Nat)
  | gfciSelfTest
  | rfidKeepalive
  deriving DecidableEq, Repr

/-- Everything one tick reads from outside the task: the drivers, the persisted
configuration, and the requests the other tasks post. `posts k` are the requests
posted before the `k`-th `xQueueReceive` of the tick's inbox drain; `posts 4`
those posted after the drain and before the RFID step. -/
structure TickInput where
  tickCount : UInt32
  cpHighMv : Int
  adc : AdcScan
  gfciFaultActive : Bool
  gfciInHandshakeWindow : Bool
  crashSafeFail : Bool
  requireRfidAuth : Bool
  gfciFaultPolicy : Nat
  advertisedAmps : Nat
  dip1Closed : Bool
  iaNaPerRaw : Int
  paUwPerRaw : Int
  freqConst : Int
  bl0939 : Bl0939Poll
  rfidRx : List UInt8
  authlist : List Nat
  posts : Nat → List SafetyReq

/-- `s_session`. -/
structure Session where
  active : Bool
  startTs : UInt32
  j1772Max : J1772State
  faultCount : Nat
  maxTempDC : Nat
  mwsAccum : Int
  deriving DecidableEq, Repr

/-! ## The state -/

structure SafetyTask where
  /-- `xTaskGetTickCount()` at the current tick. -/
  tickCount : UInt32
  faults : FaultState
  evse : EvseState
  cp : J1772Ctx
  lastLoggedJ1772 : J1772State
  weldStreak : Nat
  stuckOpenStreak : Nat
  cpEStreak : Nat
  evseCStreak : Nat
  gfciCtx : GfciPolicyCtx
  peStreak : Nat
  peLogTick : Nat
  adcRuntimeStreak : Nat
  ccStreak : Nat
  prevJs : J1772State
  prevEs : EvseState
  otCtx : OverTempCtx
  rfidCtx : RfidCtx
  rfidKeepaliveDiv : Nat
  bl0939PollDiv : Nat
  acAbsentStreak : Nat
  weldBlStreak : Nat
  stuckOpenBlStreak : Nat
  hocStreak : Nat
  socStreak : Nat
  /-- `s_prev_commanded` of the weld detector, `none` for its initial `-1`. -/
  weldPrevCommanded : Option Bool
  weldSettlePolls : Nat
  rfidLearnTicks : Nat
  replugWindowTicks : Nat
  sessionAuthorized : Bool
  socDerateAmps : Nat
  session : Session
  readings : Bl0939Readings
  /-- `s_main_cmd` of the contactor driver: `true` is closed. -/
  mainCmd : Bool
  /-- `s_force_open` of the contactor driver. -/
  forceOpen : Bool
  /-- The control-pilot compare register. -/
  cpCcr : Nat
  outputs : List Output
  deriving DecidableEq, Repr

/-! ## Control pilot and contactor -/

/-- `CP_PWM_CCR_HIGH`: the pilot idles at +12 V. -/
def cpPwmCcrHigh : Nat := 1000

/-- `CP_PWM_CCR_LOW`: the pilot is held at -12 V, J1772 state F. -/
def cpPwmCcrLow : Nat := 0

def cpPwmSetIdleHigh (s : SafetyTask) : SafetyTask := { s with cpCcr := cpPwmCcrHigh }

def cpPwmSetStateF (s : SafetyTask) : SafetyTask := { s with cpCcr := cpPwmCcrLow }

def cpPwmSetAdvertiseAmps (amps : Nat) (s : SafetyTask) : SafetyTask :=
  if amps < 6 ∨ 80 < amps then cpPwmSetIdleHigh s
  else
    let dutyPct := if amps ≤ 51 then amps * 10 / 6 else amps * 10 / 25 + 64
    let dutyPct := if 96 < dutyPct then 96 else dutyPct
    { s with cpCcr := dutyPct * 10 }

def relayMainOpen (s : SafetyTask) : SafetyTask := { s with mainCmd := false }

def relayMainClose (s : SafetyTask) : SafetyTask := { s with mainCmd := true }

/-- There is no closed-feedback signal on this board: the driver answers open. -/
def relayMainSenseClosed : Bool := false

def relayForceOpenLatch (s : SafetyTask) : SafetyTask := { s with forceOpen := true }

def relayForceOpenRelease (s : SafetyTask) : SafetyTask := { s with forceOpen := false }

/-! ## Sessions and fault events -/

def emit (o : Output) (s : SafetyTask) : SafetyTask := { s with outputs := s.outputs ++ [o] }

def commsPublishEvent (e : CommsEvent) (s : SafetyTask) : SafetyTask := emit (.publish e) s

def sessionMinPersistMs : Nat := 2000

def sessionStart (s : SafetyTask) : SafetyTask :=
  let s := { s with session :=
    { active := true, startTs := s.tickCount, j1772Max := .C, faultCount := 0, maxTempDC := 0,
      mwsAccum := 0 } }
  commsPublishEvent (.sessionBegan s.session.startTs) s

/-- Milliwatt-seconds to milliwatt-hours, saturated at the 32-bit maximum. -/
def sessionMwh (mwsAccum : Int) : Nat :=
  let mwh := if 0 < mwsAccum then (mwsAccum / 3600).toNat else 0
  if 0xFFFFFFFF < mwh then 0xFFFFFFFF else mwh

def clearSocDerateForSessionEnd (s : SafetyTask) : SafetyTask :=
  if s.socDerateAmps ≠ 0 then { s with socDerateAmps := 0 } else s

def sessionEnd (reason : SessionEndReason) (s : SafetyTask) : SafetyTask :=
  if !s.session.active then s
  else
    let now := s.tickCount
    let durMs := now - s.session.startTs
    let persist := decide (sessionMinPersistMs ≤ durMs.toNat) || decide (0 < s.session.faultCount)
      || decide (reason = .fault)
    let rec_ : SessionRecord :=
      { startTs := s.session.startTs
        endTs := now
        mwhDelivered := sessionMwh s.session.mwsAccum
        endReason := reason
        j1772MaxStateSeen := s.session.j1772Max
        faultCount := s.session.faultCount
        maxTempDC := s.session.maxTempDC }
    let s := if persist then emit (.postSession rec_) s else s
    let s := commsPublishEvent (.sessionEnded rec_.mwhDelivered (now - rec_.startTs) reason) s
    clearSocDerateForSessionEnd { s with session := { s.session with active := false } }

/-- Every state change of the EVSE. Entering FAULT drives the pilot to state F
at once, opens the contactor and arms the force-open latch; any other change
drops an armed latch. -/
def evseTransition (next : EvseState) (s : SafetyTask) : SafetyTask :=
  if s.evse = next then s
  else
    let s :=
      if next = .charging then sessionStart s
      else if s.evse = .charging then
        sessionEnd (if next = .fault then .fault else .normal) s
      else s
    let s := { s with evse := next }
    if next = .fault then relayForceOpenLatch (relayMainOpen (cpPwmSetStateF s))
    else if s.forceOpen then relayForceOpenRelease s
    else s

/-- The cast of a millivolt value to the record's signed 16-bit field. -/
def toInt16 (x : Int) : Int := x.bmod (2 ^ 16)

def postFaultEvent (fid : FaultId) (js : J1772State) (cpMv : Int) (s : SafetyTask) : SafetyTask :=
  let es := s.evse
  let s := emit (.postEvent
    { timestamp := s.tickCount, faultId := fid.code, j1772State := js, evseState := es,
      cpMv := toInt16 cpMv }) s
  let s :=
    if s.session.active && decide (s.session.faultCount < 0xFFFF) then
      { s with session := { s.session with faultCount := s.session.faultCount + 1 } }
    else s
  commsPublishEvent (.faultRaised fid.code js es (toInt16 cpMv)) s

/-- `if (fault_raise(fs, id) == 1) post_fault_event(...)`, which every detector
that raises a fault does. -/
def raiseFault (fid : FaultId) (js : J1772State) (cpMv : Int) (s : SafetyTask) : SafetyTask :=
  let r := faultRaise s.faults fid.code
  let s := { s with faults := r.2 }
  if r.1 = 1 then postFaultEvent fid js cpMv s else s

/-- The common tail of the latched detectors: raise the fault and enter FAULT. -/
def raiseToFault (fid : FaultId) (js : J1772State) (cpMv : Int) (s : SafetyTask) : SafetyTask :=
  evseTransition .fault (raiseFault fid js cpMv s)

/-- The debounce of the latched detectors: once the streak is long enough and the
fault is not active already, raise it and enter FAULT. -/
def latchAfter (need streak : Nat) (fid : FaultId) (js : J1772State) (cpMv : Int)
    (s : SafetyTask) : SafetyTask :=
  if need ≤ streak ∧ faultIsActive s.faults fid.code = false then raiseToFault fid js cpMv s
  else s

/-- `if (streak < cap) ++streak`. -/
def bump (cap streak : Nat) : Nat := if streak < cap then streak + 1 else streak

end OpenEVCharger
