import OpenEVCharger.Safety.Metering
import OpenEVCharger.Safety.Inbox

/-!
# The tick loop

`safety_task_run`: the boot path up to READY or FAULT, and one pass of its
endless loop. The tick is cut at the places other statements refer to: the states
`check_over_temp`, `update_evse_from_j1772` and the RFID block run in.
The system snapshot published at the end of a tick is left out.
-/

namespace OpenEVCharger

def j1772DebounceN : Nat := 3
def rfidKeepaliveTicks : Nat := 17
def rfidAuthlistMax : Nat := 28

/-! ## Boot -/

/-- What the boot path reads: five pilot samples, one ADC scan, the outcome of
the GFCI calibration pulse and the crash-loop flag. -/
structure BootInput where
  tickCount : UInt32
  cpHighMv : Nat → Int
  adc : AdcScan
  gfciCalPassed : Bool
  crashSafeFail : Bool

/-- The state `safety_task_run` starts from. -/
def safetyTaskInit (tickCount : UInt32) : SafetyTask where
  tickCount := tickCount
  faults := faultInit
  evse := .boot
  cp := j1772Init
  lastLoggedJ1772 := .invalid
  weldStreak := 0
  stuckOpenStreak := 0
  cpEStreak := 0
  evseCStreak := 0
  gfciCtx := ⟨0, false, false⟩
  peStreak := 0
  peLogTick := 0
  adcRuntimeStreak := 0
  ccStreak := 0
  prevJs := .invalid
  prevEs := .boot
  otCtx := ⟨0, false⟩
  rfidCtx := rfidInitCtx
  rfidKeepaliveDiv := 0
  bl0939PollDiv := 0
  acAbsentStreak := 0
  weldBlStreak := 0
  stuckOpenBlStreak := 0
  hocStreak := 0
  socStreak := 0
  weldPrevCommanded := none
  weldSettlePolls := 0
  rfidLearnTicks := 0
  replugWindowTicks := 0
  sessionAuthorized := false
  socDerateAmps := 0
  session := ⟨false, 0, .invalid, 0, 0, 0⟩
  readings := ⟨0, 0, 0, 0, 0, 0, 0, 0, false⟩
  mainCmd := false
  forceOpen := false
  cpCcr := cpPwmCcrHigh
  outputs := []

def stCpPilotPresentMv : Int := 1500

def selfTestAdcSanity (adc : AdcScan) : Nat :=
  [adc.ac, adc.ct, adc.lct, adc.cp].countP adcOutOfBand

def selfTestRelayOpen : Nat := if relayMainSenseClosed then 1 else 0

def selfTestCpPilotPresent (cpMv : Int) : Nat := if cpMv < stCpPilotPresentMv then 1 else 0

/-- The number of failed sub-checks. -/
def runBootSelfTest (adc : AdcScan) (cpMv : Int) : Nat :=
  selfTestAdcSanity adc + selfTestRelayOpen + selfTestCpPilotPresent cpMv

/-- A failed boot check raises its fault, unless that fault is active already. -/
def bootCheck (failed : Bool) (fid : FaultId) (js : J1772State) (cpMv : Int) (s : SafetyTask) :
    SafetyTask :=
  if failed && !faultIsActive s.faults fid.code then raiseToFault fid js cpMv s else s

def bootPilot (b : BootInput) (s : SafetyTask) : SafetyTask :=
  { s with
      cp := (List.range 5).foldl
        (fun cp k => j1772Step cp (b.cpHighMv k) j1772DebounceN) s.cp }

/-- BOOT to SELF_TEST to READY, or to FAULT when a check fails. -/
def bootTask (fl : BuildFlags) (b : BootInput) : SafetyTask :=
  let s := evseTransition .selfTest (safetyTaskInit b.tickCount)
  let s := bootPilot b s
  let cpMv0 := b.cpHighMv 4
  let js0 := s.cp.committed
  let stFails := runBootSelfTest b.adc cpMv0
  let s := bootCheck (decide (0 < stFails)) .bootSelfTest js0 cpMv0 s
  let s := bootCheck (fl.gfciCalSelfTest && !b.gfciCalPassed) .gfciSelfTest js0 cpMv0 s
  let s := checkSafeFail b.crashSafeFail js0 cpMv0 s
  let s := if s.evse ≠ .fault then evseTransition .ready s else s
  commsPublishEvent (.bootComplete (decide (stFails = 0)) s.faults.firstRaised) s

/-! ## The tick up to the EVSE update -/

/-- The replug window counts down and ends with a fresh pilot classifier; only a
unit that is still USER_PAUSED goes back to READY. -/
def serviceReplugWindow (s : SafetyTask) : SafetyTask :=
  if 0 < s.replugWindowTicks then
    let s := { s with replugWindowTicks := s.replugWindowTicks - 1 }
    if s.replugWindowTicks = 0 then
      resetPilot (if s.evse = .userPaused then evseTransition .ready s else s)
    else s
  else s

def readPilot (i : TickInput) (s : SafetyTask) : SafetyTask :=
  let s := { s with cp := j1772Step s.cp i.cpHighMv j1772DebounceN }
  let js := s.cp.committed
  if js ≠ s.lastLoggedJ1772 ∧ js ≠ .invalid then
    commsPublishEvent (.stateChanged js) { s with lastLoggedJ1772 := js }
  else s

/-- The two detectors of a board with a closed-feedback signal. -/
def checkRelayFeedback (fl : BuildFlags) (js : J1772State) (cpMv : Int) (s : SafetyTask) :
    SafetyTask :=
  if fl.relayFeedbackKnown then
    checkRelayStuckOpen relayMainSenseClosed js cpMv
      (checkRelayWeld relayMainSenseClosed js cpMv s)
  else s

def runDetectors (fl : BuildFlags) (i : TickInput) (js : J1772State) (cpMv : Int)
    (s : SafetyTask) : SafetyTask :=
  let s := checkSafeFail i.crashSafeFail js cpMv s
  let s := checkRelayFeedback fl js cpMv s
  let s := checkGfci i js cpMv s
  let s := checkPeContinuity fl i js cpMv s
  let s := checkAdcRuntime i js cpMv s
  let s := checkCcOutOfRange fl i js cpMv s
  checkCpE js cpMv s

/-- The task after the inbox, the replug window and the pilot reading. -/
def beforeDetectors (i : TickInput) (σ : System) : SafetyTask :=
  readPilot i (serviceReplugWindow (drainInbox i σ).task)

/-- The task `check_over_temp` runs in. -/
def beforeOverTemp (fl : BuildFlags) (i : TickInput) (σ : System) : SafetyTask :=
  let s := beforeDetectors i σ
  runDetectors fl i s.cp.committed i.cpHighMv s

/-- The task `update_evse_from_j1772` runs in. -/
def beforeUpdate (fl : BuildFlags) (i : TickInput) (σ : System) : SafetyTask :=
  checkOverTemp fl i (beforeOverTemp fl i σ)

def afterUpdate (fl : BuildFlags) (i : TickInput) (σ : System) : SafetyTask :=
  let s := beforeUpdate fl i σ
  updateEvseFromJ1772 i s.cp.committed s

/-! ## Outputs, metering and RFID -/

/-- The outputs of the tick: regression log, contactor, control pilot. -/
def applyOutputs (i : TickInput) (js : J1772State) (cpMv : Int) (s : SafetyTask) : SafetyTask :=
  let s := checkCpRegression js cpMv s
  let s := applyRelayState js s
  let s := applyCpForState i js s
  { s with prevJs := js, prevEs := s.evse }

/-- The system the RFID block runs in: the requests posted since the drain are
in the inbox. -/
def beforeRfid (fl : BuildFlags) (i : TickInput) (σ : System) : System :=
  let s := afterUpdate fl i σ
  let js := s.cp.committed
  { task := meteringStep i js i.cpHighMv (applyOutputs i js i.cpHighMv s)
    inbox := (i.posts drainMax).foldl postSafetyReq (drainInbox i σ).inbox }

/-- A card on the authorised list: grants the session and toggles it. -/
def rfidGrant (i : TickInput) (σ : System) : RfidAuthResult × System :=
  let priorAuth := σ.task.sessionAuthorized
  let s := { σ.task with sessionAuthorized := true }
  let r : RfidAuthResult × List SafetyReq :=
    match s.evse with
    | .charging => (.stop, postSafetyReq σ.inbox (.userPause 0xFF))
    | .ready => (.start, σ.inbox)
    | .userPaused => (.start, postSafetyReq σ.inbox .userResume)
    | _ => (.matchedNoop, σ.inbox)
  (r.1, ⟨if priorAuth then s else publishRfidConfig i s, r.2⟩)

/-- A card-present edge: learn the card when armed, else look it up. -/
def rfidCard (i : TickInput) (uid : Nat) (σ : System) : RfidAuthResult × System :=
  if 0 < σ.task.rfidLearnTicks then
    let s := { σ.task with rfidLearnTicks := 0 }
    if rfidAuthlistMax ≤ i.authlist.length then (.listFull, ⟨s, σ.inbox⟩)
    else (.learned, ⟨emit (.postAuthlistAdd uid) s, σ.inbox⟩)
  else if i.authlist.contains uid then rfidGrant i σ
  else (.rejected, σ)

def rfidEdge (i : TickInput) (a : RfidAction) (σ : System) : System :=
  let σ := { σ with task := commsPublishEvent (.rfidSwipe a.uid a.present) σ.task }
  if a.present && decide (a.uid ≠ 0) then
    let r := rfidCard i a.uid σ
    { r.2 with task := commsPublishEvent (.rfidAuthResult a.uid r.1) r.2.task }
  else σ

/-- The bytes the reader sent since the last tick. -/
def rfidReceive (i : TickInput) (σ : System) : System :=
  if i.rfidRx = [] then σ
  else
    let r := rfidFeed σ.task.rfidCtx i.rfidRx
    let σ := { σ with task := { σ.task with rfidCtx := r.2.1 } }
    if r.2.2.edge then rfidEdge i r.2.2 σ else σ

def rfidTimers (s : SafetyTask) : SafetyTask :=
  let s := { s with rfidLearnTicks := s.rfidLearnTicks - 1 }
  if rfidKeepaliveTicks ≤ s.rfidKeepaliveDiv + 1 then
    emit .rfidKeepalive { s with rfidKeepaliveDiv := 0 }
  else { s with rfidKeepaliveDiv := s.rfidKeepaliveDiv + 1 }

def rfidStep (i : TickInput) (σ : System) : System :=
  let σ := rfidReceive i σ
  { σ with task := rfidTimers σ.task }

/-! ## The machine -/

/-- One pass of the loop. -/
def tick (fl : BuildFlags) (i : TickInput) (σ : System) : System :=
  rfidStep i (beforeRfid fl i σ)

/-- The safety task from boot on; state `n` is the one at the end of tick `n`,
and input `n` is the one tick `n + 1` reads. -/
def safetyMachine (fl : BuildFlags) : Machine BootInput TickInput System where
  boot b := ⟨bootTask fl b, []⟩
  step := tick fl

end OpenEVCharger
