import OpenEVCharger.Safety.State

/-!
# Per-tick detectors and outputs

The checks `safety_task_run` makes on every tick before it decides on the
contactor, and the contactor and control-pilot outputs it then writes. `js` and
`cpMv` are the committed J1772 state and the pilot reading of the tick.
-/

namespace OpenEVCharger

def safetyTaskPeriodMs : Nat := 20

def weldPersistTicks : Nat := 10
def stuckOpenPersistTicks : Nat := 10
def cpEPersistTicks : Nat := 3
def peOkRawMax : Nat := 400
def pePersistTicks : Nat := 10
def adcRuntimePersistTicks : Nat := 5
def ccPersistTicks : Nat := 10
def ccBandOpenMinRaw : Nat := 3700
def ccBand13aLo : Nat := 3060
def ccBand20aLo : Nat := 2400
def ccBand32aLo : Nat := 1300
def ccBand63aLo : Nat := 600
abbrev evseCDwellTicks : Nat := 50

/-- `ST_ADC_MIN` and `ST_ADC_MAX`. -/
def stAdcMin : Nat := 100
def stAdcMax : Nat := 3995

def adcOutOfBand (raw : Nat) : Bool := decide (raw < stAdcMin) || decide (stAdcMax < raw)

/-! ## Latched detectors -/

def checkSafeFail (safeFail : Bool) (js : J1772State) (cpMv : Int) (s : SafetyTask) :
    SafetyTask :=
  if safeFail && !faultIsActive s.faults FaultId.crashLoopSafeFail.code then
    raiseToFault .crashLoopSafeFail js cpMv s
  else s

def checkRelayWeld (sensedClosed : Bool) (js : J1772State) (cpMv : Int) (s : SafetyTask) :
    SafetyTask :=
  let streak := if sensedClosed && !s.mainCmd then bump weldPersistTicks s.weldStreak else 0
  latchAfter weldPersistTicks streak .relayWeld js cpMv { s with weldStreak := streak }

def checkRelayStuckOpen (sensedClosed : Bool) (js : J1772State) (cpMv : Int) (s : SafetyTask) :
    SafetyTask :=
  if !s.mainCmd || sensedClosed then { s with stuckOpenStreak := 0 }
  else
    let streak := bump stuckOpenPersistTicks s.stuckOpenStreak
    latchAfter stuckOpenPersistTicks streak .relayStuckOpen js cpMv
      { s with stuckOpenStreak := streak }

def checkGfci (i : TickInput) (js : J1772State) (cpMv : Int) (s : SafetyTask) : SafetyTask :=
  let pe2 := if i.gfciInHandshakeWindow then false else i.gfciFaultActive
  let r := gfciPolicyStep s.gfciCtx pe2 i.gfciFaultPolicy
  let s := { s with gfciCtx := r.2 }
  match r.1 with
  | .none => s
  | .warnEmit => postFaultEvent .gfci js cpMv s
  | .raiseFault => raiseToFault .gfci js cpMv s

/-- The states in which the ADC-driven detectors hold their streak at zero. -/
def detectorSuppressed (es : EvseState) : Bool :=
  decide (es = .boot) || decide (es = .selfTest) || decide (es = .fault)

def peLogTicks : Nat := 5000 / safetyTaskPeriodMs

/-- The diagnostic publication of the PE reading, once every `peLogTicks`. -/
def logPe (i : TickInput) (js : J1772State) (s : SafetyTask) : SafetyTask :=
  if peLogTicks ≤ s.peLogTick + 1 then
    commsPublishEvent (.diagAdc i.adc.pe js s.evse) { s with peLogTick := 0 }
  else { s with peLogTick := s.peLogTick + 1 }

def checkPeContinuity (fl : BuildFlags) (i : TickInput) (js : J1772State) (cpMv : Int)
    (s : SafetyTask) : SafetyTask :=
  if detectorSuppressed s.evse then { s with peStreak := 0 }
  else
    let s := logPe i js s
    let streak := if peOkRawMax < i.adc.pe then bump pePersistTicks s.peStreak else 0
    let s := { s with peStreak := streak }
    if fl.peContinuityDetector then latchAfter pePersistTicks streak .peContinuity js cpMv s
    else s

def checkAdcRuntime (i : TickInput) (js : J1772State) (cpMv : Int) (s : SafetyTask) :
    SafetyTask :=
  if detectorSuppressed s.evse then { s with adcRuntimeStreak := 0 }
  else
    let rail := adcOutOfBand i.adc.ac || adcOutOfBand i.adc.ct || adcOutOfBand i.adc.lct
    let streak := if rail then bump adcRuntimePersistTicks s.adcRuntimeStreak else 0
    latchAfter adcRuntimePersistTicks streak .adcOutOfRange js cpMv
      { s with adcRuntimeStreak := streak }

def ccRawInBand (raw : Nat) : Bool :=
  decide (ccBandOpenMinRaw ≤ raw) || decide (ccBand13aLo ≤ raw) || decide (ccBand20aLo ≤ raw)
    || decide (ccBand32aLo ≤ raw) || decide (ccBand63aLo ≤ raw)

def checkCcOutOfRange (fl : BuildFlags) (i : TickInput) (js : J1772State) (cpMv : Int)
    (s : SafetyTask) : SafetyTask :=
  if !fl.ccDetector then s
  else if detectorSuppressed s.evse then { s with ccStreak := 0 }
  else
    let streak := if ccRawInBand i.adc.cc then 0 else bump ccPersistTicks s.ccStreak
    latchAfter ccPersistTicks streak .ccOutOfRange js cpMv { s with ccStreak := streak }

def checkCpE (js : J1772State) (cpMv : Int) (s : SafetyTask) : SafetyTask :=
  if s.evse = .fault ∨ 0 < s.replugWindowTicks then { s with cpEStreak := 0 }
  else
    let streak := if js = .E then bump cpEPersistTicks s.cpEStreak else 0
    latchAfter cpEPersistTicks streak .cpNoPilot js cpMv { s with cpEStreak := streak }

/-! ## Over-temperature -/

/-- Re-syncs the detector context with the fault bit, then acts on its edge.
A trip routes to COOLING_DOWN, never out of FAULT; a clear leaves COOLING_DOWN. -/
def checkOverTemp (fl : BuildFlags) (i : TickInput) (s : SafetyTask) : SafetyTask :=
  let ot := { s.otCtx with faultActive := faultIsActive s.faults FaultId.overTemp.code }
  let r := overTempStep ot i.adc.ntc1 i.adc.ac fl.ntc1Present fl.gunNtcPresent
  let s := { s with otCtx := r.2 }
  if r.1.trip then
    let s := raiseFault .overTemp .invalid 0 s
    if s.evse ≠ .fault then evseTransition .coolingDown s else s
  else if r.1.clear then
    let s := { s with faults := (faultClear s.faults FaultId.overTemp.code).2 }
    if s.evse = .coolingDown then evseTransition .ready s else s
  else s

/-! ## EVSE state, contactor and control pilot -/

def publishRfidConfig (i : TickInput) (s : SafetyTask) : SafetyTask :=
  commsPublishEvent (.rfidConfig i.requireRfidAuth s.sessionAuthorized) s

def publishGfciPolicy (i : TickInput) (s : SafetyTask) : SafetyTask :=
  commsPublishEvent (.gfciPolicy i.gfciFaultPolicy) s

/-- The plug-removal rule: an unplugged car loses its authorisation. -/
def clearAuthOnUnplug (i : TickInput) (js : J1772State) (s : SafetyTask) : SafetyTask :=
  if js = .A ∧ s.sessionAuthorized = true then
    publishRfidConfig i { s with sessionAuthorized := false }
  else s

/-- The authorisation gate of READY to CHARGING. -/
def sessionMayStart (i : TickInput) (s : SafetyTask) : Bool :=
  !i.requireRfidAuth || s.sessionAuthorized

/-- The part of `update_evse_from_j1772` that runs in READY and CHARGING. -/
def updateCharging (i : TickInput) (js : J1772State) (s : SafetyTask) : SafetyTask :=
  let streak := if js = .C then bump evseCDwellTicks s.evseCStreak else 0
  let s := { s with evseCStreak := streak }
  if s.evse = .ready ∧ evseCDwellTicks ≤ streak ∧ sessionMayStart i s = true then
    evseTransition .charging s
  else if s.evse = .charging ∧ js ≠ .C then evseTransition .ready s
  else s

def updateEvseFromJ1772 (i : TickInput) (js : J1772State) (s : SafetyTask) : SafetyTask :=
  if s.evse = .fault ∨ s.evse = .boot ∨ s.evse = .selfTest ∨ s.evse = .coolingDown then
    { s with evseCStreak := 0 }
  else
    let s := clearAuthOnUnplug i js s
    if s.evse = .userPaused then
      let s := { s with evseCStreak := 0 }
      if js = .A then evseTransition .ready s else s
    else updateCharging i js s

/-- Only logs: the regression is reported as an event, no fault bit is raised. -/
def checkCpRegression (js : J1772State) (cpMv : Int) (s : SafetyTask) : SafetyTask :=
  if s.prevJs = .C ∧ js = .B ∧ s.prevEs = .charging then postFaultEvent .cpRegression js cpMv s
  else s

def applyRelayState (js : J1772State) (s : SafetyTask) : SafetyTask :=
  let wantClosed := decide (s.evse = .charging) && decide (js = .C)
    && !faultAnyLatchedActive s.faults
  if wantClosed && !s.mainCmd then relayMainClose s
  else if !wantClosed && s.mainCmd then relayMainOpen s
  else s

def hwAmpsMax : Nat := 48
def dip1AmpsClosed : Nat := 48
def dip1AmpsOpen : Nat := 40
def socDerateFloorA : Nat := 6

def effectiveAdvertisedAmps (i : TickInput) (s : SafetyTask) : Nat :=
  let dip1Cap := if i.dip1Closed then dip1AmpsClosed else dip1AmpsOpen
  let cap := if dip1Cap < hwAmpsMax then dip1Cap else hwAmpsMax
  let fc := i.advertisedAmps
  let base := if fc = 0 then cap else if fc < cap then fc else cap
  let derate := s.socDerateAmps
  if base ≤ derate then socDerateFloorA
  else
    let derated := base - derate
    if derated < socDerateFloorA then socDerateFloorA else derated

/-- The replug window comes before every other rule. -/
def applyCpForState (i : TickInput) (js : J1772State) (s : SafetyTask) : SafetyTask :=
  if 0 < s.replugWindowTicks then cpPwmSetStateF s
  else if s.evse = .fault then cpPwmSetStateF s
  else if s.evse = .coolingDown then cpPwmSetIdleHigh s
  else if s.evse = .userPaused then cpPwmSetIdleHigh s
  else if js = .B ∨ js = .C ∨ js = .D then
    cpPwmSetAdvertiseAmps (effectiveAdvertisedAmps i s) s
  else cpPwmSetIdleHigh s

end OpenEVCharger
