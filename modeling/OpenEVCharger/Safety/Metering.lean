import OpenEVCharger.Safety.Detectors

/-!
# Metering poll

The part of the tick that runs once every `bl0939PollTicks`: the poll of the
metering chip, the five detectors that look at its readings, and the energy
integrator. It comes after the contactor decision of the tick.
-/

namespace OpenEVCharger

def bl0939PollTicks : Nat := 20
def bl0939DetectorPersist : Nat := 3
def bl0939StuckOpenPersist : Nat := 75
def bl0939WeldSettlePolls : Nat := 8
def bl0939VRmsAcPresentRaw : Nat := 0x00080000
def bl0939HocTolNum : Nat := 120
def bl0939HocTolDen : Nat := 100
def bl0939HocPersistPolls : Nat := 13
def bl0939SocTolNum : Nat := 105
def bl0939SocTolDen : Nat := 100
def bl0939SocPersistPolls : Nat := 75

/-! ## The poll -/

/-- Sign extension of a 24-bit register. -/
def bl0939Sx24 (v : Nat) : Int := (v : Int).bmod (2 ^ 24)

def bl0939PollFreq (freqConst : Int) (tp : Nat) : Nat :=
  if 50 ≤ tp ∧ tp ≤ 0x00FFFFFF ∧ 0 < freqConst then freqConst.toNat / tp % 2 ^ 16 else 0

/-- One poll round: every register whose checksum matched replaces its cached
value, the others count a checksum failure and keep it. -/
def bl0939Poll (freqConst : Int) (p : Bl0939Poll) (snap : Bl0939Readings) : Bl0939Readings :=
  let fails := [p.v, p.ia, p.ib, p.aw, p.tp].countP (fun r => !r.ok)
  { vRms := if p.v.ok then p.v.val else snap.vRms
    iaRms := if p.ia.ok then p.ia.val else snap.iaRms
    ibRms := if p.ib.ok then p.ib.val else snap.ibRms
    aWatt := if p.aw.ok then bl0939Sx24 p.aw.val else snap.aWatt
    vPeriod := if p.tp.ok then p.tp.val else snap.vPeriod
    vFreqHzX10 := if p.tp.ok then bl0939PollFreq freqConst p.tp.val else snap.vFreqHzX10
    pollCount := snap.pollCount + 1
    checksumFail := snap.checksumFail + fails
    valid := if fails = 0 then true else snap.valid }

/-! ## Detectors on the readings -/

def checkAcAbsent (bl : Bl0939Readings) (js : J1772State) (cpMv : Int) (s : SafetyTask) :
    SafetyTask :=
  if !bl.valid then s
  else if bl.vRms < bl0939VRmsAcPresentRaw then
    let streak := bump bl0939DetectorPersist s.acAbsentStreak
    let s := { s with acAbsentStreak := streak }
    if bl0939DetectorPersist ≤ streak ∧ faultIsActive s.faults FaultId.acAbsent.code = false then
      raiseFault .acAbsent js cpMv s
    else s
  else
    let s := { s with acAbsentStreak := 0 }
    if faultIsActive s.faults FaultId.acAbsent.code then
      { s with faults := (faultClear s.faults FaultId.acAbsent.code).2 }
    else s

/-- Milliamps of channel A under a positive calibration. -/
def iaMilliamps (bl : Bl0939Readings) (scale : Int) : Nat := bl.iaRms * scale.toNat / 1000000

/-- The post-open settle window of the weld detector, before its countdown. -/
def weldSettleArmed (s : SafetyTask) : Nat :=
  if s.weldPrevCommanded = some true ∧ s.mainCmd = false then bl0939WeldSettlePolls
  else s.weldSettlePolls

def checkRelayWeldBl0939 (i : TickInput) (bl : Bl0939Readings) (js : J1772State) (cpMv : Int)
    (s : SafetyTask) : SafetyTask :=
  if !bl.valid then s
  else if i.iaNaPerRaw ≤ 0 then { s with weldBlStreak := 0 }
  else
    let settle := weldSettleArmed s
    let s := { s with weldPrevCommanded := some s.mainCmd }
    if 0 < settle then { s with weldSettlePolls := settle - 1, weldBlStreak := 0 }
    else
      let sensingFlow := decide (500 ≤ iaMilliamps bl i.iaNaPerRaw)
      let streak :=
        if sensingFlow && !s.mainCmd then bump bl0939DetectorPersist s.weldBlStreak else 0
      latchAfter bl0939DetectorPersist streak .relayWeld js cpMv
        { s with weldSettlePolls := settle, weldBlStreak := streak }

def checkRelayStuckOpenBl0939 (i : TickInput) (bl : Bl0939Readings) (js : J1772State)
    (cpMv : Int) (s : SafetyTask) : SafetyTask :=
  if !bl.valid then s
  else if i.iaNaPerRaw ≤ 0 then { s with stuckOpenBlStreak := 0 }
  else if s.evse ≠ .charging ∨ s.mainCmd = false then { s with stuckOpenBlStreak := 0 }
  else
    let streak :=
      if iaMilliamps bl i.iaNaPerRaw < 500 then bump bl0939StuckOpenPersist s.stuckOpenBlStreak
      else 0
    latchAfter bl0939StuckOpenPersist streak .relayStuckOpen js cpMv
      { s with stuckOpenBlStreak := streak }

/-- 120 % of the advertised current, but never above the hardware ceiling. -/
def hocThresholdMa (adv : Nat) : Nat :=
  let specThresholdMa := adv * 1000 * bl0939HocTolNum / bl0939HocTolDen
  let hwCeilingMa := hwAmpsMax * 1000 * 125 / 100
  if specThresholdMa < hwCeilingMa then specThresholdMa else hwCeilingMa

def checkHardOverCurrent (i : TickInput) (bl : Bl0939Readings) (js : J1772State) (cpMv : Int)
    (s : SafetyTask) : SafetyTask :=
  if !bl.valid then s
  else if i.iaNaPerRaw ≤ 0 then { s with hocStreak := 0 }
  else if effectiveAdvertisedAmps i s = 0 then { s with hocStreak := 0 }
  else
    let adv := effectiveAdvertisedAmps i s
    let streak :=
      if hocThresholdMa adv < iaMilliamps bl i.iaNaPerRaw then
        bump bl0939HocPersistPolls s.hocStreak
      else 0
    latchAfter bl0939HocPersistPolls streak .hardOverCurrent js cpMv
      { s with hocStreak := streak }

def socThresholdMa (adv : Nat) : Nat := adv * 1000 * bl0939SocTolNum / bl0939SocTolDen

/-- Back under the threshold: the streak restarts and the fault clears itself. -/
def clearSoftOverCurrent (s : SafetyTask) : SafetyTask :=
  let s := { s with socStreak := 0 }
  if faultIsActive s.faults FaultId.softOverCurrent.code then
    let r := faultClear s.faults FaultId.softOverCurrent.code
    let s := { s with faults := r.2 }
    if r.1 = 1 then commsPublishEvent (.faultCleared FaultId.softOverCurrent.code) s else s
  else s

/-- Above the threshold for long enough: ramp the advertised current down, and
only at the floor raise the fault. The derate counter is a byte. -/
def rampSoftOverCurrent (adv : Nat) (js : J1772State) (cpMv : Int) (s : SafetyTask) :
    SafetyTask :=
  if socDerateFloorA < adv then
    let step := if 10 ≤ adv then adv / 10 else 1
    { s with socDerateAmps := (s.socDerateAmps + step) % 2 ^ 8, socStreak := 0 }
  else if faultIsActive s.faults FaultId.softOverCurrent.code then s
  else raiseFault .softOverCurrent js cpMv s

def checkSoftOverCurrent (i : TickInput) (bl : Bl0939Readings) (js : J1772State) (cpMv : Int)
    (s : SafetyTask) : SafetyTask :=
  if !bl.valid then s
  else if i.iaNaPerRaw ≤ 0 then { s with socStreak := 0 }
  else if effectiveAdvertisedAmps i s = 0 then { s with socStreak := 0 }
  else
    let adv := effectiveAdvertisedAmps i s
    if iaMilliamps bl i.iaNaPerRaw ≤ socThresholdMa adv then clearSoftOverCurrent s
    else if s.socStreak < bl0939SocPersistPolls then { s with socStreak := s.socStreak + 1 }
    else rampSoftOverCurrent adv js cpMv s

/-! ## Energy -/

/-- Power counts only while a session is active with the contactor commanded
closed, and only when the calibrated product is positive. -/
def integrateEnergy (i : TickInput) (bl : Bl0939Readings) (s : SafetyTask) : SafetyTask :=
  if s.session.active && s.mainCmd && decide (i.paUwPerRaw ≠ 0) then
    let uw := bl.aWatt * i.paUwPerRaw
    if 0 < uw then
      let mws := uw * bl0939PollTicks * safetyTaskPeriodMs / 1000000
      { s with session := { s.session with mwsAccum := s.session.mwsAccum + mws } }
    else s
  else s

/-- The metering block of the tick. -/
def meteringStep (i : TickInput) (js : J1772State) (cpMv : Int) (s : SafetyTask) : SafetyTask :=
  if s.bl0939PollDiv + 1 < bl0939PollTicks then
    { s with bl0939PollDiv := s.bl0939PollDiv + 1 }
  else
    let bl := bl0939Poll i.freqConst i.bl0939 s.readings
    let s := { s with bl0939PollDiv := 0, readings := bl }
    let s := checkAcAbsent bl js cpMv s
    let s := checkRelayWeldBl0939 i bl js cpMv s
    let s := checkRelayStuckOpenBl0939 i bl js cpMv s
    let s := checkHardOverCurrent i bl js cpMv s
    let s := checkSoftOverCurrent i bl js cpMv s
    integrateEnergy i bl s

end OpenEVCharger
