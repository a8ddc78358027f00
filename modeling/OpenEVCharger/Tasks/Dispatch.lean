import OpenEVCharger.Comms.StateReport
import OpenEVCharger.Hal.Printk
import OpenEVCharger.Safety.Derate
import OpenEVCharger.Tasks.PersistQueue
import OpenEVCharger.Ui.Buzzer
import OpenEVCharger.Ui.LedPatterns

/-!
# Dispatch of the requests

The command handlers of `tasks/comms_task.c`. A handler checks the payload, answers at once,
or hands a request to the persist task or to the safety task; what it hands over is well
formed whatever the bytes were.
-/

namespace OpenEVCharger

/-! ## Codes -/

/-- `CMD_*`. -/
inductive Command where
  | ping
  | getState
  | setAdvertisedAmps
  | requestStop
  | requestStartResume
  | clearFault
  | getFaultLog
  | getLifetimeKwh
  | writeCalibration
  | setLedOverride
  | buzzerBeep
  | getBuildInfo
  | getDeviceId
  | writeBl0939Cal
  | rfidLearnNext
  | rfidRemoveUid
  | rfidClearList
  | rfidGetList
  | setRequireRfidAuth
  | getRfidConfig
  | otaBegin
  | otaChunk
  | otaCommit
  | otaAbort
  | setTime
  | getTime
  | restart
  | simulateReplug
  | runGfciCalTest
  | setGfciPolicy
  | getGfciPolicy
  deriving DecidableEq, Repr

namespace Command

def code : Command → UInt8
  | ping => 0x01
  | getState => 0x02
  | setAdvertisedAmps => 0x03
  | requestStop => 0x04
  | requestStartResume => 0x05
  | clearFault => 0x06
  | getFaultLog => 0x07
  | getLifetimeKwh => 0x08
  | writeCalibration => 0x09
  | setLedOverride => 0x0A
  | buzzerBeep => 0x0B
  | getBuildInfo => 0x0C
  | getDeviceId => 0x0D
  | writeBl0939Cal => 0x0E
  | rfidLearnNext => 0x0F
  | rfidRemoveUid => 0x10
  | rfidClearList => 0x11
  | rfidGetList => 0x12
  | setRequireRfidAuth => 0x13
  | getRfidConfig => 0x14
  | otaBegin => 0x15
  | otaChunk => 0x16
  | otaCommit => 0x17
  | otaAbort => 0x18
  | setTime => 0x19
  | getTime => 0x1A
  | restart => 0x1B
  | simulateReplug => 0x1C
  | runGfciCalTest => 0x1E
  | setGfciPolicy => 0x1F
  | getGfciPolicy => 0x20

def all : List Command :=
  [ping, getState, setAdvertisedAmps, requestStop, requestStartResume, clearFault, getFaultLog,
    getLifetimeKwh, writeCalibration, setLedOverride, buzzerBeep, getBuildInfo, getDeviceId,
    writeBl0939Cal, rfidLearnNext, rfidRemoveUid, rfidClearList, rfidGetList, setRequireRfidAuth,
    getRfidConfig, otaBegin, otaChunk, otaCommit, otaAbort, setTime, getTime, restart,
    simulateReplug, runGfciCalTest, setGfciPolicy, getGfciPolicy]

/-- The case of the switch that a command byte selects, if any. -/
def ofCode (b : UInt8) : Option Command := all.find? fun c => c.code == b

theorem ofCode_code (c : Command) : ofCode c.code = some c := by
  cases c <;> rfl

theorem code_of_ofCode {b : UInt8} {c : Command} (h : ofCode b = some c) : c.code = b :=
  beq_iff_eq.mp (List.find?_some (p := fun c : Command => c.code == b) h)

end Command

/-- The events that the comms task sends by itself. -/
abbrev evtPingAck : UInt8 := 0x81
abbrev evtStateReport : UInt8 := 0x82
abbrev evtBuildInfo : UInt8 := 0x8C
abbrev evtDeviceId : UInt8 := 0x8D
abbrev evtTime : UInt8 := 0x97

/-! ## The wall clock -/

/-- `system_time_set`. -/
def systemTimeSet (unixS tickMs : UInt32) : SystemTime :=
  if unixS = 0 then ⟨0, 0, false⟩ else ⟨unixS, tickMs, true⟩

/-- The backup domain: the counter of the RTC, and whether the magic is stamped. -/
structure Rtc where
  counter : UInt32
  magic : Bool
  deriving DecidableEq, Repr

/-- `rtc_store_unix`; each of its two waits may run out. -/
def rtcStoreUnix (waits : Bool × Bool) (unixS : UInt32) (r : Rtc) : Rtc :=
  if !waits.1 then r
  else if !waits.2 then { r with counter := unixS }
  else ⟨unixS, true⟩

/-! ## The comms task -/

/-- What the handlers read: the clock, the cached boot configuration, the published snapshot,
the texts of the build, the unique id of the chip, whether the transmitter is free within the
50 ms that a frame waits for it, and how the waits for the RTC end. -/
structure CommsEnv where
  tickMs : UInt32
  advertisedAmps : UInt8
  snapshot : SystemState
  version : List UInt8
  gitSha : List UInt8
  uid : Packed 12
  txFree : Bool
  rtcWaits : Bool × Bool

/-- What the handlers change: the queue of the persist task, the inbox of the safety task, the
frames sent, the overrides of the UI, the clocks, and whether the core is about to reset. -/
structure CommsState where
  persist : List PersistReq
  inbox : List SafetyReq
  sent : List TlvFrame
  led : LedOverride
  buzzer : BuzzerState
  time : SystemTime
  rtc : Rtc
  restarting : Bool

namespace CommsState

variable (σ : CommsState)

def post (r : PersistReq) : CommsState := { σ with persist := persistPost σ.persist r }

def ask (r : SafetyReq) : CommsState := { σ with inbox := postSafetyReq σ.inbox r }

/-- `send_frame`. -/
def send (e : CommsEnv) (x : TlvFrame) : CommsState :=
  match tlvBuild x tlvFrameMax with
  | none => σ
  | some _ => if e.txFree then { σ with sent := σ.sent ++ [x] } else σ

end CommsState

/-! ## Handlers -/

/-- The version and the revision, each cut to what the buffer holds, with a bar between. -/
def buildInfo (version gitSha : List UInt8) : List UInt8 :=
  let v := (version.takeWhile (· ≠ 0)).take 23
  v ++ 0x7C :: (gitSha.takeWhile (· ≠ 0)).take (46 - (v.length + 1))

section Handlers

variable (e : CommsEnv) (p : List UInt8) (seq : UInt8) (σ : CommsState)

def handlePing : CommsState := σ.send e ⟨evtPingAck, seq, []⟩

def handleGetState : CommsState := σ.send e ⟨evtStateReport, seq, e.snapshot.bytes⟩

/-- The text goes out with the zero at its end. -/
def handleGetBuildInfo : CommsState :=
  σ.send e ⟨evtBuildInfo, seq, buildInfo e.version e.gitSha ++ [0]⟩

def handleGetDeviceId : CommsState := σ.send e ⟨evtDeviceId, seq, e.uid.bytes⟩

def handleSetLedOverride : CommsState :=
  if p.length < 4 then σ
  else { σ with led := ledOverrideSet (p.getD 0 0) (p.getD 1 0) (p.getD 2 0) (p.getD 3 0) }

def handleBuzzerBeep : CommsState :=
  if p.length < 2 then σ else { σ with buzzer := buzzerSetOneshot (le16Load p 0) σ.buzzer }

/-- The limit is queued unless it is the one in the cache. -/
def handleSetAmps : CommsState :=
  match handleSetAdvertisedAmps e.advertisedAmps p with
  | none => σ
  | some amps => σ.post (.bootConfigAmps amps)

def handleClearFault : CommsState :=
  if p.length < 4 then σ else σ.ask (.clearFault (le32Load p 0).toNat)

def handleFaultLog : CommsState :=
  σ.post (.getFaultLog (if 1 ≤ p.length then p.getD 0 0 else 16) seq)

def handleLifetimeKwh : CommsState := σ.post (.getLifetimeKwh seq)

def handleWriteCalibration : CommsState :=
  if p.length < 6 then σ
  else
    let anchor := (le16Load p 0).toInt16
    let snum := (le16Load p 2).toInt16
    let sden := (le16Load p 4).toInt16
    if sden = 0 then σ
    else if anchor < 0 ∨ 4095 < anchor then σ
    else σ.post (.calibration ⟨anchor, snum, sden⟩)

/-- The shorter payload of older firmware carries no frequency constant. -/
def handleWriteBl0939Cal : CommsState :=
  if p.length < 8 then σ
  else
    let fc : Int32 := if 12 ≤ p.length then (le32Load p 8).toInt32 else 0
    σ.post (.bl0939Cal ⟨(le16Load p 0).toInt16, (le16Load p 2).toInt16, (le16Load p 4).toInt16,
      (le16Load p 6).toInt16, fc⟩)

def handleRfidLearnNext : CommsState := σ.ask .rfidLearnArm

def handleRfidRemoveUid : CommsState :=
  if p.length < 4 then σ else σ.post (.rfidAuthlistRemove (le32Load p 0))

def handleRfidClearList : CommsState := σ.post .rfidAuthlistClear

def handleRfidGetListCmd : CommsState := σ.post (.rfidAuthlistGetList seq)

def handleSetRequireRfidAuth : CommsState :=
  if p.length < 1 then σ else σ.post (.requireFlag (p.getD 0 0))

def handleGetRfidConfig : CommsState := σ.ask .publishRfidConfig

def handleOtaBeginCmd : CommsState :=
  if p.length < 12 then σ
  else σ.post (.ota (.begin ⟨le32Load p 0, le32Load p 4, le32Load p 8, seq⟩))

def handleOtaChunkCmd : CommsState :=
  if p.length < 8 ∨ 8 + 48 < p.length then σ
  else if p.length - 8 = 0 then σ
  else
    match PersistReq.otaChunk (le32Load p 0) (le32Load p 4) (p.drop 8) seq with
    | none => σ
    | some r => σ.post r

def handleOtaCommitCmd : CommsState :=
  if p.length < 4 then σ else σ.post (.ota (.commit ⟨le32Load p 0, seq⟩))

def handleOtaAbortCmd : CommsState :=
  if p.length < 4 then σ else σ.post (.ota (.abort ⟨le32Load p 0, seq⟩))

/-- `publish_time_`. -/
def publishTime : CommsState :=
  σ.send e ⟨evtTime, seq, le32Bytes (σ.time.now e.tickMs) ++ [if σ.time.set then 1 else 0]⟩

/-- A time of zero clears the clock and leaves the RTC alone. -/
def handleSetTime : CommsState :=
  if p.length < 4 then σ
  else
    let unixS := le32Load p 0
    let σ := { σ with time := systemTimeSet unixS e.tickMs }
    let σ := if unixS ≠ 0 then { σ with rtc := rtcStoreUnix e.rtcWaits unixS σ.rtc } else σ
    publishTime e seq σ

def handleGetTime : CommsState := publishTime e seq σ

/-- The handler does not return. -/
def handleRestart : CommsState := { σ with restarting := true }

def handleRequestStop : CommsState :=
  σ.ask (.userPause (if 1 ≤ p.length then (p.getD 0 0).toNat else 0))

def handleRequestStartResume : CommsState := σ.ask .userResume

def handleSimulateReplug : CommsState := σ.ask .simulateReplug

def handleRunGfciCalTest : CommsState := σ.ask .runGfciCalTest

def handleSetGfciPolicy : CommsState :=
  if p.length < 1 then σ else σ.post (.gfciPolicy (p.getD 0 0))

def handleGetGfciPolicy : CommsState := σ.ask .publishGfciPolicy

/-- The switch of `dispatch`. -/
def dispatchCommand (c : Command) : CommsState :=
  match c with
  | .ping => handlePing e seq σ
  | .getState => handleGetState e seq σ
  | .getBuildInfo => handleGetBuildInfo e seq σ
  | .getDeviceId => handleGetDeviceId e seq σ
  | .setLedOverride => handleSetLedOverride p σ
  | .buzzerBeep => handleBuzzerBeep p σ
  | .setAdvertisedAmps => handleSetAmps e p σ
  | .clearFault => handleClearFault p σ
  | .getFaultLog => handleFaultLog p seq σ
  | .getLifetimeKwh => handleLifetimeKwh seq σ
  | .writeCalibration => handleWriteCalibration p σ
  | .writeBl0939Cal => handleWriteBl0939Cal p σ
  | .requestStop => handleRequestStop p σ
  | .requestStartResume => handleRequestStartResume σ
  | .rfidLearnNext => handleRfidLearnNext σ
  | .rfidRemoveUid => handleRfidRemoveUid p σ
  | .rfidClearList => handleRfidClearList σ
  | .rfidGetList => handleRfidGetListCmd seq σ
  | .setRequireRfidAuth => handleSetRequireRfidAuth p σ
  | .getRfidConfig => handleGetRfidConfig σ
  | .otaBegin => handleOtaBeginCmd p seq σ
  | .otaChunk => handleOtaChunkCmd p seq σ
  | .otaCommit => handleOtaCommitCmd p seq σ
  | .otaAbort => handleOtaAbortCmd p seq σ
  | .setTime => handleSetTime e p seq σ
  | .getTime => handleGetTime e seq σ
  | .restart => handleRestart σ
  | .simulateReplug => handleSimulateReplug σ
  | .runGfciCalTest => handleRunGfciCalTest σ
  | .setGfciPolicy => handleSetGfciPolicy p σ
  | .getGfciPolicy => handleGetGfciPolicy σ

end Handlers

/-- `dispatch`; once the core is about to reset nothing is dispatched any more. -/
def commsDispatch (e : CommsEnv) (x : TlvFrame) (σ : CommsState) : CommsState :=
  if σ.restarting then σ
  else
    match Command.ofCode x.cmd with
    | none => σ
    | some c => dispatchCommand e x.payload x.seq σ c

end OpenEVCharger
