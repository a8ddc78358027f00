import OpenEVCharger.Lib.Mailbox
import OpenEVCharger.Ota.Session
import OpenEVCharger.Persist.Calibration
import OpenEVCharger.Persist.RingLog
import OpenEVCharger.Safety.State

/-!
# The queue of the persist task

The requests that the other tasks hand to `tasks/persist_task.c`, which owns the flash. A post
never waits: when the queue is full the request is dropped.
-/

namespace OpenEVCharger

def persistQueueDepth : ℕ := 8

/-! ## Records -/

def J1772State.code : J1772State → UInt8
  | .invalid => 0
  | .A => 1
  | .B => 2
  | .C => 3
  | .D => 4
  | .E => 5
  | .F => 6

def EvseState.code : EvseState → UInt8
  | .boot => 0
  | .selfTest => 1
  | .ready => 2
  | .charging => 3
  | .userPaused => 4
  | .coolingDown => 5
  | .fault => 6

def SessionEndReason.code : SessionEndReason → UInt8
  | .normal => 0
  | .fault => 1
  | .other => 2

/-- `struct event_record` as it is posted; the append stamps the boot count and the checksum. -/
def EventRecord.record (r : EventRecord) : LogRecord :=
  (((((Packed.zero 32).setWord 0 r.timestamp).setHalf 6 (UInt16.ofNat r.faultId)).setByte 8
    r.j1772State.code).setByte 9 r.evseState.code).setHalf 10 (Int16.ofInt r.cpMv).toUInt16

/-- `struct session_record` as it is posted. -/
def SessionRecord.record (r : SessionRecord) : LogRecord :=
  (((((((Packed.zero 32).setWord 0 r.startTs).setWord 4 r.endTs).setWord 8
    (UInt32.ofNat r.mwhDelivered)).setByte 12 r.endReason.code).setByte 13
    r.j1772MaxStateSeen.code).setHalf 14 (UInt16.ofNat r.faultCount)).setHalf 16
    (UInt16.ofNat r.maxTempDC)

/-! ## Requests -/

/-- `struct persist_req`. -/
inductive PersistReq where
  | event (r : LogRecord)
  | session (r : LogRecord)
  | crashStateReset
  | bootConfigAmps (amps : UInt8)
  | calibration (a : CpCalibration)
  | bl0939Cal (a : Bl0939Calibration)
  | getFaultLog (maxCount seq : UInt8)
  | getLifetimeKwh (seq : UInt8)
  | rfidAuthlistAdd (uid : UInt32)
  | rfidAuthlistRemove (uid : UInt32)
  | rfidAuthlistClear
  | rfidAuthlistGetList (seq : UInt8)
  | requireRfidAuth (enable : UInt8)
  | gfciPolicy (policy : UInt8)
  | ota (r : OtaRequest)
  deriving DecidableEq

/-- `post`. -/
def persistPost (queue : List PersistReq) (r : PersistReq) : List PersistReq :=
  Mailbox.post persistQueueDepth queue r

/-- `persist_post_require_rfid_auth` makes a flag of its argument. -/
def PersistReq.requireFlag (enable : UInt8) : PersistReq :=
  .requireRfidAuth (if enable ≠ 0 then 1 else 0)

/-- `persist_post_ota_chunk`: only data of one to 48 bytes is posted. -/
def PersistReq.otaChunk (sessionId offset : UInt32) (data : List UInt8) (seq : UInt8) :
    Option PersistReq :=
  if h : 0 < data.length ∧ data.length ≤ otaChunkMaxData then
    some (.ota (.chunk ⟨sessionId, offset, data, seq, h.1, h.2⟩))
  else none

end OpenEVCharger
