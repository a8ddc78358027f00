import OpenEVCharger.Comms.Fc41d
import OpenEVCharger.Comms.Requests
import OpenEVCharger.Ota.Push

/-!
# The events of the MCU

The answers and events that the tasks of the MCU send, as they pack them, and the handlers of
the FC41D for them. The FC41D reads the stream byte by byte; of events sent one behind the
other it sees each, in order, with the values that were sent.
-/

namespace OpenEVCharger

/-! ## Codes -/

/-- `EVT_*`. -/
inductive EventKind where
  | stateChanged
  | pingAck
  | stateReport
  | faultRaised
  | faultCleared
  | sessionBegan
  | sessionEnded
  | bootComplete
  | faultLogEntry
  | faultLogEnd
  | lifetimeKwh
  | buildInfo
  | deviceId
  | rfidSwipe
  | rfidAuthResult
  | rfidListEntry
  | rfidListEnd
  | rfidConfig
  | otaBeginAck
  | otaChunkAck
  | otaCommitted
  | otaAborted
  | time
  | diagAdc
  | gfciPolicy
  deriving DecidableEq, Repr

namespace EventKind

def code : EventKind → UInt8
  | stateChanged => 0x80
  | pingAck => 0x81
  | stateReport => 0x82
  | faultRaised => 0x83
  | faultCleared => 0x84
  | sessionBegan => 0x85
  | sessionEnded => 0x86
  | bootComplete => 0x87
  | faultLogEntry => 0x88
  | faultLogEnd => 0x89
  | lifetimeKwh => 0x8A
  | buildInfo => 0x8C
  | deviceId => 0x8D
  | rfidSwipe => 0x8E
  | rfidAuthResult => 0x8F
  | rfidListEntry => 0x90
  | rfidListEnd => 0x91
  | rfidConfig => 0x92
  | otaBeginAck => 0x93
  | otaChunkAck => 0x94
  | otaCommitted => 0x95
  | otaAborted => 0x96
  | time => 0x97
  | diagAdc => 0x98
  | gfciPolicy => 0x99

def all : List EventKind :=
  [stateChanged, pingAck, stateReport, faultRaised, faultCleared, sessionBegan, sessionEnded,
    bootComplete, faultLogEntry, faultLogEnd, lifetimeKwh, buildInfo, deviceId, rfidSwipe,
    rfidAuthResult, rfidListEntry, rfidListEnd, rfidConfig, otaBeginAck, otaChunkAck,
    otaCommitted, otaAborted, time, diagAdc, gfciPolicy]

def ofCode (b : UInt8) : Option EventKind := all.find? fun k => k.code == b

theorem ofCode_code (k : EventKind) : ofCode k.code = some k := by
  cases k <;> rfl

end EventKind

def RfidAuthResult.code : RfidAuthResult → UInt8
  | .learned => 0
  | .start => 1
  | .stop => 2
  | .matchedNoop => 3
  | .rejected => 4
  | .listFull => 5

def OtaStatus.all : List OtaStatus :=
  [.ok, .sessionInvalid, .offsetMismatch, .writeError, .oversize, .tooLarge, .eraseFail,
    .invalidPayload, .noSession, .crcMismatch, .persistFail]

def OtaStatus.ofCode (b : UInt8) : Option OtaStatus := OtaStatus.all.find? fun s => s.code == b

theorem OtaStatus.ofCode_code (s : OtaStatus) : OtaStatus.ofCode s.code = some s := by
  cases s <;> rfl

/-! ## Events -/

inductive McuEvent where
  | stateChanged (js : UInt8)
  | pingAck
  | stateReport (s : SystemState)
  | faultRaised (fid : UInt32) (js es : UInt8) (cpMv : Int16)
  | faultCleared (fid : UInt32)
  | sessionBegan (startTs : UInt32)
  | sessionEnded (mwh durMs : UInt32) (reason : UInt8)
  | bootComplete (selfTestPassed : Bool) (lastFaultId : UInt32)
  | faultLogEntry (r : LogRecord)
  | faultLogEnd (emitted maxCount : UInt8)
  | lifetimeKwh (mwh : UInt32)
  | buildInfo (version gitSha : List UInt8)
  | deviceId (uid : Packed 12)
  | rfidSwipe (uid : UInt32) (present : Bool)
  | rfidAuthResult (uid : UInt32) (result : UInt8)
  | rfidListEntry (idx count : UInt8) (uid : UInt32)
  | rfidListEnd (count : UInt8)
  | rfidConfig (requireRfidAuth sessionAuthorized : Bool)
  | ota (e : OtaEvent)
  | time (unixS : UInt32) (set : Bool)
  | diagAdc (peAdcRaw : UInt16) (js es : UInt8)
  | gfciPolicy (policy : UInt8)

def flagByte (b : Bool) : UInt8 := if b then 1 else 0

namespace McuEvent

def kind : McuEvent → EventKind
  | stateChanged _ => .stateChanged
  | pingAck => .pingAck
  | stateReport _ => .stateReport
  | faultRaised _ _ _ _ => .faultRaised
  | faultCleared _ => .faultCleared
  | sessionBegan _ => .sessionBegan
  | sessionEnded _ _ _ => .sessionEnded
  | bootComplete _ _ => .bootComplete
  | faultLogEntry _ => .faultLogEntry
  | faultLogEnd _ _ => .faultLogEnd
  | lifetimeKwh _ => .lifetimeKwh
  | buildInfo _ _ => .buildInfo
  | deviceId _ => .deviceId
  | rfidSwipe _ _ => .rfidSwipe
  | rfidAuthResult _ _ => .rfidAuthResult
  | rfidListEntry _ _ _ => .rfidListEntry
  | rfidListEnd _ => .rfidListEnd
  | rfidConfig _ _ => .rfidConfig
  | ota (.beginAck _ _ _) => .otaBeginAck
  | ota (.chunkAck _ _ _ _) => .otaChunkAck
  | ota (.committed _ _) => .otaCommitted
  | ota (.aborted _) => .otaAborted
  | time _ _ => .time
  | diagAdc _ _ _ => .diagAdc
  | gfciPolicy _ => .gfciPolicy

/-- The fields of the packed struct. -/
def fields : McuEvent → List (List UInt8)
  | stateChanged js => [[js]]
  | pingAck => []
  | stateReport s => s.fields
  | faultRaised fid js es cpMv => [le32Bytes fid, [js], [es], le16Bytes cpMv.toUInt16]
  | faultCleared fid => [le32Bytes fid]
  | sessionBegan startTs => [le32Bytes startTs]
  | sessionEnded mwh durMs reason => [le32Bytes mwh, le32Bytes durMs, [reason]]
  | bootComplete passed lastFaultId => [[flagByte passed], [0, 0, 0], le32Bytes lastFaultId]
  | faultLogEntry r => [r.bytes]
  | faultLogEnd emitted maxCount => [[emitted], [maxCount]]
  | lifetimeKwh mwh => [le32Bytes mwh]
  | buildInfo version gitSha => [OpenEVCharger.buildInfo version gitSha ++ [0]]
  | deviceId uid => [uid.bytes]
  | rfidSwipe uid present => [le32Bytes uid, [flagByte present]]
  | rfidAuthResult uid result => [le32Bytes uid, [result]]
  | rfidListEntry idx count uid => [[idx], [count], le32Bytes uid]
  | rfidListEnd count => [[count]]
  | rfidConfig require authorized => [[flagByte require], [flagByte authorized]]
  | ota (.beginAck sid status chunkSizeMax) =>
    [le32Bytes sid, [status.code], [UInt8.ofNat chunkSizeMax], le16Bytes 0]
  | ota (.chunkAck sid nextOffset runningCrc32 status) =>
    [le32Bytes sid, le32Bytes nextOffset, le32Bytes runningCrc32, [status.code]]
  | ota (.committed sid status) => [le32Bytes sid, [status.code]]
  | ota (.aborted sid) => [le32Bytes sid]
  | time unixS set => [le32Bytes unixS, [flagByte set]]
  | diagAdc raw js es => [le16Bytes raw, [js], [es], [0]]
  | gfciPolicy policy => [[policy]]

def frame (seq : UInt8) (e : McuEvent) : TlvFrame := ⟨e.kind.code, seq, e.fields.flatten⟩

end McuEvent

/-- What the safety task publishes. -/
def CommsEvent.event : CommsEvent → McuEvent
  | .stateChanged js => .stateChanged js.code
  | .sessionBegan startTs => .sessionBegan startTs
  | .sessionEnded mwh durMs reason => .sessionEnded (UInt32.ofNat mwh) durMs reason.code
  | .faultRaised faultId js es cpMv =>
    .faultRaised (UInt32.ofNat faultId) js.code es.code (Int16.ofInt cpMv)
  | .faultCleared fid => .faultCleared (UInt32.ofNat fid)
  | .rfidConfig require authorized => .rfidConfig require authorized
  | .gfciPolicy policy => .gfciPolicy (UInt8.ofNat policy)
  | .diagAdc raw js es => .diagAdc (UInt16.ofNat raw) js.code es.code
  | .rfidSwipe uid present => .rfidSwipe (UInt32.ofNat uid) present
  | .rfidAuthResult uid result => .rfidAuthResult (UInt32.ofNat uid) result.code
  | .bootComplete passed lastFaultId => .bootComplete passed (UInt32.ofNat lastFaultId)

/-! ## The FC41D -/

/-- What the FC41D keeps of the events; `authResults` are those its automations were told of. -/
structure Fc41d where
  lastStateMs : UInt32
  state : StateReport
  faultCount : ℕ
  mac : Option (List UInt8)
  buildInfo : List UInt8
  lifetimeMwh : UInt32
  lastRfidAuthUid : UInt32
  lastRfidAuthResult : UInt8
  authResults : List (UInt32 × UInt8)
  rfidAuthlistCount : UInt8
  requireRfidAuth : Bool
  sessionAuthorized : Bool
  gfciPolicy : UInt8
  lastRfidPresent : Bool
  lastRfidUid : UInt32
  mcuUnixSeconds : UInt32
  mcuUnixSecondsRecvMs : UInt32
  mcuTimeIsSet : Bool
  ota : OtaPush

/-- The set bits of the fault word. -/
def faultBits (bits : UInt32) : ℕ := (List.range 32).countP fun k => bits.toNat.testBit k

/-- The address that the FC41D takes from the id of the chip: its halves folded, unicast and
locally administered. -/
def macOf (p : List UInt8) : List UInt8 :=
  let byte (i : ℕ) := p.getD i 0 ^^^ p.getD (i + 6) 0
  [(byte 0 &&& 0xFC) ||| 0x02, byte 1, byte 2, byte 3, byte 4, byte 5]

/-- A request of the push, without the number that it gets when it is sent. -/
def OtaRequest.request : OtaRequest → FcRequest
  | .begin a => .otaBegin a.imageSize a.imageCrc32 a.sessionId
  | .chunk k => .otaChunk k.sessionId k.offset k.data
  | .commit a => .otaCommit a.sessionId
  | .abort a => .otaAbort a.sessionId

/-- What a handler leaves behind, and the requests that it sends. -/
abbrev FcHandled := Fc41d × List FcRequest

/-- The reply to the push is handled with the reply's frame unpacked. -/
def Fc41d.onOta (io : FcIo) (e : Option OtaEvent) (f : Fc41d) : FcHandled :=
  match e with
  | none => (f, [])
  | some e =>
    let q := onOtaReply e io f.ota
    ({ f with ota := q.1 }, (q.2.map OtaRequest.request).toList)

/-- The OTA replies unpacked. A status that no version of the MCU sends is none. -/
def otaEventOf (k : EventKind) (p : List UInt8) : Option OtaEvent :=
  match k with
  | .otaBeginAck =>
    if p.length < 8 then none
    else (OtaStatus.ofCode (p.getD 4 0)).map fun status =>
      .beginAck (le32Load p 0) status (p.getD 5 0).toNat
  | .otaChunkAck =>
    if p.length < 13 then none
    else (OtaStatus.ofCode (p.getD 12 0)).map fun status =>
      .chunkAck (le32Load p 0) (le32Load p 4) (le32Load p 8) status
  | .otaCommitted =>
    if p.length < 5 then none
    else (OtaStatus.ofCode (p.getD 4 0)).map fun status => .committed (le32Load p 0) status
  | .otaAborted => if p.length < 4 then none else some (.aborted (le32Load p 0))
  | _ => none

/-- The branches of `dispatch_frame_`. -/
def Fc41d.dispatchKind (io : FcIo) (k : EventKind) (p : List UInt8) (f : Fc41d) : FcHandled :=
  match k with
  | .pingAck => ({ f with lastStateMs := io.now }, [])
  | .stateChanged => ({ f with lastStateMs := io.now }, [.getState])
  | .stateReport =>
    if p.length < 30 then (f, [])
    else
      let s := StateReport.received p f.state
      ({ f with state := s, faultCount := faultBits s.faultActiveBits, lastStateMs := io.now }, [])
  | .deviceId =>
    if p.length < 12 then (f, [])
    else ({ f with mac := some (macOf p), lastStateMs := io.now }, [])
  | .buildInfo =>
    ({ f with buildInfo := p.takeWhile (· ≠ 0), lastStateMs := io.now }, [])
  | .lifetimeKwh =>
    if p.length < 4 then (f, [])
    else ({ f with lifetimeMwh := le32Load p 0, lastStateMs := io.now }, [])
  | .bootComplete => (f, [.getState, .getBuildInfo, .getLifetimeKwh])
  | .faultRaised => if p.length < 8 then (f, []) else (f, [.getState])
  | .faultCleared => if p.length < 4 then (f, []) else (f, [.getState])
  | .sessionBegan => (f, [.getState])
  | .sessionEnded => (f, [.getLifetimeKwh])
  | .faultLogEntry | .faultLogEnd => (f, [])
  | .rfidAuthResult =>
    if p.length < 5 then (f, [])
    else
      ({ f with
        lastRfidAuthUid := le32Load p 0
        lastRfidAuthResult := p.getD 4 0
        authResults := f.authResults ++ [(le32Load p 0, p.getD 4 0)] },
        if p.getD 4 0 = RfidAuthResult.code .learned then [.rfidGetList] else [])
  | .rfidListEntry =>
    if p.length < 6 then (f, []) else ({ f with rfidAuthlistCount := p.getD 1 0 }, [])
  | .rfidListEnd =>
    if p.length < 1 then (f, []) else ({ f with rfidAuthlistCount := p.getD 0 0 }, [])
  | .rfidConfig =>
    if p.length < 2 then (f, [])
    else ({ f with
      requireRfidAuth := decide (p.getD 0 0 ≠ 0)
      sessionAuthorized := decide (p.getD 1 0 ≠ 0) }, [])
  | .gfciPolicy =>
    if p.length < 1 then (f, []) else ({ f with gfciPolicy := p.getD 0 0 }, [])
  | .rfidSwipe =>
    if p.length < 5 then (f, [])
    else if p.getD 4 0 ≠ 0 then ({ f with lastRfidPresent := true, lastRfidUid := le32Load p 0 }, [])
    else ({ f with lastRfidPresent := false }, [])
  | .time =>
    if p.length < 5 then (f, [])
    else ({ f with
      mcuUnixSeconds := le32Load p 0
      mcuUnixSecondsRecvMs := io.now
      mcuTimeIsSet := decide (p.getD 4 0 ≠ 0)
      lastStateMs := io.now }, [])
  | .diagAdc => (f, [])
  | .otaBeginAck | .otaChunkAck | .otaCommitted | .otaAborted => f.onOta io (otaEventOf k p)

/-- `dispatch_frame_`. -/
def Fc41d.dispatchFrame (io : FcIo) (x : TlvFrame) (f : Fc41d) : FcHandled :=
  match EventKind.ofCode x.cmd with
  | none => (f, [])
  | some k => f.dispatchKind io k x.payload

/-! ## What an event tells -/

/-- What an event is meant to tell the FC41D. -/
def Fc41d.told (io : FcIo) (e : McuEvent) (f : Fc41d) : FcHandled :=
  match e with
  | .stateChanged _ => ({ f with lastStateMs := io.now }, [.getState])
  | .pingAck => ({ f with lastStateMs := io.now }, [])
  | .stateReport s =>
    ({ f with
      state := s.seen 56
      faultCount := faultBits s.faultActiveBits
      lastStateMs := io.now }, [])
  | .faultRaised _ _ _ _ => (f, [.getState])
  | .faultCleared _ => (f, [.getState])
  | .sessionBegan _ => (f, [.getState])
  | .sessionEnded _ _ _ => (f, [.getLifetimeKwh])
  | .bootComplete _ _ => (f, [.getState, .getBuildInfo, .getLifetimeKwh])
  | .faultLogEntry _ => (f, [])
  | .faultLogEnd _ _ => (f, [])
  | .lifetimeKwh mwh => ({ f with lifetimeMwh := mwh, lastStateMs := io.now }, [])
  | .buildInfo version gitSha =>
    ({ f with buildInfo := OpenEVCharger.buildInfo version gitSha, lastStateMs := io.now }, [])
  | .deviceId uid => ({ f with mac := some (macOf uid.bytes), lastStateMs := io.now }, [])
  | .rfidSwipe uid present =>
    (if present then { f with lastRfidPresent := true, lastRfidUid := uid }
      else { f with lastRfidPresent := false }, [])
  | .rfidAuthResult uid result =>
    ({ f with
      lastRfidAuthUid := uid
      lastRfidAuthResult := result
      authResults := f.authResults ++ [(uid, result)] },
      if result = RfidAuthResult.code .learned then [.rfidGetList] else [])
  | .rfidListEntry _ count _ => ({ f with rfidAuthlistCount := count }, [])
  | .rfidListEnd count => ({ f with rfidAuthlistCount := count }, [])
  | .rfidConfig require authorized =>
    ({ f with requireRfidAuth := require, sessionAuthorized := authorized }, [])
  | .ota e => f.onOta io (some e)
  | .time unixS set =>
    ({ f with
      mcuUnixSeconds := unixS
      mcuUnixSecondsRecvMs := io.now
      mcuTimeIsSet := set
      lastStateMs := io.now }, [])
  | .diagAdc _ _ _ => (f, [])
  | .gfciPolicy policy => ({ f with gfciPolicy := policy }, [])

/-! ## Frames -/

variable {io : FcIo} {f : Fc41d} {seq : UInt8} {x : TlvFrame}

theorem le32Load_first (v : UInt32) (rest : List (List UInt8)) :
    le32Load (le32Bytes v :: rest).flatten 0 = v := le32Load_field 0 rfl rfl

/-- A text has no zero in it. -/
theorem ne_zero_of_mem_buildInfo {version gitSha : List UInt8} {b : UInt8}
    (h : b ∈ buildInfo version gitSha) : b ≠ 0 := by
  have htext : ∀ l : List UInt8, ∀ n, b ∈ (l.takeWhile (· ≠ 0)).take n → b ≠ 0 := by
    intro l n hb
    have hkept := List.mem_takeWhile_imp (List.mem_of_mem_take hb)
    exact of_decide_eq_true hkept
  rw [buildInfo] at h
  rcases List.mem_append.mp h with h | h
  · exact htext _ _ h
  · rcases List.mem_cons.mp h with rfl | h
    · decide
    · exact htext _ _ h

theorem takeWhile_buildInfo (version gitSha : List UInt8) :
    (buildInfo version gitSha ++ [0]).takeWhile (· ≠ 0) = buildInfo version gitSha := by
  rw [List.takeWhile_append_of_pos fun b hb => decide_eq_true (ne_zero_of_mem_buildInfo hb)]
  exact List.append_nil _

theorem length_buildInfo (version gitSha : List UInt8) :
    (buildInfo version gitSha).length ≤ 46 := by
  rw [buildInfo, List.length_append, List.length_cons, List.length_take, List.length_take]
  omega

/-- A report that is not cut short shows everything. -/
theorem received_bytes (s : SystemState) (r : StateReport) :
    StateReport.received s.bytes r = s.seen 56 := by
  have h := received_take s r 56
  rw [List.take_of_length_le (Nat.le_of_eq s.length_bytes)] at h
  exact h

/-- A reply to the push is handled as it was meant. -/
theorem onOta_frame (io : FcIo) (e : OtaEvent) (f : Fc41d) :
    f.onOta io (otaEventOf (McuEvent.ota e).kind (McuEvent.ota e).fields.flatten) =
      f.onOta io (some e) := by
  cases e with
  | beginAck sid status chunkSizeMax =>
    have hstatus : OtaStatus.ofCode
        ((McuEvent.ota (.beginAck sid status chunkSizeMax)).fields.flatten.getD 4 0) =
          some status :=
      (congrArg OtaStatus.ofCode (getD_field 1 rfl rfl)).trans (OtaStatus.ofCode_code status)
    have hsid : le32Load (McuEvent.ota (.beginAck sid status chunkSizeMax)).fields.flatten 0 =
        sid := le32Load_first _ _
    have hevent : otaEventOf (McuEvent.ota (.beginAck sid status chunkSizeMax)).kind
        (McuEvent.ota (.beginAck sid status chunkSizeMax)).fields.flatten =
          some (.beginAck sid status (UInt8.ofNat chunkSizeMax).toNat) := by
      rw [McuEvent.kind, otaEventOf, if_neg (Nat.not_lt.mpr (Nat.le_of_ble_eq_true rfl)), hstatus,
        hsid]
      rfl
    rw [hevent]
    rfl
  | chunkAck sid nextOffset runningCrc32 status =>
    have hstatus : OtaStatus.ofCode ((McuEvent.ota (.chunkAck sid nextOffset runningCrc32
        status)).fields.flatten.getD 12 0) = some status :=
      (congrArg OtaStatus.ofCode (getD_field 3 rfl rfl)).trans (OtaStatus.ofCode_code status)
    have hsid : le32Load (McuEvent.ota (.chunkAck sid nextOffset runningCrc32
        status)).fields.flatten 0 = sid := le32Load_first _ _
    have hnext : le32Load (McuEvent.ota (.chunkAck sid nextOffset runningCrc32
        status)).fields.flatten 4 = nextOffset := le32Load_field 1 rfl rfl
    have hcrc : le32Load (McuEvent.ota (.chunkAck sid nextOffset runningCrc32
        status)).fields.flatten 8 = runningCrc32 := le32Load_field 2 rfl rfl
    rw [McuEvent.kind, otaEventOf, if_neg (Nat.not_lt.mpr (Nat.le_of_ble_eq_true rfl)), hstatus,
      hsid, hnext, hcrc]
    rfl
  | committed sid status =>
    have hstatus : OtaStatus.ofCode
        ((McuEvent.ota (.committed sid status)).fields.flatten.getD 4 0) = some status :=
      (congrArg OtaStatus.ofCode (getD_field 1 rfl rfl)).trans (OtaStatus.ofCode_code status)
    have hsid : le32Load (McuEvent.ota (.committed sid status)).fields.flatten 0 = sid :=
      le32Load_first _ _
    rw [McuEvent.kind, otaEventOf, if_neg (Nat.not_lt.mpr (Nat.le_of_ble_eq_true rfl)), hstatus,
      hsid]
    rfl
  | aborted sid =>
    exact congrArg (fun sid => f.onOta io (some (.aborted sid))) (le32Load_first sid _)

theorem dispatchFrame_frame (io : FcIo) (seq : UInt8) (e : McuEvent) (f : Fc41d) :
    f.dispatchFrame io (e.frame seq) = f.told io e := by
  have hkind : EventKind.ofCode (e.frame seq).cmd = some e.kind := EventKind.ofCode_code _
  rw [Fc41d.dispatchFrame, hkind]
  cases e with
  | stateReport s =>
    have hbits : faultBits (s.seen 56).faultActiveBits = faultBits s.faultActiveBits := rfl
    show (if s.bytes.length < 30 then (f, []) else _) = _
    rw [if_neg (by rw [s.length_bytes]; decide), Fc41d.told, ← hbits,
      ← received_bytes s f.state]
    rfl
  | faultLogEntry r => rfl
  | lifetimeKwh mwh =>
    exact congrArg (fun mwh => ({ f with lifetimeMwh := mwh, lastStateMs := io.now }, []))
      (le32Load_first mwh [])
  | buildInfo version gitSha =>
    have htext : ((McuEvent.buildInfo version gitSha).frame seq).payload =
        buildInfo version gitSha ++ [0] := List.flatten_singleton
    show ({ f with buildInfo := _, lastStateMs := io.now }, _) = _
    rw [htext, takeWhile_buildInfo]
    rfl
  | deviceId uid =>
    have huid : ((McuEvent.deviceId uid).frame seq).payload = uid.bytes := List.flatten_singleton
    show f.dispatchKind io .deviceId _ = _
    rw [huid, Fc41d.dispatchKind, if_neg (by rw [uid.size]; decide)]
    rfl
  | rfidSwipe uid present =>
    have huid : le32Load ((McuEvent.rfidSwipe uid present).frame seq).payload 0 = uid :=
      le32Load_first uid _
    cases present with
    | false => rfl
    | true => exact congrArg (fun uid => ({ f with lastRfidPresent := true, lastRfidUid := uid }, [])) huid
  | rfidAuthResult uid result =>
    exact congrArg (fun uid => ({ f with
        lastRfidAuthUid := uid
        lastRfidAuthResult := result
        authResults := f.authResults ++ [(uid, result)] },
        if result = RfidAuthResult.code .learned then [FcRequest.rfidGetList] else []))
      (le32Load_first uid _)
  | rfidConfig require authorized => cases require <;> cases authorized <;> rfl
  | ota e =>
    have hota : ∀ k p, (k = EventKind.otaBeginAck ∨ k = .otaChunkAck ∨ k = .otaCommitted ∨
        k = .otaAborted) → f.dispatchKind io k p = f.onOta io (otaEventOf k p) := by
      rintro k p (rfl | rfl | rfl | rfl) <;> rfl
    refine (hota _ _ ?_).trans (onOta_frame io e f)
    cases e with
    | beginAck _ _ _ => exact .inl rfl
    | chunkAck _ _ _ _ => exact .inr (.inl rfl)
    | committed _ _ => exact .inr (.inr (.inl rfl))
    | aborted _ => exact .inr (.inr (.inr rfl))
  | time unixS set =>
    have hunix : le32Load ((McuEvent.time unixS set).frame seq).payload 0 = unixS :=
      le32Load_first unixS _
    cases set with
    | false => exact congrArg (fun u => ({ f with
        mcuUnixSeconds := u
        mcuUnixSecondsRecvMs := io.now
        mcuTimeIsSet := false
        lastStateMs := io.now }, [])) hunix
    | true => exact congrArg (fun u => ({ f with
        mcuUnixSeconds := u
        mcuUnixSecondsRecvMs := io.now
        mcuTimeIsSet := true
        lastStateMs := io.now }, [])) hunix
  | _ => rfl

/-- Every event fits a frame. -/
theorem McuEvent.fits (e : McuEvent) (seq : UInt8) :
    (e.frame seq).payload.length ≤ tlvPayloadMax := by
  cases e with
  | stateReport s => exact Nat.le_of_eq s.length_bytes
  | faultLogEntry r =>
    have hrecord : ((faultLogEntry r).frame seq).payload = r.bytes := List.flatten_singleton
    rw [hrecord, r.size]
    decide
  | buildInfo version gitSha =>
    have htext : ((buildInfo version gitSha).frame seq).payload =
        OpenEVCharger.buildInfo version gitSha ++ [0] := List.flatten_singleton
    have hlen := length_buildInfo version gitSha
    rw [htext, List.length_append, List.length_singleton, tlvPayloadMax]
    omega
  | deviceId uid =>
    have huid : ((deviceId uid).frame seq).payload = uid.bytes := List.flatten_singleton
    rw [huid, uid.size]
    decide
  | ota e => cases e <;> exact Nat.le_of_ble_eq_true rfl
  | _ => exact Nat.le_of_ble_eq_true rfl

/-! ## The stream -/

theorem mayStart_tlvBytes (h : x.payload.length ≤ tlvPayloadMax) : MayStart (tlvBytes x) := by
  refine ⟨rfl, rfl, fun _ => fc41dLenOk_iff.mpr ?_⟩
  rw [tlvLenField_bytes h]
  omega

theorem tlvTotal_tlvBytes (h : x.payload.length ≤ tlvPayloadMax) :
    tlvTotal (tlvBytes x) = (tlvBytes x).length := by
  rw [tlvTotal, tlvLenField_bytes h, length_tlvBytes, Nat.add_sub_cancel_left]

/-- A whole frame in the buffer is dispatched, and nothing is left. -/
theorem tryParse_tlvBytes (h : x.payload.length ≤ tlvPayloadMax) :
    tryParse (tlvBytes x) = ([], some x) := by
  have hlen : 8 ≤ (tlvBytes x).length := by
    rw [length_tlvBytes]
    simp only [tlvHdrLen, tlvCrcLen]
    omega
  have hparse := tlvParse_start (mayStart_tlvBytes h) hlen
  rw [tlvParse_bytes h, tlvTotal_tlvBytes h, if_neg (Nat.lt_irrefl _)] at hparse
  rw [tryParse_start (mayStart_tlvBytes h) hlen, tlvTotal_tlvBytes h, if_neg (Nat.lt_irrefl _)]
  by_cases hcrc : tlvCrcOk (tlvBytes x) = true
  · rw [if_pos hcrc, TlvResult.frame.injEq] at hparse
    rw [if_pos hcrc, List.drop_length, ← hparse.2]
  · rw [if_neg hcrc] at hparse
    cases hparse

/-- A frame that is not complete waits. -/
theorem tryParse_take {k : ℕ} (h : x.payload.length ≤ tlvPayloadMax)
    (hk : k < (tlvBytes x).length) : tryParse ((tlvBytes x).take k) = ((tlvBytes x).take k, none) := by
  have hlen : ((tlvBytes x).take k).length = k := by
    rw [List.length_take, Nat.min_eq_left (Nat.le_of_lt hk)]
  rcases Nat.lt_or_ge k 8 with hshort | hlong
  · have hmin : ((tlvBytes x).take k).length < tlvHdrLen + tlvCrcLen := by
      rw [hlen]
      exact hshort
    rw [tryParse, if_pos hmin]
  · have hstart : MayStart ((tlvBytes x).take k) := by
      have hall := mayStart_tlvBytes h
      rw [← List.take_append_drop k (tlvBytes x)] at hall
      exact hall.of_append
    have htotal : tlvTotal ((tlvBytes x).take k) = (tlvBytes x).length := by
      have hfield : tlvLenField ((tlvBytes x).take k ++ (tlvBytes x).drop k) =
          tlvLenField ((tlvBytes x).take k) := tlvLenField_append (by omega)
      rw [List.take_append_drop] at hfield
      rw [← tlvTotal_tlvBytes h, tlvTotal, tlvTotal, hfield]
    rw [tryParse_start hstart (by omega), htotal, hlen, if_pos hk]

/-- A byte of a frame behind those before it. -/
theorem processByte_tlvBytes {k : ℕ} (h : x.payload.length ≤ tlvPayloadMax)
    (hk : k < (tlvBytes x).length) :
    processByte ((tlvBytes x).take k) (tlvBytes x)[k] =
      if k + 1 < (tlvBytes x).length then ((tlvBytes x).take (k + 1), none) else ([], some x) := by
  have hmin : 8 ≤ (tlvBytes x).length := by
    rw [length_tlvBytes]
    simp only [tlvHdrLen, tlvCrcLen]
    omega
  have hmax : (tlvBytes x).length ≤ tlvFrameMax := by
    rw [length_tlvBytes]
    simp only [tlvFrameMax]
    omega
  have hlen : ((tlvBytes x).take k).length = k := by
    rw [List.length_take, Nat.min_eq_left (Nat.le_of_lt hk)]
  match k, hk, hlen with
  | 0, _, _ =>
    rw [if_pos (by omega)]
    rfl
  | 1, _, _ =>
    rw [if_pos (by omega)]
    rfl
  | k + 2, hk, hlen =>
    have hne : (tlvBytes x).take (k + 2) ≠ [] := by
      intro hnil
      rw [hnil] at hlen
      cases hlen
    have hsnoc : (tlvBytes x).take (k + 2) ++ [(tlvBytes x)[k + 2]] =
        (tlvBytes x).take (k + 2 + 1) := (List.take_succ_eq_append_getElem hk).symm
    have hlen' : ((tlvBytes x).take (k + 2 + 1)).length = k + 2 + 1 := by
      rw [List.length_take, Nat.min_eq_left hk]
    have hok : ¬ (((tlvBytes x).take (k + 2 + 1)).length = 4 ∧
        fc41dLenOk ((tlvBytes x).take (k + 2 + 1)) = false) := by
      rintro ⟨hfour, hbad⟩
      have happ : fc41dLenOk ((tlvBytes x).take (k + 2 + 1) ++ (tlvBytes x).drop (k + 2 + 1)) =
          fc41dLenOk ((tlvBytes x).take (k + 2 + 1)) := fc41dLenOk_append (Nat.le_of_eq hfour.symm)
      rw [List.take_append_drop, (mayStart_tlvBytes h).2.2 (by omega)] at happ
      rw [← happ] at hbad
      cases hbad
    rw [processByte, if_neg hne, if_neg (by omega), if_neg (by omega)]
    dsimp only
    rw [hsnoc, if_neg hok]
    by_cases hlast : k + 2 + 1 < (tlvBytes x).length
    · rw [if_pos hlast, tryParse_take h hlast]
    · rw [if_neg hlast, List.take_of_length_le (Nat.not_lt.mp hlast), tryParse_tlvBytes h]

/-- Behind a frame the FC41D's buffer is empty again. -/
theorem foldl_tlvBytes (h : x.payload.length ≤ tlvPayloadMax) (d : List TlvFrame) :
    (tlvBytes x).foldl fc41dRxByte ⟨[], d⟩ = ⟨[], d ++ [x]⟩ := by
  have hpart : ∀ k < (tlvBytes x).length,
      ((tlvBytes x).take k).foldl fc41dRxByte ⟨[], d⟩ = ⟨(tlvBytes x).take k, d⟩ := by
    intro k
    induction k with
    | zero => exact fun _ => rfl
    | succ k ih =>
      intro hk
      rw [List.take_succ_eq_append_getElem (by omega), List.foldl_append, ih (by omega),
        List.foldl_cons, List.foldl_nil, fc41dRxByte, processByte_tlvBytes h (by omega), if_pos hk,
        ← List.take_succ_eq_append_getElem]
      exact congrArg (Fc41dRx.mk _) (List.append_nil d)
  have hpos : 0 < (tlvBytes x).length := Nat.succ_pos _
  obtain ⟨k, hk⟩ : ∃ k, (tlvBytes x).length = k + 1 := ⟨_, (Nat.succ_pred_eq_of_pos hpos).symm⟩
  have hall : (tlvBytes x).take (k + 1) = tlvBytes x := List.take_of_length_le (Nat.le_of_eq hk)
  rw [← hall, List.take_succ_eq_append_getElem (by omega), List.foldl_append, hpart k (by omega),
    List.foldl_cons, List.foldl_nil, fc41dRxByte, processByte_tlvBytes h (by omega),
    if_neg (by omega)]
  rfl

theorem foldl_frames {xs : List TlvFrame} (h : ∀ x ∈ xs, x.payload.length ≤ tlvPayloadMax)
    (d : List TlvFrame) :
    (xs.flatMap tlvBytes).foldl fc41dRxByte ⟨[], d⟩ = ⟨[], d ++ xs⟩ := by
  induction xs generalizing d with
  | nil => exact congrArg (Fc41dRx.mk []) (List.append_nil d).symm
  | cons x xs ih =>
    rw [List.flatMap_cons, List.foldl_append, foldl_tlvBytes (h x (List.mem_cons_self ..)),
      ih fun y hy => h y (List.mem_cons_of_mem _ hy), List.append_assoc]
    rfl

/-- What `send_frame` writes to the UART. -/
def mcuWire (xs : List TlvFrame) : List UInt8 :=
  xs.flatMap fun x => (tlvBuild x tlvFrameMax).getD []

theorem mcuWire_eq {xs : List TlvFrame} (h : ∀ x ∈ xs, x.payload.length ≤ tlvPayloadMax) :
    mcuWire xs = xs.flatMap tlvBytes := by
  refine List.flatMap_congr fun x hx => ?_
  have hfits := h x hx
  have hroom : tlvHdrLen + x.payload.length + tlvCrcLen ≤ tlvFrameMax := by
    simp only [tlvFrameMax]
    omega
  rw [tlvBuild, if_neg (Nat.not_lt.mpr hfits), if_neg (Nat.not_lt.mpr hroom)]
  rfl

/-- Frames that fit are taken from the wire as they were put on it. -/
theorem fc41dRun_mcuWire {xs : List TlvFrame}
    (h : ∀ x ∈ xs, x.payload.length ≤ tlvPayloadMax) : fc41dRun (mcuWire xs) = ⟨[], xs⟩ := by
  rw [mcuWire_eq h, fc41dRun, foldl_frames h]
  rfl

/-- Of events sent one behind the other the FC41D, which reads byte by byte, takes every frame
and nothing else, and each of them tells it what was sent. -/
theorem events_told (events : List (UInt8 × McuEvent)) :
    (fc41dRun (mcuWire (events.map fun p => p.2.frame p.1))).rxBuf = [] ∧
      (fc41dRun (mcuWire (events.map fun p => p.2.frame p.1))).dispatched.map
          (fun x io f => Fc41d.dispatchFrame io x f) =
        events.map (fun p io f => Fc41d.told io p.2 f) := by
  have hfits : ∀ x ∈ events.map (fun p => p.2.frame p.1), x.payload.length ≤ tlvPayloadMax := by
    intro x hx
    obtain ⟨p, _, rfl⟩ := List.mem_map.mp hx
    exact p.2.fits p.1
  rw [fc41dRun_mcuWire hfits, List.map_map]
  refine ⟨rfl, List.map_congr_left fun p _ => ?_⟩
  funext io f
  exact dispatchFrame_frame io p.1 p.2 f

end OpenEVCharger
