import OpenEVCharger.Ota.Commit

/-!
# Pushing an image

The state machine by which the FC41D pushes an image to the MCU, and the link between the two:
each direction is a queue whose next frame is either delivered or lost.
-/

namespace OpenEVCharger

/-! ## The FC41D -/

inductive PushState
  | idle | awaitBegin | awaitChunk | awaitCommit | done | failed
  deriving DecidableEq, Repr

/-- The `ota_` members; a status that was never received is none. -/
structure OtaPush where
  state : PushState
  buf : List UInt8
  totalBytes : UInt32
  imageCrc32 : UInt32
  sessionId : UInt32
  nextOffset : UInt32
  lastIoMs : UInt32
  lastStatus : Option OtaStatus

def otaPushIdle : OtaPush := ⟨.idle, [], 0, 0, 0, 0, 0, none⟩

def otaPushMaxImageBytes : ℕ := 64 * 1024

def otaOpTimeoutMs : UInt32 := 8000

def otaPushActive (p : OtaPush) : Prop :=
  p.state ≠ .idle ∧ p.state ≠ .done ∧ p.state ≠ .failed

instance (p : OtaPush) : Decidable (otaPushActive p) := inferInstanceAs (Decidable (_ ∧ _))

def otaFinish (endState : PushState) (p : OtaPush) : OtaPush :=
  { p with state := endState, buf := [] }

/-- The clock when the FC41D acts, and the sequence number that a frame would get. -/
structure FcIo where
  now : UInt32
  seq : UInt8
  deriving DecidableEq, Repr

/-- A session is named after the clock. -/
def sessionIdAt (now : UInt32) : UInt32 := if now = 0 then 1 else now

/-- `start_ota_push_from_buf_`. -/
def startOtaPushFromBuf (io : FcIo) (p : OtaPush) : OtaPush × Option OtaRequest :=
  let p := { p with
    totalBytes := UInt32.ofNat p.buf.length
    imageCrc32 := crc32 p.buf
    sessionId := sessionIdAt io.now
    nextOffset := 0
    lastIoMs := io.now
    state := .awaitBegin }
  (p, some (.begin ⟨p.totalBytes, p.imageCrc32, p.sessionId, io.seq⟩))

def startOtaPush (image : List UInt8) (io : FcIo) (p : OtaPush) : OtaPush × Option OtaRequest :=
  if otaPushActive p then (p, none)
  else if image = [] ∨ otaPushMaxImageBytes < image.length then (p, none)
  else startOtaPushFromBuf io { p with buf := image }

def abortOtaPush (io : FcIo) (p : OtaPush) : OtaPush × Option OtaRequest :=
  if otaPushActive p then (otaFinish .failed p, some (.abort ⟨p.sessionId, io.seq⟩)) else (p, none)

/-- The bytes of the next chunk. -/
def OtaPush.chunkData (p : OtaPush) : List UInt8 :=
  (p.buf.drop p.nextOffset.toNat).take
    (min (p.totalBytes - p.nextOffset).toNat otaChunkMaxData)

theorem OtaPush.length_chunkData (p : OtaPush) : p.chunkData.length ≤ otaChunkMaxData := by
  rw [OtaPush.chunkData, List.length_take]
  exact Nat.le_trans (Nat.min_le_left ..) (Nat.min_le_right ..)

/-- `ota_send_next_chunk_`, which is called in `AWAIT_CHUNK` only. -/
def otaSendNextChunk (io : FcIo) (p : OtaPush) : Option OtaRequest :=
  if h : 0 < p.chunkData.length then
    some (.chunk ⟨p.sessionId, p.nextOffset, p.chunkData, io.seq, h, p.length_chunkData⟩)
  else none

def otaLoopTick (io : FcIo) (p : OtaPush) : OtaPush :=
  if otaPushActive p ∧ otaOpTimeoutMs < io.now - p.lastIoMs then otaFinish .failed p else p

def onBeginAck (sid : UInt32) (status : OtaStatus) (io : FcIo) (p : OtaPush) :
    OtaPush × Option OtaRequest :=
  let p := { p with lastStatus := some status }
  if p.state ≠ .awaitBegin ∨ sid ≠ p.sessionId then (p, none)
  else if status ≠ .ok then (otaFinish .failed p, none)
  else
    let p := { p with state := .awaitChunk, lastIoMs := io.now }
    (p, otaSendNextChunk io p)

def onChunkAck (sid nextOffset : UInt32) (status : OtaStatus) (io : FcIo) (p : OtaPush) :
    OtaPush × Option OtaRequest :=
  let p := { p with lastStatus := some status }
  if p.state ≠ .awaitChunk ∨ sid ≠ p.sessionId then (p, none)
  else if status = .offsetMismatch then
    let p := { p with nextOffset := nextOffset, lastIoMs := io.now }
    (p, otaSendNextChunk io p)
  else if status ≠ .ok then (otaFinish .failed p, none)
  else
    let p := { p with nextOffset := nextOffset, lastIoMs := io.now }
    if p.totalBytes ≤ p.nextOffset then
      ({ p with state := .awaitCommit }, some (.commit ⟨p.sessionId, io.seq⟩))
    else (p, otaSendNextChunk io p)

def onCommitted (sid : UInt32) (status : OtaStatus) (p : OtaPush) : OtaPush :=
  let p := { p with lastStatus := some status }
  if p.state ≠ .awaitCommit ∨ sid ≠ p.sessionId then p
  else if status = .ok then otaFinish .done p
  else otaFinish .failed p

def onAborted (sid : UInt32) (p : OtaPush) : OtaPush :=
  if sid = p.sessionId then otaFinish .failed p else p

/-- The handler of an OTA reply. -/
def onOtaReply (e : OtaEvent) (io : FcIo) (p : OtaPush) : OtaPush × Option OtaRequest :=
  match e with
  | .beginAck sid status _ => onBeginAck sid status io p
  | .chunkAck sid nextOffset _ status => onChunkAck sid nextOffset status io p
  | .committed sid status => (onCommitted sid status p, none)
  | .aborted sid => (onAborted sid p, none)

/-! ## The link -/

/-- The FC41D and the MCU with the frames between them. -/
structure OtaLink where
  push : OtaPush
  requests : List OtaRequest
  mcu : OtaMcu
  replies : List OtaEvent

inductive LinkAction
  | push (image : List UInt8)
  | abort
  | tick
  | deliverRequest (outcomes : List WriteOutcome)
  | loseRequest
  | deliverReply
  | loseReply
  | reset (fmcDone : ℕ) (outcomes : List WriteOutcome)

structure LinkInput where
  action : LinkAction
  io : FcIo

/-- The link after the FC41D has acted. -/
def OtaLink.acted (l : OtaLink) (p : OtaPush × Option OtaRequest) : OtaLink :=
  { l with push := p.1, requests := l.requests ++ p.2.toList }

/-- The MCU takes a request; one that is down takes none. -/
def OtaLink.served (applyEnabled : Bool) (i : OtaInput) (l : OtaLink) : OtaLink :=
  { l with
    mcu := otaStep applyEnabled i l.mcu
    replies := l.replies ++ ((otaReply i l.mcu).map OtaReply.event).toList }

def linkStep (applyEnabled : Bool) (i : LinkInput) (l : OtaLink) : OtaLink :=
  match i.action with
  | .push image => l.acted (startOtaPush image i.io l.push)
  | .abort => l.acted (abortOtaPush i.io l.push)
  | .tick => l.acted (otaLoopTick i.io l.push, none)
  | .deliverRequest outcomes =>
    match l.requests with
    | [] => l
    | r :: requests =>
      OtaLink.served applyEnabled ⟨.request r, outcomes⟩ { l with requests := requests }
  | .loseRequest => { l with requests := l.requests.tail }
  | .deliverReply =>
    match l.replies with
    | [] => l
    | e :: replies => OtaLink.acted { l with replies := replies } (onOtaReply e i.io l.push)
  | .loseReply => { l with replies := l.replies.tail }
  | .reset fmcDone outcomes =>
    { l with mcu := otaStep applyEnabled ⟨.reset fmcDone, outcomes⟩ l.mcu }

def linkMachine (applyEnabled : Bool) : Machine OtaPowerUp LinkInput OtaLink where
  boot b := ⟨otaPushIdle, [], (otaMachine applyEnabled).boot b, []⟩
  step := linkStep applyEnabled

def linkRun (applyEnabled : Bool) (b : OtaPowerUp) (ins : ℕ → LinkInput) (n : ℕ) : OtaLink :=
  (linkMachine applyEnabled).run b ins n

/-! ## History -/

/-- The history of the MCU, and the pushes that were started, the last one first. -/
structure LinkHistory where
  mcu : OtaHistory
  pushes : List (UInt32 × List UInt8)

/-- A push that is not refused. -/
def PushStarts (image : List UInt8) (p : OtaPush) : Prop :=
  ¬ otaPushActive p ∧ image ≠ [] ∧ image.length ≤ otaPushMaxImageBytes

instance (image : List UInt8) (p : OtaPush) : Decidable (PushStarts image p) :=
  inferInstanceAs (Decidable (_ ∧ _))

def LinkHistory.next (i : LinkInput) (l : OtaLink) (h : LinkHistory) : LinkHistory :=
  match i.action with
  | .push image =>
    if PushStarts image l.push then { h with pushes := (sessionIdAt i.io.now, image) :: h.pushes }
    else h
  | .deliverRequest outcomes =>
    match l.requests with
    | [] => h
    | r :: _ => { h with mcu := h.mcu.next ⟨.request r, outcomes⟩ l.mcu }
  | .reset fmcDone outcomes => { h with mcu := h.mcu.next ⟨.reset fmcDone, outcomes⟩ l.mcu }
  | _ => h

def linkHistory (applyEnabled : Bool) (b : OtaPowerUp) (ins : ℕ → LinkInput) (n : ℕ) :
    LinkHistory :=
  (linkMachine applyEnabled).history b ins LinkHistory.next ⟨⟨[], true⟩, []⟩ n

/-! ## What is claimed -/

/-- The record in the flash names the image, and the staging region holds it. -/
structure ImageStored (image : List UInt8) (flash : NorFlash.Mem) : Prop where
  record : (bootConfigRead flash).2.pendingOta = ⟨1, UInt32.ofNat image.length, crc32 image⟩
  staged : stagedBytes image.length flash = image

/-- A step by which the FC41D reports its push as done. -/
def ReportsDone (applyEnabled : Bool) (i : LinkInput) (l : OtaLink) : Prop :=
  l.push.state ≠ .done ∧ (linkStep applyEnabled i l).push.state = .done

end OpenEVCharger
