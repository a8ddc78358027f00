import OpenEVCharger.Persist.OtaStage

/-!
# OTA sessions

The OTA handlers of `tasks/persist_task.c` over the session they keep in RAM, the
boot configuration and the chip. Each handler publishes one reply with the
sequence number of its request.
-/

namespace OpenEVCharger

open NorFlash (Mem Agree Erased)

def otaChunkMaxData : ℕ := 48

inductive OtaStatus where
  | ok
  | sessionInvalid
  | offsetMismatch
  | writeError
  | oversize
  | tooLarge
  | eraseFail
  | invalidPayload
  | noSession
  | crcMismatch
  | persistFail
  deriving DecidableEq, Repr

def OtaStatus.code : OtaStatus → UInt8
  | .ok => 0
  | .sessionInvalid => 1
  | .offsetMismatch => 2
  | .writeError => 3
  | .oversize => 4
  | .tooLarge => 5
  | .eraseFail => 6
  | .invalidPayload => 7
  | .noSession => 8
  | .crcMismatch => 9
  | .persistFail => 10

/-! ## Requests and replies -/

structure OtaBeginArgs where
  imageSize : UInt32
  imageCrc32 : UInt32
  sessionId : UInt32
  seq : UInt8
  deriving DecidableEq, Repr

/-- The data is as long as `persist_post_ota_chunk` lets through. -/
structure OtaChunkArgs where
  sessionId : UInt32
  offset : UInt32
  data : List UInt8
  seq : UInt8
  nonempty : 0 < data.length
  short : data.length ≤ otaChunkMaxData
  deriving DecidableEq, Repr

/-- `struct ota_abort_args`, for COMMIT as well. -/
structure OtaAbortArgs where
  sessionId : UInt32
  seq : UInt8
  deriving DecidableEq, Repr

inductive OtaRequest where
  | «begin» (a : OtaBeginArgs)
  | chunk (k : OtaChunkArgs)
  | commit (a : OtaAbortArgs)
  | abort (a : OtaAbortArgs)
  deriving DecidableEq, Repr

def OtaRequest.sessionId : OtaRequest → UInt32
  | .begin a => a.sessionId
  | .chunk k => k.sessionId
  | .commit a => a.sessionId
  | .abort a => a.sessionId

inductive OtaEvent where
  | beginAck (sessionId : UInt32) (status : OtaStatus) (chunkSizeMax : ℕ)
  | chunkAck (sessionId nextOffset runningCrc32 : UInt32) (status : OtaStatus)
  | committed (sessionId : UInt32) (status : OtaStatus)
  | aborted (sessionId : UInt32)
  deriving DecidableEq, Repr

/-- The status of a reply; an abort is echoed whatever it did. -/
def OtaEvent.status : OtaEvent → OtaStatus
  | .beginAck _ status _ => status
  | .chunkAck _ _ _ status => status
  | .committed _ status => status
  | .aborted _ => .ok

structure OtaReply where
  seq : UInt8
  event : OtaEvent
  deriving DecidableEq, Repr

/-! ## The session -/

/-- `s_ota`. A token of zero means that no session is active. -/
structure OtaSession where
  sessionId : UInt32
  expectedSize : UInt32
  expectedCrc32 : UInt32
  nextOffset : UInt32
  runningCrc : OtaCrcCtx
  deriving DecidableEq, Repr

/-- The session at power-up, all bytes zero. -/
def otaSessionBoot : OtaSession := ⟨0, 0, 0, 0, ⟨0⟩⟩

def otaInSession (s : OtaSession) : Prop := s.sessionId ≠ 0

instance (s : OtaSession) : Decidable (otaInSession s) := inferInstanceAs (Decidable (_ ≠ _))

def otaSessionReset : OtaSession := ⟨0, 0, 0, 0, otaCrcInit⟩

/-- What a handler publishes and leaves behind. -/
structure OtaHandled where
  reply : OtaReply
  session : OtaSession
  cfg : BootConfig
  chip : W25q

/-! ## Handlers -/

def handleOtaBegin (a : OtaBeginArgs) (s : OtaSession) (c : BootConfig) (d : W25q) :
    OtaHandled :=
  let ack (status : OtaStatus) : OtaReply := ⟨a.seq, .beginAck a.sessionId status otaChunkMaxData⟩
  if a.sessionId = 0 ∨ a.imageSize = 0 then ⟨ack .invalidPayload, s, c, d⟩
  else if otaStageMaxImageSize < a.imageSize.toNat then ⟨ack .tooLarge, s, c, d⟩
  else
    let e := otaStageBegin a.imageSize d
    if e.1 ≠ 0 then ⟨ack .eraseFail, otaSessionReset, c, e.2⟩
    else
      ⟨ack .ok, { otaSessionReset with
        sessionId := a.sessionId, expectedSize := a.imageSize, expectedCrc32 := a.imageCrc32 },
        c, e.2⟩

def handleOtaChunk (k : OtaChunkArgs) (s : OtaSession) (c : BootConfig) (d : W25q) :
    OtaHandled :=
  let ack (s : OtaSession) (status : OtaStatus) : OtaReply :=
    ⟨k.seq, .chunkAck k.sessionId s.nextOffset (otaCrcFinalize s.runningCrc) status⟩
  if ¬ otaInSession s then ⟨ack s .noSession, s, c, d⟩
  else if k.sessionId ≠ s.sessionId then ⟨ack s .sessionInvalid, s, c, d⟩
  else if k.offset ≠ s.nextOffset then ⟨ack s .offsetMismatch, s, c, d⟩
  else if s.expectedSize.toNat < k.offset.toNat + k.data.length then ⟨ack s .oversize, s, c, d⟩
  else
    let w := otaStageWrite k.offset k.data d
    if w.1 ≠ 0 then ⟨ack s .writeError, s, c, w.2⟩
    else
      let s := { s with
        runningCrc := otaCrcUpdate s.runningCrc k.data
        nextOffset := k.offset + UInt32.ofNat k.data.length }
      ⟨ack s .ok, s, c, w.2⟩

def handleOtaCommit (a : OtaAbortArgs) (s : OtaSession) (c : BootConfig) (d : W25q) :
    OtaHandled :=
  let ack (status : OtaStatus) : OtaReply := ⟨a.seq, .committed a.sessionId status⟩
  if ¬ otaInSession s then ⟨ack .noSession, s, c, d⟩
  else if a.sessionId ≠ s.sessionId then ⟨ack .sessionInvalid, s, c, d⟩
  else if s.nextOffset ≠ s.expectedSize then ⟨ack .offsetMismatch, s, c, d⟩
  else if otaStageComputeCrc s.expectedSize d ≠ s.expectedCrc32 then ⟨ack .crcMismatch, s, c, d⟩
  else
    let m := otaStageMarkPending s.expectedSize s.expectedCrc32 c d
    if m.rc ≠ 0 then ⟨ack .persistFail, s, m.cfg, m.chip⟩ else ⟨ack .ok, s, m.cfg, m.chip⟩

def handleOtaAbort (a : OtaAbortArgs) (s : OtaSession) (c : BootConfig) (d : W25q) :
    OtaHandled :=
  ⟨⟨a.seq, .aborted a.sessionId⟩,
    if otaInSession s ∧ a.sessionId = s.sessionId then otaSessionReset else s, c, d⟩

def handleOta (r : OtaRequest) (s : OtaSession) (c : BootConfig) (d : W25q) : OtaHandled :=
  match r with
  | .begin a => handleOtaBegin a s c d
  | .chunk k => handleOtaChunk k s c d
  | .commit a => handleOtaCommit a s c d
  | .abort a => handleOtaAbort a s c d

/-! ## What a handler can do -/

variable {s : OtaSession} {c : BootConfig} {d : W25q}

/-- A BEGIN is refused, or fails in the erase, or starts a session. -/
inductive BeginSpec (a : OtaBeginArgs) (s : OtaSession) (c : BootConfig) (d : W25q)
    (h : OtaHandled) : Prop where
  | refused (hreply : h.reply.event.status ≠ .ok) (hs : h.session = s) (hc : h.cfg = c)
      (hd : h.chip = d)
  | eraseFail (hreply : h.reply.event.status ≠ .ok) (hs : h.session = otaSessionReset)
      (hc : h.cfg = c) (hd : h.chip = (otaStageBegin a.imageSize d).2)
  | started (hreply : h.reply.event.status = .ok) (herase : (otaStageBegin a.imageSize d).1 = 0)
      (hs : h.session = ⟨a.sessionId, a.imageSize, a.imageCrc32, 0, otaCrcInit⟩) (hc : h.cfg = c)
      (hd : h.chip = (otaStageBegin a.imageSize d).2)

theorem handleOtaBegin_spec (a : OtaBeginArgs) (s : OtaSession) (c : BootConfig) (d : W25q) :
    BeginSpec a s c d (handleOtaBegin a s c d) := by
  rw [handleOtaBegin]
  split
  · exact .refused nofun rfl rfl rfl
  split
  · exact .refused nofun rfl rfl rfl
  dsimp only
  split
  · exact .eraseFail nofun rfl rfl rfl
  next hrc => exact .started rfl (not_not.mp hrc) rfl rfl rfl

/-- What a CHUNK has passed when it is written. -/
structure ChunkFits (k : OtaChunkArgs) (s : OtaSession) : Prop where
  session : otaInSession s
  token : k.sessionId = s.sessionId
  offset : k.offset = s.nextOffset
  size : k.offset.toNat + k.data.length ≤ s.expectedSize.toNat

/-- A CHUNK is refused, or fails in the write, or is accepted. -/
inductive ChunkSpec (k : OtaChunkArgs) (s : OtaSession) (c : BootConfig) (d : W25q)
    (h : OtaHandled) : Prop where
  | refused (hreply : h.reply.event.status ≠ .ok) (hwrite : h.reply.event.status ≠ .writeError)
      (hs : h.session = s) (hc : h.cfg = c) (hd : h.chip = d)
  | writeError (hreply : h.reply.event.status = .writeError) (hfits : ChunkFits k s)
      (hs : h.session = s) (hc : h.cfg = c) (hd : h.chip = (otaStageWrite k.offset k.data d).2)
  | accepted (hreply : h.reply.event.status = .ok) (hfits : ChunkFits k s)
      (hwrite : (otaStageWrite k.offset k.data d).1 = 0)
      (hs : h.session = { s with
        runningCrc := otaCrcUpdate s.runningCrc k.data
        nextOffset := k.offset + UInt32.ofNat k.data.length })
      (hc : h.cfg = c) (hd : h.chip = (otaStageWrite k.offset k.data d).2)

theorem handleOtaChunk_spec (k : OtaChunkArgs) (s : OtaSession) (c : BootConfig) (d : W25q) :
    ChunkSpec k s c d (handleOtaChunk k s c d) := by
  rw [handleOtaChunk]
  split
  · exact .refused nofun nofun rfl rfl rfl
  next hin =>
  split
  · exact .refused nofun nofun rfl rfl rfl
  next htoken =>
  split
  · exact .refused nofun nofun rfl rfl rfl
  next hoffset =>
  split
  · exact .refused nofun nofun rfl rfl rfl
  next hsize =>
  have hfits : ChunkFits k s :=
    ⟨not_not.mp hin, not_not.mp htoken, not_not.mp hoffset, Nat.not_lt.mp hsize⟩
  dsimp only
  split
  · exact .writeError rfl hfits rfl rfl rfl
  next hrc => exact .accepted rfl hfits (not_not.mp hrc) rfl rfl rfl

/-- What a COMMIT has passed when it marks the image. -/
structure CommitReady (a : OtaAbortArgs) (s : OtaSession) (d : W25q) : Prop where
  session : otaInSession s
  token : a.sessionId = s.sessionId
  complete : s.nextOffset = s.expectedSize
  staged : crc32 (stagedBytes s.expectedSize.toNat d.mem) = s.expectedCrc32

/-- A COMMIT is refused, or marks the image with the return code of the store. -/
inductive CommitSpec (a : OtaAbortArgs) (s : OtaSession) (c : BootConfig) (d : W25q)
    (h : OtaHandled) : Prop where
  | refused (hreply : h.reply.event.status ≠ .ok) (hs : h.session = s) (hc : h.cfg = c)
      (hd : h.chip = d)
  | marked (hready : CommitReady a s d)
      (hreply : h.reply.event.status = .ok ↔
        (otaStageMarkPending s.expectedSize s.expectedCrc32 c d).rc = 0)
      (hs : h.session = s) (hc : h.cfg = (otaStageMarkPending s.expectedSize s.expectedCrc32 c d).cfg)
      (hd : h.chip = (otaStageMarkPending s.expectedSize s.expectedCrc32 c d).chip)

theorem handleOtaCommit_spec (a : OtaAbortArgs) (s : OtaSession) (c : BootConfig) (d : W25q) :
    CommitSpec a s c d (handleOtaCommit a s c d) := by
  rw [handleOtaCommit]
  split
  · exact .refused nofun rfl rfl rfl
  next hin =>
  split
  · exact .refused nofun rfl rfl rfl
  next htoken =>
  split
  · exact .refused nofun rfl rfl rfl
  next hcomplete =>
  split
  · exact .refused nofun rfl rfl rfl
  next hstaged =>
  have hready : CommitReady a s d := by
    refine ⟨not_not.mp hin, not_not.mp htoken, not_not.mp hcomplete, ?_⟩
    rw [← otaStageComputeCrc_eq]
    exact not_not.mp hstaged
  dsimp only
  split
  · next hrc => exact .marked hready ⟨(fun h => by cases h), fun h => absurd h hrc⟩ rfl rfl rfl
  · next hrc => exact .marked hready ⟨fun _ => not_not.mp hrc, fun _ => rfl⟩ rfl rfl rfl

/-- A CHUNK, a COMMIT or an ABORT with a token other than the session's is answered
and changes nothing. -/
theorem handleOta_foreign {r : OtaRequest} (hr : ∀ a, r ≠ .begin a)
    (htoken : ¬ otaInSession s ∨ r.sessionId ≠ s.sessionId) :
    (handleOta r s c d).session = s ∧ (handleOta r s c d).cfg = c ∧
      (handleOta r s c d).chip = d := by
  cases r with
  | «begin» a => exact absurd rfl (hr a)
  | chunk k =>
    show (handleOtaChunk k s c d).session = s ∧ _
    have hno : ¬ ChunkFits k s := by
      intro hfits
      rcases htoken with hin | hne
      · exact hin hfits.session
      · exact hne hfits.token
    rcases handleOtaChunk_spec k s c d with ⟨_, _, hs, hc, hd⟩ | ⟨_, hfits, _⟩ | ⟨_, hfits, _⟩
    · exact ⟨hs, hc, hd⟩
    · exact absurd hfits hno
    · exact absurd hfits hno
  | commit a =>
    show (handleOtaCommit a s c d).session = s ∧ _
    rcases handleOtaCommit_spec a s c d with ⟨_, hs, hc, hd⟩ | ⟨hready, _⟩
    · exact ⟨hs, hc, hd⟩
    · rcases htoken with hin | hne
      · exact absurd hready.session hin
      · exact absurd hready.token hne
  | abort a =>
    have hno : ¬ (otaInSession s ∧ a.sessionId = s.sessionId) := by
      rintro ⟨hin, heq⟩
      rcases htoken with hout | hne
      · exact hout hin
      · exact hne heq
    exact ⟨if_neg hno, rfl, rfl⟩

end OpenEVCharger
