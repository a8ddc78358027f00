import OpenEVCharger.Comms.Receiver
import OpenEVCharger.Tasks.Dispatch

/-!
# The requests of the FC41D

The `send_*` functions of the FC41D: each request is numbered, packed and written to the UART,
some with a second request behind them. Whatever the bytes are split into on their way, the
comms task does for every request what the FC41D asked for, in the order of the requests.
-/

namespace OpenEVCharger

/-! ## Requests -/

/-- What one frame asks for. -/
inductive FcRequest where
  | ping
  | getState
  | getBuildInfo
  | getDeviceId
  | setAdvertisedAmps (amps : UInt8)
  | requestStop
  | requestStartResume
  | clearFault (fid : UInt32)
  | getFaultLog (maxCount : UInt8)
  | getLifetimeKwh
  | buzzerBeep (ms : UInt16)
  | setLedOverride (mode r g b : UInt8)
  | writeBl0939Cal (a : Bl0939Calibration)
  | rfidLearnNext
  | rfidClearList
  | rfidGetList
  | rfidRemoveUid (uid : UInt32)
  | setRequireRfidAuth (enable : Bool)
  | getRfidConfig
  | setGfciPolicy (policy : UInt8)
  | getGfciPolicy
  | setTime (unixS : UInt32)
  | getTime
  | restart
  | simulateReplug
  | runGfciCalTest
  | otaBegin (imageSize imageCrc32 sessionId : UInt32)
  | otaChunk (sessionId offset : UInt32) (data : List UInt8)
  | otaCommit (sessionId : UInt32)
  | otaAbort (sessionId : UInt32)
  deriving DecidableEq

namespace FcRequest

def command : FcRequest → Command
  | ping => .ping
  | getState => .getState
  | getBuildInfo => .getBuildInfo
  | getDeviceId => .getDeviceId
  | setAdvertisedAmps _ => .setAdvertisedAmps
  | requestStop => .requestStop
  | requestStartResume => .requestStartResume
  | clearFault _ => .clearFault
  | getFaultLog _ => .getFaultLog
  | getLifetimeKwh => .getLifetimeKwh
  | buzzerBeep _ => .buzzerBeep
  | setLedOverride _ _ _ _ => .setLedOverride
  | writeBl0939Cal _ => .writeBl0939Cal
  | rfidLearnNext => .rfidLearnNext
  | rfidClearList => .rfidClearList
  | rfidGetList => .rfidGetList
  | rfidRemoveUid _ => .rfidRemoveUid
  | setRequireRfidAuth _ => .setRequireRfidAuth
  | getRfidConfig => .getRfidConfig
  | setGfciPolicy _ => .setGfciPolicy
  | getGfciPolicy => .getGfciPolicy
  | setTime _ => .setTime
  | getTime => .getTime
  | restart => .restart
  | simulateReplug => .simulateReplug
  | runGfciCalTest => .runGfciCalTest
  | otaBegin _ _ _ => .otaBegin
  | otaChunk _ _ _ => .otaChunk
  | otaCommit _ => .otaCommit
  | otaAbort _ => .otaAbort

/-- The fields of the payload. -/
def fields : FcRequest → List (List UInt8)
  | setAdvertisedAmps amps => [[amps]]
  | requestStop => [[0]]
  | clearFault fid => [le32Bytes fid]
  | getFaultLog maxCount => [[maxCount]]
  | buzzerBeep ms => [le16Bytes ms]
  | setLedOverride mode r g b => [[mode], [r], [g], [b]]
  | writeBl0939Cal a =>
    [le16Bytes a.vUvPerRaw.toUInt16, le16Bytes a.iaNaPerRaw.toUInt16,
      le16Bytes a.ibUaPerRaw.toUInt16, le16Bytes a.paUwPerRaw.toUInt16,
      le32Bytes a.freqConst.toUInt32]
  | rfidRemoveUid uid => [le32Bytes uid]
  | setRequireRfidAuth enable => [[if enable then 1 else 0]]
  | setGfciPolicy policy => [[policy]]
  | setTime unixS => [le32Bytes unixS]
  | otaBegin imageSize imageCrc32 sessionId =>
    [le32Bytes imageSize, le32Bytes imageCrc32, le32Bytes sessionId]
  | otaChunk sessionId offset data => [le32Bytes sessionId, le32Bytes offset, data]
  | otaCommit sessionId => [le32Bytes sessionId]
  | otaAbort sessionId => [le32Bytes sessionId]
  | _ => []

def frame (seq : UInt8) (r : FcRequest) : TlvFrame := ⟨r.command.code, seq, r.fields.flatten⟩

/-- `send_ota_chunk` sends between one and 48 bytes of data. -/
def Sendable : FcRequest → Prop
  | otaChunk _ _ data => 0 < data.length ∧ data.length ≤ otaChunkMaxData
  | _ => True

end FcRequest

/-! ## Sending -/

/-- The counter of the frames, and what `send_set_time` remembers. -/
structure FcTx where
  seq : UInt8
  lastSetTimeMs : UInt32
  lastSetTimeUnix : UInt32
  lastSetTimeSeq : UInt8
  deriving DecidableEq, Repr

def fcTxStart : FcTx := ⟨1, 0, 0, 0⟩

/-- `next_seq_`, which never hands out the number of an unsolicited event. -/
def FcTx.next (t : FcTx) : FcTx := { t with seq := if t.seq + 1 = 0 then 1 else t.seq + 1 }

/-- `send_frame_`: the bytes that are written to the UART. -/
def fcSendFrame (x : TlvFrame) : List UInt8 :=
  if tlvPayloadMax < x.payload.length then []
  else
    let len := UInt16.ofNat (x.payload.length + 2)
    let body := [len.toUInt8, (len >>> 8).toUInt8, x.cmd, x.seq] ++ x.payload
    let crc := crc16Ccitt body
    [tlvSof0, tlvSof1] ++ body ++ [(crc >>> 8).toUInt8, crc.toUInt8]

/-- The requests that follow another one. -/
def FcRequest.followUp : FcRequest → List FcRequest
  | setAdvertisedAmps _ | requestStop | requestStartResume => [getState]
  | rfidClearList | rfidRemoveUid _ => [rfidGetList]
  | _ => []

/-- Requests sent one after the other, each with its number. -/
def fcNumbered : List FcRequest → FcTx → FcTx × List (UInt8 × FcRequest)
  | [], t => (t, [])
  | r :: rs, t =>
    let q := fcNumbered rs t.next
    (q.1, (t.seq, r) :: q.2)

/-- A call of `send_*`. The time set last is not sent again within two seconds, and a chunk
without data or with too much of it is not sent at all. -/
def fcSend (now : UInt32) (r : FcRequest) (t : FcTx) : FcTx × List (UInt8 × FcRequest) :=
  match r with
  | .setTime unixS =>
    if unixS ≠ 0 ∧ t.lastSetTimeUnix = unixS ∧ now - t.lastSetTimeMs < 2000 then (t, [])
    else ({ t.next with
      lastSetTimeMs := now, lastSetTimeUnix := unixS, lastSetTimeSeq := t.seq }, [(t.seq, r)])
  | .otaChunk _ _ data =>
    if data.length = 0 ∨ otaChunkMaxData < data.length then (t, []) else (t.next, [(t.seq, r)])
  | r => fcNumbered (r :: r.followUp) t

/-- Calls one after the other, each with the clock it finds. -/
def fcSendAll : List (UInt32 × FcRequest) → FcTx → FcTx × List (UInt8 × FcRequest)
  | [], t => (t, [])
  | c :: cs, t =>
    let q := fcSend c.1 c.2 t
    let q' := fcSendAll cs q.1
    (q'.1, q.2 ++ q'.2)

/-- The bytes on the wire. -/
def fcWire (sent : List (UInt8 × FcRequest)) : List UInt8 :=
  sent.flatMap fun p => fcSendFrame (p.2.frame p.1)

/-! ## What the FC41D asks for -/

/-- A limit within what the hardware allows. -/
def capAmps (amps : UInt8) : UInt8 := if amps ≤ commsHwAmpsMax then amps else commsHwAmpsMax

/-- What a request is meant to do to the MCU. -/
def FcRequest.perform (e : CommsEnv) (seq : UInt8) (r : FcRequest) (σ : CommsState) :
    CommsState :=
  match r with
  | .ping => σ.send e ⟨evtPingAck, seq, []⟩
  | .getState => σ.send e ⟨evtStateReport, seq, e.snapshot.bytes⟩
  | .getBuildInfo => σ.send e ⟨evtBuildInfo, seq, buildInfo e.version e.gitSha ++ [0]⟩
  | .getDeviceId => σ.send e ⟨evtDeviceId, seq, e.uid.bytes⟩
  | .setAdvertisedAmps amps =>
    if capAmps amps = e.advertisedAmps then σ else σ.post (.bootConfigAmps (capAmps amps))
  | .requestStop => σ.ask (.userPause 0)
  | .requestStartResume => σ.ask .userResume
  | .clearFault fid => σ.ask (.clearFault fid.toNat)
  | .getFaultLog maxCount => σ.post (.getFaultLog maxCount seq)
  | .getLifetimeKwh => σ.post (.getLifetimeKwh seq)
  | .buzzerBeep ms => { σ with buzzer := buzzerSetOneshot ms σ.buzzer }
  | .setLedOverride mode r g b => { σ with led := ledOverrideSet mode r g b }
  | .writeBl0939Cal a => σ.post (.bl0939Cal a)
  | .rfidLearnNext => σ.ask .rfidLearnArm
  | .rfidClearList => σ.post .rfidAuthlistClear
  | .rfidGetList => σ.post (.rfidAuthlistGetList seq)
  | .rfidRemoveUid uid => σ.post (.rfidAuthlistRemove uid)
  | .setRequireRfidAuth enable => σ.post (.requireRfidAuth (if enable then 1 else 0))
  | .getRfidConfig => σ.ask .publishRfidConfig
  | .setGfciPolicy policy => σ.post (.gfciPolicy policy)
  | .getGfciPolicy => σ.ask .publishGfciPolicy
  | .setTime unixS =>
    let rtc := if unixS = 0 then σ.rtc else rtcStoreUnix e.rtcWaits unixS σ.rtc
    publishTime e seq { σ with time := systemTimeSet unixS e.tickMs, rtc := rtc }
  | .getTime => publishTime e seq σ
  | .restart => { σ with restarting := true }
  | .simulateReplug => σ.ask .simulateReplug
  | .runGfciCalTest => σ.ask .runGfciCalTest
  | .otaBegin imageSize imageCrc32 sessionId =>
    σ.post (.ota (.begin ⟨imageSize, imageCrc32, sessionId, seq⟩))
  | .otaChunk sessionId offset data =>
    (PersistReq.otaChunk sessionId offset data seq).elim σ σ.post
  | .otaCommit sessionId => σ.post (.ota (.commit ⟨sessionId, seq⟩))
  | .otaAbort sessionId => σ.post (.ota (.abort ⟨sessionId, seq⟩))

/-! ## Frames -/

variable {e : CommsEnv} {σ : CommsState} {r : FcRequest} {seq : UInt8} {x : TlvFrame}

theorem fcSendFrame_eq (h : x.payload.length ≤ tlvPayloadMax) : fcSendFrame x = tlvBytes x := by
  rw [fcSendFrame, if_neg (Nat.not_lt.mpr h), tlvBytes, tlvBody, Nat.add_comm]
  rfl

theorem FcRequest.flatten_otaChunk (sessionId offset : UInt32) (data : List UInt8) :
    (otaChunk sessionId offset data).fields.flatten =
      le32Bytes sessionId ++ (le32Bytes offset ++ data) := by
  show [le32Bytes sessionId, le32Bytes offset, data].flatten = _
  rw [List.flatten_cons, List.flatten_cons, List.flatten_singleton]

theorem FcRequest.length_otaChunk (sessionId offset : UInt32) (data : List UInt8) :
    (otaChunk sessionId offset data).fields.flatten.length = 8 + data.length := by
  rw [flatten_otaChunk, List.length_append, List.length_append, length_le32Bytes,
    length_le32Bytes]
  omega

/-- What is sent fits a frame. -/
theorem FcRequest.Sendable.fits (h : r.Sendable) (seq : UInt8) :
    (r.frame seq).payload.length ≤ tlvPayloadMax := by
  cases r with
  | otaChunk sessionId offset data =>
    have hlen : ((otaChunk sessionId offset data).frame seq).payload.length = 8 + data.length :=
      length_otaChunk sessionId offset data
    have hmax : data.length ≤ 48 := h.2
    rw [hlen, tlvPayloadMax]
    omega
  | _ => exact Nat.le_of_ble_eq_true rfl

/-- Frames one behind the other are drained one after the other. -/
theorem drain_frames {xs : List TlvFrame} (h : ∀ x ∈ xs, x.payload.length ≤ tlvPayloadMax) :
    tlvFraming.drain (xs.flatMap tlvBytes) = ⟨xs, [], false⟩ := by
  induction xs with
  | nil => exact Framing.drain_more rfl
  | cons x xs ih =>
    have hx := h x (List.mem_cons_self ..)
    have hpeel : tlvFraming.peel (tlvBytes x ++ xs.flatMap tlvBytes) =
        .take (tlvBytes x).length (some x) := by
      refine tlvFraming.take_append _ ?_
      show tlvPeel (tlvBytes x) = _
      rw [tlvPeel, tlvParse_bytes hx]
    rw [List.flatMap_cons, Framing.drain_take hpeel, List.drop_left,
      ih fun y hy => h y (List.mem_cons_of_mem _ hy)]
    rfl

/-! ## Numbers -/

theorem FcTx.next_seq_ne_zero (t : FcTx) : t.next.seq ≠ 0 := by
  rw [FcTx.next]
  dsimp only
  split
  · decide
  · next h => exact h

/-- No request carries the number of an unsolicited event, and the counter does not come to
it. -/
theorem fcNumbered_seq (rs : List FcRequest) {t : FcTx} (ht : t.seq ≠ 0) :
    (fcNumbered rs t).1.seq ≠ 0 ∧ ∀ p ∈ (fcNumbered rs t).2, p.1 ≠ 0 := by
  induction rs generalizing t with
  | nil => exact ⟨ht, fun p hp => absurd hp List.not_mem_nil⟩
  | cons r rs ih =>
    obtain ⟨hseq, hsent⟩ := ih t.next_seq_ne_zero
    refine ⟨hseq, fun p hp => ?_⟩
    rcases List.mem_cons.mp hp with rfl | hp
    · exact ht
    · exact hsent p hp

theorem fcNumbered_requests (rs : List FcRequest) (t : FcTx) :
    (fcNumbered rs t).2.map Prod.snd = rs := by
  induction rs generalizing t with
  | nil => rfl
  | cons r rs ih => exact congrArg (List.cons r) (ih t.next)

theorem FcRequest.followUp_sendable {r' : FcRequest} (h : r' ∈ r.followUp) : r'.Sendable := by
  cases r <;> first | exact absurd h List.not_mem_nil | (cases List.mem_singleton.mp h; trivial)

/-- What a call sends can be sent, under a number other than zero. -/
theorem fcSend_spec (now : UInt32) (r : FcRequest) {t : FcTx} (ht : t.seq ≠ 0) :
    (fcSend now r t).1.seq ≠ 0 ∧ ∀ p ∈ (fcSend now r t).2, p.1 ≠ 0 ∧ p.2.Sendable := by
  have hnext := t.next_seq_ne_zero
  have hnone : ∀ p ∈ ([] : List (UInt8 × FcRequest)), p.1 ≠ 0 ∧ p.2.Sendable :=
    fun p hp => absurd hp List.not_mem_nil
  have hone : r.Sendable → ∀ p ∈ [(t.seq, r)], p.1 ≠ 0 ∧ p.2.Sendable := by
    intro hr p hp
    rw [List.mem_singleton.mp hp]
    exact ⟨ht, hr⟩
  have hall : r.Sendable → (fcNumbered (r :: r.followUp) t).1.seq ≠ 0 ∧
      ∀ p ∈ (fcNumbered (r :: r.followUp) t).2, p.1 ≠ 0 ∧ p.2.Sendable := by
    intro hr
    obtain ⟨hseq, hsent⟩ := fcNumbered_seq (r :: r.followUp) ht
    refine ⟨hseq, fun p hp => ⟨hsent p hp, ?_⟩⟩
    have hmem : p.2 ∈ r :: r.followUp := by
      rw [← fcNumbered_requests (r :: r.followUp) t]
      exact List.mem_map_of_mem hp
    rcases List.mem_cons.mp hmem with heq | hfollow
    · rw [heq]
      exact hr
    · exact FcRequest.followUp_sendable hfollow
  rw [fcSend.eq_def]
  cases r with
  | setTime unixS =>
    dsimp only
    split
    · exact ⟨ht, hnone⟩
    · exact ⟨hnext, hone trivial⟩
  | otaChunk sessionId offset data =>
    dsimp only
    split
    · exact ⟨ht, hnone⟩
    · next hlen =>
      rw [not_or] at hlen
      exact ⟨hnext, hone ⟨Nat.pos_of_ne_zero hlen.1, Nat.not_lt.mp hlen.2⟩⟩
  | _ => exact hall trivial

theorem fcSendAll_spec (calls : List (UInt32 × FcRequest)) {t : FcTx} (ht : t.seq ≠ 0) :
    ∀ p ∈ (fcSendAll calls t).2, p.1 ≠ 0 ∧ p.2.Sendable := by
  induction calls generalizing t with
  | nil => exact fun p hp => absurd hp List.not_mem_nil
  | cons c calls ih =>
    obtain ⟨hseq, hsent⟩ := fcSend_spec c.1 c.2 ht
    intro p hp
    rcases List.mem_append.mp hp with hp | hp
    · exact hsent p hp
    · exact ih hseq p hp

/-! ## What the comms task does -/

theorem clamp_eq (amps : UInt8) :
    (if commsHwAmpsMax < amps then commsHwAmpsMax else amps) = capAmps amps := by
  rw [capAmps]
  by_cases h : amps ≤ commsHwAmpsMax
  · rw [if_pos h, if_neg (UInt8.not_lt.mpr h)]
  · rw [if_neg h, if_pos (UInt8.not_le.mp h)]

theorem handleSetAmps_eq (amps : UInt8) (e : CommsEnv) (σ : CommsState) :
    handleSetAmps e [amps] σ = FcRequest.perform e seq (.setAdvertisedAmps amps) σ := by
  have hstored : handleSetAdvertisedAmps e.advertisedAmps [amps] =
      if capAmps amps = e.advertisedAmps then none else some (capAmps amps) := by
    rw [← clamp_eq]
    rfl
  rw [handleSetAmps, hstored, FcRequest.perform]
  split
  · next h =>
    split at h
    · next hsame => rw [if_pos hsame]
    · cases h
  · next h =>
    split at h
    · cases h
    · next hnew =>
      cases h
      rw [if_neg hnew]

theorem handleWriteBl0939Cal_eq (a : Bl0939Calibration) (σ : CommsState) :
    handleWriteBl0939Cal (FcRequest.writeBl0939Cal a).fields.flatten σ = σ.post (.bl0939Cal a) := by
  have hlen : (FcRequest.writeBl0939Cal a).fields.flatten.length = 12 := rfl
  have hv : le16Load (FcRequest.writeBl0939Cal a).fields.flatten 0 = a.vUvPerRaw.toUInt16 :=
    le16Load_field 0 rfl rfl
  have hia : le16Load (FcRequest.writeBl0939Cal a).fields.flatten 2 = a.iaNaPerRaw.toUInt16 :=
    le16Load_field 1 rfl rfl
  have hib : le16Load (FcRequest.writeBl0939Cal a).fields.flatten 4 = a.ibUaPerRaw.toUInt16 :=
    le16Load_field 2 rfl rfl
  have hpa : le16Load (FcRequest.writeBl0939Cal a).fields.flatten 6 = a.paUwPerRaw.toUInt16 :=
    le16Load_field 3 rfl rfl
  have hfc : le32Load (FcRequest.writeBl0939Cal a).fields.flatten 8 = a.freqConst.toUInt32 :=
    le32Load_field 4 rfl rfl
  rw [handleWriteBl0939Cal, hlen, hv, hia, hib, hpa, hfc, if_neg (by decide)]
  simp only [Nat.le_refl, if_true, Int16.toInt16_toUInt16, Int32.toInt32_toUInt32]

theorem handleSetTime_eq (unixS : UInt32) (e : CommsEnv) (seq : UInt8) (σ : CommsState) :
    handleSetTime e (FcRequest.setTime unixS).fields.flatten seq σ =
      FcRequest.perform e seq (.setTime unixS) σ := by
  have hlen : (FcRequest.setTime unixS).fields.flatten.length = 4 := rfl
  have hunix : le32Load (FcRequest.setTime unixS).fields.flatten 0 = unixS :=
    le32Load_field 0 rfl rfl
  rw [handleSetTime, hlen, hunix, if_neg (by decide), FcRequest.perform]
  dsimp only
  by_cases h : unixS = 0
  · rw [if_neg (not_not.mpr h), if_pos h]
  · rw [if_pos h, if_neg h]

theorem handleOtaBeginCmd_eq (imageSize imageCrc32 sessionId : UInt32) (seq : UInt8)
    (σ : CommsState) :
    handleOtaBeginCmd (FcRequest.otaBegin imageSize imageCrc32 sessionId).fields.flatten seq σ =
      σ.post (.ota (.begin ⟨imageSize, imageCrc32, sessionId, seq⟩)) := by
  have hlen : (FcRequest.otaBegin imageSize imageCrc32 sessionId).fields.flatten.length = 12 := rfl
  have hsize : le32Load (FcRequest.otaBegin imageSize imageCrc32 sessionId).fields.flatten 0 =
      imageSize := le32Load_field 0 rfl rfl
  have hcrc : le32Load (FcRequest.otaBegin imageSize imageCrc32 sessionId).fields.flatten 4 =
      imageCrc32 := le32Load_field 1 rfl rfl
  have hsid : le32Load (FcRequest.otaBegin imageSize imageCrc32 sessionId).fields.flatten 8 =
      sessionId := le32Load_field 2 rfl rfl
  rw [handleOtaBeginCmd, hlen, hsize, hcrc, hsid, if_neg (by decide)]

theorem handleOtaChunkCmd_eq {sessionId offset : UInt32} {data : List UInt8}
    (h : 0 < data.length ∧ data.length ≤ otaChunkMaxData) (seq : UInt8) (σ : CommsState) :
    handleOtaChunkCmd (FcRequest.otaChunk sessionId offset data).fields.flatten seq σ =
      σ.post (.ota (.chunk ⟨sessionId, offset, data, seq, h.1, h.2⟩)) := by
  have hmax : data.length ≤ 48 := h.2
  have hsid : le32Load (FcRequest.otaChunk sessionId offset data).fields.flatten 0 = sessionId :=
    le32Load_field 0 rfl rfl
  have hoff : le32Load (FcRequest.otaChunk sessionId offset data).fields.flatten 4 = offset :=
    le32Load_field 1 rfl rfl
  have hdata : (FcRequest.otaChunk sessionId offset data).fields.flatten.drop 8 = data := by
    rw [FcRequest.flatten_otaChunk]
    rfl
  rw [handleOtaChunkCmd, FcRequest.length_otaChunk, hsid, hoff, hdata, if_neg (by omega), if_neg (by omega),
    PersistReq.otaChunk, dif_pos h]

/-- The frame of a request has the comms task do what the request asks for. -/
theorem dispatch_frame (h : r.Sendable) (e : CommsEnv) (seq : UInt8) (σ : CommsState) :
    commsDispatch e (r.frame seq) σ = if σ.restarting then σ else r.perform e seq σ := by
  have hcmd : Command.ofCode (r.frame seq).cmd = some r.command := Command.ofCode_code _
  rw [commsDispatch, hcmd]
  cases hr : σ.restarting with
  | true => rfl
  | false =>
  rw [if_neg Bool.false_ne_true, if_neg Bool.false_ne_true]
  cases r with
  | setAdvertisedAmps amps => exact handleSetAmps_eq amps e σ
  | clearFault fid =>
    exact congrArg (fun fid : UInt32 => σ.ask (.clearFault fid.toNat)) (le32Load_field 0 rfl rfl)
  | buzzerBeep ms =>
    exact congrArg (fun ms => { σ with buzzer := buzzerSetOneshot ms σ.buzzer })
      (le16Load_field 0 rfl rfl)
  | writeBl0939Cal a => exact handleWriteBl0939Cal_eq a σ
  | rfidRemoveUid uid =>
    exact congrArg (fun uid => σ.post (.rfidAuthlistRemove uid)) (le32Load_field 0 rfl rfl)
  | setRequireRfidAuth enable => cases enable <;> rfl
  | setTime unixS => exact handleSetTime_eq unixS e seq σ
  | otaBegin imageSize imageCrc32 sessionId =>
    exact handleOtaBeginCmd_eq imageSize imageCrc32 sessionId seq σ
  | otaChunk sessionId offset data =>
    have hdata : 0 < data.length ∧ data.length ≤ otaChunkMaxData := h
    rw [FcRequest.perform, PersistReq.otaChunk, dif_pos hdata]
    exact handleOtaChunkCmd_eq hdata seq σ
  | otaCommit sessionId =>
    exact congrArg (fun sid => σ.post (.ota (.commit ⟨sid, seq⟩))) (le32Load_field 0 rfl rfl)
  | otaAbort sessionId =>
    exact congrArg (fun sid => σ.post (.ota (.abort ⟨sid, seq⟩))) (le32Load_field 0 rfl rfl)
  | _ => rfl

/-- Whatever the FC41D calls and however the bytes it writes are split on their way, the comms
task takes as many frames as requests were sent, and does for each of them, in their order,
what was asked for under its number, which is never that of an unsolicited event. -/
theorem requests_performed (calls : List (UInt32 × FcRequest)) (arrivals : List (List UInt8))
    (hwire : arrivals.flatten = fcWire (fcSendAll calls fcTxStart).2) :
    (commsSettled arrivals).dispatched.map (fun x e σ => commsDispatch e x σ) =
        (fcSendAll calls fcTxStart).2.map
          (fun p e σ => if σ.restarting then σ else p.2.perform e p.1 σ) ∧
      ∀ p ∈ (fcSendAll calls fcTxStart).2, p.1 ≠ 0 := by
  have hspec := fcSendAll_spec calls (t := fcTxStart) (by decide)
  generalize (fcSendAll calls fcTxStart).2 = sent at hwire hspec ⊢
  have hfits : ∀ x ∈ sent.map (fun p => p.2.frame p.1), x.payload.length ≤ tlvPayloadMax := by
    intro x hx
    obtain ⟨p, hp, rfl⟩ := List.mem_map.mp hx
    exact (hspec p hp).2.fits p.1
  have hbytes : fcWire sent = (sent.map fun p => p.2.frame p.1).flatMap tlvBytes := by
    rw [fcWire, List.flatMap_map]
    exact List.flatMap_congr fun p hp => fcSendFrame_eq ((hspec p hp).2.fits p.1)
  rw [commsSettled_eq, hwire, hbytes, drain_frames hfits, List.map_map]
  refine ⟨List.map_congr_left fun p hp => ?_, fun p hp => (hspec p hp).1⟩
  funext e σ
  exact dispatch_frame (hspec p hp).2 e p.1 σ
/-- A limit and the poll behind it, cut in the middle of the first frame. -/
def limitCall : List (UInt32 × FcRequest) := [(1000, .setAdvertisedAmps 16)]

theorem requests_performed_limit :
    (commsSettled [(fcWire (fcSendAll limitCall fcTxStart).2).take 5,
        (fcWire (fcSendAll limitCall fcTxStart).2).drop 5]).dispatched.map
          (fun x e σ => commsDispatch e x σ) =
      (fcSendAll limitCall fcTxStart).2.map
        (fun p e σ => if σ.restarting then σ else p.2.perform e p.1 σ) := by
  refine (requests_performed limitCall _ ?_).1
  rw [List.flatten_cons, List.flatten_singleton, List.take_append_drop]

end OpenEVCharger
