import Mathlib.Data.List.Nodup
import OpenEVCharger.Ota.Push

/-!
# What a finished push has stored

At most one frame of the running push is on its way, and the frames of the pushes before it are
ahead of it. So the answer to a COMMIT finds the link to the MCU empty, and the flash as the
COMMIT has left it.
-/

namespace OpenEVCharger

open NorFlash (Mem Agree Erased)

/-! ## Frames and pushes -/

/-- What a request says of the image it belongs to. -/
def RequestSays (image : List UInt8) : OtaRequest → Prop
  | .begin a => a.imageSize = UInt32.ofNat image.length ∧ a.imageCrc32 = crc32 image
  | .chunk k => k.data = (image.drop k.offset.toNat).take k.data.length
  | .commit _ | .abort _ => True

/-- A request of one of the pushes. -/
def RequestOf (pushes : List (UInt32 × List UInt8)) (r : OtaRequest) : Prop :=
  ∃ image, (r.sessionId, image) ∈ pushes ∧ RequestSays image r

/-- A session of one of the pushes, with the bytes it has accepted. -/
structure SessionOf (pushes : List (UInt32 × List UInt8)) (s : OtaSession)
    (accepted image : List UInt8) : Prop where
  pushed : (s.sessionId, image) ∈ pushes
  size : s.expectedSize = UInt32.ofNat image.length
  crc : s.expectedCrc32 = crc32 image
  accepted : accepted = image.take s.nextOffset.toNat

def OtaEvent.sessionId : OtaEvent → UInt32
  | .beginAck sid _ _ => sid
  | .chunkAck sid _ _ _ => sid
  | .committed sid _ => sid
  | .aborted sid => sid

variable {pushes : List (UInt32 × List UInt8)} {s : OtaSession} {c : BootConfig} {d : W25q}
  {r : OtaRequest} {h : OtaHistory} {image image' : List UInt8} {sid : UInt32}

theorem pushed_unique (hdistinct : (pushes.map Prod.fst).Nodup) (h1 : (sid, image) ∈ pushes)
    (h2 : (sid, image') ∈ pushes) : image = image' :=
  congrArg Prod.snd (List.inj_on_of_nodup_map hdistinct h1 h2 rfl)

theorem handleOta_sessionId (r : OtaRequest) (s : OtaSession) (c : BootConfig) (d : W25q) :
    (handleOta r s c d).reply.event.sessionId = r.sessionId := by
  cases r with
  | «begin» a =>
    show (handleOtaBegin a s c d).reply.event.sessionId = _
    rw [handleOtaBegin]
    split
    · rfl
    split
    · rfl
    dsimp only
    split <;> rfl
  | chunk k =>
    show (handleOtaChunk k s c d).reply.event.sessionId = _
    rw [handleOtaChunk]
    split
    · rfl
    split
    · rfl
    split
    · rfl
    split
    · rfl
    dsimp only
    split <;> rfl
  | commit a =>
    show (handleOtaCommit a s c d).reply.event.sessionId = _
    rw [handleOtaCommit]
    split
    · rfl
    split
    · rfl
    split
    · rfl
    split
    · rfl
    dsimp only
    split <;> rfl
  | abort a => rfl

/-- A COMMITTED answers a COMMIT. -/
theorem handleOta_committed {status : OtaStatus}
    (he : (handleOta r s c d).reply.event = .committed sid status) :
    ∃ a, r = .commit a ∧ a.sessionId = sid := by
  have hsid := handleOta_sessionId r s c d
  rw [he] at hsid
  cases r with
  | «begin» a =>
    exfalso
    replace he : (handleOtaBegin a s c d).reply.event = .committed sid status := he
    rw [handleOtaBegin] at he
    split at he
    · cases he
    split at he
    · cases he
    dsimp only at he
    split at he <;> cases he
  | chunk k =>
    exfalso
    replace he : (handleOtaChunk k s c d).reply.event = .committed sid status := he
    rw [handleOtaChunk] at he
    split at he
    · cases he
    split at he
    · cases he
    split at he
    · cases he
    split at he
    · cases he
    dsimp only at he
    split at he <;> cases he
  | commit a => exact ⟨a, rfl, hsid.symm⟩
  | abort a => cases he

/-- A request of a push keeps the session one of a push. -/
theorem handleOta_sessionOf (hdistinct : (pushes.map Prod.fst).Nodup)
    (htracked : otaInSession s → SessionTracks s d.mem h)
    (hs : otaInSession s → ∃ image, SessionOf pushes s h.accepted image)
    (hr : RequestOf pushes r) (hin : otaInSession (handleOta r s c d).session) :
    ∃ image, SessionOf pushes (handleOta r s c d).session
      (h.record r (handleOta r s c d).reply.event.status).accepted image := by
  obtain ⟨image, hpushed, hsays⟩ := hr
  cases r with
  | «begin» a =>
    replace hin : otaInSession (handleOtaBegin a s c d).session := hin
    show ∃ image, SessionOf pushes (handleOtaBegin a s c d).session _ image
    rw [OtaHistory.record]
    cases handleOtaBegin_spec a s c d with
    | refused hreply hsame hc hd =>
      rw [hsame] at hin ⊢
      rw [show (handleOta (.begin a) s c d) = handleOtaBegin a s c d from rfl, if_neg hreply]
      exact hs hin
    | eraseFail hreply hsame hc hd =>
      rw [hsame] at hin
      exact absurd hin not_otaInSession_reset
    | started hreply herase hsame hc hd =>
      rw [hsame, show (handleOta (.begin a) s c d) = handleOtaBegin a s c d from rfl,
        if_pos hreply]
      exact ⟨image, hpushed, hsays.1, hsays.2, rfl⟩
  | chunk k =>
    replace hin : otaInSession (handleOtaChunk k s c d).session := hin
    show ∃ image, SessionOf pushes (handleOtaChunk k s c d).session
      (h.record (.chunk k) (handleOtaChunk k s c d).reply.event.status).accepted image
    rw [OtaHistory.record]
    cases handleOtaChunk_spec k s c d with
    | refused hreply hwrite hsame hc hd =>
      rw [hsame] at hin ⊢
      rw [if_neg hreply, if_neg hwrite]
      exact hs hin
    | writeError hreply hfits hsame hc hd =>
      rw [hsame, hreply, if_neg (by decide), if_pos rfl]
      exact hs hfits.session
    | accepted hreply hfits hwrite hsame hc hd =>
      rw [hsame, if_pos hreply]
      obtain ⟨image', hof⟩ := hs hfits.session
      have heq : image' = image := by
        refine pushed_unique hdistinct hof.pushed ?_
        rw [← hfits.token]
        exact hpushed
      subst heq
      refine ⟨image', hof.pushed, hof.size, hof.crc, ?_⟩
      -- the chunk begins where the accepted bytes end
      dsimp only
      rw [toNat_nextOffset (htracked hfits.session) hfits, List.take_add, ← hof.accepted]
      have hdata : k.data = (image'.drop k.offset.toNat).take k.data.length := hsays
      rw [hfits.offset] at hdata
      rw [← hdata]
  | commit a =>
    have hsame : (handleOta (.commit a) s c d).session = s := by
      cases handleOtaCommit_spec a s c d with
      | refused _ hsame _ _ => exact hsame
      | marked _ _ hsame _ _ => exact hsame
    rw [hsame] at hin ⊢
    exact hs hin
  | abort a =>
    by_cases htoken : otaInSession s ∧ a.sessionId = s.sessionId
    · have hreset : (handleOta (.abort a) s c d).session = otaSessionReset := if_pos htoken
      rw [hreset] at hin
      exact absurd hin not_otaInSession_reset
    · have hsame : (handleOta (.abort a) s c d).session = s := if_neg htoken
      rw [hsame] at hin ⊢
      exact hs hin

/-- Where a session with a failed chunk comes from. -/
theorem handleOta_dirty (hsid : (handleOta r s c d).session.sessionId = sid) (hne : sid ≠ 0)
    (hdirty : (h.record r (handleOta r s c d).reply.event.status).clean = false) :
    s.sessionId = sid ∧ (h.clean = false ∨
      r.sessionId = sid ∧ (handleOta r s c d).reply.event.status = .writeError) := by
  cases r with
  | «begin» a =>
    replace hsid : (handleOtaBegin a s c d).session.sessionId = sid := hsid
    replace hdirty : (h.record (.begin a) (handleOtaBegin a s c d).reply.event.status).clean =
      false := hdirty
    rw [OtaHistory.record] at hdirty
    cases handleOtaBegin_spec a s c d with
    | refused hreply hsame hc hd =>
      rw [hsame] at hsid
      rw [if_neg hreply] at hdirty
      exact ⟨hsid, .inl hdirty⟩
    | eraseFail hreply hsame hc hd =>
      rw [hsame] at hsid
      exact absurd hsid.symm hne
    | started hreply herase hsame hc hd =>
      rw [if_pos hreply] at hdirty
      cases hdirty
  | chunk k =>
    replace hsid : (handleOtaChunk k s c d).session.sessionId = sid := hsid
    replace hdirty : (h.record (.chunk k) (handleOtaChunk k s c d).reply.event.status).clean =
      false := hdirty
    show _ ∧ (_ ∨ k.sessionId = sid ∧
      (handleOtaChunk k s c d).reply.event.status = .writeError)
    rw [OtaHistory.record] at hdirty
    cases handleOtaChunk_spec k s c d with
    | refused hreply hwrite hsame hc hd =>
      rw [hsame] at hsid
      rw [if_neg hreply, if_neg hwrite] at hdirty
      exact ⟨hsid, .inl hdirty⟩
    | writeError hreply hfits hsame hc hd =>
      rw [hsame] at hsid
      exact ⟨hsid, .inr ⟨hfits.token.trans hsid, hreply⟩⟩
    | accepted hreply hfits hwrite hsame hc hd =>
      rw [hsame] at hsid
      rw [if_pos hreply] at hdirty
      exact ⟨hsid, .inl hdirty⟩
  | commit a =>
    refine ⟨?_, .inl hdirty⟩
    rw [← hsid]
    cases handleOtaCommit_spec a s c d with
    | refused _ hsame _ _ => exact (congrArg OtaSession.sessionId hsame).symm
    | marked _ _ hsame _ _ => exact (congrArg OtaSession.sessionId hsame).symm
  | abort a =>
    refine ⟨?_, .inl hdirty⟩
    by_cases htoken : otaInSession s ∧ a.sessionId = s.sessionId
    · have hreset : (handleOta (.abort a) s c d).session = otaSessionReset := if_pos htoken
      rw [hreset] at hsid
      exact absurd hsid.symm hne
    · have hsame : (handleOta (.abort a) s c d).session = s := if_neg htoken
      rw [← hsid, hsame]

/-! ## The FC41D -/

variable {p : OtaPush} {io : FcIo} {e : OtaEvent}

theorem otaFinish_inactive {endState : PushState}
    (hend : endState = .done ∨ endState = .failed) : ¬ otaPushActive (otaFinish endState p) := by
  rintro ⟨_, hdone, hfailed⟩
  exact hend.elim hdone hfailed

/-- A chunk that is sent is one of the buffer. -/
theorem otaSendNextChunk_says (hr : otaSendNextChunk io p = some r) :
    r.sessionId = p.sessionId ∧ RequestSays p.buf r := by
  rw [otaSendNextChunk] at hr
  split at hr
  · cases hr
    refine ⟨rfl, ?_⟩
    show p.chunkData = (p.buf.drop p.nextOffset.toNat).take p.chunkData.length
    conv_lhs => rw [OtaPush.chunkData, List.take_eq_take_min]
    rw [OtaPush.chunkData, List.length_take]
  · cases hr

/-- What a reply makes the FC41D do: it stays in the push or leaves it, and sends a frame of it
only in answer to a frame of it. -/
structure ReplySpec (e : OtaEvent) (p : OtaPush) (q : OtaPush × Option OtaRequest) : Prop where
  sessionId : q.1.sessionId = p.sessionId
  active : otaPushActive q.1 → otaPushActive p ∧ q.1.buf = p.buf
  sent : ∀ r, q.2 = some r → otaPushActive p ∧ e.sessionId = p.sessionId ∧
    r.sessionId = p.sessionId ∧ RequestSays p.buf r
  quiet : e.status = .writeError → q.2 = none
  done : q.1.state = .done → p.state = .done ∨
    p.state = .awaitCommit ∧ e = .committed p.sessionId .ok

theorem ReplySpec.ignored (q : OtaPush) (hstate : q.state = p.state)
    (hsid : q.sessionId = p.sessionId) (hbuf : q.buf = p.buf) : ReplySpec e p (q, none) where
  sessionId := hsid
  active hactive := by
    rw [otaPushActive, hstate] at hactive
    exact ⟨hactive, hbuf⟩
  sent := nofun
  quiet _ := rfl
  done hdone := .inl (hstate ▸ hdone)

theorem ReplySpec.failed (q : OtaPush) (hsid : q.sessionId = p.sessionId) :
    ReplySpec e p (otaFinish .failed q, none) where
  sessionId := hsid
  active hactive := absurd hactive (otaFinish_inactive (.inr rfl))
  sent := nofun
  quiet _ := rfl
  done := nofun

/-- A push that goes on with the next chunk. -/
theorem ReplySpec.next (q : OtaPush) (hp : otaPushActive p) (hstate : q.state = .awaitChunk)
    (hsid : q.sessionId = p.sessionId) (hbuf : q.buf = p.buf) (he : e.sessionId = p.sessionId)
    (hstatus : e.status ≠ .writeError) : ReplySpec e p (q, otaSendNextChunk io q) where
  sessionId := hsid
  active _ := ⟨hp, hbuf⟩
  sent r hr := by
    obtain ⟨hrsid, hsays⟩ := otaSendNextChunk_says hr
    exact ⟨hp, he, hrsid.trans hsid, hbuf ▸ hsays⟩
  quiet herror := absurd herror hstatus
  done hdone := by
    rw [hstate] at hdone
    nomatch hdone

theorem onOtaReply_spec (e : OtaEvent) (io : FcIo) (p : OtaPush) :
    ReplySpec e p (onOtaReply e io p) := by
  cases e with
  | beginAck sid status m =>
    show ReplySpec _ p (onBeginAck sid status io p)
    rw [onBeginAck]
    split
    · exact .ignored _ rfl rfl rfl
    next hmatch =>
    obtain ⟨hstate, hsid⟩ := not_or.mp hmatch
    have hactive : otaPushActive p := by
      rw [otaPushActive, show p.state = .awaitBegin from not_not.mp hstate]
      exact ⟨nofun, nofun, nofun⟩
    split
    · exact .failed _ rfl
    next hok =>
    refine .next _ hactive rfl rfl rfl (not_not.mp hsid) ?_
    show status ≠ .writeError
    rw [not_not.mp hok]
    nofun
  | chunkAck sid nextOffset crc status =>
    show ReplySpec _ p (onChunkAck sid nextOffset status io p)
    rw [onChunkAck]
    split
    · exact .ignored _ rfl rfl rfl
    next hmatch =>
    obtain ⟨hstate, hsid⟩ := not_or.mp hmatch
    have hawait : p.state = .awaitChunk := not_not.mp hstate
    have hactive : otaPushActive p := by
      rw [otaPushActive, hawait]
      exact ⟨nofun, nofun, nofun⟩
    split
    · next hmismatch =>
      refine .next _ hactive hawait rfl rfl (not_not.mp hsid) ?_
      show status ≠ .writeError
      rw [hmismatch]
      nofun
    split
    · exact .failed _ rfl
    next hok =>
    have hstatus : status ≠ .writeError := by
      rw [not_not.mp hok]
      nofun
    dsimp only
    split
    · refine ⟨rfl, fun _ => ⟨hactive, rfl⟩, ?_, fun herror => absurd herror hstatus, nofun⟩
      rintro r ⟨⟩
      exact ⟨hactive, not_not.mp hsid, rfl, trivial⟩
    · exact .next _ hactive hawait rfl rfl (not_not.mp hsid) hstatus
  | committed sid status =>
    show ReplySpec _ p (onCommitted sid status p, none)
    rw [onCommitted]
    split
    · exact .ignored _ rfl rfl rfl
    next hmatch =>
    obtain ⟨hstate, hsid⟩ := not_or.mp hmatch
    split
    · next hok =>
      refine ⟨rfl, fun hactive => absurd hactive (otaFinish_inactive (.inl rfl)), nofun,
        fun _ => rfl, fun _ => .inr ⟨not_not.mp hstate, ?_⟩⟩
      rw [hok, show sid = p.sessionId from not_not.mp hsid]
    · exact .failed _ rfl
  | aborted sid =>
    show ReplySpec _ p (onAborted sid p, none)
    rw [onAborted]
    split
    · exact .failed _ rfl
    · exact .ignored _ rfl rfl rfl

/-! ## The link -/

/-- What the flash holds when the answer OK to the COMMIT of the running push is on its way. -/
structure CommitStored (l : OtaLink) : Prop where
  empty : l.requests = []
  image : ImageStored l.push.buf l.mcu.flash

/-- The running push: its frames are the last ones and at most one is on its way; a chunk that
failed has ended it; and an answer OK to its COMMIT is true. -/
structure PushRunning (l : OtaLink) (h : LinkHistory) : Prop where
  pushed : (l.push.sessionId, l.push.buf) ∈ h.pushes
  lockstep : ∃ old cur, l.requests = old ++ cur ∧ (∀ r ∈ old, r.sessionId ≠ l.push.sessionId) ∧
    cur.length + (l.replies.filter fun e => e.sessionId = l.push.sessionId).length ≤ 1
  dirty : l.mcu.session.sessionId = l.push.sessionId → h.mcu.clean = false →
    (∀ r ∈ l.requests, r.sessionId ≠ l.push.sessionId) ∧
      ∀ e ∈ l.replies, e.sessionId = l.push.sessionId → e.status = .writeError
  stored : .committed l.push.sessionId .ok ∈ l.replies → CommitStored l

structure LinkInv (l : OtaLink) (h : LinkHistory) : Prop where
  distinct : (h.pushes.map Prod.fst).Nodup
  sized : ∀ p ∈ h.pushes, p.1 ≠ 0 ∧ p.2.length ≤ otaPushMaxImageBytes
  known : ∀ r ∈ l.requests, RequestOf h.pushes r
  answered : ∀ e ∈ l.replies, e.sessionId ∈ h.pushes.map Prod.fst
  tracked : Tracked l.mcu h.mcu
  session : otaInSession l.mcu.session →
    ∃ image, SessionOf h.pushes l.mcu.session h.mcu.accepted image
  running : otaPushActive l.push → PushRunning l h

/-- What a step must not do: start a push under a session id that was used before, let the MCU
take a COMMIT whose image is named by its copy of the configuration but not by the flash, or
reset the MCU while the answer OK to the COMMIT of the running push is on its way. -/
def LinkStepOk (i : LinkInput) (l : OtaLink) (h : LinkHistory) : Prop :=
  match i.action with
  | .push image => PushStarts image l.push → sessionIdAt i.io.now ∉ h.pushes.map Prod.fst
  | .deliverRequest _ => ∀ a, l.requests.head? = some (.commit a) →
    l.mcu.cfg.pendingOta ≠ ⟨1, l.mcu.session.expectedSize, l.mcu.session.expectedCrc32⟩ ∨
      (bootConfigRead l.mcu.flash).2.pendingOta =
        ⟨1, l.mcu.session.expectedSize, l.mcu.session.expectedCrc32⟩
  | .reset _ _ => otaPushActive l.push → .committed l.push.sessionId .ok ∉ l.replies
  | _ => True

variable {l : OtaLink} {H : LinkHistory} {applyEnabled : Bool} {outcomes : List WriteOutcome}

theorem sessionIdAt_ne_zero (now : UInt32) : sessionIdAt now ≠ 0 := by
  rw [sessionIdAt]
  split
  · decide
  · assumption

theorem RequestOf.mono (hr : RequestOf pushes r) (p : UInt32 × List UInt8) :
    RequestOf (p :: pushes) r := by
  obtain ⟨image, hmem, hsays⟩ := hr
  exact ⟨image, List.mem_cons_of_mem _ hmem, hsays⟩

theorem RequestOf.sessionId (hr : RequestOf pushes r) : r.sessionId ∈ pushes.map Prod.fst := by
  obtain ⟨image, hmem, _⟩ := hr
  exact List.mem_map_of_mem hmem

theorem startOtaPush_starts (hstarts : PushStarts image p) :
    startOtaPush image io p = startOtaPushFromBuf io { p with buf := image } := by
  obtain ⟨hidle, hne, hfits⟩ := hstarts
  rw [startOtaPush, if_neg hidle, if_neg (not_or.mpr ⟨hne, Nat.not_lt.mpr hfits⟩)]

theorem startOtaPush_refused (hstarts : ¬ PushStarts image p) :
    startOtaPush image io p = (p, none) := by
  rw [startOtaPush]
  split
  · rfl
  next hidle =>
  split
  · rfl
  next hgood =>
  obtain ⟨hne, hfits⟩ := not_or.mp hgood
  exact absurd ⟨hidle, hne, Nat.not_lt.mp hfits⟩ hstarts

/-- A push that starts is the running one, with a frame behind all others. -/
theorem LinkInv.start (hinv : LinkInv l H) (hstarts : PushStarts image l.push)
    (hfresh : sessionIdAt io.now ∉ H.pushes.map Prod.fst) :
    LinkInv (l.acted (startOtaPush image io l.push))
      { H with pushes := (sessionIdAt io.now, image) :: H.pushes } := by
  rw [startOtaPush_starts hstarts]
  refine ⟨List.nodup_cons.mpr ⟨hfresh, hinv.distinct⟩, ?_, ?_, ?_, hinv.tracked, ?_, ?_⟩
  · intro p hp
    rcases List.mem_cons.mp hp with rfl | hp
    · exact ⟨sessionIdAt_ne_zero io.now, hstarts.2.2⟩
    · exact hinv.sized p hp
  · intro r hr
    rcases List.mem_append.mp hr with hold | hnew
    · exact (hinv.known r hold).mono _
    · cases List.mem_singleton.mp hnew
      exact ⟨image, List.mem_cons_self .., rfl, rfl⟩
  · intro e he
    exact List.mem_cons_of_mem _ (hinv.answered e he)
  · intro hin
    obtain ⟨image', hof⟩ := hinv.session hin
    exact ⟨image', List.mem_cons_of_mem _ hof.pushed, hof.size, hof.crc, hof.accepted⟩
  · intro _
    have hnone : ∀ e ∈ l.replies, e.sessionId ≠ sessionIdAt io.now :=
      fun e he heq => hfresh (heq ▸ hinv.answered e he)
    refine ⟨List.mem_cons_self .., ⟨l.requests, _, rfl, ?_, ?_⟩, ?_, ?_⟩
    · intro r hr heq
      have hmem := (hinv.known r hr).sessionId
      rw [show r.sessionId = sessionIdAt io.now from heq] at hmem
      exact hfresh hmem
    · have hfilter : l.replies.filter (fun e => decide (e.sessionId = sessionIdAt io.now)) = [] :=
        List.filter_eq_nil_iff.mpr fun e he => by simpa using hnone e he
      show _ + (l.replies.filter fun e => decide (e.sessionId = sessionIdAt io.now)).length ≤ 1
      rw [hfilter]
      exact Nat.le_refl 1
    · intro hsame
      -- a session of the MCU is one of the pushes before
      have hin : otaInSession l.mcu.session := by
        rw [otaInSession, show l.mcu.session.sessionId = sessionIdAt io.now from hsame]
        exact sessionIdAt_ne_zero io.now
      obtain ⟨image', hof⟩ := hinv.session hin
      have hmem := List.mem_map_of_mem (f := Prod.fst) hof.pushed
      rw [show l.mcu.session.sessionId = sessionIdAt io.now from hsame] at hmem
      exact absurd hmem hfresh
    · exact fun hmem => absurd rfl (hnone _ hmem)

/-- The FC41D stops, and may say so. -/
theorem LinkInv.stop (hinv : LinkInv l H) {q : OtaPush × Option OtaRequest}
    (hstop : ¬ otaPushActive q.1) (hsent : ∀ r, q.2 = some r → RequestOf H.pushes r) :
    LinkInv (l.acted q) H := by
  refine ⟨hinv.distinct, hinv.sized, ?_, hinv.answered, hinv.tracked, hinv.session,
    fun hactive => absurd hactive hstop⟩
  intro r hr
  rcases List.mem_append.mp hr with hold | hnew
  · exact hinv.known r hold
  · exact hsent r (Option.mem_toList.mp hnew)

theorem LinkInv.abort (hinv : LinkInv l H) : LinkInv (l.acted (abortOtaPush io l.push)) H := by
  rw [abortOtaPush]
  split
  · next hactive =>
    refine hinv.stop (otaFinish_inactive (.inr rfl)) ?_
    rintro r ⟨⟩
    exact ⟨_, (hinv.running hactive).pushed, trivial⟩
  · rw [OtaLink.acted, Option.toList_none, List.append_nil]
    exact hinv

theorem LinkInv.tick (hinv : LinkInv l H) : LinkInv (l.acted (otaLoopTick io l.push, none)) H := by
  rw [otaLoopTick]
  split
  · exact hinv.stop (otaFinish_inactive (.inr rfl)) nofun
  · rw [OtaLink.acted, Option.toList_none, List.append_nil]
    exact hinv

/-- A lost request is one frame less. -/
theorem LinkInv.loseRequest (hinv : LinkInv l H) :
    LinkInv { l with requests := l.requests.tail } H := by
  have hsub : ∀ r ∈ l.requests.tail, r ∈ l.requests := fun r hr => List.mem_of_mem_tail hr
  refine ⟨hinv.distinct, hinv.sized, fun r hr => hinv.known r (hsub r hr), hinv.answered,
    hinv.tracked, hinv.session, fun hactive => ?_⟩
  have hrun := hinv.running hactive
  refine ⟨hrun.pushed, ?_, ?_, ?_⟩
  · obtain ⟨old, cur, happend, hold, hcount⟩ := hrun.lockstep
    show ∃ old cur, l.requests.tail = _ ∧ _
    rw [happend]
    cases old with
    | nil =>
      have hle : cur.tail.length ≤ cur.length := by
        rw [List.length_tail]
        exact Nat.sub_le ..
      exact ⟨[], cur.tail, rfl, nofun, Nat.le_trans (Nat.add_le_add_right hle _) hcount⟩
    | cons r old => exact ⟨old, cur, rfl, fun r hr => hold r (List.mem_cons_of_mem _ hr), hcount⟩
  · intro hsame hclean
    obtain ⟨hrequests, hreplies⟩ := hrun.dirty hsame hclean
    exact ⟨fun r hr => hrequests r (hsub r hr), hreplies⟩
  · intro hmem
    have hstored := hrun.stored hmem
    exact ⟨by rw [hstored.empty, List.tail_nil], hstored.image⟩

/-- Fewer replies of the running push. -/
theorem PushRunning.fewer (hrun : PushRunning l H) {replies : List OtaEvent}
    (hsub : List.Sublist replies l.replies) : PushRunning { l with replies := replies } H where
  pushed := hrun.pushed
  lockstep := by
    obtain ⟨old, cur, happend, hold, hcount⟩ := hrun.lockstep
    have hle := (hsub.filter fun e => decide (e.sessionId = l.push.sessionId)).length_le
    exact ⟨old, cur, happend, hold, Nat.le_trans (Nat.add_le_add_left hle _) hcount⟩
  dirty hsame hclean := by
    obtain ⟨hrequests, hreplies⟩ := hrun.dirty hsame hclean
    exact ⟨hrequests, fun e he => hreplies e (hsub.subset he)⟩
  stored hmem := by
    have hstored := hrun.stored (hsub.subset hmem)
    exact ⟨hstored.empty, hstored.image⟩

theorem LinkInv.fewer (hinv : LinkInv l H) {replies : List OtaEvent}
    (hsub : List.Sublist replies l.replies) : LinkInv { l with replies := replies } H :=
  ⟨hinv.distinct, hinv.sized, hinv.known, fun e he => hinv.answered e (hsub.subset he),
    hinv.tracked, hinv.session, fun hactive => (hinv.running hactive).fewer hsub⟩

/-- A reply that is delivered: what it makes the FC41D send takes its place. -/
theorem LinkInv.reply (hinv : LinkInv l H) {replies : List OtaEvent}
    (hreplies : l.replies = e :: replies) :
    LinkInv (OtaLink.acted { l with replies := replies } (onOtaReply e io l.push)) H := by
  have hspec := onOtaReply_spec e io l.push
  generalize onOtaReply e io l.push = q at hspec
  have hfewer : LinkInv { l with replies := replies } H :=
    hinv.fewer (hreplies ▸ List.sublist_cons_self e replies)
  have hsent : ∀ r, q.2 = some r → RequestOf H.pushes r := by
    intro r hr
    obtain ⟨hactive, _, hsid, hsays⟩ := hspec.sent r hr
    refine ⟨l.push.buf, ?_, hsays⟩
    rw [hsid]
    exact (hinv.running hactive).pushed
  by_cases hstop : otaPushActive q.1
  swap
  · exact hfewer.stop hstop hsent
  obtain ⟨hactive, hbuf⟩ := hspec.active hstop
  have hrun := hfewer.running hactive
  refine ⟨hinv.distinct, hinv.sized, ?_, hfewer.answered, hinv.tracked, hinv.session, fun _ => ?_⟩
  · intro r hr
    rcases List.mem_append.mp hr with hold | hnew
    · exact hinv.known r hold
    · exact hsent r (Option.mem_toList.mp hnew)
  cases hframe : q.2 with
  | none =>
    rw [OtaLink.acted, hframe, Option.toList_none, List.append_nil]
    refine ⟨?_, ?_, ?_, ?_⟩
    · rw [hspec.sessionId, hbuf]
      exact hrun.pushed
    · rw [hspec.sessionId]
      exact hrun.lockstep
    · rw [hspec.sessionId]
      exact hrun.dirty
    · rw [hspec.sessionId]
      intro hmem
      have hstored := hrun.stored hmem
      exact ⟨hstored.empty, by rw [hbuf]; exact hstored.image⟩
  | some r =>
    obtain ⟨_, hesid, hrsid, _⟩ := hspec.sent r hframe
    -- the reply was the frame on its way, so there is no other
    obtain ⟨old, cur, happend, hold, hcount⟩ := (hinv.running hactive).lockstep
    rw [hreplies, List.filter_cons, if_pos (by simpa using hesid), List.length_cons] at hcount
    have hcur : cur = [] := List.length_eq_zero_iff.mp (by omega)
    have hnone : ∀ e' ∈ replies, e'.sessionId ≠ l.push.sessionId := by
      have hfilter : replies.filter (fun e' => decide (e'.sessionId = l.push.sessionId)) = [] :=
        List.length_eq_zero_iff.mp (by omega)
      intro e' he'
      simpa using List.filter_eq_nil_iff.mp hfilter e' he'
    rw [hcur, List.append_nil] at happend
    rw [OtaLink.acted, hframe, Option.toList_some]
    refine ⟨?_, ⟨l.requests, [r], rfl, ?_, ?_⟩, ?_, ?_⟩
    · rw [hspec.sessionId, hbuf]
      exact hrun.pushed
    · rw [hspec.sessionId, happend]
      exact hold
    · rw [hspec.sessionId, List.filter_eq_nil_iff.mpr fun e' he' => by simpa using hnone e' he']
      exact Nat.le_refl 1
    · rw [hspec.sessionId]
      intro hsame hclean
      have herror := ((hinv.running hactive).dirty hsame hclean).2 e
        (hreplies ▸ List.mem_cons_self ..) hesid
      rw [hspec.quiet herror] at hframe
      nomatch hframe
    · rw [hspec.sessionId]
      exact fun hmem => absurd rfl (hnone _ hmem)

/-- A reset ends the session of the MCU and must not meet an answer that is on its way. -/
theorem LinkInv.reset (hinv : LinkInv l H) {fmcDone : ℕ}
    (hok : otaPushActive l.push → .committed l.push.sessionId .ok ∉ l.replies) :
    LinkInv { l with mcu := otaStep applyEnabled ⟨.reset fmcDone, outcomes⟩ l.mcu }
      { H with mcu := H.mcu.next ⟨.reset fmcDone, outcomes⟩ l.mcu } := by
  have hsession : (otaStep applyEnabled ⟨.reset fmcDone, outcomes⟩ l.mcu).session =
      otaSessionBoot := otaReset_session _ _ _ _ _
  have htracked : Tracked (otaStep applyEnabled ⟨.reset fmcDone, outcomes⟩ l.mcu)
      (H.mcu.next ⟨.reset fmcDone, outcomes⟩ l.mcu) := tracked_step _ hinv.tracked
  generalize otaStep applyEnabled ⟨.reset fmcDone, outcomes⟩ l.mcu = mcu at hsession htracked ⊢
  generalize H.mcu.next ⟨.reset fmcDone, outcomes⟩ l.mcu = history at htracked ⊢
  refine ⟨hinv.distinct, hinv.sized, hinv.known, hinv.answered, htracked, ?_, fun hactive => ?_⟩
  · intro hin
    have hin' : otaInSession mcu.session := hin
    rw [hsession] at hin'
    exact absurd hin' not_otaInSession_boot
  · have hrun := hinv.running hactive
    refine ⟨hrun.pushed, hrun.lockstep, ?_, fun hmem => absurd hmem (hok hactive)⟩
    intro hsame
    have hzero : (0 : UInt32) = l.push.sessionId :=
      (congrArg OtaSession.sessionId hsession).symm.trans hsame
    exact absurd hzero.symm (hinv.sized _ hrun.pushed).1

/-- A COMMIT of the running push that is answered OK has stored its image. -/
theorem LinkInv.commitStored (hinv : LinkInv l H) (hrun : PushRunning l H) {a : OtaAbortArgs}
    (hmem : .commit a ∈ l.requests) (hsid : a.sessionId = l.push.sessionId)
    (hok : l.mcu.cfg.pendingOta ≠ ⟨1, l.mcu.session.expectedSize, l.mcu.session.expectedCrc32⟩ ∨
      (bootConfigRead l.mcu.flash).2.pendingOta =
        ⟨1, l.mcu.session.expectedSize, l.mcu.session.expectedCrc32⟩)
    (hstatus : (l.mcu.handle (.commit a) outcomes).reply.event.status = .ok) :
    ImageStored l.push.buf (l.mcu.handle (.commit a) outcomes).chip.mem := by
  change (handleOtaCommit a l.mcu.session l.mcu.cfg ⟨l.mcu.flash, outcomes⟩).reply.event.status =
    .ok at hstatus
  change ImageStored l.push.buf
    (handleOtaCommit a l.mcu.session l.mcu.cfg ⟨l.mcu.flash, outcomes⟩).chip.mem
  cases handleOtaCommit_spec a l.mcu.session l.mcu.cfg ⟨l.mcu.flash, outcomes⟩ with
  | refused hreply _ _ _ => exact absurd hstatus hreply
  | marked hready hreply hs hc hd =>
    have hrc := hreply.mp hstatus
    have hsame : l.mcu.session.sessionId = l.push.sessionId := hready.token.symm.trans hsid
    obtain ⟨image, hof⟩ := hinv.session hready.session
    have himage : image = l.push.buf := by
      refine pushed_unique hinv.distinct hof.pushed ?_
      rw [hsame]
      exact hrun.pushed
    subst himage
    have hclean : H.mcu.clean = true := by
      by_contra hno
      exact (hrun.dirty hsame (Bool.eq_false_iff.mpr hno)).1 _ hmem hsid
    have hlength : (UInt32.ofNat l.push.buf.length).toNat = l.push.buf.length := by
      have hle : l.push.buf.length ≤ otaPushMaxImageBytes := (hinv.sized _ hrun.pushed).2
      rw [UInt32.toNat_ofNat', Nat.mod_eq_of_lt]
      rw [otaPushMaxImageBytes] at hle
      omega
    have hnext : l.mcu.session.nextOffset.toNat = l.push.buf.length := by
      rw [hready.complete, hof.size, hlength]
    rw [hd]
    refine ⟨?_, ?_⟩
    · rw [← hof.size, ← hof.crc]
      exact (markPending_found_iff hrc).mpr hok
    · have hstaged := (hinv.tracked hready.session).staged hclean
      rw [hnext, hof.accepted, hnext, List.take_length] at hstaged
      have hkept : stagedBytes l.push.buf.length (otaStageMarkPending l.mcu.session.expectedSize
          l.mcu.session.expectedCrc32 l.mcu.cfg ⟨l.mcu.flash, outcomes⟩).chip.mem =
          stagedBytes l.push.buf.length l.mcu.flash := Agree.read (otaStageMarkPending_agree (by decide))
      rw [hkept]
      exact hstaged

/-- A request that the MCU handles. -/
theorem LinkInv.handled (hinv : LinkInv l H) {rest : List OtaRequest}
    (hrequests : l.requests = r :: rest) (hactive : otaPushActive l.push)
    (hok : ∀ a, r = .commit a →
      l.mcu.cfg.pendingOta ≠ ⟨1, l.mcu.session.expectedSize, l.mcu.session.expectedCrc32⟩ ∨
        (bootConfigRead l.mcu.flash).2.pendingOta =
          ⟨1, l.mcu.session.expectedSize, l.mcu.session.expectedCrc32⟩) :
    PushRunning ⟨l.push, rest, l.mcu.after r outcomes,
        l.replies ++ [(l.mcu.handle r outcomes).reply.event]⟩
      { H with mcu := H.mcu.record r (l.mcu.handle r outcomes).reply.event.status } := by
  have hrun := hinv.running hactive
  have hevent : (l.mcu.handle r outcomes).reply.event.sessionId = r.sessionId :=
    handleOta_sessionId ..
  obtain ⟨old, cur, happend, hold, hcount⟩ := hrun.lockstep
  rw [hrequests] at happend
  -- a request of the running push is the only frame of it, and the last request
  have halone : r.sessionId = l.push.sessionId →
      rest = [] ∧ ∀ e ∈ l.replies, e.sessionId ≠ l.push.sessionId := by
    intro hsid
    cases old with
    | cons o old =>
      obtain ⟨rfl, -⟩ := List.cons.inj happend
      exact absurd hsid (hold _ (List.mem_cons_self ..))
    | nil =>
      rw [List.nil_append] at happend
      rw [← happend, List.length_cons] at hcount
      have hfilter : l.replies.filter
          (fun e => decide (e.sessionId = l.push.sessionId)) = [] :=
        List.length_eq_zero_iff.mp (by omega)
      refine ⟨List.length_eq_zero_iff.mp (by omega), fun e he => ?_⟩
      simpa using List.filter_eq_nil_iff.mp hfilter e he
  refine ⟨hrun.pushed, ?_, ?_, ?_⟩
  · show ∃ old cur, rest = old ++ cur ∧ (∀ r ∈ old, r.sessionId ≠ l.push.sessionId) ∧ cur.length +
      ((l.replies ++ [(l.mcu.handle r outcomes).reply.event]).filter
        fun e => decide (e.sessionId = l.push.sessionId)).length ≤ 1
    rw [List.filter_append, List.length_append]
    by_cases hsid : r.sessionId = l.push.sessionId
    · obtain ⟨hrest, hnone⟩ := halone hsid
      refine ⟨[], [], hrest, nofun, ?_⟩
      rw [List.filter_eq_nil_iff.mpr fun e he => by simpa using hnone e he]
      simpa using List.length_filter_le _ [(l.mcu.handle r outcomes).reply.event]
    · have hother : [(l.mcu.handle r outcomes).reply.event].filter
          (fun e => decide (e.sessionId = l.push.sessionId)) = [] := by
        rw [List.filter_eq_nil_iff]
        intro e he
        rw [List.mem_singleton.mp he, hevent]
        simpa using hsid
      rw [hother, List.length_nil, Nat.add_zero]
      cases old with
      | nil =>
        rw [List.nil_append] at happend
        rw [← happend, List.length_cons] at hcount
        exact ⟨[], rest, rfl, nofun, by omega⟩
      | cons o old =>
        obtain ⟨-, htail⟩ := List.cons.inj happend
        exact ⟨old, cur, htail, fun r hr => hold r (List.mem_cons_of_mem _ hr), hcount⟩
  · intro hsame hdirty
    obtain ⟨hbefore, hcause⟩ := handleOta_dirty hsame (hinv.sized _ hrun.pushed).1 hdirty
    rcases hcause with hclean | ⟨hsid, herror⟩
    · obtain ⟨hnone, herrors⟩ := hrun.dirty hbefore hclean
      rw [hrequests] at hnone
      refine ⟨fun r' hr' => hnone r' (List.mem_cons_of_mem _ hr'), fun e he heid => ?_⟩
      rcases List.mem_append.mp he with hearlier | hnew
      · exact herrors e hearlier heid
      · rw [List.mem_singleton.mp hnew, hevent] at heid
        exact absurd heid (hnone r (List.mem_cons_self ..))
    · obtain ⟨hrest, hnone⟩ := halone hsid
      refine ⟨?_, fun e he heid => ?_⟩
      · show ∀ r ∈ rest, _
        rw [hrest]
        exact nofun
      · rcases List.mem_append.mp he with hearlier | hnew
        · exact absurd heid (hnone e hearlier)
        · rw [List.mem_singleton.mp hnew]
          exact herror
  · intro hmem
    rcases List.mem_append.mp hmem with hearlier | hnew
    · have hempty := (hrun.stored hearlier).empty
      rw [hrequests] at hempty
      nomatch hempty
    · have heq := (List.mem_singleton.mp hnew).symm
      obtain ⟨a, rfl, hsid⟩ := handleOta_committed heq
      refine ⟨(halone hsid).1, ?_⟩
      refine hinv.commitStored hrun (hrequests ▸ List.mem_cons_self ..) hsid (hok a rfl) ?_
      exact congrArg OtaEvent.status heq

theorem LinkInv.serve (hinv : LinkInv l H) {rest : List OtaRequest}
    (hrequests : l.requests = r :: rest)
    (hok : ∀ a, r = .commit a →
      l.mcu.cfg.pendingOta ≠ ⟨1, l.mcu.session.expectedSize, l.mcu.session.expectedCrc32⟩ ∨
        (bootConfigRead l.mcu.flash).2.pendingOta =
          ⟨1, l.mcu.session.expectedSize, l.mcu.session.expectedCrc32⟩) :
    LinkInv (OtaLink.served applyEnabled ⟨.request r, outcomes⟩ { l with requests := rest })
      { H with mcu := H.mcu.next ⟨.request r, outcomes⟩ l.mcu } := by
  have hr : RequestOf H.pushes r := hinv.known r (hrequests ▸ List.mem_cons_self ..)
  rw [OtaLink.served]
  dsimp only
  cases hup : l.mcu.up with
  | false =>
    have hnext : H.mcu.next ⟨.request r, outcomes⟩ l.mcu = H.mcu := if_neg (by simp [hup])
    have hlost := hinv.loseRequest
    rw [hrequests, List.tail_cons] at hlost
    rw [otaStep_down hup, otaReply_down hup, hnext, Option.map_none, Option.toList_none,
      List.append_nil]
    exact hlost
  | true =>
    have hnext : H.mcu.next ⟨.request r, outcomes⟩ l.mcu =
        H.mcu.record r (l.mcu.handle r outcomes).reply.event.status := if_pos hup
    have htracked : Tracked (otaStep applyEnabled ⟨.request r, outcomes⟩ l.mcu)
        (H.mcu.next ⟨.request r, outcomes⟩ l.mcu) := tracked_step _ hinv.tracked
    rw [otaStep_request hup, hnext] at htracked
    rw [otaStep_request hup, otaReply_request hup, hnext, Option.map_some, Option.toList_some]
    refine ⟨hinv.distinct, hinv.sized, ?_, ?_, htracked, ?_,
      fun hactive => hinv.handled hrequests hactive hok⟩
    · exact fun r' hr' => hinv.known r' (hrequests ▸ List.mem_cons_of_mem _ hr')
    · intro e he
      rcases List.mem_append.mp he with hearlier | hnew
      · exact hinv.answered e hearlier
      · rw [List.mem_singleton.mp hnew,
          show (l.mcu.handle r outcomes).reply.event.sessionId = r.sessionId from
            handleOta_sessionId ..]
        exact hr.sessionId
    · intro hin
      exact handleOta_sessionOf (d := ⟨l.mcu.flash, outcomes⟩) hinv.distinct hinv.tracked
        hinv.session hr hin

/-! ## Runs -/

theorem linkRun_succ (applyEnabled : Bool) (b : OtaPowerUp) (ins : ℕ → LinkInput) (n : ℕ) :
    linkRun applyEnabled b ins (n + 1) =
      linkStep applyEnabled (ins n) (linkRun applyEnabled b ins n) := by
  rw [linkRun, Machine.run_succ, linkMachine]
  rfl

theorem linkHistory_succ (applyEnabled : Bool) (b : OtaPowerUp) (ins : ℕ → LinkInput) (n : ℕ) :
    linkHistory applyEnabled b ins (n + 1) =
      (linkHistory applyEnabled b ins n).next (ins n) (linkRun applyEnabled b ins n) := by
  rw [linkHistory, Machine.history_succ]
  rfl

/-- Before the first push nothing is claimed. -/
theorem linkInv_start {mcu : OtaMcu} (hsession : mcu.session = otaSessionBoot) :
    LinkInv ⟨otaPushIdle, [], mcu, []⟩ ⟨⟨[], true⟩, []⟩ := by
  have hout : ¬ otaInSession mcu.session := by
    rw [hsession]
    exact not_otaInSession_boot
  exact ⟨List.nodup_nil, nofun, nofun, nofun, fun hin => absurd hin hout,
    fun hin => absurd hin hout, fun hactive => absurd rfl hactive.1⟩

theorem LinkInv.step {i : LinkInput} (hinv : LinkInv l H) (hok : LinkStepOk i l H) :
    LinkInv (linkStep applyEnabled i l) (H.next i l) := by
  obtain ⟨action, io⟩ := i
  rw [LinkStepOk] at hok
  rw [linkStep, LinkHistory.next]
  cases action with
  | push image =>
    dsimp only at hok ⊢
    split
    · next hstarts => exact hinv.start hstarts (hok hstarts)
    · next hrefused =>
      rw [startOtaPush_refused hrefused, OtaLink.acted, Option.toList_none, List.append_nil]
      exact hinv
  | abort => exact hinv.abort
  | tick => exact hinv.tick
  | deliverRequest outcomes =>
    dsimp only at hok ⊢
    cases hrequests : l.requests with
    | nil => exact hinv
    | cons r rest =>
      refine hinv.serve hrequests fun a ha => hok a ?_
      rw [hrequests, ha]
      rfl
  | loseRequest => exact hinv.loseRequest
  | deliverReply =>
    dsimp only
    cases hreplies : l.replies with
    | nil => exact hinv
    | cons e replies => exact hinv.reply hreplies
  | loseReply => exact hinv.fewer (List.tail_sublist l.replies)
  | reset fmcDone outcomes => exact hinv.reset hok

theorem linkInv_run (applyEnabled : Bool) (b : OtaPowerUp) (ins : ℕ → LinkInput) (n : ℕ)
    (hok : ∀ k < n, LinkStepOk (ins k) (linkRun applyEnabled b ins k)
      (linkHistory applyEnabled b ins k)) :
    LinkInv (linkRun applyEnabled b ins n) (linkHistory applyEnabled b ins n) := by
  induction n with
  | zero => exact linkInv_start (otaReset_session applyEnabled 0 b.outcomes b.flash b.bank0)
  | succ n ih =>
    rw [linkRun_succ, linkHistory_succ]
    exact (ih fun k hk => hok k (Nat.lt_succ_of_lt hk)).step (hok n (Nat.lt_succ_self n))

/-- Only what the FC41D does changes its push. -/
theorem linkStep_push (i : LinkInput) :
    (linkStep applyEnabled i l).push =
      match i.action with
      | .push image => (startOtaPush image i.io l.push).1
      | .abort => (abortOtaPush i.io l.push).1
      | .tick => otaLoopTick i.io l.push
      | .deliverReply => l.replies.head?.elim l.push fun e => (onOtaReply e i.io l.push).1
      | _ => l.push := by
  obtain ⟨action, io⟩ := i
  cases action with
  | deliverRequest outcomes =>
    rw [linkStep]
    dsimp only
    cases l.requests with
    | nil => rfl
    | cons r rest => rfl
  | deliverReply =>
    rw [linkStep]
    dsimp only
    cases l.replies with
    | nil => rfl
    | cons e replies => rfl
  | push | abort | tick | loseRequest | loseReply => rfl
  | reset => rw [linkStep]

theorem deliverReply_mcu (io : FcIo) :
    (linkStep applyEnabled ⟨.deliverReply, io⟩ l).mcu = l.mcu := by
  rw [linkStep]
  dsimp only
  cases l.replies with
  | nil => rfl
  | cons e replies => rfl

theorem startOtaPush_not_done (hbefore : p.state ≠ .done) :
    (startOtaPush image io p).1.state ≠ .done := by
  by_cases hstarts : PushStarts image p
  · rw [startOtaPush_starts hstarts]
    nofun
  · rw [startOtaPush_refused hstarts]
    exact hbefore

theorem abortOtaPush_not_done (hbefore : p.state ≠ .done) :
    (abortOtaPush io p).1.state ≠ .done := by
  rw [abortOtaPush]
  split
  · nofun
  · exact hbefore

theorem otaLoopTick_not_done (hbefore : p.state ≠ .done) : (otaLoopTick io p).state ≠ .done := by
  rw [otaLoopTick]
  split
  · nofun
  · exact hbefore

/-- A push is reported as done by the answer OK to its COMMIT. -/
theorem ReportsDone.committed {i : LinkInput} (hdone : ReportsDone applyEnabled i l) :
    otaPushActive l.push ∧ .committed l.push.sessionId .ok ∈ l.replies ∧
      (linkStep applyEnabled i l).mcu = l.mcu := by
  obtain ⟨hbefore, hafter⟩ := hdone
  rw [linkStep_push] at hafter
  obtain ⟨action, io⟩ := i
  cases action with
  | push image => exact absurd hafter (startOtaPush_not_done hbefore)
  | abort => exact absurd hafter (abortOtaPush_not_done hbefore)
  | tick => exact absurd hafter (otaLoopTick_not_done hbefore)
  | deliverReply =>
    rw [deliverReply_mcu]
    cases hreplies : l.replies with
    | nil =>
      rw [hreplies] at hafter
      exact absurd hafter hbefore
    | cons e replies =>
      rw [hreplies] at hafter
      rcases (onOtaReply_spec e io l.push).done hafter with hdone | ⟨hstate, he⟩
      · exact absurd hdone hbefore
      · refine ⟨?_, he ▸ List.mem_cons_self .., rfl⟩
        rw [otaPushActive, hstate]
        exact ⟨nofun, nofun, nofun⟩
  | deliverRequest | loseRequest | loseReply | reset => exact absurd hafter hbefore

/-- In every run whose steps are all as they must be, a push that the FC41D reports as done is
named by the record in the flash and is what the staging region holds. -/
theorem push_done_stored (applyEnabled : Bool) (b : OtaPowerUp) (ins : ℕ → LinkInput) (n : ℕ)
    (hok : ∀ k < n, LinkStepOk (ins k) (linkRun applyEnabled b ins k)
      (linkHistory applyEnabled b ins k))
    (hdone : ReportsDone applyEnabled (ins n) (linkRun applyEnabled b ins n)) :
    ImageStored (linkRun applyEnabled b ins n).push.buf
      (linkRun applyEnabled b ins (n + 1)).mcu.flash := by
  obtain ⟨hactive, hmem, hmcu⟩ := hdone.committed
  have hinv := linkInv_run applyEnabled b ins n hok
  have hstored := ((hinv.running hactive).stored hmem).image
  rw [linkRun_succ, hmcu]
  exact hstored

/-- The sample image pushed over a link that loses nothing. -/
def goodPush (k : ℕ) : LinkInput :=
  ⟨if k = 0 then .push sampleImage else if k % 2 = 1 then .deliverRequest [] else .deliverReply,
    ⟨5, 0⟩⟩

theorem push_done_stored_goodPush :
    ImageStored (linkRun true blankPowerUp goodPush 6).push.buf
      (linkRun true blankPowerUp goodPush (6 + 1)).mcu.flash := by
  have hunnamed : ∀ k < 6, (linkRun true blankPowerUp goodPush k).mcu.cfg.pendingOta ≠
      ⟨1, (linkRun true blankPowerUp goodPush k).mcu.session.expectedSize,
        (linkRun true blankPowerUp goodPush k).mcu.session.expectedCrc32⟩ := by decide +kernel
  have hbefore : (linkRun true blankPowerUp goodPush 6).push.state ≠ .done := by decide +kernel
  have hafter : (linkRun true blankPowerUp goodPush (6 + 1)).push.state = .done := by
    decide +kernel
  rw [linkRun_succ] at hafter
  refine push_done_stored true blankPowerUp goodPush 6 (fun k hk => ?_) ⟨hbefore, hafter⟩
  rw [LinkStepOk, goodPush]
  by_cases hzero : k = 0
  · subst hzero
    exact fun _ => List.not_mem_nil
  rw [if_neg hzero]
  by_cases hodd : k % 2 = 1
  · rw [if_pos hodd]
    exact fun a _ => .inl (hunnamed k hk)
  · rw [if_neg hodd]
    trivial

/-- The sample image pushed to a chip that fails to erase a slot of the configuration, and
pushed again. -/
def failedPush (k : ℕ) : LinkInput :=
  ⟨if k = 0 ∨ k = 7 then .push sampleImage
    else if k = 5 then .deliverRequest [.timeout fun _ => NorFlash.blank]
    else if k % 7 % 2 = 1 then .deliverRequest [] else .deliverReply,
    ⟨UInt32.ofNat (5 + k), 0⟩⟩

/-- The second push is reported as done, and there is no record of it. -/
theorem push_done_unrecorded : ¬ ∀ applyEnabled b ins n,
    ReportsDone applyEnabled (ins n) (linkRun applyEnabled b ins n) →
      ImageStored (linkRun applyEnabled b ins n).push.buf
        (linkRun applyEnabled b ins (n + 1)).mcu.flash := by
  intro hclaim
  have hbefore : (linkRun true blankPowerUp failedPush 13).push.state ≠ .done := by decide +kernel
  have hafter : (linkRun true blankPowerUp failedPush (13 + 1)).push.state = .done := by
    decide +kernel
  have hnone : (bootConfigRead
      (linkRun true blankPowerUp failedPush (13 + 1)).mcu.flash).2.pendingOta.flag = 0 := by
    decide +kernel
  rw [linkRun_succ] at hafter
  have hrecord := (hclaim true blankPowerUp failedPush 13 ⟨hbefore, hafter⟩).record
  have hflag := congrArg PendingOta.flag hrecord
  rw [hnone] at hflag
  exact absurd hflag (show (0 : UInt8) ≠ 1 by decide)

end OpenEVCharger
