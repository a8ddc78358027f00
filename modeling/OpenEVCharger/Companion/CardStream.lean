import OpenEVCharger.Companion.CardReader
import OpenEVCharger.Lib.Framing
import Mathlib.Data.List.GetD

/-!
# The card reader over a stream

`rfid_reader_tick` reads until nothing is left, drops the first byte of a full buffer before
each read, and drains the frames. How the bytes of a tick are split into reads does not matter,
nor how the stream is spread over the ticks, as long as no tick fills the buffer.
-/

namespace OpenEVCharger

/-! ## Frames -/

/-- `build_cmd`: the frame, or nothing where it returns 0. -/
def buildCmd (cap : ℕ) (cmd : UInt8) (args : List UInt8) : List UInt8 :=
  let total := 2 + args.length
  if cap < total + 1 then []
  else if 0xFF < total then []
  else
    let body := UInt8.ofNat total :: cmd :: args
    body ++ [body.foldl (· ^^^ ·) 0]

/-- One round of `drain_frames`: a bad frame costs a byte, a good one gives its UID, which may be
empty. -/
def peelCard (rx : List UInt8) : Peeled (List UInt8) :=
  match rfidParseFrame rx with
  | .more => .more
  | .bad => .take 1 none
  | .frame n uid => .take n (some uid)

variable {rx queue queue' l : List UInt8} {ks ks' : List ℕ} {n : ℕ} {uid : List UInt8}

/-! ## The parser does not change its mind -/

theorem replyUidLen_fits (total : ℕ) (h : 2 ≤ total) : replyUidLen total + 2 ≤ total := by
  unfold replyUidLen
  split <;> omega

/-- What the parser decides it decides on the bytes of the frame. -/
theorem rfidParseFrame_append (l : List UInt8) (h : rfidParseFrame rx ≠ .more) :
    rfidParseFrame (rx ++ l) = rfidParseFrame rx := by
  cases rx with
  | nil => exact absurd rfl h
  | cons len rest =>
    rw [rfidParseFrame] at h
    rw [List.cons_append, rfidParseFrame, rfidParseFrame]
    dsimp only at h ⊢
    by_cases hshort : len.toNat < 2
    · rw [if_pos hshort, if_pos hshort]
    rw [if_neg hshort] at h
    rw [if_neg hshort, if_neg hshort]
    by_cases hlong : rxBufCap < len.toNat + 1
    · rw [if_pos hlong, if_pos hlong]
    rw [if_neg hlong] at h
    rw [if_neg hlong, if_neg hlong]
    -- only a part of a frame is open, and then nothing was decided
    by_cases hpart : (len :: rest).length < len.toNat + 1
    · exact absurd (if_pos hpart) h
    have hall : len.toNat + 1 ≤ (len :: rest).length := Nat.le_of_not_lt hpart
    have hpart' : ¬ (len :: (rest ++ l)).length < len.toNat + 1 := by
      rw [← List.cons_append, List.length_append]
      omega
    have huid : (if (len :: rest).getD 1 0 = 0x20 then replyUidLen len.toNat else 0) ≤
        ((len :: rest).drop 2).length := by
      have hfits := replyUidLen_fits len.toNat (by omega)
      rw [List.length_drop]
      split <;> omega
    rw [if_neg hpart, if_neg hpart', ← List.cons_append,
      List.take_append_of_le_length (by omega), List.getD_append _ _ _ _ (by omega),
      List.getD_append _ _ _ _ (by omega), List.drop_append_of_le_length (by omega),
      List.take_append_of_le_length huid]

theorem rfidParseFrame_le (h : rfidParseFrame rx = .frame n uid) : 0 < n ∧ n ≤ rx.length := by
  cases rx with
  | nil => nomatch h
  | cons len rest =>
    rw [rfidParseFrame] at h
    dsimp only at h
    split_ifs at h <;> cases h <;> omega

/-- The frames of a buffer. -/
def cardFraming : Framing UInt8 (List UInt8) where
  peel := peelCard
  take_bounds := by
    intro l n out h
    rw [peelCard] at h
    split at h
    · nomatch h
    · next hbad =>
      cases h
      cases l with
      | nil => nomatch hbad
      | cons => exact ⟨Nat.one_pos, Nat.le_add_left _ _⟩
    · next hframe =>
      cases h
      exact rfidParseFrame_le hframe
  take_append := by
    intro l n out l' h
    rw [peelCard, rfidParseFrame_append l', ← peelCard, h]
    intro hmore
    rw [peelCard, hmore] at h
    nomatch h
  fail_append := by
    intro l l' h
    rw [peelCard] at h
    split at h <;> nomatch h

theorem cardFraming_failed (rx : List UInt8) : (cardFraming.drain rx).failed = false := by
  by_contra h
  have hfail := cardFraming.peel_rest rx
  rw [if_pos (by simpa using h)] at hfail
  change peelCard _ = _ at hfail
  rw [peelCard] at hfail
  split at hfail <;> nomatch hfail

/-! ## What a tick delivers -/

/-- The UIDs that the frames of a buffer carry. -/
def cardUids (rx : List UInt8) : List (List UInt8) := (cardFraming.drain rx).out.filter (· ≠ [])

/-- The calls of `handle_uid` in a tick. -/
def handleUids (r : RfidReader) (nowMs : ℤ) : List (List UInt8) → List (List Char) × RfidReader
  | [] => ([], r)
  | uid :: uids =>
    let (fired, r) := handleUid r uid nowMs
    let (later, r) := handleUids r nowMs uids
    (fired.toList ++ later, r)

theorem handleUids_rx (r : RfidReader) (rx : List UInt8) (nowMs : ℤ) (uids : List (List UInt8)) :
    handleUids { r with rx := rx } nowMs uids =
      ((handleUids r nowMs uids).1, { (handleUids r nowMs uids).2 with rx := rx }) := by
  induction uids generalizing r with
  | nil => rfl
  | cons uid uids ih =>
    rw [handleUids, handleUid_rx, handleUids]
    dsimp only
    rw [ih]

theorem cardFraming_peel (h : rfidParseFrame rx = .frame n uid) :
    cardFraming.peel rx = .take n (some uid) := by
  change peelCard rx = _
  rw [peelCard, h]

/-- `drain_frames` hands on the UIDs of the frames, and leaves what is behind them. -/
theorem drainFrames_eq {fuel : ℕ} (r : RfidReader) (nowMs : ℤ) (hfuel : r.rx.length ≤ fuel) :
    drainFrames fuel r nowMs =
      ((handleUids r nowMs (cardUids r.rx)).1,
        { (handleUids r nowMs (cardUids r.rx)).2 with rx := (cardFraming.drain r.rx).rest }) := by
  induction fuel generalizing r with
  | zero =>
    have hnil : r.rx = [] := List.length_eq_zero_iff.mp (Nat.le_zero.mp hfuel)
    have hdrain : cardFraming.drain r.rx = ⟨[], r.rx, false⟩ := by
      rw [hnil]
      rfl
    rw [cardUids, hdrain]
    rfl
  | succ fuel ih =>
    rw [drainFrames]
    cases hparse : rfidParseFrame r.rx with
    | more =>
      have hpeel : cardFraming.peel r.rx = .more := by
        change peelCard r.rx = _
        rw [peelCard, hparse]
      rw [cardUids, Framing.drain_more hpeel]
      rfl
    | bad =>
      have hpeel : cardFraming.peel r.rx = .take 1 none := by
        change peelCard r.rx = _
        rw [peelCard, hparse]
      have hlt := Framing.length_drop_lt hpeel
      dsimp only
      rw [ih _ (by dsimp only; omega), handleUids_rx, cardUids, cardUids,
        Framing.drain_take hpeel]
      rfl
    | frame n uid =>
      have hpeel := cardFraming_peel hparse
      have hlt := Framing.length_drop_lt hpeel
      have huids : cardUids r.rx = [uid].filter (· ≠ []) ++ cardUids (r.rx.drop n) := by
        rw [cardUids, Framing.drain_take hpeel, Option.toList_some, List.filter_append, cardUids]
      dsimp only
      by_cases huid : uid = []
      · rw [if_pos huid, ih _ (by dsimp only; omega), handleUids_rx, huids, huid,
          Framing.drain_take hpeel]
        rfl
      · have hrx : (handleUid r uid nowMs).2.rx = r.rx :=
          congrArg (·.2.rx) (handleUid_rx r r.rx uid nowMs)
        rw [if_neg huid, ih _ (by dsimp only; rw [hrx]; omega), handleUids_rx, huids,
          List.filter_cons_of_pos (by simpa using huid), Framing.drain_take hpeel, hrx]
        rfl

theorem drainFrames_all (r : RfidReader) (rx : List UInt8) (nowMs : ℤ) :
    drainFrames rx.length { r with rx := rx } nowMs =
      ((handleUids r nowMs (cardUids rx)).1,
        { (handleUids r nowMs (cardUids rx)).2 with rx := (cardFraming.drain rx).rest }) := by
  rw [drainFrames_eq { r with rx := rx } nowMs (Nat.le_refl _), handleUids_rx]

/-- What is left of a drained buffer stays until more arrives. -/
theorem cardFraming_rest (rx : List UInt8) :
    cardFraming.peel (cardFraming.drain rx).rest = .more := by
  rw [cardFraming.peel_rest, cardFraming_failed]
  rfl

theorem cardUids_append (rx l : List UInt8) :
    cardUids (rx ++ l) = cardUids rx ++ cardUids ((cardFraming.drain rx).rest ++ l) := by
  rw [cardUids, Framing.drain_append (cardFraming_failed rx), List.filter_append, cardUids,
    cardUids]

/-! ## The tick -/

def respTimeoutMs : ℤ := 300

/-- A full buffer loses its first byte. -/
def makeRoom (rx : List UInt8) : List UInt8 := if rxBufCap ≤ rx.length then rx.drop 1 else rx

/-- The reads of a tick, with what the kernel has queued: each gives at most the bytes it is
asked for and at most so many as `ks` says, and the first that gives none ends the loop. -/
def readLoop : List UInt8 → List UInt8 → List ℕ → List UInt8 × List UInt8
  | rx, queue, [] => (makeRoom rx, queue)
  | rx, queue, k :: ks =>
    let rx := makeRoom rx
    let got := queue.take (min k (rxBufCap - rx.length))
    if got = [] then (rx, queue) else readLoop (rx ++ got) (queue.drop got.length) ks

/-- The reader with its poll: whether an answer is awaited, and since when. -/
structure CardPoll where
  reader : RfidReader
  waiting : Bool
  lastRxAttemptMs : ℤ
  deriving DecidableEq, Repr

/-- `rfid_reader_start`. -/
def cardPollStart : CardPoll := ⟨rfidReaderStart, false, 0⟩

/-- What a tick does: the UIDs that `handle_uid` gets, the callbacks, what is written and what the
kernel still has. -/
structure CardTick where
  uids : List (List UInt8)
  fired : List (List Char)
  sent : List UInt8
  queue : List UInt8
  poll : CardPoll
  deriving DecidableEq, Repr

/-- `rfid_reader_tick` at the time `nowMs`, with `queue` in the kernel. Every complete frame ends
the wait, with a UID or without. -/
def rfidReaderTick (ks : List ℕ) (nowMs : ℤ) (queue : List UInt8) (p : CardPoll) : CardTick :=
  let (rx, queue) := readLoop p.reader.rx queue ks
  let (fired, reader) := drainFrames rx.length { p.reader with rx := rx } nowMs
  let waiting := p.waiting && decide ((cardFraming.drain rx).out = [])
  if waiting && decide (nowMs - p.lastRxAttemptMs < respTimeoutMs) then
    ⟨cardUids rx, fired, [], queue, ⟨reader, true, p.lastRxAttemptMs⟩⟩
  else ⟨cardUids rx, fired, buildCmd 8 0x20 [0], queue, ⟨reader, true, nowMs⟩⟩

/-- The ticks of the bridge, each with its time and the sizes of its reads. -/
def cardTicks (p : CardPoll) (queue : List UInt8) : List (ℤ × List ℕ) → List CardTick
  | [] => []
  | (nowMs, ks) :: times =>
    let t := rfidReaderTick ks nowMs queue p
    t :: cardTicks t.poll t.queue times

/-- No tick fills the buffer. -/
def uncrowded (p : CardPoll) (queue : List UInt8) : List (ℤ × List ℕ) → Bool
  | [] => true
  | (nowMs, ks) :: times =>
    let t := rfidReaderTick ks nowMs queue p
    p.reader.rx.length + (queue.length - t.queue.length) < rxBufCap &&
      uncrowded t.poll t.queue times

/-- What the ticks hand on. -/
def uidsOf (ticks : List CardTick) : List (List UInt8) := ticks.flatMap (·.uids)

/-- What the kernel still has after the ticks. -/
def queueAfter (queue : List UInt8) : List CardTick → List UInt8
  | [] => queue
  | t :: ticks => queueAfter t.queue ticks

variable {nowMs : ℤ} {p : CardPoll} {times times' : List (ℤ × List ℕ)}

/-! ### The reads of a tick -/

theorem makeRoom_eq (h : rx.length ≤ rxBufCap) : makeRoom rx = rx.rtake (rxBufCap - 1) := by
  rw [makeRoom, List.rtake]
  split
  · next hfull =>
    have hone : rx.length - (rxBufCap - 1) = 1 := by
      unfold rxBufCap at *
      omega
    rw [hone]
  · next hroom =>
    rw [Nat.sub_eq_zero_of_le (by omega), List.drop_zero]

theorem rtake_rtake_append (l l' : List UInt8) (k : ℕ) :
    (l.rtake k ++ l').rtake k = (l ++ l').rtake k := by
  rw [List.rtake, List.rtake, List.rtake, ← List.drop_append_of_le_length (Nat.sub_le _ _),
    List.drop_drop]
  congr 1
  simp only [List.length_append, List.length_drop]
  omega

theorem rtake_of_length_le {k : ℕ} (h : l.length ≤ k) : l.rtake k = l := by
  rw [List.rtake, Nat.sub_eq_zero_of_le h, List.drop_zero]

theorem rtake_length_le (l : List UInt8) (k : ℕ) : (l.rtake k).length ≤ k := by
  rw [List.rtake, List.length_drop]
  omega

/-- However the reads go, the buffer ends with the last bytes it can keep. -/
theorem readLoop_eq (queue : List UInt8) (ks : List ℕ) (hrx : rx.length ≤ rxBufCap) :
    ∃ taken, queue = taken ++ (readLoop rx queue ks).2 ∧
      (readLoop rx queue ks).1 = (rx ++ taken).rtake (rxBufCap - 1) := by
  induction ks generalizing rx queue with
  | nil =>
    refine ⟨[], rfl, ?_⟩
    rw [readLoop, makeRoom_eq hrx, List.append_nil]
  | cons k ks ih =>
    rw [readLoop, makeRoom_eq hrx]
    -- a read gives at most the room that there is, so that nothing is cut off but by `makeRoom`
    generalize hgot : queue.take (min k (rxBufCap - (rx.rtake (rxBufCap - 1)).length)) = got
    have hlen : got.length ≤ rxBufCap - (rx.rtake (rxBufCap - 1)).length := by
      rw [← hgot, List.length_take]
      omega
    have hsplit : got ++ queue.drop got.length = queue := by
      exact List.prefix_iff_eq_append.mp (hgot ▸ List.take_prefix _ _)
    by_cases hnil : got = []
    · rw [if_pos hnil]
      refine ⟨[], rfl, ?_⟩
      rw [List.append_nil]
    · rw [if_neg hnil]
      have hkept := rtake_length_le rx (rxBufCap - 1)
      have hroom : (rx.rtake (rxBufCap - 1) ++ got).length ≤ rxBufCap := by
        rw [List.length_append]
        omega
      obtain ⟨taken, hqueue, hrest⟩ := ih (queue.drop got.length) hroom
      refine ⟨got ++ taken, ?_, ?_⟩
      · rw [List.append_assoc, ← hqueue, hsplit]
      · rw [hrest, List.append_assoc, rtake_rtake_append]

/-! ### The ticks -/

theorem rfidReaderTick_uids (ks : List ℕ) (nowMs : ℤ) (queue : List UInt8) (p : CardPoll) :
    (rfidReaderTick ks nowMs queue p).uids = cardUids (readLoop p.reader.rx queue ks).1 := by
  rw [rfidReaderTick]
  dsimp only
  split <;> rfl

theorem rfidReaderTick_queue (ks : List ℕ) (nowMs : ℤ) (queue : List UInt8) (p : CardPoll) :
    (rfidReaderTick ks nowMs queue p).queue = (readLoop p.reader.rx queue ks).2 := by
  rw [rfidReaderTick]
  dsimp only
  split <;> rfl

theorem rfidReaderTick_rx (ks : List ℕ) (nowMs : ℤ) (queue : List UInt8) (p : CardPoll) :
    (rfidReaderTick ks nowMs queue p).poll.reader.rx =
      (cardFraming.drain (readLoop p.reader.rx queue ks).1).rest := by
  rw [rfidReaderTick]
  dsimp only
  rw [drainFrames_all]
  split <;> rfl

/-- The callbacks of a tick are those that the debounce makes of its UIDs. -/
theorem rfidReaderTick_fired (ks : List ℕ) (nowMs : ℤ) (queue : List UInt8) (p : CardPoll) :
    (rfidReaderTick ks nowMs queue p).fired =
      (handleUids p.reader nowMs (rfidReaderTick ks nowMs queue p).uids).1 := by
  rw [rfidReaderTick_uids, rfidReaderTick]
  dsimp only
  rw [drainFrames_all]
  split <;> rfl

theorem rfidReaderTick_rx_le (ks : List ℕ) (nowMs : ℤ) (queue : List UInt8)
    (hrx : p.reader.rx.length ≤ rxBufCap) :
    (rfidReaderTick ks nowMs queue p).poll.reader.rx.length ≤ rxBufCap := by
  obtain ⟨taken, -, hkept⟩ := readLoop_eq queue ks hrx
  obtain ⟨drained, hrest⟩ := cardFraming.rest_suffix (readLoop p.reader.rx queue ks).1
  have hle := rtake_length_le (p.reader.rx ++ taken) (rxBufCap - 1)
  rw [rfidReaderTick_rx]
  rw [← hkept, hrest, List.length_append] at hle
  omega

/-- Two ways to read the same bytes in a tick. -/
theorem rfidReaderTick_reads (nowMs : ℤ) (hrx : p.reader.rx.length ≤ rxBufCap)
    (hqueue : (rfidReaderTick ks nowMs queue p).queue = (rfidReaderTick ks' nowMs queue p).queue) :
    rfidReaderTick ks nowMs queue p = rfidReaderTick ks' nowMs queue p := by
  rw [rfidReaderTick_queue, rfidReaderTick_queue] at hqueue
  obtain ⟨taken, hsplit, hkept⟩ := readLoop_eq queue ks hrx
  obtain ⟨taken', hsplit', hkept'⟩ := readLoop_eq queue ks' hrx
  have hsame : taken = taken' := by
    rw [← hqueue] at hsplit'
    exact List.append_cancel_right (hsplit.symm.trans hsplit')
  have hread : readLoop p.reader.rx queue ks = readLoop p.reader.rx queue ks' := by
    refine Prod.ext ?_ hqueue
    rw [hkept, hkept', hsame]
  rw [rfidReaderTick, rfidReaderTick, hread]

theorem cardTicks_reads (hrx : p.reader.rx.length ≤ rxBufCap)
    (htimes : times.map Prod.fst = times'.map Prod.fst)
    (hqueues : (cardTicks p queue times).map (·.queue) = (cardTicks p queue times').map (·.queue)) :
    cardTicks p queue times = cardTicks p queue times' := by
  induction times generalizing p queue times' with
  | nil =>
    cases times' with
    | nil => rfl
    | cons => nomatch htimes
  | cons tick times ih =>
    cases times' with
    | nil => nomatch htimes
    | cons tick' times' =>
      obtain ⟨nowMs, ks⟩ := tick
      obtain ⟨nowMs', ks'⟩ := tick'
      rw [List.map_cons, List.map_cons, List.cons.injEq] at htimes
      obtain ⟨rfl, htimes⟩ := htimes
      simp only [cardTicks, List.map_cons, List.cons.injEq] at hqueues ⊢
      have htick := rfidReaderTick_reads nowMs hrx hqueues.1
      rw [← htick] at hqueues ⊢
      exact ⟨rfl, ih (rfidReaderTick_rx_le ks nowMs queue hrx) htimes hqueues.2⟩

/-- While no tick fills the buffer, the ticks hand on the UIDs of the bytes they have taken. -/
theorem cardTicks_uids (hdrained : cardFraming.peel p.reader.rx = .more)
    (hroom : uncrowded p queue times = true) :
    ∃ taken, queue = taken ++ queueAfter queue (cardTicks p queue times) ∧
      uidsOf (cardTicks p queue times) = cardUids (p.reader.rx ++ taken) := by
  induction times generalizing p queue with
  | nil =>
    refine ⟨[], rfl, ?_⟩
    rw [List.append_nil, cardUids, Framing.drain_more hdrained]
    rfl
  | cons tick times ih =>
    obtain ⟨nowMs, ks⟩ := tick
    simp only [uncrowded, Bool.and_eq_true, decide_eq_true_eq] at hroom
    obtain ⟨hfits, hroom⟩ := hroom
    have hrx : p.reader.rx.length ≤ rxBufCap := by omega
    obtain ⟨got, hgot, hkept⟩ := readLoop_eq queue ks hrx
    have hall : (readLoop p.reader.rx queue ks).1 = p.reader.rx ++ got := by
      rw [hkept]
      apply rtake_of_length_le
      have hlen := congrArg List.length hgot
      rw [rfidReaderTick_queue] at hfits
      rw [List.length_append] at hlen ⊢
      omega
    obtain ⟨taken, htaken, huids⟩ := ih
      (by rw [rfidReaderTick_rx]; exact cardFraming_rest _) hroom
    refine ⟨got ++ taken, ?_, ?_⟩
    · rw [cardTicks, queueAfter, List.append_assoc, ← htaken, rfidReaderTick_queue]
      exact hgot
    · rw [cardTicks, uidsOf, List.flatMap_cons, ← uidsOf, huids, rfidReaderTick_uids,
        rfidReaderTick_rx, hall, ← List.append_assoc, ← cardUids_append]

/-! ## The frames of the builder -/

/-- A frame that `build_cmd` has built. -/
theorem buildCmd_eq {cap : ℕ} {cmd : UInt8} {args : List UInt8}
    (hbuilt : buildCmd cap cmd args ≠ []) :
    2 + args.length ≤ 0xFF ∧
      buildCmd cap cmd args = UInt8.ofNat (2 + args.length) :: cmd ::
        (args ++ [(UInt8.ofNat (2 + args.length) :: cmd :: args).foldl (· ^^^ ·) 0]) := by
  rw [buildCmd] at hbuilt ⊢
  dsimp only at hbuilt ⊢
  split_ifs at hbuilt ⊢ with hcap hbyte
  · exact absurd rfl hbuilt
  · exact absurd rfl hbuilt
  · exact ⟨Nat.le_of_not_lt hbyte, rfl⟩

/-- The parser takes a built frame whole when the buffer can hold it, and never otherwise. -/
theorem rfidParseFrame_buildCmd {cap : ℕ} {cmd : UInt8} {args : List UInt8}
    (hbuilt : buildCmd cap cmd args ≠ []) (behind : List UInt8) :
    rfidParseFrame (buildCmd cap cmd args ++ behind) =
      if rxBufCap < args.length + 3 then .bad
      else .frame (args.length + 3)
        (args.take (if cmd = 0x20 then replyUidLen (args.length + 2) else 0)) := by
  obtain ⟨hbyte, hframe⟩ := buildCmd_eq hbuilt
  have hlen : (UInt8.ofNat (2 + args.length)).toNat = args.length + 2 := by
    rw [UInt8.toNat_ofNat', Nat.mod_eq_of_lt (by omega), Nat.add_comm]
  rw [hframe]
  generalize hx : (UInt8.ofNat (2 + args.length) :: cmd :: args).foldl (· ^^^ ·) 0 = x
  generalize UInt8.ofNat (2 + args.length) = len at hlen hx
  have hwhole : len :: cmd :: (args ++ [x]) ++ behind = (len :: cmd :: args) ++ x :: behind := by
    simp
  have htake : ((len :: cmd :: args) ++ x :: behind).take (args.length + 2) = len :: cmd :: args :=
    List.take_left' rfl
  have hxor : ((len :: cmd :: args) ++ x :: behind).getD (args.length + 2) 0 = x := by
    rw [List.getD_append_right _ _ _ _ (by simp)]
    simp
  have huid : (if cmd = 0x20 then replyUidLen (args.length + 2) else 0) ≤ args.length := by
    have hfits := replyUidLen_fits (args.length + 2) (by omega)
    split <;> omega
  rw [hwhole, List.cons_append, rfidParseFrame, ← List.cons_append]
  dsimp only
  rw [hlen, if_neg (by omega)]
  by_cases hlong : rxBufCap < args.length + 3
  · rw [if_pos hlong, if_pos hlong]
  rw [if_neg hlong, if_neg hlong, if_neg (by simp), htake, hx, hxor, if_neg (by simp)]
  change CardParse.frame _ ((args ++ x :: behind).take (if cmd = 0x20 then _ else 0)) = _
  rw [List.take_append_of_le_length huid]

/-! ## The reader over a stream -/

/-- The UIDs of a stream depend on its bytes alone while no tick fills the buffer; what a tick
does depends on the bytes it takes, however it reads them; its callbacks are those of its UIDs;
and of a frame that has been built the parser gives the length and the UID. -/
theorem card_stream (stream : List UInt8) :
    (∀ times times' : List (ℤ × List ℕ),
      uncrowded cardPollStart stream times = true → uncrowded cardPollStart stream times' = true →
      queueAfter stream (cardTicks cardPollStart stream times) =
        queueAfter stream (cardTicks cardPollStart stream times') →
      uidsOf (cardTicks cardPollStart stream times) =
        uidsOf (cardTicks cardPollStart stream times')) ∧
    (∀ times times' : List (ℤ × List ℕ), times.map Prod.fst = times'.map Prod.fst →
      (cardTicks cardPollStart stream times).map (·.queue) =
        (cardTicks cardPollStart stream times').map (·.queue) →
      cardTicks cardPollStart stream times = cardTicks cardPollStart stream times') ∧
    (∀ (ks : List ℕ) (nowMs : ℤ) (queue : List UInt8) (p : CardPoll),
      (rfidReaderTick ks nowMs queue p).fired =
        (handleUids p.reader nowMs (rfidReaderTick ks nowMs queue p).uids).1) ∧
    (∀ (cap : ℕ) (cmd : UInt8) (args : List UInt8), buildCmd cap cmd args ≠ [] →
      rfidParseFrame (buildCmd cap cmd args ++ stream) =
        if rxBufCap < args.length + 3 then .bad
        else .frame (args.length + 3)
          (args.take (if cmd = 0x20 then replyUidLen (args.length + 2) else 0))) := by
  refine ⟨?_, ?_, rfidReaderTick_fired, ?_⟩
  · intro times times' hroom hroom' hqueue
    obtain ⟨taken, hsplit, huids⟩ := cardTicks_uids rfl hroom
    obtain ⟨taken', hsplit', huids'⟩ := cardTicks_uids rfl hroom'
    rw [← hqueue] at hsplit'
    rw [huids, huids', List.append_cancel_right (hsplit.symm.trans hsplit')]
  · intro times times' htimes hqueues
    exact cardTicks_reads (Nat.zero_le _) htimes hqueues
  · intro cap cmd args hbuilt
    exact rfidParseFrame_buildCmd hbuilt stream

/-- A reply with the four bytes of a card. -/
def cardReply : List UInt8 := [0x09, 0x20, 0x04, 0xA1, 0xB2, 0xC3, 0x00, 0x00, 0x00, 0xFD]

/-- A reply that arrives in two ticks and three reads, or at once. -/
theorem card_stream_reply :
    uidsOf (cardTicks cardPollStart cardReply [(0, [4, 3]), (120, [3])]) =
        uidsOf (cardTicks cardPollStart cardReply [(0, [10])]) ∧
      uidsOf (cardTicks cardPollStart cardReply [(0, [10])]) = [[0x04, 0xA1, 0xB2, 0xC3]] :=
  ⟨(card_stream cardReply).1 _ _ (by decide) (by decide) (by decide), by decide⟩

/-- A tick that finds the buffer full loses the card at its front, and the parser keeps neither
the command nor the data of a request. -/
theorem full_tick_loses_card :
    (¬ ∀ (stream : List UInt8) (times times' : List (ℤ × List ℕ)),
      queueAfter stream (cardTicks cardPollStart stream times) =
        queueAfter stream (cardTicks cardPollStart stream times') →
      uidsOf (cardTicks cardPollStart stream times) =
        uidsOf (cardTicks cardPollStart stream times')) ∧
      ¬ ∀ (cap : ℕ) (cmd : UInt8) (args : List UInt8), buildCmd cap cmd args ≠ [] →
        rfidParseFrame (buildCmd cap cmd args) = .frame (args.length + 3) args := by
  constructor
  · intro hall
    have hsame := hall (cardReply ++ List.replicate 118 0) [(0, [128])] [(0, [10]), (120, [118])]
      (by decide +kernel)
    revert hsame
    decide +kernel
  · intro hall
    have hparse := hall 8 0x20 [0] (by decide)
    revert hparse
    decide

end OpenEVCharger
