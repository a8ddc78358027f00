import OpenEVCharger.Comms.Tlv

/-!
# The receiver of the comms task

The loop of `comms_task_run`: pop what fits into the accumulator, take the frames off its
front, and drop a byte where there is none. However the bytes arrive, the frames dispatched
and the bytes left over are those of the stream drained at once.
-/

namespace OpenEVCharger

/-! ## The loop -/

abbrev accumBufBytes : ℕ := tlvFrameMax

/-- The accumulator, the bytes received and not popped yet, the frames dispatched, and how
often the accumulator was found full. -/
structure CommsRx where
  accum : List UInt8
  ring : List UInt8
  dispatched : List TlvFrame
  resets : ℕ
  deriving DecidableEq, Repr

def commsRxStart : CommsRx := ⟨[], [], [], 0⟩

/-- The accumulator after the parse loop, reset when it is full. -/
def commsParse (accum ring : List UInt8) (σ : CommsRx) : CommsRx :=
  let d := tlvFraming.drain accum
  if d.rest.length = accumBufBytes then ⟨[], ring, σ.dispatched ++ d.out, σ.resets + 1⟩
  else ⟨d.rest, ring, σ.dispatched ++ d.out, σ.resets⟩

/-- One turn of the loop, before which some bytes have arrived. -/
def commsRxTurn (σ : CommsRx) (arrived : List UInt8) : CommsRx :=
  let ring := σ.ring ++ arrived
  let room := accumBufBytes - σ.accum.length
  if (ring.take room).length = 0 then { σ with ring := ring }
  else commsParse (σ.accum ++ ring.take room) (ring.drop room) σ

def commsRun (arrivals : List (List UInt8)) : CommsRx := arrivals.foldl commsRxTurn commsRxStart

/-- The receiver after the bytes of some arrivals and as many turns more as it can need. -/
def commsSettled (arrivals : List (List UInt8)) : CommsRx :=
  commsRun (arrivals ++ List.replicate arrivals.flatten.length [])

/-! ## One turn -/

variable {σ : CommsRx} {popped arrived : List UInt8}

/-- The receiver has popped these bytes and drained them. -/
structure Received (popped : List UInt8) (σ : CommsRx) : Prop where
  accum : σ.accum = (tlvFraming.drain popped).rest
  dispatched : σ.dispatched = (tlvFraming.drain popped).out
  resets : σ.resets = 0

theorem parse_rest (l : List UInt8) : tlvParse (tlvFraming.drain l).rest = .needMore := by
  have hrest := Framing.peel_rest (F := tlvFraming) l
  rw [tlvFraming_not_failed l] at hrest
  exact peel_tlvFraming.mp hrest

/-- What the parse loop leaves does not fill the accumulator. -/
theorem length_rest (l : List UInt8) : (tlvFraming.drain l).rest.length < accumBufBytes :=
  length_of_needMore (parse_rest l)

theorem Received.parse (h : Received popped σ) (got ring : List UInt8) :
    Received (popped ++ got) (commsParse (σ.accum ++ got) ring σ) ∧
      (commsParse (σ.accum ++ got) ring σ).ring = ring := by
  have hfeed := @Framing.feed_drain _ _ tlvFraming popped got (tlvFraming_not_failed popped)
  rw [Framing.feed, ← h.accum, ← h.dispatched] at hfeed
  rw [commsParse, if_neg (Nat.ne_of_lt (length_rest _))]
  refine ⟨⟨?_, ?_, h.resets⟩, rfl⟩
  · rw [← hfeed]
  · rw [← hfeed]

/-- A turn pops some of what has arrived, at least a byte when there is one. -/
theorem Received.turn (h : Received popped σ) (arrived : List UInt8) :
    ∃ got, popped ++ got ++ (commsRxTurn σ arrived).ring = popped ++ (σ.ring ++ arrived) ∧
      (commsRxTurn σ arrived).ring.length ≤ (σ.ring ++ arrived).length - 1 ∧
      Received (popped ++ got) (commsRxTurn σ arrived) := by
  have hroom : 0 < accumBufBytes - σ.accum.length := by
    rw [h.accum]
    exact Nat.sub_pos_of_lt (length_rest popped)
  rw [commsRxTurn]
  generalize σ.ring ++ arrived = ring
  generalize accumBufBytes - σ.accum.length = room at hroom
  split
  · next hnone =>
    rw [List.length_take] at hnone
    have hring : ring.length = 0 := by omega
    refine ⟨[], by rw [List.append_nil], Nat.le_trans (Nat.le_of_eq hring) (Nat.zero_le _), ?_⟩
    rw [List.append_nil]
    exact ⟨h.accum, h.dispatched, h.resets⟩
  · obtain ⟨hparse, hleft⟩ := h.parse (ring.take room) (ring.drop room)
    refine ⟨ring.take room, ?_, ?_, hparse⟩
    · rw [hleft, List.append_assoc, List.take_append_drop]
    · rw [hleft, List.length_drop]
      omega

/-! ## Runs -/

theorem received_start : Received [] commsRxStart :=
  ⟨by rw [Framing.drain_more rfl]; rfl, by rw [Framing.drain_more rfl]; rfl, rfl⟩

theorem received_foldl (arrivals : List (List UInt8)) (h : Received popped σ) :
    ∃ popped', popped' ++ (arrivals.foldl commsRxTurn σ).ring =
        popped ++ (σ.ring ++ arrivals.flatten) ∧
      Received popped' (arrivals.foldl commsRxTurn σ) := by
  induction arrivals generalizing σ popped with
  | nil => exact ⟨popped, by rw [List.flatten_nil, List.append_nil]; rfl, h⟩
  | cons arrived arrivals ih =>
    obtain ⟨got, hbytes, _, hturn⟩ := h.turn arrived
    obtain ⟨popped', hbytes', hrun⟩ := ih hturn
    refine ⟨popped', ?_, hrun⟩
    rw [List.foldl_cons, hbytes', ← List.append_assoc, hbytes, List.flatten_cons]
    simp only [List.append_assoc]

/-- Idle turns empty the ring. -/
theorem ring_idle (k : ℕ) (h : Received popped σ) :
    ((List.replicate k []).foldl commsRxTurn σ).ring.length ≤ σ.ring.length - k := by
  induction k generalizing σ popped with
  | zero => exact Nat.le_refl _
  | succ k ih =>
    obtain ⟨got, _, hring, hturn⟩ := h.turn []
    rw [List.append_nil] at hring
    rw [List.replicate_succ, List.foldl_cons]
    have hlater := ih hturn
    omega

/-- After any arrivals the receiver settles where the drain of their bytes ends. -/
theorem commsSettled_eq (arrivals : List (List UInt8)) :
    commsSettled arrivals = ⟨(tlvFraming.drain arrivals.flatten).rest, [],
      (tlvFraming.drain arrivals.flatten).out, 0⟩ := by
  obtain ⟨popped, hbytes, hrun⟩ := received_foldl arrivals received_start
  have hring : (arrivals.foldl commsRxTurn commsRxStart).ring.length ≤ arrivals.flatten.length := by
    have hlen := congrArg List.length hbytes
    rw [List.length_append] at hlen
    have hstart : ([] ++ (commsRxStart.ring ++ arrivals.flatten)).length = arrivals.flatten.length :=
      rfl
    omega
  have hidle := ring_idle arrivals.flatten.length hrun
  obtain ⟨popped', hbytes', hsettled⟩ :=
    received_foldl (List.replicate arrivals.flatten.length []) hrun
  rw [← List.foldl_append] at hidle hbytes' hsettled
  have hempty : (commsSettled arrivals).ring = [] :=
    List.length_eq_zero_iff.mp (Nat.le_zero.mp (Nat.le_trans hidle (by omega)))
  have hall : popped' = arrivals.flatten := by
    have hlast : (commsSettled arrivals).ring = [] := hempty
    rw [commsSettled, commsRun] at hlast
    rw [hlast, List.flatten_replicate_nil, List.append_nil, List.append_nil, hbytes] at hbytes'
    exact hbytes'
  rw [hall] at hsettled
  have hs : Received arrivals.flatten (commsSettled arrivals) := hsettled
  cases hσ : commsSettled arrivals with
  | mk accum ring dispatched resets =>
    rw [hσ] at hs hempty
    rw [CommsRx.mk.injEq]
    exact ⟨hs.accum, hempty, hs.dispatched, hs.resets⟩

/-- However a stream is split, the receiver dispatches the same frames and ends with the
same bytes left, in want of more and without ever having found the accumulator full; and
a valid frame that starts where the parser looks is dispatched next. -/
theorem comms_rx_chunking (arrivals arrivals' : List (List UInt8))
    (hsame : arrivals.flatten = arrivals'.flatten) :
    commsSettled arrivals = commsSettled arrivals' ∧
      (commsSettled arrivals).resets = 0 ∧
      tlvParse (commsSettled arrivals).accum = .needMore ∧
      ∀ f x later tail, tlvParse f = .frame f.length x →
        (commsSettled arrivals).accum ++ later = f ++ tail →
        (commsSettled (arrivals ++ [later])).dispatched =
          (commsSettled arrivals).dispatched ++ x :: (commsSettled [tail]).dispatched := by
  refine ⟨?_, ?_, ?_, ?_⟩
  · rw [commsSettled_eq, commsSettled_eq, hsame]
  · rw [commsSettled_eq]
  · rw [commsSettled_eq]
    exact parse_rest _
  · intro f x later tail hframe hbytes
    have hflat : (arrivals ++ [later]).flatten = arrivals.flatten ++ later := by
      rw [List.flatten_append, List.flatten_singleton]
    have htail : [tail].flatten = tail := List.flatten_singleton
    rw [commsSettled_eq] at hbytes
    rw [commsSettled_eq, commsSettled_eq, commsSettled_eq, hflat, htail]
    dsimp only at hbytes ⊢
    rw [Framing.drain_append (tlvFraming_not_failed _), hbytes]
    -- the parser takes the frame off the front, whatever comes behind it
    have hpeel : tlvFraming.peel (f ++ tail) = .take f.length (some x) := by
      refine tlvFraming.take_append tail ?_
      show tlvPeel f = _
      rw [tlvPeel, hframe]
    rw [Framing.drain_take hpeel, List.drop_left]
    rfl

/-- A frame in two pieces. -/
theorem comms_rx_chunking_pieces :
    commsSettled [[0xA5, 0x5A, 0x02], [0x00, 0x01]] = commsSettled [[0xA5], [0x5A, 0x02, 0x00, 0x01]] :=
  (comms_rx_chunking [[0xA5, 0x5A, 0x02], [0x00, 0x01]] [[0xA5], [0x5A, 0x02, 0x00, 0x01]] rfl).1

end OpenEVCharger
