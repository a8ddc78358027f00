import Mathlib.Algebra.Group.Nat.Defs
import OpenEVCharger.Comms.Fc41d

/-!
# Resynchronisation of the FC41D

The start bytes and the length are checked as bytes arrive. What `try_parse_` keeps of the
buffer itself, behind a bad checksum or behind a dispatched frame, is not checked again: a
length below 2 can come to a dispatch there.
-/

namespace OpenEVCharger

/-- `size_t plen = len - 2` on the 32-bit target. -/
def dispatchPlen (buf : List UInt8) : ℕ := (tlvLenField buf + (2 ^ 32 - 2)) % 2 ^ 32

/-- A frame may be dispatched from the buffer: the start bytes, a length in the admitted range,
and a payload that is all there. -/
structure FrameSound (buf : List UInt8) : Prop where
  sof0 : buf[0]? = some tlvSof0
  sof1 : buf[1]? = some tlvSof1
  len_le : tlvLenField buf ≤ tlvPayloadMax + 2
  plen_eq : dispatchPlen buf + 2 = tlvLenField buf
  payload_le : tlvHdrLen + dispatchPlen buf ≤ buf.length

/-- What `try_parse_` keeps of a buffer that holds all of its frame: the bytes from the next start
byte on when the checksum is wrong, those behind the frame when it is right. -/
def keptBehind (buf : List UInt8) : List UInt8 :=
  if tlvCrcOk buf then buf.drop (tlvTotal buf) else buf.tail.dropWhile fun b => b != tlvSof0

/-- What the byte leaves in the buffer would have been let in byte by byte. -/
def KeepsStart (rx : List UInt8) (b : UInt8) : Prop :=
  8 ≤ (rx ++ [b]).length → tlvTotal (rx ++ [b]) ≤ (rx ++ [b]).length →
    MayStart (keptBehind (rx ++ [b]))

/-- The next byte of a stream dispatches a frame. -/
def Dispatches (before : List UInt8) (b : UInt8) : Prop :=
  (processByte (fc41dRun before).rxBuf b).2.isSome = true

instance (before : List UInt8) (b : UInt8) : Decidable (Dispatches before b) :=
  inferInstanceAs (Decidable (_ = true))

variable {buf rx before after stream : List UInt8} {b : UInt8}

/-! ## One byte -/

theorem MayStart.lenOk (h : MayStart buf) (hlen : 4 ≤ buf.length) :
    2 ≤ tlvLenField buf ∧ tlvLenField buf ≤ tlvPayloadMax + 2 := by
  have hok := h.2.2 hlen
  rw [fc41dLenOk, Bool.and_eq_true, decide_eq_true_eq, decide_eq_true_eq] at hok
  exact hok

theorem getElem?_of_getD {k : ℕ} {a d : UInt8} (h : buf.getD k d = a) (hk : k < buf.length) :
    buf[k]? = some a := by
  rw [List.getD_eq_getElem?_getD, List.getElem?_eq_getElem hk, Option.getD_some] at h
  rw [List.getElem?_eq_getElem hk, h]

/-- Where no frame is dispatched there is nothing to show of one. -/
theorem no_frame {P : Prop} (h : (none : Option TlvFrame).isSome = true) : P :=
  absurd h Bool.false_ne_true

/-- The length does not underflow. -/
theorem dispatchPlen_eq (h : 2 ≤ tlvLenField buf) : dispatchPlen buf = tlvLenField buf - 2 := by
  have hlt : tlvLenField buf < 2 ^ 16 := UInt16.toNat_lt _
  rw [dispatchPlen]
  omega

theorem MayStart.sound (h : MayStart buf) (hlen : 8 ≤ buf.length)
    (htotal : tlvTotal buf ≤ buf.length) : FrameSound buf := by
  obtain ⟨hlow, hhigh⟩ := h.lenOk (Nat.le_trans (by decide) hlen)
  have hplen := dispatchPlen_eq hlow
  exact {
    sof0 := getElem?_of_getD h.1 (by omega)
    sof1 := getElem?_of_getD h.2.1 (by omega)
    len_le := hhigh
    plen_eq := by omega
    payload_le := by
      rw [tlvTotal] at htotal
      omega }

/-- The parser on a buffer that starts a frame. -/
theorem MayStart.tryParse (h : MayStart buf)
    (hkept : 8 ≤ buf.length → tlvTotal buf ≤ buf.length → MayStart (keptBehind buf)) :
    MayStart (tryParse buf).1 ∧ ((tryParse buf).2.isSome = true → FrameSound buf) := by
  rcases Nat.lt_or_ge buf.length 8 with hshort | hlong
  · rw [OpenEVCharger.tryParse, if_pos (show buf.length < tlvHdrLen + tlvCrcLen from hshort)]
    exact ⟨h, no_frame⟩
  rw [tryParse_start h hlong]
  by_cases htotal : buf.length < tlvTotal buf
  · rw [if_pos htotal]
    exact ⟨h, no_frame⟩
  have hall := Nat.not_lt.mp htotal
  have hstart := hkept hlong hall
  rw [keptBehind] at hstart
  rw [if_neg htotal]
  by_cases hcrc : tlvCrcOk buf = true
  · rw [if_pos hcrc] at hstart ⊢
    exact ⟨hstart, fun _ => h.sound hlong hall⟩
  · rw [if_neg hcrc] at hstart ⊢
    exact ⟨hstart, no_frame⟩

theorem mayStart_of_empty_or_start (h : buf = [] ∨ buf = [tlvSof0]) : MayStart buf := by
  rcases h with rfl | rfl
  · exact mayStart_nil
  · exact ⟨rfl, rfl, nofun⟩

theorem processByte_keepsStart (h : MayStart rx) (hkept : KeepsStart rx b) :
    MayStart (processByte rx b).1 ∧
      ((processByte rx b).2.isSome = true → FrameSound (rx ++ [b])) := by
  match rx, h, hkept with
  | [], _, _ =>
    rw [processByte_nil]
    refine ⟨mayStart_of_empty_or_start ?_, no_frame⟩
    by_cases hb : b = tlvSof0
    · exact .inr (by rw [if_neg (not_not.mpr hb), hb])
    · exact .inl (if_pos hb)
  | [a], h, _ =>
    have ha : a = tlvSof0 := h.1
    rw [processByte_one]
    by_cases hb : b = tlvSof1
    · rw [if_neg (not_not.mpr hb), ha, hb]
      exact ⟨mayStart_sof, no_frame⟩
    · rw [if_pos hb]
      refine ⟨mayStart_of_empty_or_start ?_, no_frame⟩
      by_cases hsof : b = tlvSof0
      · exact .inr (by rw [if_pos hsof, hsof])
      · exact .inl (if_neg hsof)
  | a :: a' :: rest, h, hkept =>
    have hlen : 2 ≤ (a :: a' :: rest).length := Nat.le_add_left 2 _
    rcases Nat.lt_or_ge (a :: a' :: rest).length tlvFrameMax with hmax | hover
    · rw [processByte_long hlen hmax]
      by_cases hbad : (a :: a' :: rest ++ [b]).length = 4 ∧
          fc41dLenOk (a :: a' :: rest ++ [b]) = false
      · rw [if_pos hbad]
        exact ⟨mayStart_nil, no_frame⟩
      · rw [if_neg hbad]
        exact (mayStart_snoc h hlen hbad).tryParse hkept
    · rw [processByte, if_neg (List.cons_ne_nil _ _), if_neg (by omega), if_pos hover]
      exact ⟨mayStart_nil, no_frame⟩

/-! ## Streams -/

/-- The stream never leaves in the buffer, behind a bad checksum or a dispatched frame, what would
not have been let in. -/
def ResyncsChecked (stream : List UInt8) : Prop :=
  ∀ before b after, stream = before ++ b :: after → KeepsStart (fc41dRun before).rxBuf b

theorem fc41dRun_snoc (before : List UInt8) (b : UInt8) :
    (fc41dRun (before ++ [b])).rxBuf = (processByte (fc41dRun before).rxBuf b).1 := by
  rw [fc41dRun, List.foldl_append]
  rfl

theorem mayStart_run (h : ResyncsChecked stream) (hsplit : stream = before ++ after) :
    MayStart (fc41dRun before).rxBuf := by
  induction before using List.reverseRecOn generalizing after with
  | nil => exact mayStart_nil
  | append_singleton before b ih =>
    rw [List.append_assoc] at hsplit
    rw [fc41dRun_snoc]
    exact (processByte_keepsStart (ih hsplit) (h before b after hsplit)).1

theorem resyncsChecked_of_index
    (h : ∀ k < stream.length, KeepsStart (fc41dRun (stream.take k)).rxBuf (stream.getD k 0)) :
    ResyncsChecked stream := by
  rintro before b after rfl
  have hk := h before.length (by rw [List.length_append, List.length_cons]; omega)
  rw [List.take_left, List.getD_eq_getElem?_getD, List.getElem?_append_right (Nat.le_refl _),
    Nat.sub_self] at hk
  exact hk

instance (rx : List UInt8) (b : UInt8) : Decidable (KeepsStart rx b) :=
  inferInstanceAs (Decidable (_ → _ → _))

/-- A ping with a wrong checksum, and the ping again. -/
def pingTwice : List UInt8 := [0xA5, 0x5A, 0x02, 0x00, 0x01, 0x07, 0x2A, 0x7F] ++ noisyPing.tail

/-- A frame with a wrong checksum around a start byte, an unknown byte, a length of zero and the
checksum of that length. -/
def zeroLengthInside : List UInt8 :=
  [0xA5, 0x5A, 0x04, 0x00, 0xA5, 0x01, 0x00, 0x00, 0x1D, 0x0F, 0x00, 0x00]

end OpenEVCharger
