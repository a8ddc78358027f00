import Mathlib.Data.Nat.Notation
import Mathlib.Data.Nat.Bitwise

/-!
# MQTT packets

The remaining-length codec of the companion's `mqtt_codec.c`, seven bits a byte and the low
ones first, and the decoder of a PUBLISH packet.
-/

namespace OpenEVCharger

/-! ## The remaining length -/

/-- The loop of `mqtt_encode_remlen`. -/
def encodeRemlenFrom : ℕ → ℕ → List UInt8
  | 0, _ => []
  | n + 1, value =>
    let b := UInt8.ofNat (value % 128)
    if value / 128 = 0 then [b] else (b ||| 0x80) :: encodeRemlenFrom n (value / 128)

/-- `none` where `mqtt_encode_remlen` returns -1. -/
def mqttEncodeRemlen (value : ℕ) : Option (List UInt8) :=
  if 268435455 < value then none else some (encodeRemlenFrom 4 value)

/-- The loop of `mqtt_decode_remlen`: the value and the number of bytes. -/
def decodeRemlenFrom : ℕ → ℕ → ℕ → ℕ → List UInt8 → Option (ℕ × ℕ)
  | 0, _, _, _, _ => none
  | _, _, _, _, [] => none
  | n + 1, i, shift, value, b :: bs =>
    let value := value ||| (b &&& 0x7F).toNat <<< shift
    if b &&& 0x80 = 0 then some (value, i + 1) else decodeRemlenFrom n (i + 1) (shift + 7) value bs

/-- `none` where `mqtt_decode_remlen` consumes nothing. -/
def mqttDecodeRemlen (bs : List UInt8) : Option (ℕ × ℕ) := decodeRemlenFrom 4 0 0 0 bs

variable {n i shift value rest : ℕ} {bs more : List UInt8} {b : UInt8}

/-- What is decoded is decoded again with more bytes behind. -/
theorem decodeRemlenFrom_append {r : ℕ × ℕ} (h : decodeRemlenFrom n i shift value bs = some r) :
    decodeRemlenFrom n i shift value (bs ++ more) = some r := by
  induction bs generalizing n i shift value with
  | nil =>
    cases n with
    | zero => cases h
    | succ n => cases h
  | cons b bs ih =>
    cases n with
    | zero => cases h
    | succ n =>
      rw [List.cons_append]
      rw [decodeRemlenFrom] at h ⊢
      split
      · next hlast =>
        rw [if_pos hlast] at h
        exact h
      · next hlast =>
        rw [if_neg hlast] at h
        exact ih h

/-- Four bytes that do not end it do not end it with more behind. -/
theorem decodeRemlenFrom_none (h : decodeRemlenFrom n i shift value bs = none)
    (hlen : n ≤ bs.length) : decodeRemlenFrom n i shift value (bs ++ more) = none := by
  induction bs generalizing n i shift value with
  | nil =>
    cases Nat.le_zero.mp hlen
    rfl
  | cons b bs ih =>
    cases n with
    | zero => rfl
    | succ n =>
      rw [List.cons_append]
      rw [decodeRemlenFrom] at h ⊢
      split
      · next hlast =>
        rw [if_pos hlast] at h
        cases h
      · next hlast =>
        rw [if_neg hlast] at h
        exact ih h (Nat.le_of_succ_le_succ hlen)

theorem decodeRemlenFrom_consumed {r : ℕ × ℕ} (h : decodeRemlenFrom n i shift value bs = some r) :
    i < r.2 ∧ r.2 ≤ i + bs.length := by
  induction bs generalizing n i shift value with
  | nil =>
    cases n with
    | zero => cases h
    | succ n => cases h
  | cons b bs ih =>
    cases n with
    | zero => cases h
    | succ n =>
      rw [decodeRemlenFrom] at h
      rw [List.length_cons]
      split at h
      · cases h
        omega
      · have hrest := ih h
        omega

/-! ### The round trip -/

theorem low_bits : ∀ m < 128, (UInt8.ofNat m &&& 0x7F).toNat = m ∧ UInt8.ofNat m &&& 0x80 = 0 ∧
    ((UInt8.ofNat m ||| 0x80) &&& 0x7F).toNat = m ∧ (UInt8.ofNat m ||| 0x80) &&& 0x80 ≠ 0 := by
  decide

/-- The low seven bits and the others put together again. -/
theorem shift_split (value shift : ℕ) :
    (value % 128) <<< shift ||| (value / 128) <<< (shift + 7) = value <<< shift := by
  have hsplit : (value / 128) <<< 7 ||| value % 128 = value := by
    rw [← Nat.shiftLeft_add_eq_or_of_lt (Nat.mod_lt value (show 0 < 2 ^ 7 by decide)),
      Nat.shiftLeft_eq]
    omega
  rw [Nat.add_comm shift 7, Nat.shiftLeft_add, Nat.or_comm, ← Nat.shiftLeft_or_distrib, hsplit]

theorem decode_encodeRemlenFrom (h : rest < 128 ^ n) (hn : 0 < n) :
    decodeRemlenFrom n i shift value (encodeRemlenFrom n rest ++ more) =
      some (value ||| rest <<< shift, i + (encodeRemlenFrom n rest).length) := by
  induction n generalizing rest i shift value with
  | zero => exact absurd hn (Nat.lt_irrefl 0)
  | succ n ih =>
    obtain ⟨hlow, hend, hlow', hgoes⟩ := low_bits (rest % 128) (Nat.mod_lt _ (by decide))
    have hsplit := shift_split rest shift
    rw [encodeRemlenFrom]
    split
    · next hlast =>
      rw [List.singleton_append, decodeRemlenFrom, hlow, if_pos hend]
      rw [hlast, Nat.zero_shiftLeft, Nat.or_zero] at hsplit
      rw [hsplit]
      rfl
    · next hlast =>
      have hrest : rest / 128 < 128 ^ n := by
        rw [Nat.pow_succ] at h
        exact Nat.div_lt_of_lt_mul (Nat.mul_comm _ _ ▸ h)
      have hpos : 0 < n := by
        refine Nat.pos_of_ne_zero fun hzero => hlast ?_
        rw [hzero] at hrest
        exact Nat.lt_one_iff.mp hrest
      rw [List.cons_append, decodeRemlenFrom, hlow', if_neg hgoes, ih hrest hpos, Nat.or_assoc, hsplit,
        List.length_cons]
      congr 2
      omega

/-- A remaining length is decoded as what it was encoded from. -/
theorem mqttDecodeRemlen_encode {value : ℕ} {out : List UInt8}
    (h : mqttEncodeRemlen value = some out) :
    mqttDecodeRemlen (out ++ more) = some (value, out.length) := by
  rw [mqttEncodeRemlen] at h
  split at h
  · cases h
  next hmax =>
  cases h
  rw [mqttDecodeRemlen, decode_encodeRemlenFrom (by omega) (by decide), Nat.zero_or, Nat.zero_add]
  rfl

/-! ## PUBLISH -/

structure MqttPublish where
  topic : List UInt8
  payload : List UInt8
  deriving DecidableEq, Repr

/-- `none` where `mqtt_decode_publish` returns -1. -/
def mqttDecodePublish (buf : List UInt8) : Option MqttPublish :=
  if buf.length < 2 then none
  else if buf.getD 0 0 &&& 0xF0 ≠ 0x30 then none
  else if buf.getD 0 0 &&& 0x06 ≠ 0 then none
  else
    match mqttDecodeRemlen buf.tail with
    | none => none
    | some (remlen, rlConsumed) =>
      let headerN := 1 + rlConsumed
      if buf.length < headerN ∨ buf.length - headerN < remlen then none
      else
        let vh := buf.drop headerN
        if remlen < 2 then none
        else
          let topicLen := (vh.getD 0 0).toNat * 256 + (vh.getD 1 0).toNat
          if remlen < 2 + topicLen then none
          else some ⟨(vh.drop 2).take topicLen, (vh.drop (2 + topicLen)).take (remlen - 2 - topicLen)⟩

end OpenEVCharger
