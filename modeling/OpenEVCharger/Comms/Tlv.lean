import OpenEVCharger.Lib.Framing
import OpenEVCharger.Persist.Crc

/-!
# TLV frames

`proto/tlv.c`: the two start bytes, a length, the command, the sequence number, the payload
and a checksum over all but the start bytes. The parser looks at the front of a buffer and
takes a frame, asks for more bytes, or asks to be resynchronised one byte further.
-/

namespace OpenEVCharger

abbrev tlvSof0 : UInt8 := 0xA5
abbrev tlvSof1 : UInt8 := 0x5A
abbrev tlvHdrLen : ℕ := 6
abbrev tlvCrcLen : ℕ := 2
abbrev tlvPayloadMax : ℕ := 56
abbrev tlvFrameMax : ℕ := tlvHdrLen + tlvPayloadMax + tlvCrcLen

structure TlvFrame where
  cmd : UInt8
  seq : UInt8
  payload : List UInt8
  deriving DecidableEq, Repr

/-! ## Building -/

/-- LEN to the end of the payload, what the checksum is over. -/
def tlvBody (x : TlvFrame) : List UInt8 :=
  let lenField := UInt16.ofNat (2 + x.payload.length)
  lenField.toUInt8 :: (lenField >>> 8).toUInt8 :: x.cmd :: x.seq :: x.payload

def tlvBytes (x : TlvFrame) : List UInt8 :=
  let crc := crc16Ccitt (tlvBody x)
  tlvSof0 :: tlvSof1 :: (tlvBody x ++ [(crc >>> 8).toUInt8, crc.toUInt8])

/-- `none` where `tlv_build` returns -1. -/
def tlvBuild (x : TlvFrame) (outBufLen : ℕ) : Option (List UInt8) :=
  if tlvPayloadMax < x.payload.length then none
  else if outBufLen < tlvHdrLen + x.payload.length + tlvCrcLen then none
  else some (tlvBytes x)

/-! ## Parsing -/

inductive TlvResult where
  | frame (consumed : ℕ) (x : TlvFrame)
  | needMore
  | error
  deriving DecidableEq, Repr

def tlvLenField (buf : List UInt8) : ℕ :=
  ((buf.getD 2 0).toUInt16 ||| (buf.getD 3 0).toUInt16 <<< 8).toNat

/-- The checksum that a frame of this payload length carries, high byte first. -/
def tlvCrcGot (buf : List UInt8) (plLen : ℕ) : UInt16 :=
  (buf.getD (tlvHdrLen + plLen) 0).toUInt16 <<< 8 ||| (buf.getD (tlvHdrLen + plLen + 1) 0).toUInt16

def tlvCrcWant (buf : List UInt8) (plLen : ℕ) : UInt16 :=
  crc16Ccitt ((buf.drop 2).take (2 + 2 + plLen))

def tlvParse (buf : List UInt8) : TlvResult :=
  if buf.length < tlvHdrLen + tlvCrcLen then .needMore
  else if buf.getD 0 0 ≠ tlvSof0 ∨ buf.getD 1 0 ≠ tlvSof1 then .error
  else
    let lenField := tlvLenField buf
    if lenField < 2 ∨ 2 + tlvPayloadMax < lenField then .error
    else
      let plLen := lenField - 2
      let total := tlvHdrLen + plLen + tlvCrcLen
      if buf.length < total then .needMore
      else if tlvCrcGot buf plLen ≠ tlvCrcWant buf plLen then .error
      else .frame total ⟨buf.getD 4 0, buf.getD 5 0, (buf.drop tlvHdrLen).take plLen⟩

variable {buf more : List UInt8} {x : TlvFrame} {n k : ℕ}

/-! ## What the parser looks at -/

theorem getD_append (h : k < buf.length) : (buf ++ more).getD k 0 = buf.getD k 0 := by
  rw [List.getD_eq_getElem?_getD, List.getD_eq_getElem?_getD, List.getElem?_append_left h]

theorem take_drop_append (h : k + n ≤ buf.length) :
    ((buf ++ more).drop k).take n = (buf.drop k).take n := by
  rw [List.drop_append_of_le_length (by omega), List.take_append_of_le_length]
  rw [List.length_drop]
  omega

theorem tlvLenField_append (h : 4 ≤ buf.length) : tlvLenField (buf ++ more) = tlvLenField buf := by
  rw [tlvLenField, tlvLenField, getD_append (by omega), getD_append (by omega)]

/-- What the parser has decided it decides again with more bytes behind. -/
theorem tlvParse_append (h : tlvParse buf ≠ .needMore) :
    tlvParse (buf ++ more) = tlvParse buf := by
  have hlen : (buf ++ more).length = buf.length + more.length := List.length_append
  rw [tlvParse] at h
  rw [tlvParse, tlvParse]
  simp only [tlvHdrLen, tlvCrcLen, tlvPayloadMax] at h ⊢
  split at h
  · exact absurd rfl h
  next hmin =>
  rw [if_neg (by omega), if_neg hmin, getD_append (by omega), getD_append (by omega),
    tlvLenField_append (by omega)]
  split
  · rfl
  next hsof =>
  rw [if_neg hsof] at h
  generalize tlvLenField buf = lenField at h ⊢
  split
  · rfl
  next hfield =>
  rw [if_neg hfield] at h
  split at h
  · exact absurd rfl h
  next htotal =>
  rw [if_neg (by omega), if_neg htotal, tlvCrcGot, tlvCrcGot, tlvCrcWant, tlvCrcWant,
    getD_append (by simp only [tlvHdrLen]; omega), getD_append (by simp only [tlvHdrLen]; omega),
    getD_append (by omega), getD_append (by omega), take_drop_append (by omega),
    take_drop_append (by omega)]

/-- A frame lies in the buffer, and an error has bytes to drop. -/
theorem tlvParse_bounds :
    (tlvParse buf = .error → 8 ≤ buf.length) ∧
      ∀ n x, tlvParse buf = .frame n x → 8 ≤ n ∧ n ≤ buf.length := by
  rw [tlvParse]
  split
  · exact ⟨nofun, nofun⟩
  next hmin =>
  simp only [tlvHdrLen, tlvCrcLen, Nat.not_lt] at hmin
  split
  · exact ⟨fun _ => hmin, nofun⟩
  dsimp only
  split
  · exact ⟨fun _ => hmin, nofun⟩
  split
  · exact ⟨nofun, nofun⟩
  next htotal =>
  split
  · exact ⟨fun _ => hmin, nofun⟩
  · refine ⟨nofun, fun n x h => ?_⟩
    cases h
    simp only [tlvHdrLen, tlvCrcLen, Nat.not_lt] at htotal ⊢
    exact ⟨by omega, htotal⟩

/-- A buffer that needs more bytes is shorter than the longest frame. -/
theorem length_of_needMore (h : tlvParse buf = .needMore) : buf.length < tlvFrameMax := by
  rw [tlvParse] at h
  simp only [tlvFrameMax, tlvPayloadMax, tlvHdrLen, tlvCrcLen] at h ⊢
  split at h
  · omega
  split at h
  · cases h
  split at h
  · cases h
  split at h
  · omega
  split at h
  · cases h
  · cases h

/-! ## The round trip -/

theorem length_tlvBody : (tlvBody x).length = 4 + x.payload.length := by
  rw [tlvBody, List.length_cons, List.length_cons, List.length_cons, List.length_cons]
  omega

theorem length_tlvBytes :
    (tlvBytes x).length = tlvHdrLen + x.payload.length + tlvCrcLen := by
  rw [tlvBytes, List.length_cons, List.length_cons, List.length_append, length_tlvBody]
  simp only [List.length_cons, List.length_nil, tlvHdrLen, tlvCrcLen]
  omega

/-- Low byte and high byte put together again. -/
theorem low_high_bits (w : BitVec 16) :
    (w.setWidth 8).setWidth 16 ||| ((w >>> 8).setWidth 8).setWidth 16 <<< 8 = w := by
  apply BitVec.eq_of_getLsbD_eq
  intro i hi
  simp only [BitVec.getLsbD_or, BitVec.getLsbD_setWidth, BitVec.getLsbD_shiftLeft,
    BitVec.getLsbD_ushiftRight]
  rcases Nat.lt_or_ge i 8 with h | h
  · simp [h, hi]
  · simp [show ¬ i < 8 by omega, hi, show i - 8 < 8 by omega, show i - 8 < 16 by omega,
      Nat.add_sub_cancel' h]

theorem low_high (w : UInt16) : w.toUInt8.toUInt16 ||| (w >>> 8).toUInt8.toUInt16 <<< 8 = w := by
  rw [← UInt16.toBitVec_inj]
  exact low_high_bits w.toBitVec

theorem tlvLenField_bytes (h : x.payload.length ≤ tlvPayloadMax) :
    tlvLenField (tlvBytes x) = 2 + x.payload.length := by
  have hfield : tlvLenField (tlvBytes x) = (UInt16.ofNat (2 + x.payload.length)).toNat :=
    congrArg UInt16.toNat (low_high _)
  rw [hfield, UInt16.toNat_ofNat_of_lt']
  simp only [tlvPayloadMax] at h
  show 2 + x.payload.length < 65536
  omega

theorem tlvCrcWant_bytes :
    tlvCrcWant (tlvBytes x) x.payload.length = crc16Ccitt (tlvBody x) := by
  have hbody : (tlvBody x).length = 2 + 2 + x.payload.length := length_tlvBody
  rw [tlvCrcWant, ← hbody]
  exact congrArg crc16Ccitt List.take_left

theorem tlvCrcGot_bytes :
    tlvCrcGot (tlvBytes x) x.payload.length = crc16Ccitt (tlvBody x) := by
  have hbody : (tlvBody x).length = 4 + x.payload.length := length_tlvBody
  have hget : ∀ k < 2, (tlvBytes x).getD (tlvHdrLen + x.payload.length + k) 0 =
      [(crc16Ccitt (tlvBody x) >>> 8).toUInt8, (crc16Ccitt (tlvBody x)).toUInt8].getD k 0 := by
    intro k _
    have hindex : tlvHdrLen + x.payload.length + k = (tlvBody x).length + k + 1 + 1 := by
      simp only [tlvHdrLen]
      omega
    rw [hindex]
    show (tlvBody x ++ _).getD ((tlvBody x).length + k) 0 = _
    rw [List.getD_eq_getElem?_getD, List.getElem?_append_right (Nat.le_add_right _ _),
      Nat.add_sub_cancel_left, ← List.getD_eq_getElem?_getD]
  rw [tlvCrcGot, hget 1 (by omega)]
  rw [show tlvHdrLen + x.payload.length = tlvHdrLen + x.payload.length + 0 from rfl,
    hget 0 (by omega), UInt16.or_comm]
  exact low_high _

/-- A frame built is parsed as what it was built from. -/
theorem tlvParse_bytes (h : x.payload.length ≤ tlvPayloadMax) :
    tlvParse (tlvBytes x) = .frame (tlvBytes x).length x := by
  have hlen : (tlvBytes x).length = tlvHdrLen + x.payload.length + tlvCrcLen := length_tlvBytes
  have hpayload : ((tlvBytes x).drop tlvHdrLen).take x.payload.length = x.payload :=
    List.take_left
  have hsof : ¬ ((tlvBytes x).getD 0 0 ≠ tlvSof0 ∨ (tlvBytes x).getD 1 0 ≠ tlvSof1) :=
    not_or.mpr ⟨not_not.mpr rfl, not_not.mpr rfl⟩
  rw [tlvParse, tlvLenField_bytes h]
  simp only [tlvHdrLen, tlvCrcLen, tlvPayloadMax] at h hlen ⊢
  rw [if_neg (by omega), if_neg hsof, if_neg (by omega), Nat.add_sub_cancel_left,
    if_neg (by omega), tlvCrcGot_bytes,
    tlvCrcWant_bytes, if_neg (not_not.mpr rfl), hpayload, hlen]
  rfl

/-- What `tlv_build` returns, `tlv_parse` takes. -/
theorem tlvParse_build {outBufLen : ℕ} (h : tlvBuild x outBufLen = some buf) :
    tlvParse buf = .frame buf.length x := by
  rw [tlvBuild] at h
  split at h
  · cases h
  next hmax =>
  split at h
  · cases h
  · cases h
    exact tlvParse_bytes (Nat.not_lt.mp hmax)

/-! ## The converse -/

/-- A byte over a byte, split again. -/
theorem high_low_bits (l h : BitVec 8) :
    (l.setWidth 16 ||| h.setWidth 16 <<< 8).setWidth 8 = l ∧
      ((l.setWidth 16 ||| h.setWidth 16 <<< 8) >>> 8).setWidth 8 = h := by
  constructor
  · apply BitVec.eq_of_getLsbD_eq
    intro i hi
    simp [hi]
  · apply BitVec.eq_of_getLsbD_eq
    intro i hi
    simp [hi, show ¬ 8 + i < 8 by omega, show 8 + i < 16 by omega]

theorem high_low (l h : UInt8) :
    (l.toUInt16 ||| h.toUInt16 <<< 8).toUInt8 = l ∧
      ((l.toUInt16 ||| h.toUInt16 <<< 8) >>> 8).toUInt8 = h := by
  rw [← UInt8.toBitVec_inj, ← UInt8.toBitVec_inj]
  exact high_low_bits l.toBitVec h.toBitVec

/-- A buffer as long as the shortest frame starts with a header. -/
theorem header_of_length (h : 6 ≤ buf.length) : ∃ b0 b1 b2 b3 b4 b5 rest,
    buf = b0 :: b1 :: b2 :: b3 :: b4 :: b5 :: rest := by
  match buf, h with
  | b0 :: b1 :: b2 :: b3 :: b4 :: b5 :: rest, _ => exact ⟨b0, b1, b2, b3, b4, b5, rest, rfl⟩
  | [_, _, _, _, _], h | [_, _, _, _], h | [_, _, _], h | [_, _], h | [_], h | [], h =>
    simp at h

/-- The bytes behind the payload are the ones that the checksum is read from. -/
theorem take_add_two (l : List UInt8) (k : ℕ) (h : k + 2 ≤ l.length) :
    l.take (k + 2) = l.take k ++ [l.getD k 0, l.getD (k + 1) 0] := by
  rw [List.take_add, List.append_cancel_left_eq]
  refine List.ext_getElem (by simp; omega) fun i h1 h2 => ?_
  rw [List.getElem_take, List.getElem_drop]
  simp only [List.length_cons, List.length_nil] at h2
  match i with
  | 0 => simp [List.getD, List.getElem?_eq_getElem (show k < l.length by omega)]
  | 1 => simp [List.getD, List.getElem?_eq_getElem (show k + 1 < l.length by omega)]

/-- What the parser takes is what `tlv_build` makes of the frame it returns. -/
theorem tlvBytes_of_parse (h : tlvParse buf = .frame n x) :
    x.payload.length ≤ tlvPayloadMax ∧ buf.take n = tlvBytes x := by
  rw [tlvParse] at h
  split at h
  · cases h
  next hmin =>
  split at h
  · cases h
  next hsof =>
  dsimp only at h
  split at h
  · cases h
  next hfield =>
  split at h
  · cases h
  next htotal =>
  split at h
  · cases h
  next hcrc =>
  cases h
  rw [not_or, not_not, not_not] at hsof
  rw [not_not] at hcrc
  obtain ⟨b0, b1, b2, b3, b4, b5, rest, rfl⟩ := @header_of_length buf
    (Nat.le_trans (Nat.le_add_right _ _) (Nat.not_lt.mp hmin))
  -- the length field and the checksum, split into their bytes again
  have hlen : tlvLenField (b0 :: b1 :: b2 :: b3 :: b4 :: b5 :: rest) =
      (b2.toUInt16 ||| b3.toUInt16 <<< 8).toNat := rfl
  obtain ⟨hlow, hhigh⟩ := high_low b2 b3
  rw [hlen] at hfield htotal hcrc ⊢
  generalize b2.toUInt16 ||| b3.toUInt16 <<< 8 = lenField at hlow hhigh hfield htotal hcrc ⊢
  simp only [tlvHdrLen, tlvCrcLen, tlvPayloadMax, List.length_cons] at hfield htotal ⊢
  obtain ⟨plLen, hplLen⟩ : ∃ plLen, lenField.toNat = 2 + plLen := ⟨lenField.toNat - 2, by omega⟩
  rw [hplLen, Nat.add_sub_cancel_left] at htotal hcrc ⊢
  have hpayload : ((b0 :: b1 :: b2 :: b3 :: b4 :: b5 :: rest).drop 6).take plLen =
      rest.take plLen := rfl
  have hlength : (rest.take plLen).length = plLen := by
    rw [List.length_take]
    omega
  have hofNat : UInt16.ofNat (2 + plLen) = lenField := by
    rw [← hplLen, UInt16.ofNat_toNat]
  have hbody : tlvBody ⟨b4, b5, rest.take plLen⟩ = b2 :: b3 :: b4 :: b5 :: rest.take plLen := by
    rw [tlvBody]
    dsimp only
    rw [hlength, hofNat, hlow, hhigh]
  have hwant : tlvCrcWant (b0 :: b1 :: b2 :: b3 :: b4 :: b5 :: rest) plLen =
      crc16Ccitt (tlvBody ⟨b4, b5, rest.take plLen⟩) := by
    rw [hbody, tlvCrcWant, Nat.add_comm]
    rfl
  have hgot : tlvCrcGot (b0 :: b1 :: b2 :: b3 :: b4 :: b5 :: rest) plLen =
      (rest.getD (plLen + 1) 0).toUInt16 ||| (rest.getD plLen 0).toUInt16 <<< 8 := by
    rw [tlvCrcGot, UInt16.or_comm]
    simp only [tlvHdrLen, Nat.add_comm 6 plLen]
    rfl
  obtain ⟨hcrcLow, hcrcHigh⟩ := high_low (rest.getD (plLen + 1) 0) (rest.getD plLen 0)
  rw [← hgot, hcrc, hwant] at hcrcLow hcrcHigh
  rw [hpayload, hlength]
  refine ⟨by omega, ?_⟩
  have htake : (b0 :: b1 :: b2 :: b3 :: b4 :: b5 :: rest).take (6 + plLen + 2) =
      b0 :: b1 :: b2 :: b3 :: b4 :: b5 :: rest.take (plLen + 2) := by
    rw [show 6 + plLen + 2 = plLen + 2 + 6 by omega]
    rfl
  have hcmd : (b0 :: b1 :: b2 :: b3 :: b4 :: b5 :: rest).getD 4 0 = b4 := rfl
  have hseq : (b0 :: b1 :: b2 :: b3 :: b4 :: b5 :: rest).getD 5 0 = b5 := rfl
  rw [htake, take_add_two rest plLen (by omega), tlvBytes, hcmd, hseq, hcrcLow, hcrcHigh,
    hbody, show b0 = tlvSof0 from hsof.1, show b1 = tlvSof1 from hsof.2]
  rfl

/-- For every frame with a payload of admissible length: `tlv_build` succeeds in a buffer
that has room, and `tlv_parse` takes what it built, whatever bytes follow, and returns
the frame. Conversely, whatever `tlv_parse` takes off a buffer is what `tlv_build`
makes of the frame returned. -/
theorem tlv_build_parse :
    (∀ (x : TlvFrame) (outBufLen : ℕ), x.payload.length ≤ tlvPayloadMax →
        tlvHdrLen + x.payload.length + tlvCrcLen ≤ outBufLen →
        ∃ buf, tlvBuild x outBufLen = some buf ∧
          ∀ more, tlvParse (buf ++ more) = .frame buf.length x) ∧
      ∀ (buf : List UInt8) (n : ℕ) (x : TlvFrame), tlvParse buf = .frame n x →
        n ≤ buf.length ∧ tlvBuild x n = some (buf.take n) := by
  refine ⟨fun x outBufLen hmax hroom => ?_, fun buf n x h => ?_⟩
  · refine ⟨tlvBytes x, ?_, fun more => ?_⟩
    · rw [tlvBuild, if_neg (Nat.not_lt.mpr hmax), if_neg (Nat.not_lt.mpr hroom)]
    · have hparse := tlvParse_bytes hmax
      rw [tlvParse_append, hparse]
      rw [hparse]
      exact nofun
  · obtain ⟨hmax, htake⟩ := tlvBytes_of_parse h
    have hle := (tlvParse_bounds.2 n x h).2
    have hlen : n = tlvHdrLen + x.payload.length + tlvCrcLen := by
      rw [← length_tlvBytes, ← htake, List.length_take, Nat.min_eq_left hle]
    rw [tlvBuild, if_neg (Nat.not_lt.mpr hmax), if_neg (Nat.not_lt.mpr (Nat.le_of_eq hlen.symm)),
      htake]
    exact ⟨hle, rfl⟩

/-! ## As framing -/

def tlvPeel (buf : List UInt8) : Peeled TlvFrame :=
  match tlvParse buf with
  | .frame n x => .take n (some x)
  | .needMore => .more
  | .error => .take 1 none

theorem tlvPeel_append (h : tlvPeel buf ≠ .more) : tlvPeel (buf ++ more) = tlvPeel buf := by
  rw [tlvPeel, tlvPeel, tlvParse_append]
  intro hneed
  rw [tlvPeel, hneed] at h
  exact h rfl

/-- The receiver of `comms_task.c`: it takes a frame, or drops a byte to resynchronise. -/
def tlvFraming : Framing UInt8 TlvFrame where
  peel := tlvPeel
  take_bounds := by
    intro l n out h
    rw [tlvPeel] at h
    obtain ⟨herror, hframe⟩ := @tlvParse_bounds l
    cases hparse : tlvParse l with
    | needMore =>
      rw [hparse] at h
      cases h
    | error =>
      rw [hparse] at h
      cases h
      exact ⟨Nat.one_pos, Nat.le_trans (by decide) (herror hparse)⟩
    | frame k x =>
      rw [hparse] at h
      cases h
      have hbounds := hframe _ _ hparse
      exact ⟨Nat.lt_of_lt_of_le (by decide) hbounds.1, hbounds.2⟩
  take_append := by
    intro l n out l' h
    rw [tlvPeel_append, h]
    rw [h]
    exact nofun
  fail_append := by
    intro l l' h
    rw [tlvPeel_append, h]
    rw [h]
    exact nofun

theorem peel_tlvFraming : tlvFraming.peel buf = .more ↔ tlvParse buf = .needMore := by
  show tlvPeel buf = .more ↔ _
  rw [tlvPeel]
  cases tlvParse buf with
  | frame n x => exact iff_of_false nofun nofun
  | needMore => exact iff_of_true rfl rfl
  | error => exact iff_of_false nofun nofun

/-- The receiver drops bytes, and never gives up. -/
theorem tlvFraming_not_failed (l : List UInt8) : (tlvFraming.drain l).failed = false := by
  have hrest := Framing.peel_rest (F := tlvFraming) l
  have hnever : ∀ b, tlvFraming.peel b ≠ .fail := by
    intro b
    show tlvPeel b ≠ _
    rw [tlvPeel]
    cases tlvParse b with
    | frame n x => exact nofun
    | needMore => exact nofun
    | error => exact nofun
  cases hfailed : (tlvFraming.drain l).failed with
  | false => rfl
  | true =>
    rw [hfailed] at hrest
    exact absurd hrest (hnever _)

end OpenEVCharger
