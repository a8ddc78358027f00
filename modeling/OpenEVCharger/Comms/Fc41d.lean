import Mathlib.Data.List.Induction
import OpenEVCharger.Comms.Receiver

/-!
# The receiver of the FC41D

`process_byte_` and `try_parse_` of the FC41D parse the same frames byte by byte. Where the
MCU's receiver drops one byte and looks again, this one drops four bytes on a bad length,
and after a bad checksum it keeps what comes from the next start byte on without looking at
it. The two are in step as long as neither makes a difference.
-/

namespace OpenEVCharger

/-! ## The receiver -/

def fc41dLenOk (rx : List UInt8) : Bool :=
  decide (2 ≤ tlvLenField rx) && decide (tlvLenField rx ≤ tlvPayloadMax + 2)

/-- `try_parse_`: the buffer left, and the frame dispatched. A length below 2, which only a
buffer kept after a bad checksum can have here, is an invalid range in the source. -/
def tryParse (rx : List UInt8) : List UInt8 × Option TlvFrame :=
  if rx.length < tlvHdrLen + tlvCrcLen then (rx, none)
  else
    let len := tlvLenField rx
    let total := 4 + len + tlvCrcLen
    if rx.length < total then (rx, none)
    else
      let got := (rx.getD (4 + len) 0).toUInt16 <<< 8 ||| (rx.getD (4 + len + 1) 0).toUInt16
      if got ≠ crc16Ccitt ((rx.drop 2).take (2 + len)) then
        (rx.tail.dropWhile (fun b => b != tlvSof0), none)
      else
        (rx.drop total, some ⟨rx.getD 4 0, rx.getD 5 0, (rx.drop 6).take (len - 2)⟩)

/-- `process_byte_`. -/
def processByte (rx : List UInt8) (b : UInt8) : List UInt8 × Option TlvFrame :=
  if rx = [] then (if b ≠ tlvSof0 then [] else [b], none)
  else if rx.length = 1 then
    if b ≠ tlvSof1 then (if b = tlvSof0 then [b] else [], none) else (rx ++ [b], none)
  else if tlvFrameMax ≤ rx.length then ([], none)
  else
    let rx := rx ++ [b]
    if rx.length = 4 ∧ fc41dLenOk rx = false then ([], none) else tryParse rx

structure Fc41dRx where
  rxBuf : List UInt8
  dispatched : List TlvFrame
  deriving DecidableEq, Repr

def fc41dRxByte (σ : Fc41dRx) (b : UInt8) : Fc41dRx :=
  let r := processByte σ.rxBuf b
  ⟨r.1, σ.dispatched ++ r.2.toList⟩

/-- The receiver after a stream, which it reads byte by byte. -/
def fc41dRun (stream : List UInt8) : Fc41dRx := stream.foldl fc41dRxByte ⟨[], []⟩

/-! ## The MCU's receiver, without waiting -/

/-- A buffer may be the start of a frame. -/
def MayStart (buf : List UInt8) : Prop :=
  buf.getD 0 tlvSof0 = tlvSof0 ∧ buf.getD 1 tlvSof1 = tlvSof1 ∧
    (4 ≤ buf.length → fc41dLenOk buf = true)

instance (buf : List UInt8) : Decidable (MayStart buf) := inferInstanceAs (Decidable (_ ∧ _))

/-- The MCU's parser, but for dropping a byte as soon as it cannot start a frame. -/
def scanPeel (buf : List UInt8) : Peeled TlvFrame :=
  if MayStart buf then tlvPeel buf else .take 1 none

variable {buf more rx r : List UInt8} {b : UInt8} {next : Option UInt8} {x : TlvFrame} {n k : ℕ}

theorem fc41dLenOk_append (h : 4 ≤ buf.length) : fc41dLenOk (buf ++ more) = fc41dLenOk buf := by
  rw [fc41dLenOk, fc41dLenOk, tlvLenField_append h]

theorem getD_start (d : UInt8) (h : (buf ++ more).getD k d = d) : buf.getD k d = d := by
  rw [List.getD_eq_getElem?_getD] at h ⊢
  rcases Nat.lt_or_ge k buf.length with hk | hk
  · rw [List.getElem?_append_left hk] at h
    exact h
  · rw [List.getElem?_eq_none hk]
    rfl

/-- A buffer that cannot start a frame cannot with more bytes. -/
theorem MayStart.of_append (h : MayStart (buf ++ more)) : MayStart buf := by
  refine ⟨getD_start _ h.1, getD_start _ h.2.1, fun hlen => ?_⟩
  rw [← fc41dLenOk_append hlen]
  refine h.2.2 ?_
  rw [List.length_append]
  omega

theorem mayStart_nil : MayStart [] := ⟨rfl, rfl, nofun⟩

theorem scanPeel_start (h : MayStart buf) : scanPeel buf = tlvPeel buf := if_pos h

theorem scanPeel_drop (h : ¬ MayStart buf) : scanPeel buf = .take 1 none := if_neg h

theorem tlvPeel_short (h : buf.length < 8) : tlvPeel buf = .more := by
  have hparse : tlvParse buf = .needMore := if_pos h
  rw [tlvPeel, hparse]

theorem MayStart.append (h : MayStart buf) (hlen : 4 ≤ buf.length) : MayStart (buf ++ more) := by
  obtain ⟨h0, h1, hfield⟩ := h
  refine ⟨?_, ?_, fun _ => ?_⟩
  · rw [List.getD_eq_getElem?_getD, List.getElem?_append_left (by omega),
      ← List.getD_eq_getElem?_getD, h0]
  · rw [List.getD_eq_getElem?_getD, List.getElem?_append_left (by omega),
      ← List.getD_eq_getElem?_getD, h1]
  · rw [fc41dLenOk_append hlen]
    exact hfield hlen

theorem scanPeel_append (h : scanPeel buf ≠ .more) : scanPeel (buf ++ more) = scanPeel buf := by
  by_cases hstart : MayStart buf
  · rw [scanPeel_start hstart] at h ⊢
    have hlen : 8 ≤ buf.length := Nat.not_lt.mp fun hlt => h (tlvPeel_short hlt)
    rw [scanPeel_start (hstart.append (by omega)), tlvPeel_append h]
  · rw [scanPeel_drop hstart, scanPeel_drop fun h => hstart h.of_append]

theorem ne_nil_of_not_mayStart (h : ¬ MayStart buf) : buf ≠ [] := by
  rintro rfl
  exact h mayStart_nil

def scanFraming : Framing UInt8 TlvFrame where
  peel := scanPeel
  take_bounds := by
    intro l n out h
    by_cases hstart : MayStart l
    · rw [scanPeel_start hstart] at h
      exact tlvFraming.take_bounds h
    · rw [scanPeel_drop hstart] at h
      cases h
      exact ⟨Nat.one_pos, List.length_pos_iff.mpr (ne_nil_of_not_mayStart hstart)⟩
  take_append := by
    intro l n out l' h
    rw [scanPeel_append, h]
    rw [h]
    exact nofun
  fail_append := by
    intro l l' h
    rw [scanPeel_append, h]
    rw [h]
    exact nofun

theorem getD_long (h : k < buf.length) (d : UInt8) : buf.getD k 0 = buf.getD k d := by
  rw [List.getD_eq_getElem?_getD, List.getD_eq_getElem?_getD, List.getElem?_eq_getElem h]
  rfl

theorem fc41dLenOk_iff : fc41dLenOk buf = true ↔
    ¬ (tlvLenField buf < 2 ∨ 2 + tlvPayloadMax < tlvLenField buf) := by
  rw [fc41dLenOk, Bool.and_eq_true, decide_eq_true_iff, decide_eq_true_iff]
  omega

/-- With enough bytes to look at, the MCU's parser takes what cannot start a frame for an
error. -/
theorem tlvParse_not_mayStart (h : 8 ≤ buf.length) (hstart : ¬ MayStart buf) :
    tlvParse buf = .error := by
  rw [tlvParse, if_neg (show ¬ buf.length < tlvHdrLen + tlvCrcLen from Nat.not_lt.mpr h),
    getD_long (by omega) tlvSof0, getD_long (by omega) tlvSof1]
  split
  · rfl
  next hsof =>
  rw [not_or, not_not, not_not] at hsof
  refine if_pos (by_contra fun hfield => hstart ⟨hsof.1, hsof.2, fun _ => ?_⟩)
  exact fc41dLenOk_iff.mpr hfield

theorem scanPeel_long (h : 8 ≤ buf.length) : scanPeel buf = tlvPeel buf := by
  by_cases hstart : MayStart buf
  · exact scanPeel_start hstart
  · rw [scanPeel_drop hstart, tlvPeel, tlvParse_not_mayStart h hstart]

/-- A buffer shorter than a frame gives none. -/
theorem drain_short (h : buf.length < 8) :
    (scanFraming.drain buf).out = [] ∧ (scanFraming.drain buf).failed = false := by
  induction buf with
  | nil =>
    rw [Framing.drain_more (scanPeel_start mayStart_nil)]
    exact ⟨rfl, rfl⟩
  | cons b buf ih =>
    by_cases hstart : MayStart (b :: buf)
    · have hmore : scanFraming.peel (b :: buf) = .more :=
        (scanPeel_start hstart).trans (tlvPeel_short h)
      rw [Framing.drain_more hmore]
      exact ⟨rfl, rfl⟩
    · have hdrop : scanFraming.peel (b :: buf) = .take 1 none := scanPeel_drop hstart
      rw [Framing.drain_take hdrop]
      exact ih (Nat.lt_of_succ_lt h)

/-- Not waiting changes the bytes left only: those that cannot start a frame are dropped. -/
theorem scan_drain (l : List UInt8) :
    scanFraming.drain l = ⟨(tlvFraming.drain l).out,
      (scanFraming.drain (tlvFraming.drain l).rest).rest, false⟩ := by
  induction l using Framing.drain_induction (F := tlvFraming) with
  | hmore l h =>
    rw [Framing.drain_more h]
    dsimp only
    by_cases hlen : 8 ≤ l.length
    · have hmore : scanFraming.peel l = .more := (scanPeel_long hlen).trans h
      rw [Framing.drain_more hmore]
    · obtain ⟨hout, hfailed⟩ := drain_short (Nat.not_le.mp hlen)
      rw [← hout, ← hfailed]
  | hfail l h =>
    have hfailed := tlvFraming_not_failed l
    rw [Framing.drain_fail h] at hfailed
    cases hfailed
  | htake l n out h ih =>
    have hlen : 8 ≤ l.length := by
      refine Nat.not_lt.mp fun hlt => ?_
      rw [show tlvFraming.peel l = .more from tlvPeel_short hlt] at h
      cases h
    have htake : scanFraming.peel l = .take n out := (scanPeel_long hlen).trans h
    rw [Framing.drain_take htake, Framing.drain_take h, ih]

/-! ## One byte -/

/-- The length of the frame that a buffer starts. -/
def tlvTotal (buf : List UInt8) : ℕ := tlvHdrLen + (tlvLenField buf - 2) + tlvCrcLen

def tlvCrcOk (buf : List UInt8) : Bool :=
  tlvCrcGot buf (tlvLenField buf - 2) == tlvCrcWant buf (tlvLenField buf - 2)

def tlvFrameOf (buf : List UInt8) : TlvFrame :=
  ⟨buf.getD 4 0, buf.getD 5 0, (buf.drop tlvHdrLen).take (tlvLenField buf - 2)⟩

theorem tlvParse_start (h : MayStart buf) (hlen : 8 ≤ buf.length) :
    tlvParse buf = if buf.length < tlvTotal buf then .needMore
      else if tlvCrcOk buf then .frame (tlvTotal buf) (tlvFrameOf buf) else .error := by
  obtain ⟨h0, h1, hfield⟩ := h
  rw [← getD_long (by omega) tlvSof0] at h0
  rw [← getD_long (by omega) tlvSof1] at h1
  rw [tlvParse, if_neg (show ¬ buf.length < tlvHdrLen + tlvCrcLen from Nat.not_lt.mpr hlen),
    if_neg (not_or.mpr ⟨not_not.mpr h0, not_not.mpr h1⟩),
    if_neg (fc41dLenOk_iff.mp (hfield (by omega))), tlvTotal, tlvCrcOk]
  dsimp only
  split
  · rfl
  · split
    · next hcrc => rw [if_neg fun hok => hcrc (beq_iff_eq.mp hok)]
    · next hcrc =>
      rw [if_pos (beq_iff_eq.mpr (not_not.mp hcrc))]
      rfl

theorem tlvPeel_start (h : MayStart buf) (hlen : 8 ≤ buf.length) :
    tlvPeel buf = if buf.length < tlvTotal buf then .more
      else if tlvCrcOk buf then .take (tlvTotal buf) (some (tlvFrameOf buf)) else .take 1 none := by
  rw [tlvPeel, tlvParse_start h hlen]
  by_cases hshort : buf.length < tlvTotal buf
  · rw [if_pos hshort, if_pos hshort]
  · rw [if_neg hshort, if_neg hshort]
    by_cases hcrc : tlvCrcOk buf = true
    · rw [if_pos hcrc, if_pos hcrc]
    · rw [if_neg hcrc, if_neg hcrc]

theorem tryParse_start (h : MayStart buf) (hlen : 8 ≤ buf.length) :
    tryParse buf = if buf.length < tlvTotal buf then (buf, none)
      else if tlvCrcOk buf then (buf.drop (tlvTotal buf), some (tlvFrameOf buf))
      else (buf.tail.dropWhile (fun b => b != tlvSof0), none) := by
  have hfield := fc41dLenOk_iff.mp (h.2.2 (by omega))
  rw [tryParse, if_neg (show ¬ buf.length < tlvHdrLen + tlvCrcLen from Nat.not_lt.mpr hlen), tlvTotal,
    tlvCrcOk, tlvCrcGot, tlvCrcWant, tlvFrameOf]
  generalize tlvLenField buf = len at hfield
  obtain ⟨plLen, rfl⟩ : ∃ k, len = k + 2 := ⟨len - 2, by omega⟩
  rw [Nat.add_sub_cancel]
  have htotal : 4 + (plLen + 2) + tlvCrcLen = tlvHdrLen + plLen + tlvCrcLen := by
    simp only [tlvHdrLen]
    omega
  have hcrc : 4 + (plLen + 2) = tlvHdrLen + plLen := by
    simp only [tlvHdrLen]
    omega
  have hwant : 2 + (plLen + 2) = 2 + 2 + plLen := by omega
  dsimp only
  rw [htotal, hcrc, hwant]
  split
  · rfl
  · split
    · next hne => rw [if_neg fun hok => hne (beq_iff_eq.mp hok)]
    · next hne =>
      rw [if_pos (beq_iff_eq.mpr (not_not.mp hne))]
      rfl

/-- What cannot start a frame is dropped. -/
theorem scan_drop (h : ¬ MayStart (b :: buf)) :
    scanFraming.drain (b :: buf) = scanFraming.drain buf := by
  rw [Framing.drain_take (show scanFraming.peel (b :: buf) = .take 1 none from scanPeel_drop h)]
  rfl

theorem scan_drop_first (h : b ≠ tlvSof0) :
    scanFraming.drain (b :: buf) = scanFraming.drain buf := scan_drop fun hstart => h hstart.1

theorem scan_drop_second {a : UInt8} (h : b ≠ tlvSof1) :
    scanFraming.drain (a :: b :: buf) = scanFraming.drain (b :: buf) :=
  scan_drop fun hstart => h hstart.2.1

theorem scan_dropWhile (l : List UInt8) :
    scanFraming.drain (l.dropWhile fun b => b != tlvSof0) = scanFraming.drain l := by
  induction l with
  | nil => rfl
  | cons b l ih =>
    rw [List.dropWhile_cons]
    split
    · next hb => rw [ih, scan_drop_first (bne_iff_ne.mp hb)]
    · rfl

theorem scan_more (h : scanPeel buf = .more) : scanFraming.drain buf = ⟨[], buf, false⟩ :=
  Framing.drain_more h

/-- A short start of a frame waits for more. -/
theorem scanPeel_short (h : MayStart buf) (hlen : buf.length < 8) : scanPeel buf = .more :=
  (scanPeel_start h).trans (tlvPeel_short hlen)

theorem mayStart_sof : MayStart [tlvSof0, tlvSof1] :=
  ⟨rfl, rfl, fun h => absurd h (by decide)⟩

theorem scan_one (b : UInt8) :
    scanFraming.drain [b] = ⟨[], if b ≠ tlvSof0 then [] else [b], false⟩ := by
  by_cases hb : b = tlvSof0
  · rw [if_neg (not_not.mpr hb), scan_more]
    exact scanPeel_short ⟨hb, rfl, nofun⟩ (show 1 < 8 by decide)
  · rw [if_pos hb, scan_drop_first hb, scan_more (scanPeel_short mayStart_nil (by decide))]

/-! ## In step -/

/-- Where the length of a frame is out of range, a frame starts in its two bytes. -/
def LosesStart (buf : List UInt8) (next : Option UInt8) : Prop :=
  buf.length = 4 ∧ fc41dLenOk buf = false ∧
    (buf.drop 2 = [tlvSof0, tlvSof1] ∨ buf.getD 3 0 = tlvSof0 ∧ next = some tlvSof1)

/-- Where the checksum of a frame is wrong, what follows from the next start byte on is not
the start of a frame that needs more bytes. -/
def KeepsUnchecked (buf : List UInt8) : Prop :=
  tlvPeel buf = .take 1 none ∧
    scanPeel (buf.tail.dropWhile fun b => b != tlvSof0) ≠ .more

/-- The byte that comes after some others makes a difference to the two receivers. -/
def Differs (before : List UInt8) (b : UInt8) (next : Option UInt8) : Prop :=
  LosesStart ((scanFraming.drain before).rest ++ [b]) next ∨
    KeepsUnchecked ((scanFraming.drain before).rest ++ [b])

instance (before : List UInt8) (b : UInt8) (next : Option UInt8) :
    Decidable (Differs before b next) :=
  inferInstanceAs (Decidable ((_ ∧ _ ∧ (_ ∨ _ ∧ _)) ∨ _ ∧ ¬ _))

def InStep (stream : List UInt8) : Prop :=
  ∀ before b after, stream = before ++ b :: after → ¬ Differs before b after.head?

/-- The FC41D's buffer is what the scan has left, but for a start byte that another one does
not follow. -/
def SameRest (rx r : List UInt8) (next : Option UInt8) : Prop :=
  rx = r ∨ rx = [] ∧ r = [tlvSof0] ∧ next ≠ some tlvSof1

theorem processByte_nil (b : UInt8) :
    processByte [] b = (if b ≠ tlvSof0 then [] else [b], none) := if_pos rfl

theorem processByte_one (a b : UInt8) :
    processByte [a] b = if b ≠ tlvSof1 then (if b = tlvSof0 then [b] else [], none)
      else ([a, b], none) := rfl

/-- A byte into an empty buffer. -/
theorem processByte_first (b : UInt8) :
    ((processByte [] b).2.toList, (processByte [] b).1) =
      ((scanFraming.drain [b]).out, (scanFraming.drain [b]).rest) := by
  rw [processByte_nil, scan_one]
  rfl

/-- A byte behind a lone start byte. -/
theorem processByte_second (b : UInt8) :
    ((processByte [tlvSof0] b).2.toList, (processByte [tlvSof0] b).1) =
      ((scanFraming.drain [tlvSof0, b]).out, (scanFraming.drain [tlvSof0, b]).rest) := by
  rw [processByte_one]
  by_cases hb : b = tlvSof1
  · subst hb
    rw [if_neg (not_not.mpr rfl), scan_more (scanPeel_short mayStart_sof (by decide))]
    rfl
  · rw [if_pos hb, scan_drop_second hb, scan_one]
    by_cases h0 : b = tlvSof0
    · rw [if_pos h0, if_neg (not_not.mpr h0)]
      rfl
    · rw [if_neg h0, if_pos h0]
      rfl

/-- What a byte does to the FC41D's buffer, when the two receivers stay in step. -/
def Steps (rx r : List UInt8) (b : UInt8) (next : Option UInt8) : Prop :=
  (processByte rx b).2.toList = (scanFraming.drain (r ++ [b])).out ∧
    SameRest (processByte rx b).1 (scanFraming.drain (r ++ [b])).rest next

theorem processByte_long (hlen : 2 ≤ r.length) (hmax : r.length < tlvFrameMax) :
    processByte r b = if (r ++ [b]).length = 4 ∧ fc41dLenOk (r ++ [b]) = false then ([], none)
      else tryParse (r ++ [b]) := by
  have hne : r ≠ [] := by
    rintro rfl
    exact absurd hlen (by decide)
  rw [processByte, if_neg hne, if_neg (by omega), if_neg (Nat.not_le.mpr hmax)]

/-- A length out of range: all four bytes are dropped, and a start byte that was the last
of them is lost. -/
theorem steps_badLength (hstart : MayStart r) (hmax : r.length < tlvFrameMax)
    (hbad : (r ++ [b]).length = 4 ∧ fc41dLenOk (r ++ [b]) = false)
    (hloses : ¬ LosesStart (r ++ [b]) next) : Steps r r b next := by
  have hlen : r.length = 3 := by
    have := hbad.1
    rw [List.length_append] at this
    exact Nat.succ.inj this
  obtain ⟨a0, a1, l0, rfl⟩ := List.length_eq_three.mp hlen
  have h0 : a0 = tlvSof0 := hstart.1
  have h1 : a1 = tlvSof1 := hstart.2.1
  subst h0 h1
  have hdrain : scanFraming.drain ([tlvSof0, tlvSof1, l0] ++ [b]) = scanFraming.drain [b] := by
    have hdrop : ¬ MayStart (tlvSof0 :: [tlvSof1, l0, b]) := by
      intro h
      have hok := h.2.2 (Nat.le_refl 4)
      rw [show tlvSof0 :: [tlvSof1, l0, b] = [tlvSof0, tlvSof1, l0] ++ [b] from rfl, hbad.2] at hok
      cases hok
    refine (scan_drop hdrop).trans ((scan_drop_first (by decide)).trans ?_)
    by_cases hl : l0 = tlvSof0
    · subst hl
      refine scan_drop_second fun hb => hloses ⟨rfl, hbad.2, .inl ?_⟩
      rw [hb]
      rfl
    · exact scan_drop_first hl
  have htwo : 2 ≤ [tlvSof0, tlvSof1, l0].length := by
    rw [hlen]
    decide
  rw [Steps, processByte_long htwo hmax, if_pos hbad, hdrain, scan_one]
  refine ⟨rfl, ?_⟩
  by_cases hb : b = tlvSof0
  · subst hb
    exact .inr ⟨rfl, rfl, fun hnext => hloses ⟨rfl, hbad.2, .inr ⟨rfl, hnext⟩⟩⟩
  · exact .inl (if_pos hb).symm

theorem mayStart_snoc (hstart : MayStart r) (hlen : 2 ≤ r.length)
    (hgood : ¬ ((r ++ [b]).length = 4 ∧ fc41dLenOk (r ++ [b]) = false)) : MayStart (r ++ [b]) := by
  obtain ⟨h0, h1, hfield⟩ := hstart
  refine ⟨?_, ?_, fun hlen4 => ?_⟩
  · rw [List.getD_eq_getElem?_getD, List.getElem?_append_left (by omega),
      ← List.getD_eq_getElem?_getD, h0]
  · rw [List.getD_eq_getElem?_getD, List.getElem?_append_left (by omega),
      ← List.getD_eq_getElem?_getD, h1]
  · rw [List.length_append] at hlen4 hgood
    rcases Nat.lt_or_ge r.length 4 with hlt | hge
    · have hlast : r.length + [b].length = 4 := Nat.le_antisymm hlt hlen4
      exact Bool.not_eq_false _ ▸ fun hno => hgood ⟨hlast, hno⟩
    · rw [fc41dLenOk_append hge]
      exact hfield hge

/-- The byte that completes a frame is its last one. -/
theorem drop_total (hstart : MayStart r) (hmore : tlvPeel r = .more) :
    (r ++ [b]).drop (tlvTotal (r ++ [b])) = [] := by
  refine List.drop_eq_nil_of_le ?_
  rw [List.length_append, List.length_singleton]
  rcases Nat.lt_or_ge r.length 8 with hlt | hge
  · simp only [tlvTotal, tlvHdrLen, tlvCrcLen]
    omega
  · rw [tlvPeel_start hstart hge] at hmore
    rw [tlvTotal, tlvLenField_append (by omega), ← tlvTotal]
    split at hmore
    · next hlt => exact hlt
    · split at hmore
      · cases hmore
      · cases hmore

/-- Any other byte behind the start of a frame. -/
theorem steps_start (hstart : MayStart r) (hmore : tlvPeel r = .more) (hlen : 2 ≤ r.length)
    (hmax : r.length < tlvFrameMax)
    (hgood : ¬ ((r ++ [b]).length = 4 ∧ fc41dLenOk (r ++ [b]) = false))
    (hkeeps : ¬ KeepsUnchecked (r ++ [b])) : Steps r r b next := by
  have hnext := mayStart_snoc hstart hlen hgood
  have hdrop := drop_total (b := b) hstart hmore
  rw [Steps, processByte_long hlen hmax, if_neg hgood]
  generalize r ++ [b] = buf at hnext hdrop hkeeps
  rcases Nat.lt_or_ge buf.length 8 with hshort | hlong
  · rw [tryParse, if_pos (show buf.length < tlvHdrLen + tlvCrcLen from hshort),
      scan_more (scanPeel_short hnext hshort)]
    exact ⟨rfl, .inl rfl⟩
  have hpeel : scanPeel buf = _ := (scanPeel_start hnext).trans (tlvPeel_start hnext hlong)
  rw [tryParse_start hnext hlong]
  by_cases htotal : buf.length < tlvTotal buf
  · rw [if_pos htotal] at hpeel ⊢
    rw [scan_more hpeel]
    exact ⟨rfl, .inl rfl⟩
  rw [if_neg htotal] at hpeel ⊢
  by_cases hcrc : tlvCrcOk buf = true
  · rw [if_pos hcrc] at hpeel ⊢
    rw [Framing.drain_take (show scanFraming.peel buf = _ from hpeel), hdrop,
      scan_more (scanPeel_short mayStart_nil (by decide))]
    exact ⟨rfl, .inl rfl⟩
  · rw [if_neg hcrc] at hpeel ⊢
    have hrest : scanPeel (buf.tail.dropWhile fun b => b != tlvSof0) = .more :=
      by_contra fun hne => hkeeps ⟨(scanPeel_start hnext).symm.trans hpeel, hne⟩
    have hdrain : scanFraming.drain buf =
        scanFraming.drain (buf.tail.dropWhile fun b => b != tlvSof0) := by
      rw [Framing.drain_take (show scanFraming.peel buf = _ from hpeel), List.drop_one,
        scan_dropWhile]
      rfl
    rw [hdrain, scan_more hrest]
    exact ⟨rfl, .inl rfl⟩

/-- As long as it makes no difference to them, a byte keeps the receivers in step. -/
theorem steps_of_sameRest (hr : scanPeel r = .more) (h : SameRest rx r (some b))
    (hloses : ¬ LosesStart (r ++ [b]) next) (hkeeps : ¬ KeepsUnchecked (r ++ [b])) :
    Steps rx r b next := by
  have hstart : MayStart r := by
    by_contra hno
    rw [scanPeel_drop hno] at hr
    cases hr
  have hmore : tlvPeel r = .more := (scanPeel_start hstart).symm.trans hr
  have hmax : r.length < tlvFrameMax := length_of_needMore (peel_tlvFraming.mp hmore)
  rcases h with rfl | ⟨rfl, rfl, hlost⟩
  · match rx, hstart, hmore, hmax with
    | [], _, _, _ =>
      have hfirst := Prod.mk.inj (processByte_first b)
      exact ⟨hfirst.1, .inl hfirst.2⟩
    | [a], hstart, _, _ =>
      have ha : a = tlvSof0 := hstart.1
      subst ha
      have hsecond := Prod.mk.inj (processByte_second b)
      exact ⟨hsecond.1, .inl hsecond.2⟩
    | a :: a' :: rest, hstart, hmore, hmax =>
      by_cases hbad : (a :: a' :: rest ++ [b]).length = 4 ∧
          fc41dLenOk (a :: a' :: rest ++ [b]) = false
      · exact steps_badLength hstart hmax hbad hloses
      · exact steps_start hstart hmore (Nat.le_add_left 2 _) hmax hbad hkeeps
  · -- the lost start byte is dropped by the scan as well
    have hb : b ≠ tlvSof1 := fun h => hlost (congrArg some h)
    have hfirst := Prod.mk.inj (processByte_first b)
    have hdrain : scanFraming.drain ([tlvSof0] ++ [b]) = scanFraming.drain [b] := scan_drop_second hb
    rw [Steps, hdrain]
    exact ⟨hfirst.1, .inl hfirst.2⟩

/-! ## Streams -/

theorem scan_not_failed (l : List UInt8) : (scanFraming.drain l).failed = false := by
  rw [scan_drain]

theorem scan_rest_more (l : List UInt8) : scanPeel (scanFraming.drain l).rest = .more := by
  have hrest := Framing.peel_rest (F := scanFraming) l
  rw [scan_not_failed l] at hrest
  exact hrest

/-- The receivers are in step after every part of a stream that keeps them so. -/
theorem inStep_run (before after : List UInt8) (h : InStep (before ++ after)) :
    (fc41dRun before).dispatched = (scanFraming.drain before).out ∧
      SameRest (fc41dRun before).rxBuf (scanFraming.drain before).rest after.head? := by
  induction before using List.reverseRecOn generalizing after with
  | nil =>
    rw [scan_more (scanPeel_short mayStart_nil (by decide))]
    exact ⟨rfl, .inl rfl⟩
  | append_singleton before b ih =>
    rw [List.append_assoc] at h
    obtain ⟨hout, hrest⟩ := ih ([b] ++ after) h
    have hdiffers : ¬ Differs before b after.head? := h before b after rfl
    rw [Differs, not_or] at hdiffers
    obtain ⟨hframe, hrest'⟩ :=
      steps_of_sameRest (scan_rest_more before) hrest hdiffers.1 hdiffers.2
    have hdrain := @Framing.drain_append _ _ scanFraming before [b] (scan_not_failed before)
    rw [fc41dRun, List.foldl_append, List.foldl_cons, List.foldl_nil, ← fc41dRun, fc41dRxByte,
      hdrain]
    refine ⟨?_, hrest'⟩
    dsimp only
    rw [hout, hframe]

/-- On a stream that makes no difference to them, the FC41D dispatches the frames that the
MCU's receiver dispatches, however the stream is split into reads. -/
theorem fc41d_dispatches_same (arrivals : List (List UInt8)) (h : InStep arrivals.flatten) :
    (fc41dRun arrivals.flatten).dispatched = (commsSettled arrivals).dispatched := by
  rw [commsSettled_eq]
  rw [← List.append_nil arrivals.flatten] at h
  rw [(inStep_run arrivals.flatten [] h).1, scan_drain]

theorem inStep_of_index {stream : List UInt8}
    (h : ∀ k < stream.length, ¬ Differs (stream.take k) (stream.getD k 0) stream[k + 1]?) :
    InStep stream := by
  rintro before b after rfl
  have hk := h before.length (by rw [List.length_append, List.length_cons]; omega)
  have hget : (before ++ b :: after).getD before.length 0 = b := by
    rw [List.getD_eq_getElem?_getD, List.getElem?_append_right (Nat.le_refl _), Nat.sub_self]
    rfl
  have hnext : (before ++ b :: after)[before.length + 1]? = after.head? := by
    rw [List.getElem?_append_right (Nat.le_add_right _ 1), Nat.add_sub_cancel_left,
      List.getElem?_cons_succ,
      List.head?_eq_getElem?]
  rw [List.take_left, hget, hnext] at hk
  exact hk

/-- A ping behind a byte of noise. -/
def noisyPing : List UInt8 := [0x00, 0xA5, 0x5A, 0x02, 0x00, 0x01, 0x07, 0x2A, 0x7E]

theorem fc41d_dispatches_same_ping :
    (fc41dRun [noisyPing].flatten).dispatched = (commsSettled [noisyPing]).dispatched := by
  refine fc41d_dispatches_same [noisyPing] (inStep_of_index ?_)
  decide +kernel

/-- A ping behind two start bytes that are not followed by a length. -/
def pingAfterStart : List UInt8 := [0xA5, 0x5A, 0xA5, 0x5A, 0x02, 0x00, 0x01, 0x07, 0x2A, 0x7E]

/-- The MCU dispatches it, and the FC41D does not. -/
theorem fc41d_misses_frame :
    (commsSettled [pingAfterStart]).dispatched = [⟨0x01, 0x07, []⟩] ∧
      (fc41dRun pingAfterStart).dispatched = [] := by
  constructor
  · decide +kernel
  · decide +kernel

end OpenEVCharger
