import Mathlib.Data.Int.Notation
import Mathlib.Data.List.DropRight
import Mathlib.Data.Nat.Notation
import Mathlib.Tactic.NormNum

/-!
# The card reader of the companion

The frames `[LEN][CMD][PAYLOAD][XOR]` of the reader, the hexadecimal text of a UID, and the
debounce in front of the callback. The reader remembers one card only, the one it has seen last.
-/

namespace OpenEVCharger

def rxBufCap : ℕ := 128
def uidMax : ℕ := 10
def uidHexMax : ℕ := uidMax * 2 + 1
def debounceMs : ℤ := 2000

/-! ## Frames -/

/-- What `rfid_parse_frame` makes of the head of the buffer: 0, -1, or the bytes consumed with
the UID, which is empty where the frame carries none. -/
inductive CardParse
  | more
  | bad
  | frame (n : ℕ) (uid : List UInt8)
  deriving DecidableEq, Repr

/-- The length of the UID in a reply to Request_CardSN. -/
def replyUidLen (total : ℕ) : ℕ :=
  match total with
  | 0x09 => 4
  | 0x0C => 7
  | 0x0F => 10
  | _ => 0

/-- `rfid_parse_frame`. -/
def rfidParseFrame (buf : List UInt8) : CardParse :=
  match buf with
  | [] => .more
  | len :: _ =>
    let total := len.toNat
    if total < 2 then .bad
    else if rxBufCap < total + 1 then .bad
    else if buf.length < total + 1 then .more
    else if (buf.take total).foldl (· ^^^ ·) 0 ≠ buf.getD total 0 then .bad
    else
      let uidN := if buf.getD 1 0 = 0x20 then replyUidLen total else 0
      .frame (total + 1) ((buf.drop 2).take uidN)

/-! ## The text of a UID -/

def hexDigit (v : ℕ) : Char := "0123456789ABCDEF".toList.getD v '0'

def byteHex (b : UInt8) : List Char := [hexDigit (b.toNat / 16 % 16), hexDigit (b.toNat % 16)]

/-- `rfid_uid_to_hex`, `none` where it returns -1. -/
def rfidUidToHex (uid : List UInt8) (cap : ℕ) : Option (List Char) :=
  if cap < uid.length * 2 + 1 then none else some (uid.flatMap byteHex)

/-! ## Debounce -/

/-- `struct rfid_reader`: the bytes received and what the debounce remembers. -/
structure RfidReader where
  rx : List UInt8
  lastUid : List Char
  lastSeenMs : ℤ
  deriving DecidableEq, Repr

def rfidReaderStart : RfidReader := ⟨[], [], 0⟩

/-- `handle_uid`: what the callback is called with, and the reader afterwards. -/
def handleUid (r : RfidReader) (uid : List UInt8) (nowMs : ℤ) : Option (List Char) × RfidReader :=
  match rfidUidToHex uid uidHexMax with
  | none => (none, r)
  | some hex =>
    let fire := r.lastUid = [] || hex ≠ r.lastUid || debounceMs ≤ nowMs - r.lastSeenMs
    let r := { r with lastSeenMs := nowMs }
    if fire then (some hex, { r with lastUid := hex }) else (none, r)

/-- `drain_frames`, with the callbacks in their order. Every round that goes on takes a byte, so
that the length of the buffer is enough fuel. -/
def drainFrames : ℕ → RfidReader → ℤ → List (List Char) × RfidReader
  | 0, r, _ => ([], r)
  | fuel + 1, r, nowMs =>
    match rfidParseFrame r.rx with
    | .more => ([], r)
    | .bad => drainFrames fuel { r with rx := r.rx.drop 1 } nowMs
    | .frame n uid =>
      let (fired, r) := if uid = [] then (none, r) else handleUid r uid nowMs
      let (later, r) := drainFrames fuel { r with rx := r.rx.drop n } nowMs
      (fired.toList ++ later, r)

/-! ## Sightings -/

/-- A card that the reader has seen. -/
structure CardSighting where
  uid : List UInt8
  atMs : ℤ
  some_uid : uid ≠ []
  uid_le : uid.length ≤ uidMax

variable {r : RfidReader} {uid uid' : List UInt8} {before seen : List CardSighting}
  {s : CardSighting} {nowMs : ℤ}

/-- The reader after some sightings, and the callbacks on the way. -/
def seeCards (r : RfidReader) : List CardSighting → List (List Char) × RfidReader
  | [] => ([], r)
  | s :: seen =>
    let (fired, r) := handleUid r s.uid s.atMs
    let (later, r) := seeCards r seen
    (fired.toList ++ later, r)

/-- The callback is called for a sighting that comes after some others. -/
def fires (before : List CardSighting) (s : CardSighting) : Bool :=
  (handleUid (seeCards rfidReaderStart before).2 s.uid s.atMs).1.isSome

/-- The sightings of a card since the last one of another card. -/
def sinceOther (uid : List UInt8) (before : List CardSighting) : List CardSighting :=
  before.rtakeWhile fun s => s.uid = uid

/-! ### The text tells the cards apart -/

theorem hexDigit_injective : ∀ v < 16, ∀ w < 16, hexDigit v = hexDigit w → v = w := by decide

theorem byteHex_injective {a b : UInt8} (h : byteHex a = byteHex b) : a = b := by
  simp only [byteHex, List.cons.injEq, and_true] at h
  have ha := a.toNat_lt
  have hb := b.toNat_lt
  have hhigh := hexDigit_injective _ (Nat.mod_lt _ (by decide)) _ (Nat.mod_lt _ (by decide)) h.1
  have hlow := hexDigit_injective _ (Nat.mod_lt _ (by decide)) _ (Nat.mod_lt _ (by decide)) h.2
  apply UInt8.toNat_inj.mp
  omega

theorem flatMap_byteHex_injective (h : uid.flatMap byteHex = uid'.flatMap byteHex) :
    uid = uid' := by
  induction uid generalizing uid' with
  | nil =>
    cases uid' with
    | nil => rfl
    | cons b bs => simp [byteHex] at h
  | cons a as ih =>
    cases uid' with
    | nil => simp [byteHex] at h
    | cons b bs =>
      rw [List.flatMap_cons, List.flatMap_cons] at h
      obtain ⟨hhead, htail⟩ := List.append_inj h rfl
      rw [byteHex_injective hhead, ih htail]

theorem flatMap_byteHex_ne_nil (h : uid ≠ []) : uid.flatMap byteHex ≠ [] := by
  intro hnil
  have hsame : uid.flatMap byteHex = ([] : List UInt8).flatMap byteHex := hnil
  exact h (flatMap_byteHex_injective hsame)

theorem CardSighting.hex (s : CardSighting) :
    rfidUidToHex s.uid uidHexMax = some (s.uid.flatMap byteHex) := by
  have := s.uid_le
  rw [rfidUidToHex, if_neg]
  simp only [uidHexMax]
  omega

/-! ### What a sighting leaves -/

/-- Fired or not, the reader remembers the card it has just seen. -/
theorem handleUid_seen (r : RfidReader) (s : CardSighting) :
    (handleUid r s.uid s.atMs).2 = ⟨r.rx, s.uid.flatMap byteHex, s.atMs⟩ := by
  rw [handleUid, s.hex]
  dsimp only
  split
  · rfl
  · next hsame =>
    simp only [Bool.or_eq_true, decide_eq_true_eq, not_or, ne_eq, not_not] at hsame
    rw [hsame.1.2]

theorem handleUid_fires (r : RfidReader) (s : CardSighting) :
    (handleUid r s.uid s.atMs).1.isSome = true ↔
      r.lastUid = [] ∨ s.uid.flatMap byteHex ≠ r.lastUid ∨ debounceMs ≤ s.atMs - r.lastSeenMs := by
  rw [handleUid, s.hex]
  dsimp only
  rw [← or_assoc]
  split
  · next hfire => simpa using hfire
  · next hquiet => simpa using hquiet

theorem seeCards_concat (r : RfidReader) (before : List CardSighting) (s : CardSighting) :
    (seeCards r (before ++ [s])).2 = (handleUid (seeCards r before).2 s.uid s.atMs).2 := by
  induction before generalizing r with
  | nil => rfl
  | cons s' before ih => exact ih _

/-! ## The law of the debounce -/

/-- A sighting fires unless the card has been sighted in the last two seconds with no other card
sighted since. -/
theorem debounce_iff (hsorted : (before ++ [s]).Pairwise fun a b => a.atMs ≤ b.atMs) :
    fires before s = true ↔ ∀ s' ∈ sinceOther s.uid before, debounceMs ≤ s.atMs - s'.atMs := by
  rw [fires, handleUid_fires]
  rcases List.eq_nil_or_concat' before with rfl | ⟨before, last, rfl⟩
  · simp [seeCards, rfidReaderStart, sinceOther]
  · rw [seeCards_concat, handleUid_seen, sinceOther]
    have hnil : last.uid.flatMap byteHex ≠ [] := flatMap_byteHex_ne_nil last.some_uid
    by_cases hother : last.uid = s.uid
    · rw [List.rtakeWhile_concat_pos _ _ _ (by simpa using hother), hother]
      rw [hother] at hnil
      simp only [hnil, false_or, ne_eq, not_true_eq_false, List.mem_append, List.mem_singleton]
      constructor
      · rintro hlast s' (hs' | rfl)
        · -- an earlier sighting is further away
          have hmem := (List.rtakeWhile_suffix _ _).subset hs'
          have hle := (List.pairwise_append.mp (List.pairwise_append.mp hsorted).1).2.2 s' hmem last
            (List.mem_singleton_self _)
          omega
        · exact hlast
      · intro hall
        exact hall last (.inr rfl)
    · have hhex : s.uid.flatMap byteHex ≠ last.uid.flatMap byteHex :=
        fun h => hother (flatMap_byteHex_injective h).symm
      rw [List.rtakeWhile_concat_neg _ _ _ (by simpa using hother)]
      simp [hhex]

def sightingA (atMs : ℤ) : CardSighting := ⟨[0x04, 0xA1, 0xB2, 0xC3], atMs, by decide, by decide⟩

def sightingB (atMs : ℤ) : CardSighting := ⟨[0x04, 0xDE, 0xAD, 0xBE], atMs, by decide, by decide⟩

/-- A card held to the reader with another one in between. -/
theorem debounce_iff_interleaved :
    fires [sightingA 1000, sightingB 1100, sightingB 1300] (sightingB 1500) = true ↔
      ∀ s' ∈ sinceOther (sightingB 1500).uid [sightingA 1000, sightingB 1100, sightingB 1300],
        debounceMs ≤ 1500 - s'.atMs :=
  debounce_iff (s := sightingB 1500) (by decide)

/-- A second card in between makes the first one fire again, half a second after it did. -/
theorem other_card_refires :
    ¬ ∀ (before : List CardSighting) (s : CardSighting),
      (before ++ [s]).Pairwise (fun a b => a.atMs < b.atMs) →
        (fires before s = true ↔ ¬ ∃ s' ∈ before, s'.uid = s.uid ∧ s.atMs - s'.atMs < debounceMs) := by
  intro hall
  have hfires := (hall [sightingA 1000, sightingB 1200] (sightingA 1500) (by decide)).mp (by decide)
  exact hfires ⟨sightingA 1000, by simp, rfl, by decide⟩

/-! ## Draining the buffer -/

theorem replyUidLen_le (total : ℕ) : replyUidLen total ≤ uidMax := by
  unfold replyUidLen
  split <;> decide

theorem rfidParseFrame_uid {buf : List UInt8} {n : ℕ} (h : rfidParseFrame buf = .frame n uid) :
    uid.length ≤ uidMax := by
  rw [rfidParseFrame.eq_def] at h
  cases buf with
  | nil => nomatch h
  | cons len rest =>
    dsimp only at h
    split at h
    · nomatch h
    split at h
    · nomatch h
    split at h
    · nomatch h
    split at h
    · nomatch h
    cases h
    rw [List.length_take]
    refine le_trans (Nat.min_le_left _ _) ?_
    split
    · exact replyUidLen_le _
    · exact Nat.zero_le _

/-- The bytes received play no part in the debounce. -/
theorem handleUid_rx (r : RfidReader) (rx uid : List UInt8) (nowMs : ℤ) :
    handleUid { r with rx := rx } uid nowMs =
      ((handleUid r uid nowMs).1, { (handleUid r uid nowMs).2 with rx := rx }) := by
  rw [handleUid, handleUid]
  split
  · rfl
  · dsimp only
    split <;> rfl

theorem seeCards_rx (r : RfidReader) (rx : List UInt8) (seen : List CardSighting) :
    seeCards { r with rx := rx } seen =
      ((seeCards r seen).1, { (seeCards r seen).2 with rx := rx }) := by
  induction seen generalizing r with
  | nil => rfl
  | cons s seen ih =>
    rw [seeCards, handleUid_rx, seeCards]
    dsimp only
    rw [ih]

/-- The callbacks and the debounce are what the cards in the buffer make of them. -/
theorem drainFrames_sees (fuel : ℕ) (r : RfidReader) (nowMs : ℤ) :
    ∃ seen : List CardSighting, (∀ s ∈ seen, s.atMs = nowMs) ∧
      drainFrames fuel r nowMs =
        ((seeCards r seen).1, { (seeCards r seen).2 with rx := (drainFrames fuel r nowMs).2.rx }) := by
  induction fuel generalizing r with
  | zero => exact ⟨[], by simp, rfl⟩
  | succ fuel ih =>
    rw [drainFrames]
    cases hparse : rfidParseFrame r.rx with
    | more => exact ⟨[], by simp, rfl⟩
    | bad =>
      obtain ⟨seen, hnow, hdrain⟩ := ih { r with rx := r.rx.drop 1 }
      refine ⟨seen, hnow, ?_⟩
      rw [seeCards_rx] at hdrain
      exact hdrain
    | frame n uid =>
      dsimp only
      by_cases huid : uid = []
      · obtain ⟨seen, hnow, hdrain⟩ := ih { r with rx := r.rx.drop n }
        refine ⟨seen, hnow, ?_⟩
        rw [if_pos huid]
        rw [seeCards_rx] at hdrain
        exact hdrain
      · obtain ⟨seen, hnow, hdrain⟩ :=
          ih { (handleUid r uid nowMs).2 with rx := (handleUid r uid nowMs).2.rx.drop n }
        refine ⟨⟨uid, nowMs, huid, rfidParseFrame_uid hparse⟩ :: seen, ?_, ?_⟩
        · intro s hs
          rcases List.mem_cons.mp hs with rfl | hs
          · rfl
          · exact hnow s hs
        · rw [if_neg huid, seeCards]
          dsimp only
          rw [seeCards_rx] at hdrain
          rw [hdrain]

end OpenEVCharger
