import Mathlib.Algebra.Group.Nat.Defs
import OpenEVCharger.Persist.Crc
import OpenEVCharger.Persist.W25q

/-!
# Ping-pong records

`persist/pingpong.c`: a record of 12 to 256 bytes in one of two sectors, with a
counter at byte 4 and the CRC of the rest in its last four bytes. A store writes
the slot that is not current, reads it back and then erases the other one; a load
takes the valid slot with the higher counter.
-/

namespace OpenEVCharger

open NorFlash (Mem Agree)

/-! ## Little-endian words -/

def le32Load (p : List UInt8) (off : ℕ) : UInt32 :=
  UInt32.ofNat ((p.getD off 0).toNat + (p.getD (off + 1) 0).toNat * 2 ^ 8 +
    (p.getD (off + 2) 0).toNat * 2 ^ 16 + (p.getD (off + 3) 0).toNat * 2 ^ 24)

def le32Bytes (v : UInt32) : List UInt8 :=
  [v.toUInt8, (v >>> 8).toUInt8, (v >>> 16).toUInt8, (v >>> 24).toUInt8]

@[simp] theorem length_le32Bytes (v : UInt32) : (le32Bytes v).length = 4 := rfl

/-- A stored word is loaded back. -/
theorem le32Load_append (p q : List UInt8) (v : UInt32) :
    le32Load (p ++ le32Bytes v ++ q) p.length = v := by
  have hget : ∀ k < 4, (p ++ le32Bytes v ++ q).getD (p.length + k) 0 = (le32Bytes v).getD k 0 := by
    intro k hk
    rw [List.append_assoc]
    simp only [List.getD, List.getElem?_append_right (Nat.le_add_right _ _),
      Nat.add_sub_cancel_left]
    rw [List.getElem?_append_left (by rw [length_le32Bytes]; exact hk)]
  have h0 := hget 0 (by decide)
  rw [Nat.add_zero] at h0
  unfold le32Load
  rw [h0, hget 1 (by decide), hget 2 (by decide), hget 3 (by decide), ← UInt32.toNat_inj]
  simp only [le32Bytes, List.getD_cons_zero, List.getD_cons_succ, UInt32.toNat_toUInt8,
    UInt32.toNat_shiftRight, UInt32.reduceToNat, Nat.reduceMod, Nat.shiftRight_eq_div_pow,
    UInt32.toNat_ofNat']
  have hv := v.toNat_lt
  omega

/-! ## One slot -/

inductive Slot where
  | A
  | B
  deriving DecidableEq, Repr

/-- What `read_and_validate` finds at a slot. -/
structure SlotRead where
  valid : Bool
  buf : List UInt8
  counter : UInt32
  deriving DecidableEq, Repr

def counterOff : ℕ := 4

/-- The last word of a record is the CRC of the rest. -/
def recordValid (buf : List UInt8) : Bool :=
  decide (le32Load buf (buf.length - 4) = crc32 (buf.take (buf.length - 4)))

def readAndValidate (addr size : ℕ) (m : Mem) : SlotRead :=
  let buf := NorFlash.read m addr size
  ⟨recordValid buf, buf, if recordValid buf then le32Load buf counterOff else 0⟩

theorem readAndValidate_congr {addr size : ℕ} {m m' : Mem} (h : Agree m m' addr size) :
    readAndValidate addr size m = readAndValidate addr size m' := by
  unfold readAndValidate
  rw [h.read]

/-- The current slot: the valid one with the higher counter, slot A on a tie. -/
def currentSlot (a b : SlotRead) : Option (Slot × UInt32) :=
  if a.valid && (!b.valid || decide (b.counter ≤ a.counter)) then some (.A, a.counter)
  else if b.valid then some (.B, b.counter)
  else none

/-! ## Load and store -/

def pingpongSizeOk (size : ℕ) : Bool := decide (12 ≤ size) && decide (size ≤ 256)

/-- The record of the current slot, or zeroes when no slot is valid. -/
def loadCurrent (size : ℕ) (a b : SlotRead) : Int × List UInt8 × Option (Slot × UInt32) :=
  match currentSlot a b with
  | some (.A, counter) => (0, a.buf, some (.A, counter))
  | some (.B, counter) => (0, b.buf, some (.B, counter))
  | none => (1, List.replicate size 0, none)

/-- The return code, the record and the slot it came from. -/
def pingpongLoad (addrA addrB size : ℕ) (m : Mem) :
    Int × List UInt8 × Option (Slot × UInt32) :=
  if !pingpongSizeOk size then (-1, [], none)
  else loadCurrent size (readAndValidate addrA size m) (readAndValidate addrB size m)

/-- The bytes from `off` on replaced by `bytes`. -/
def setBytes (off : ℕ) (bytes record : List UInt8) : List UInt8 :=
  record.take off ++ bytes ++ record.drop (off + bytes.length)

/-- The counter and the CRC written into a record. -/
def stampRecord (counter : UInt32) (record : List UInt8) : List UInt8 :=
  let r := setBytes counterOff (le32Bytes counter) record
  r.take (record.length - 4) ++ le32Bytes (crc32 (r.take (record.length - 4)))

def Slot.other : Slot → Slot
  | .A => .B
  | .B => .A

def slotAddr (addrA addrB : ℕ) : Slot → ℕ
  | .A => addrA
  | .B => addrB

/-- The slot a store writes: the one that is not current, and A first. -/
def targetSlot : Option (Slot × UInt32) → Slot
  | some (.A, _) => .B
  | _ => .A

def nextCounter : Option (Slot × UInt32) → UInt32
  | some (_, counter) => counter + 1
  | none => 1

/-- What a store returns: the return code, the caller's record, stamped unless the
size was refused, the slot and counter of a success, and the chip. -/
structure PingpongStored where
  rc : Int
  record : List UInt8
  slot : Option (Slot × UInt32)
  chip : W25q

/-- The end of a store, once the target slot is programmed: the verifying read and
the erase of the prior slot. -/
def pingpongFinish (addrA addrB : ℕ) (current : Option (Slot × UInt32)) (record : List UInt8)
    (d : W25q) : PingpongStored :=
  let target := targetSlot current
  if w25qRead (slotAddr addrA addrB target) record.length d ≠ record then ⟨-5, record, none, d⟩
  else
    let written := some (target, nextCounter current)
    if current.isSome then
      let e := w25qEraseSector (slotAddr addrA addrB target.other) d
      if e.1 ≠ 0 then ⟨-6, record, none, e.2⟩ else ⟨0, record, written, e.2⟩
    else ⟨0, record, written, d⟩

def pingpongStore (addrA addrB : ℕ) (record : List UInt8) (d : W25q) : PingpongStored :=
  if !pingpongSizeOk record.length then ⟨-1, record, none, d⟩
  else
    let current := currentSlot (readAndValidate addrA record.length d.mem)
      (readAndValidate addrB record.length d.mem)
    let record := stampRecord (nextCounter current) record
    let addr := slotAddr addrA addrB (targetSlot current)
    let e := w25qEraseSector addr d
    if e.1 ≠ 0 then ⟨-2, record, none, e.2⟩
    else
      let p := w25qProgram addr record e.2
      if p.1 ≠ 0 then ⟨-3, record, none, p.2⟩
      else pingpongFinish addrA addrB current record p.2

/-! ## Stamped records -/

/-- What stays of a record when it is stamped: its first word and its payload. -/
def recordBody (counter : UInt32) (record : List UInt8) : List UInt8 :=
  record.take counterOff ++ le32Bytes counter ++ (record.drop 8).take (record.length - 12)

theorem length_recordBody (counter : UInt32) {record : List UInt8} (h : 12 ≤ record.length) :
    (recordBody counter record).length = record.length - 4 := by
  simp only [recordBody, counterOff, List.length_append, List.length_take, List.length_drop,
    length_le32Bytes]
  omega

theorem stampRecord_eq {counter : UInt32} {record : List UInt8} (h : 12 ≤ record.length) :
    stampRecord counter record =
      recordBody counter record ++ le32Bytes (crc32 (recordBody counter record)) := by
  have hbody : (setBytes counterOff (le32Bytes counter) record).take (record.length - 4) =
      recordBody counter record := by
    have hhead : (record.take counterOff ++ le32Bytes counter).length = 8 := by
      simp only [List.length_append, List.length_take, length_le32Bytes, counterOff]
      omega
    rw [setBytes, recordBody, List.take_append, hhead, List.take_of_length_le (by omega)]
    rw [show record.length - 4 - 8 = record.length - 12 by omega]
    rfl
  simp only [stampRecord, hbody]

theorem length_stampRecord (counter : UInt32) {record : List UInt8} (h : 12 ≤ record.length) :
    (stampRecord counter record).length = record.length := by
  rw [stampRecord_eq h, List.length_append, length_recordBody counter h, length_le32Bytes]
  omega

/-- A stamped record passes the check of `read_and_validate`. -/
theorem recordValid_stampRecord {counter : UInt32} {record : List UInt8}
    (h : 12 ≤ record.length) : recordValid (stampRecord counter record) = true := by
  have hload := le32Load_append (recordBody counter record) []
    (crc32 (recordBody counter record))
  rw [List.append_nil, length_recordBody counter h] at hload
  unfold recordValid
  rw [length_stampRecord counter h, stampRecord_eq h, ← length_recordBody counter h,
    List.take_left, length_recordBody counter h]
  exact decide_eq_true hload

theorem counter_stampRecord {counter : UInt32} {record : List UInt8} (h : 12 ≤ record.length) :
    le32Load (stampRecord counter record) counterOff = counter := by
  have hlen : (record.take counterOff).length = counterOff := by
    rw [List.length_take]
    unfold counterOff
    omega
  have hload := le32Load_append (record.take counterOff)
    ((record.drop 8).take (record.length - 12) ++ le32Bytes (crc32 (recordBody counter record)))
    counter
  rw [hlen, ← List.append_assoc] at hload
  rw [stampRecord_eq h]
  exact hload

theorem getD_setBytes {off : ℕ} {bytes record : List UInt8}
    (h : off + bytes.length ≤ record.length) (k : ℕ) :
    (setBytes off bytes record).getD k 0 =
      if off ≤ k ∧ k < off + bytes.length then bytes.getD (k - off) 0 else record.getD k 0 := by
  have hoff : (record.take off).length = off := by
    rw [List.length_take]
    omega
  simp only [setBytes, List.getD, List.getElem?_append, List.length_append, hoff,
    List.getElem?_take, List.getElem?_drop]
  by_cases hlo : k < off
  · simp [hlo, Nat.not_le.mpr hlo, Nat.lt_add_right bytes.length hlo]
  · by_cases hhi : k < off + bytes.length
    · simp [hlo, hhi, Nat.not_lt.mp hlo]
    · have hk : off + bytes.length + (k - (off + bytes.length)) = k := by omega
      simp [hhi, hk]

theorem length_setBytes {off : ℕ} {bytes record : List UInt8}
    (h : off + bytes.length ≤ record.length) :
    (setBytes off bytes record).length = record.length := by
  simp only [setBytes, List.length_append, List.length_take, List.length_drop]
  omega

theorem le32Load_congr {p q : List UInt8} {off : ℕ}
    (h : ∀ k, off ≤ k → k < off + 4 → p.getD k 0 = q.getD k 0) :
    le32Load p off = le32Load q off := by
  unfold le32Load
  rw [h off (by omega) (by omega), h (off + 1) (by omega) (by omega),
    h (off + 2) (by omega) (by omega), h (off + 3) (by omega) (by omega)]

/-- A word set at an offset is the word there. -/
theorem le32Load_setBytes {off : ℕ} {v : UInt32} {record : List UInt8}
    (h : off + 4 ≤ record.length) : le32Load (setBytes off (le32Bytes v) record) off = v := by
  have hoff : (record.take off).length = off := by
    rw [List.length_take]
    omega
  have hload := le32Load_append (record.take off) (record.drop (off + 4)) v
  rw [hoff] at hload
  exact hload

/-- Stamping leaves the payload of a record alone. -/
theorem getD_stampRecord {counter : UInt32} {record : List UInt8} (h : 12 ≤ record.length) {k : ℕ}
    (hlo : k < 4 ∨ 8 ≤ k) (hhi : k < record.length - 4) :
    (stampRecord counter record).getD k 0 = record.getD k 0 := by
  have hset : counterOff + (le32Bytes counter).length ≤ record.length := by
    rw [length_le32Bytes]
    unfold counterOff
    omega
  have hget := getD_setBytes hset k
  rw [if_neg (by rw [length_le32Bytes]; unfold counterOff; omega)] at hget
  rw [← hget]
  have hlen : ((setBytes counterOff (le32Bytes counter) record).take (record.length - 4)).length =
      record.length - 4 := by
    rw [List.length_take, length_setBytes hset]
    omega
  simp only [stampRecord, List.getD]
  rw [List.getElem?_append_left (by omega), List.getElem?_take, if_pos hhi]

/-! ## Blank slots -/

/-- The state of the checksum after `n` erased bytes. -/
def blankCrc : ℕ → UInt32
  | 0 => crcSeed
  | n + 1 => crcByte (blankCrc n) NorFlash.blank

theorem foldl_blankCrc (n : ℕ) :
    (List.replicate n NorFlash.blank).foldl crcByte crcSeed = blankCrc n := by
  induction n with
  | zero => rfl
  | succ n ih =>
    rw [List.replicate_succ', List.foldl_append, ih, blankCrc]
    rfl

theorem crc32_blank : ∀ n < 253, 8 ≤ n → ~~~ blankCrc n ≠ 0xFFFFFFFF := by decide +kernel

theorem le32Load_blank {size off : ℕ} (h : off + 4 ≤ size) :
    le32Load (List.replicate size NorFlash.blank) off = 0xFFFFFFFF := by
  have hget : ∀ k < size, (List.replicate size NorFlash.blank).getD k 0 = NorFlash.blank := by
    intro k hk
    simp [List.getD, hk]
  rw [le32Load, hget _ (by omega), hget _ (by omega), hget _ (by omega), hget _ (by omega)]
  decide

/-- An erased slot holds no record, whatever its size. -/
theorem not_recordValid_erased {size : ℕ} (h : pingpongSizeOk size = true) :
    recordValid (List.replicate size NorFlash.blank) = false := by
  have hsize : 12 ≤ size ∧ size ≤ 256 := by simpa [pingpongSizeOk] using h
  rw [recordValid, List.length_replicate, le32Load_blank (by omega), List.take_replicate,
    Nat.min_eq_left (Nat.sub_le _ _), crc32, foldl_blankCrc]
  exact decide_eq_false fun heq => crc32_blank _ (by omega) (by omega) heq.symm

/-! ## A store and the load after it -/

/-- The slots are two sectors, each named by its first address. -/
structure SlotPair (addrA addrB : ℕ) : Prop where
  baseA : sectorBase addrA = addrA
  baseB : sectorBase addrB = addrB
  ne : addrA ≠ addrB

variable {addrA addrB : ℕ} {record : List UInt8} {d : W25q} {m : Mem}

theorem SlotPair.base (h : SlotPair addrA addrB) (slot : Slot) :
    sectorBase (slotAddr addrA addrB slot) = slotAddr addrA addrB slot := by
  cases slot
  · exact h.baseA
  · exact h.baseB

theorem sector_disjoint {x y : ℕ} (hx : sectorBase x = x) (hy : sectorBase y = y) (h : x ≠ y) :
    x + w25qSectorSize ≤ y ∨ y + w25qSectorSize ≤ x := by
  simp only [sectorBase, w25qSectorSize] at hx hy ⊢
  omega

theorem SlotPair.disjoint (h : SlotPair addrA addrB) (slot : Slot) :
    slotAddr addrA addrB slot + w25qSectorSize ≤ slotAddr addrA addrB slot.other ∨
      slotAddr addrA addrB slot.other + w25qSectorSize ≤ slotAddr addrA addrB slot := by
  have := sector_disjoint h.baseA h.baseB h.ne
  cases slot
  · exact this
  · exact this.symm

/-- A slot starts a page, so that a record stays in one page. -/
theorem SlotPair.page (h : SlotPair addrA addrB) (slot : Slot) (hsize : record.length ≤ 256) :
    slotAddr addrA addrB slot % w25qPageSize + record.length ≤ w25qPageSize := by
  have := h.base slot
  simp only [sectorBase, w25qSectorSize, w25qPageSize] at this ⊢
  omega

theorem pingpongLoad_eq {size : ℕ} (h : pingpongSizeOk size = true) :
    pingpongLoad addrA addrB size m =
      loadCurrent size (readAndValidate addrA size m) (readAndValidate addrB size m) := by
  unfold pingpongLoad
  rw [if_neg (by simp [h])]

/-- A load sees the two slots only. -/
theorem pingpongLoad_congr {m' : Mem} {size : ℕ} (slot : Slot)
    (hslot : NorFlash.read m' (slotAddr addrA addrB slot) size =
      NorFlash.read m (slotAddr addrA addrB slot) size)
    (hother : NorFlash.read m' (slotAddr addrA addrB slot.other) size =
      NorFlash.read m (slotAddr addrA addrB slot.other) size) :
    pingpongLoad addrA addrB size m' = pingpongLoad addrA addrB size m := by
  have hboth : NorFlash.read m' addrA size = NorFlash.read m addrA size ∧
      NorFlash.read m' addrB size = NorFlash.read m addrB size := by
    cases slot with
    | A => exact ⟨hslot, hother⟩
    | B => exact ⟨hother, hslot⟩
  rw [pingpongLoad, pingpongLoad, readAndValidate, readAndValidate, readAndValidate,
    readAndValidate, hboth.1, hboth.2]

/-- A valid slot beside an invalid one is loaded. -/
theorem pingpongLoad_of_slots {slot : Slot} {size : ℕ} (hsize : pingpongSizeOk size = true)
    {buf : List UInt8} {counter : UInt32}
    (hvalid : readAndValidate (slotAddr addrA addrB slot) size m = ⟨true, buf, counter⟩)
    (hother : (readAndValidate (slotAddr addrA addrB slot.other) size m).valid = false) :
    pingpongLoad addrA addrB size m = (0, buf, some (slot, counter)) := by
  rw [pingpongLoad_eq hsize]
  cases slot with
  | A =>
    have hA : readAndValidate addrA size m = ⟨true, buf, counter⟩ := hvalid
    have hB : (readAndValidate addrB size m).valid = false := hother
    have hcur : currentSlot (readAndValidate addrA size m) (readAndValidate addrB size m) =
        some (.A, counter) := by
      rw [hA, currentSlot, hB]
      rfl
    rw [loadCurrent, hcur, hA]
  | B =>
    have hA : (readAndValidate addrA size m).valid = false := hother
    have hB : readAndValidate addrB size m = ⟨true, buf, counter⟩ := hvalid
    have hcur : currentSlot (readAndValidate addrA size m) (readAndValidate addrB size m) =
        some (.B, counter) := by
      rw [hB, currentSlot, hA]
      rfl
    rw [loadCurrent, hcur, hB]

theorem currentSlot_eq_none {a b : SlotRead} (h : currentSlot a b = none) :
    a.valid = false ∧ b.valid = false := by
  unfold currentSlot at h
  cases ha : a.valid <;> cases hb : b.valid <;> simp [ha, hb] at h ⊢
  split at h <;> simp at h

/-- A load finds a record, or returns one and zeroes. -/
theorem loadCurrent_cases (size : ℕ) (a b : SlotRead) :
    (loadCurrent size a b).1 = 0 ∨
      (loadCurrent size a b).1 = 1 ∧ (loadCurrent size a b).2.1 = List.replicate size 0 := by
  rw [loadCurrent]
  split
  · exact .inl rfl
  · exact .inl rfl
  · exact .inr ⟨rfl, rfl⟩

theorem length_loadCurrent {size : ℕ} {a b : SlotRead} (ha : a.buf.length = size)
    (hb : b.buf.length = size) : (loadCurrent size a b).2.1.length = size := by
  unfold loadCurrent
  split
  · exact ha
  · exact hb
  · exact List.length_replicate

theorem length_pingpongLoad {size : ℕ} (h : pingpongSizeOk size = true) :
    (pingpongLoad addrA addrB size m).2.1.length = size := by
  rw [pingpongLoad_eq h]
  exact length_loadCurrent (NorFlash.length_read _ _ _) (NorFlash.length_read _ _ _)

/-- A store stamps the caller's record, or leaves it alone when the size is refused. -/
theorem pingpongStore_record (addrA addrB : ℕ) (record : List UInt8) (d : W25q) :
    (pingpongStore addrA addrB record d).record = record ∨
      12 ≤ record.length ∧
        ∃ counter, (pingpongStore addrA addrB record d).record = stampRecord counter record := by
  unfold pingpongStore
  dsimp only
  split
  · exact .inl rfl
  · next hsize =>
    have hlen : 12 ≤ record.length ∧ record.length ≤ 256 := by
      simpa [pingpongSizeOk] using hsize
    refine .inr ⟨hlen.1, ?_⟩
    unfold pingpongFinish
    dsimp only
    repeat' split
    all_goals exact ⟨_, rfl⟩

/-- A store succeeds or returns a negative code. -/
theorem pingpongStore_rc :
    (pingpongStore addrA addrB record d).rc = 0 ∨ (pingpongStore addrA addrB record d).rc < 0 := by
  unfold pingpongStore pingpongFinish
  dsimp only
  repeat' split
  all_goals simp

theorem length_pingpongStore_record :
    (pingpongStore addrA addrB record d).record.length = record.length := by
  rcases pingpongStore_record addrA addrB record d with hrec | ⟨hsize, counter, hrec⟩
  · rw [hrec]
  · rw [hrec, length_stampRecord counter hsize]

/-- A range outside both slots. -/
def OutsideSlots (addrA addrB a n : ℕ) : Prop :=
  ∀ slot, a + n ≤ slotAddr addrA addrB slot ∨ slotAddr addrA addrB slot + w25qSectorSize ≤ a

theorem eraseSlot_agree (h : SlotPair addrA addrB) {slot : Slot} {a n : ℕ}
    (hout : a + n ≤ slotAddr addrA addrB slot ∨ slotAddr addrA addrB slot + w25qSectorSize ≤ a) :
    Agree (w25qEraseSector (slotAddr addrA addrB slot) d).2.mem d.mem a n := by
  refine w25qEraseSector_agree ?_
  rw [h.base slot]
  exact hout

theorem pingpongFinish_agree (h : SlotPair addrA addrB) {current : Option (Slot × UInt32)}
    {a n : ℕ} (hout : OutsideSlots addrA addrB a n) :
    Agree (pingpongFinish addrA addrB current record d).chip.mem d.mem a n := by
  unfold pingpongFinish
  dsimp only
  repeat' split
  · exact Agree.refl _ _ _
  · exact eraseSlot_agree h (hout _)
  · exact eraseSlot_agree h (hout _)
  · exact Agree.refl _ _ _

/-- A store writes nothing outside the two slots, however it ends. -/
theorem pingpongStore_agree (h : SlotPair addrA addrB) {a n : ℕ}
    (hout : OutsideSlots addrA addrB a n) :
    Agree (pingpongStore addrA addrB record d).chip.mem d.mem a n := by
  unfold pingpongStore
  dsimp only
  split
  · exact Agree.refl _ _ _
  · next hsize =>
    generalize currentSlot _ _ = current
    have hsize' : 12 ≤ record.length ∧ record.length ≤ 256 := by
      simpa [pingpongSizeOk] using hsize
    have hlen := length_stampRecord (nextCounter current) hsize'.1
    have herase : Agree (w25qEraseSector (slotAddr addrA addrB (targetSlot current)) d).2.mem
        d.mem a n := eraseSlot_agree h (hout _)
    split
    · exact herase
    · have hprog : Agree (w25qProgram (slotAddr addrA addrB (targetSlot current))
          (stampRecord (nextCounter current) record)
          (w25qEraseSector (slotAddr addrA addrB (targetSlot current)) d).2).2.mem
          (w25qEraseSector (slotAddr addrA addrB (targetSlot current)) d).2.mem a n := by
        refine w25qProgram_agree (h.page _ (by omega)) ?_
        rcases hout (targetSlot current) with ho | ho
        · exact .inl ho
        · right
          rw [w25qSectorSize] at ho
          omega
      split
      · exact hprog.trans herase
      · exact (pingpongFinish_agree h hout).trans (hprog.trans herase)

/-- After a finish that succeeds the target slot is current. -/
theorem pingpongFinish_load (h : SlotPair addrA addrB) {current : Option (Slot × UInt32)}
    (hsize : pingpongSizeOk record.length = true) (hvalid : recordValid record = true)
    (hcounter : le32Load record counterOff = nextCounter current)
    (hblank : recordValid (List.replicate record.length NorFlash.blank) = false)
    (hother : current = none →
      (readAndValidate (slotAddr addrA addrB (targetSlot current).other) record.length d.mem).valid
        = false)
    (hrc : (pingpongFinish addrA addrB current record d).rc = 0) :
    (pingpongFinish addrA addrB current record d).record = record ∧
      pingpongLoad addrA addrB record.length (pingpongFinish addrA addrB current record d).chip.mem
        = (0, record, some (targetSlot current, nextCounter current)) := by
  have hlen : record.length ≤ w25qSectorSize := by
    have : 12 ≤ record.length ∧ record.length ≤ 256 := by simpa [pingpongSizeOk] using hsize
    rw [w25qSectorSize]
    omega
  unfold pingpongFinish at hrc ⊢
  dsimp only at hrc ⊢
  split at hrc
  · simp at hrc
  next hread =>
  rw [if_neg hread]
  have hverify : NorFlash.read d.mem (slotAddr addrA addrB (targetSlot current)) record.length =
      record := not_not.mp hread
  have htarget : ∀ m', Agree m' d.mem (slotAddr addrA addrB (targetSlot current)) record.length →
      readAndValidate (slotAddr addrA addrB (targetSlot current)) record.length m' =
        ⟨true, record, nextCounter current⟩ := by
    intro m' hm
    rw [readAndValidate_congr hm]
    unfold readAndValidate
    rw [hverify]
    simp only [hvalid, hcounter, if_true]
  cases hcur : current with
  | none =>
    subst hcur
    refine ⟨rfl, pingpongLoad_of_slots hsize (htarget _ (Agree.refl _ _ _)) (hother rfl)⟩
  | some c =>
    rw [← hcur]
    have hsome : current.isSome = true := by rw [hcur]; rfl
    rw [if_pos hsome] at hrc ⊢
    split at hrc
    · simp at hrc
    next he =>
    rw [if_neg he]
    refine ⟨rfl, pingpongLoad_of_slots hsize (htarget _ ?_) ?_⟩
    · refine eraseSlot_agree h ?_
      rcases h.disjoint (targetSlot current) with hd | hd
      · exact .inl (by omega)
      · exact .inr hd
    · have hok := w25qEraseSector_ok (not_not.mp he)
      rw [h.base] at hok
      have hblank' := (hok.mono (Nat.le_refl _) (Nat.add_le_add_left hlen _)).read
      unfold readAndValidate
      rw [hblank']
      exact hblank

/-- After a store that succeeds, the load returns the record stored. -/
theorem pingpongStore_load (h : SlotPair addrA addrB)
    (hblank : recordValid (List.replicate record.length NorFlash.blank) = false)
    (hrc : (pingpongStore addrA addrB record d).rc = 0) :
    ∃ counter slot, (pingpongStore addrA addrB record d).record = stampRecord counter record ∧
      pingpongLoad addrA addrB record.length (pingpongStore addrA addrB record d).chip.mem =
        (0, stampRecord counter record, some (slot, counter)) := by
  unfold pingpongStore at hrc ⊢
  dsimp only at hrc ⊢
  split at hrc
  · simp at hrc
  next hsize =>
  rw [if_neg hsize]
  have hsize' : 12 ≤ record.length ∧ record.length ≤ 256 := by
    simpa [pingpongSizeOk] using hsize
  generalize hcur : currentSlot (readAndValidate addrA record.length d.mem)
    (readAndValidate addrB record.length d.mem) = current at hrc ⊢
  have hlen := length_stampRecord (nextCounter current) hsize'.1
  split at hrc
  · simp at hrc
  next herase =>
  rw [if_neg herase]
  split at hrc
  · simp at hrc
  next hprog =>
  rw [if_neg hprog]
  have hother : current = none →
      (readAndValidate (slotAddr addrA addrB (targetSlot current).other)
        (stampRecord (nextCounter current) record).length
        (w25qProgram (slotAddr addrA addrB (targetSlot current))
          (stampRecord (nextCounter current) record)
          (w25qEraseSector (slotAddr addrA addrB (targetSlot current)) d).2).2.mem).valid
        = false := by
    intro hnone
    have hb := (currentSlot_eq_none (hcur.trans hnone)).2
    have hd := h.disjoint (targetSlot current)
    rw [w25qSectorSize] at hd
    have hkept : Agree (w25qProgram (slotAddr addrA addrB (targetSlot current))
        (stampRecord (nextCounter current) record)
        (w25qEraseSector (slotAddr addrA addrB (targetSlot current)) d).2).2.mem d.mem
        (slotAddr addrA addrB (targetSlot current).other) record.length := by
      refine (w25qProgram_agree (h.page _ (by omega)) (by omega)).trans (eraseSlot_agree h ?_)
      rw [w25qSectorSize]
      omega
    rw [hlen, readAndValidate_congr hkept, hnone]
    exact hb
  obtain ⟨hrec, hload⟩ := pingpongFinish_load h (by rw [hlen]; simpa [pingpongSizeOk] using hsize)
    (recordValid_stampRecord hsize'.1) (counter_stampRecord hsize'.1) (by rw [hlen]; exact hblank)
    hother hrc
  rw [hlen] at hload
  exact ⟨nextCounter current, targetSlot current, hrec, hload⟩

end OpenEVCharger
