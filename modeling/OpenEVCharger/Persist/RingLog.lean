import OpenEVCharger.Persist.Packed

/-!
# Ring logs

`persist/event_log.c` and `persist/session_log.c`: 32-byte records appended to a ring
of sectors. The next slot is kept in RAM only; at boot it is found again behind the
record with the highest boot count and time. A sector is erased when the head comes
to its first slot.
-/

namespace OpenEVCharger

open NorFlash (Mem Agree Erased)

/-! ## Layout -/

abbrev logRecordSize : ℕ := 32
abbrev logRecordsPerSector : ℕ := 128

/-- The region of a log, and where its records hold the boot count: between the time
and the checksum. -/
structure RingLog where
  base : ℕ
  sectors : ℕ
  bootCountOff : ℕ
  aligned : sectorBase base = base
  nonempty : 0 < sectors
  bootCount_fits : 4 ≤ bootCountOff ∧ bootCountOff + 2 ≤ 30

def eventLog : RingLog := ⟨0x004000, 64, 4, rfl, by omega, by omega⟩
def sessionLog : RingLog := ⟨0x044000, 8, 18, rfl, by omega, by omega⟩

namespace RingLog

def totalRecords (L : RingLog) : ℕ := L.sectors * logRecordsPerSector
def regionSize (L : RingLog) : ℕ := L.sectors * w25qSectorSize
def slotToAddr (L : RingLog) (slot : ℕ) : ℕ := L.base + slot * logRecordSize

end RingLog

/-- `timestamp` of an event and `start_ts` of a session. -/
abbrev logTimeOff : ℕ := 0
abbrev logCrcOff : ℕ := 30

/-- `struct event_record` and `struct session_record`. -/
abbrev LogRecord := Packed logRecordSize

/-! ## One record -/

/-- 1 for a record with its checksum, 0 for a blank slot, -1 for a corrupt one. -/
def classifyRecord (b : List UInt8) : Int :=
  if b.all (fun x => decide (x = 0xFF)) then 0
  else if le16Load b logCrcOff = crc16Ccitt (b.take logCrcOff) then 1
  else -1

/-- What the scan compares records by. -/
structure LogKey where
  boot : UInt16
  time : UInt32
  deriving DecidableEq, Repr

namespace LogKey

/-- The order of the scan. -/
def le (a b : LogKey) : Prop := a.boot < b.boot ∨ a.boot = b.boot ∧ a.time ≤ b.time

def lt (a b : LogKey) : Prop := a.boot < b.boot ∨ a.boot = b.boot ∧ a.time < b.time

instance (a b : LogKey) : Decidable (a.le b) := inferInstanceAs (Decidable (_ ∨ _))

instance (a b : LogKey) : Decidable (a.lt b) := inferInstanceAs (Decidable (_ ∨ _))

end LogKey

def recordKey (L : RingLog) (b : List UInt8) : LogKey :=
  ⟨le16Load b L.bootCountOff, le32Load b logTimeOff⟩

/-! ## The scan -/

/-- The latest record so far, and its slot. -/
structure LatestRecord where
  key : LogKey
  slot : ℕ
  deriving DecidableEq, Repr

/-- The slot's record becomes the latest one when its key is not below. -/
def scanRecord (L : RingLog) (slot : ℕ) (b : List UInt8) (latest : Option LatestRecord) :
    Option LatestRecord :=
  if classifyRecord b ≠ 1 then latest
  else
    match latest with
    | none => some ⟨recordKey L b, slot⟩
    | some r => if r.key.le (recordKey L b) then some ⟨recordKey L b, slot⟩ else latest

/-- The scan of the first slots, sector by sector in the order of their slots. -/
def ringScan (L : RingLog) (m : Mem) : ℕ → Option LatestRecord
  | 0 => none
  | n + 1 => scanRecord L n (NorFlash.read m (L.slotToAddr n) logRecordSize) (ringScan L m n)

/-- The head that the scan of the whole ring finds. -/
def ringHead (L : RingLog) (m : Mem) : ℕ :=
  match ringScan L m L.totalRecords with
  | some r => (r.slot + 1) % L.totalRecords
  | none => 0

/-- The static variables of a log. -/
structure RingState where
  head : ℕ
  bootCount : UInt16
  initialized : Bool
  deriving DecidableEq, Repr

def ringPowerUp : RingState := ⟨0, 0, false⟩

def ringInit (L : RingLog) (m : Mem) (s : RingState) : RingState :=
  { s with head := ringHead L m, initialized := true }

def ringSetBootCount (bootCount : UInt16) (s : RingState) : RingState :=
  { s with bootCount := bootCount }

/-! ## The append -/

/-- What an append returns: the return code, the caller's record, the state and the chip. -/
structure RingAppended where
  rc : Int
  record : LogRecord
  state : RingState
  chip : W25q

/-- The boot count and the checksum written into a record. -/
def stampLogRecord (L : RingLog) (bootCount : UInt16) (r : LogRecord) : LogRecord :=
  let r := r.setHalf L.bootCountOff bootCount
  r.setHalf logCrcOff (crc16Ccitt (r.bytes.take logCrcOff))

/-- The erase before the first slot of a sector, unless that slot is blank. -/
def ringErase (L : RingLog) (slot : ℕ) (d : W25q) : Int × W25q :=
  let addr := L.slotToAddr slot
  if slot % logRecordsPerSector = 0 ∧
      ¬ (w25qRead addr logRecordSize d).all (fun x => decide (x = 0xFF)) then
    w25qEraseSector addr d
  else (0, d)

def ringAppend (L : RingLog) (r : LogRecord) (s : RingState) (d : W25q) : RingAppended :=
  if ¬ s.initialized then ⟨-1, r, s, d⟩
  else
    let r := stampLogRecord L s.bootCount r
    let e := ringErase L s.head d
    if e.1 ≠ 0 then ⟨-2, r, s, e.2⟩
    else
      let p := w25qProgram (L.slotToAddr s.head) r.bytes e.2
      if p.1 ≠ 0 then ⟨-3, r, s, p.2⟩
      else ⟨0, r, { s with head := (s.head + 1) % L.totalRecords }, p.2⟩

/-- `event_log_read_nth` and `session_log_read_nth`: the code, and the record read. -/
def ringReadNth (L : RingLog) (n : ℕ) (m : Mem) : Int × Option (List UInt8) :=
  if L.totalRecords ≤ n then (-1, none)
  else
    let b := NorFlash.read m (L.slotToAddr n) logRecordSize
    (if classifyRecord b = 1 then 0 else 1, some b)

/-! ## The writes of an append -/

variable {L : RingLog} {r : LogRecord} {s : RingState} {d : W25q} {m : Mem} {a n slot : ℕ}

/-- The sector of a slot. -/
def RingLog.sectorAddr (L : RingLog) (slot : ℕ) : ℕ :=
  L.base + slot / logRecordsPerSector * w25qSectorSize

theorem sectorBase_slotToAddr (L : RingLog) (slot : ℕ) :
    sectorBase (L.slotToAddr slot) = L.sectorAddr slot := by
  have h : L.base / 4096 * 4096 = L.base := L.aligned
  have hsector : (L.base + slot * 32) / 4096 = L.base / 4096 + slot / 128 := by omega
  show (L.base + slot * 32) / 4096 * 4096 = L.base + slot / 128 * 4096
  rw [hsector, Nat.add_mul, h]

theorem RingLog.totalRecords_pos (L : RingLog) : 0 < L.totalRecords :=
  Nat.mul_pos L.nonempty (by decide)

/-- The scan finds a slot of the ring. -/
theorem ringHead_lt (L : RingLog) (m : Mem) : ringHead L m < L.totalRecords := by
  rw [ringHead]
  split
  · exact Nat.mod_lt _ L.totalRecords_pos
  · exact L.totalRecords_pos

/-- An append leaves the head on a slot of the ring. -/
theorem ringAppend_head_lt (h : s.head < L.totalRecords) :
    (ringAppend L r s d).state.head < L.totalRecords := by
  rw [ringAppend]
  dsimp only
  repeat' split
  · exact h
  · exact h
  · exact h
  · exact Nat.mod_lt _ L.totalRecords_pos

/-- A record stays in one page. -/
theorem slot_page (L : RingLog) (slot : ℕ) :
    L.slotToAddr slot % w25qPageSize + logRecordSize ≤ w25qPageSize := by
  have h := L.aligned
  simp only [sectorBase, w25qSectorSize, RingLog.slotToAddr, logRecordSize, w25qPageSize] at h ⊢
  omega

theorem ringErase_agree
    (h : a + n ≤ L.sectorAddr slot ∨ L.sectorAddr slot + w25qSectorSize ≤ a) :
    Agree (ringErase L slot d).2.mem d.mem a n := by
  rw [ringErase]
  split
  · refine w25qEraseSector_agree ?_
    rw [sectorBase_slotToAddr]
    exact h
  · exact Agree.refl _ _ _

/-- The slot lies in its sector. -/
theorem slotToAddr_bounds (L : RingLog) (slot : ℕ) :
    L.sectorAddr slot ≤ L.slotToAddr slot ∧
      L.slotToAddr slot + logRecordSize ≤ L.sectorAddr slot + w25qSectorSize := by
  simp only [RingLog.slotToAddr, RingLog.sectorAddr, logRecordSize, logRecordsPerSector,
    w25qSectorSize]
  omega

/-- An append writes in the sector of its head only, however it ends. -/
theorem ringAppend_agree
    (h : a + n ≤ L.sectorAddr s.head ∨ L.sectorAddr s.head + w25qSectorSize ≤ a) :
    Agree (ringAppend L r s d).chip.mem d.mem a n := by
  rw [ringAppend]
  split
  · exact Agree.refl _ _ _
  have herase := ringErase_agree (d := d) h
  generalize ringErase L s.head d = e at herase ⊢
  dsimp only
  split
  · exact herase
  have hlen := (stampLogRecord L s.bootCount r).size
  have hprogram : Agree (w25qProgram (L.slotToAddr s.head) (stampLogRecord L s.bootCount r).bytes
      e.2).2.mem e.2.mem a n := by
    have hbounds := slotToAddr_bounds L s.head
    refine w25qProgram_agree ?_ ?_
    · rw [hlen]
      exact slot_page L s.head
    · rw [hlen]
      generalize w25qSectorSize = sector at hbounds h
      omega
  split
  · exact hprogram.trans herase
  · exact hprogram.trans herase

end OpenEVCharger
