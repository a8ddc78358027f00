import OpenEVCharger.Persist.Packed

/-!
# Boot records

`persist/boot_count.c` and `persist/crash_state.c`: the two records that every boot
writes. The boot count is a sector of its own, erased and programmed in place; the
count of boots that ended in a crash is a ping-pong record.
-/

namespace OpenEVCharger

open NorFlash (Mem Agree)

/-! ## The boot count -/

def bootCountSector : ℕ := 0x04C000

/-- `struct boot_count_record`. -/
abbrev BootCountRecord := Packed 32

namespace BootCountRecord

abbrev versionOff : ℕ := 0
abbrev countOff : ℕ := 4
abbrev crc32Off : ℕ := 28

def version (r : BootCountRecord) : UInt8 := r.byteAt versionOff
def count (r : BootCountRecord) : UInt32 := r.word countOff
def crc (r : BootCountRecord) : UInt32 := r.word crc32Off
def computed (r : BootCountRecord) : UInt32 := crc32 (r.bytes.take crc32Off)

/-- The record that a boot takes over. -/
def Valid (r : BootCountRecord) : Prop := r.version = 1 ∧ r.crc = r.computed

instance (r : BootCountRecord) : Decidable r.Valid := inferInstanceAs (Decidable (_ ∧ _))

/-- The record of a count, with its checksum. -/
def ofCount (count : UInt32) : BootCountRecord :=
  let r : BootCountRecord := ((Packed.zero 32).setByte versionOff 1).setWord countOff count
  r.setWord crc32Off r.computed

end BootCountRecord

def bootCountRead (m : Mem) : BootCountRecord :=
  ⟨NorFlash.read m bootCountSector 32, NorFlash.length_read _ _ _⟩

/-- The count that a boot finds, zero without a valid record. -/
def bootCountCurrent (m : Mem) : UInt32 :=
  let r := bootCountRead m
  if BootCountRecord.Valid r then BootCountRecord.count r else 0

def bootCountIncrement (d : W25q) : UInt32 × W25q :=
  let r := BootCountRecord.ofCount (bootCountCurrent d.mem + 1)
  let e := w25qEraseSector bootCountSector d
  if e.1 ≠ 0 then (0xFFFFFFFF, e.2)
  else
    let p := w25qProgram bootCountSector r.bytes e.2
    if p.1 ≠ 0 then (0xFFFFFFFF, p.2) else (r.count, p.2)

/-! ## The crash state -/

def crashStateSlotA : ℕ := 0x04D000
def crashStateSlotB : ℕ := 0x04E000
def crashStateVersion : UInt8 := 1
def crashLoopThreshold : UInt8 := 5

/-- `struct crash_state`. -/
abbrev CrashRecord := Packed 32

namespace CrashRecord

abbrev versionOff : ℕ := 0
abbrev fastRestartCountOff : ℕ := 8

def fastRestartCount (r : CrashRecord) : UInt8 := r.byteAt fastRestartCountOff

def setVersion (r : CrashRecord) : CrashRecord := r.setByte versionOff crashStateVersion

def setFastRestartCount (n : UInt8) (r : CrashRecord) : CrashRecord :=
  r.setByte fastRestartCountOff n

end CrashRecord

/-- The static variables: `s_cs` and `s_safe_fail`. -/
structure CrashState where
  cs : CrashRecord
  safeFail : Bool
  deriving DecidableEq

def crashStatePowerUp : CrashState := ⟨.zero 32, false⟩

structure CrashStateResult where
  rc : Int
  state : CrashState
  chip : W25q

def crashStateRead (m : Mem) : Int × CrashRecord :=
  packedRead crashStateSlotA crashStateSlotB 32 m

def crashStateStore (r : CrashRecord) (d : W25q) : PackedStored 32 :=
  packedStore crashStateSlotA crashStateSlotB r d

/-- One more fast restart after a crash, up to 255; none after a deliberate reset. -/
def countRestart (wasCrash : Bool) (r : CrashRecord) : CrashRecord :=
  if wasCrash then
    if r.fastRestartCount < 0xFF then r.setFastRestartCount (r.fastRestartCount + 1) else r
  else r.setFastRestartCount 0

/-- `wasCrash` is what the reset-cause register says: watchdog or low power. -/
def crashStateBootIncrement (wasCrash : Bool) (s : CrashState) (d : W25q) : CrashStateResult :=
  let r := crashStateRead d.mem
  if r.1 < 0 then ⟨r.1, s, d⟩
  else
    let cs : CrashRecord :=
      if r.1 = 1 then (CrashRecord.setVersion (.zero 32)).setFastRestartCount 0 else r.2
    let cs := countRestart wasCrash cs
    let safeFail := decide (crashLoopThreshold ≤ cs.fastRestartCount)
    let st := crashStateStore cs.setVersion d
    ⟨if st.rc < 0 then st.rc else 0, ⟨st.record, safeFail⟩, st.chip⟩

def crashStateResetAlive (s : CrashState) (d : W25q) : CrashStateResult :=
  if CrashRecord.fastRestartCount s.cs = 0 ∧ s.safeFail = false then ⟨0, s, d⟩
  else
    let st := crashStateStore ((CrashRecord.setVersion s.cs).setFastRestartCount 0) d
    if st.rc < 0 then ⟨st.rc, { s with cs := st.record }, st.chip⟩
    else ⟨0, ⟨st.record, false⟩, st.chip⟩

inductive CrashOp where
  | bootIncrement (wasCrash : Bool)
  | resetAlive

def crashStep (op : CrashOp) (s : CrashState) (d : W25q) : CrashStateResult :=
  match op with
  | .bootIncrement wasCrash => crashStateBootIncrement wasCrash s d
  | .resetAlive => crashStateResetAlive s d

/-! ## The record of a count -/

namespace BootCountRecord

theorem count_ofCount (n : UInt32) : (ofCount n).count = n := by
  rw [count, ofCount, Packed.word_setWord_other (by decide), Packed.word_setWord (by decide)]

theorem valid_ofCount (n : UInt32) : (ofCount n).Valid := by
  constructor
  · rw [version, ofCount, Packed.byteAt_setWord_other (by decide),
      Packed.byteAt_setWord_other (by decide), Packed.byteAt_setByte (by decide)]
  · rw [crc, ofCount, Packed.word_setWord (by decide), computed, computed]
    exact congrArg crc32 (Packed.take_set (Nat.le_refl _) _).symm

end BootCountRecord

/-! ## Where they write -/

variable {d : W25q} {a n : ℕ}

/-- An increment of the boot count writes its sector only, however it ends. -/
theorem bootCountIncrement_agree
    (h : a + n ≤ bootCountSector ∨ bootCountSector + w25qSectorSize ≤ a) :
    Agree (bootCountIncrement d).2.mem d.mem a n := by
  have herase : Agree (w25qEraseSector bootCountSector d).2.mem d.mem a n :=
    w25qEraseSector_agree h
  rw [bootCountIncrement]
  generalize w25qEraseSector bootCountSector d = e at herase ⊢
  dsimp only
  split
  · exact herase
  generalize BootCountRecord.ofCount _ = r
  have hprogram : Agree (w25qProgram bootCountSector r.bytes e.2).2.mem e.2.mem a n := by
    refine w25qProgram_agree ?_ ?_
    · rw [r.size]
      decide
    · rw [r.size]
      refine h.imp_right fun hhi => Nat.le_trans (by decide) hhi
  split
  · exact hprogram.trans herase
  · exact hprogram.trans herase

theorem slotPair_crashState : SlotPair crashStateSlotA crashStateSlotB := ⟨rfl, rfl, nofun⟩

theorem crashStateBootIncrement_agree {wasCrash : Bool} {s : CrashState}
    (h : OutsideSlots crashStateSlotA crashStateSlotB a n) :
    Agree (crashStateBootIncrement wasCrash s d).chip.mem d.mem a n := by
  rw [crashStateBootIncrement]
  dsimp only
  split
  · exact Agree.refl _ _ _
  · exact packedStore_agree slotPair_crashState h

theorem crashStateResetAlive_agree {s : CrashState}
    (h : OutsideSlots crashStateSlotA crashStateSlotB a n) :
    Agree (crashStateResetAlive s d).chip.mem d.mem a n := by
  rw [crashStateResetAlive]
  split
  · exact Agree.refl _ _ _
  · dsimp only
    split
    · exact packedStore_agree slotPair_crashState h
    · exact packedStore_agree slotPair_crashState h

end OpenEVCharger
