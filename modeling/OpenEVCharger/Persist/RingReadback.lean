import OpenEVCharger.Persist.RingHead

/-!
# Reading back what was appended

An append erases at the first slot of a sector only, and does not read back what it
programs. In the other slots the record goes over whatever an append that timed out, or
a loss of power, has left there.
-/

namespace OpenEVCharger

open NorFlash (Mem Erased)

/-- No bit is cleared in a slot that a record sets. -/
def SlotTakes (L : RingLog) (m : Mem) (slot : ℕ) (b : List UInt8) : Prop :=
  List.zipWith (· &&& ·) (slotBytes L m slot) b = b

instance (L : RingLog) (m : Mem) (slot : ℕ) (b : List UInt8) : Decidable (SlotTakes L m slot b) :=
  inferInstanceAs (Decidable (_ = _))

variable {L : RingLog} {r : LogRecord} {s : RingState} {d : W25q} {m : Mem} {slot : ℕ}

theorem slotTakes_iff (m : Mem) (slot : ℕ) (x : LogRecord) :
    SlotTakes L m slot x.bytes ↔
      slotBytes L (NorFlash.program (L.slotToAddr slot) x.bytes m) slot = x.bytes := by
  have hand := @NorFlash.read_program_and m (L.slotToAddr slot) x.bytes
  rw [x.size] at hand
  rw [SlotTakes, slotBytes, slotBytes, hand]

/-- An erased slot takes every record. -/
theorem slotTakes_of_erased (h : Erased m (L.slotToAddr slot) logRecordSize) (x : LogRecord) :
    SlotTakes L m slot x.bytes := by
  rw [slotTakes_iff, slotBytes]
  have hread := @NorFlash.read_program m (L.slotToAddr slot) x.bytes (by rw [x.size]; exact h)
  rw [x.size] at hread
  exact hread

/-- After the erase step of an append, the slot takes the record when it is the first of
its sector, and is as it was otherwise. -/
theorem ringErase_slot (h : (ringErase L slot d).1 = 0) :
    (slot % logRecordsPerSector = 0 →
        Erased (ringErase L slot d).2.mem (L.slotToAddr slot) logRecordSize) ∧
      (slot % logRecordsPerSector ≠ 0 → (ringErase L slot d).2.mem = d.mem) := by
  by_cases hfirst : slot % logRecordsPerSector = 0 ∧
      ¬ (w25qRead (L.slotToAddr slot) logRecordSize d).all (fun x => decide (x = 0xFF))
  · have herase : ringErase L slot d = w25qEraseSector (L.slotToAddr slot) d := if_pos hfirst
    rw [herase] at h ⊢
    refine ⟨fun _ => ?_, fun hne => absurd hfirst.1 hne⟩
    have hsector := w25qEraseSector_ok h
    rw [sectorBase_slotToAddr] at hsector
    have hbounds := slotToAddr_bounds L slot
    exact hsector.mono hbounds.1 hbounds.2
  · have hnone : ringErase L slot d = (0, d) := if_neg hfirst
    rw [hnone]
    refine ⟨fun hzero => ?_, fun _ => rfl⟩
    -- the slot was found blank
    have hblank : (w25qRead (L.slotToAddr slot) logRecordSize d).all (fun x => decide (x = 0xFF)) :=
      Classical.not_not.mp fun hnot => hfirst ⟨hzero, hnot⟩
    refine NorFlash.erased_of_read ?_
    rw [List.eq_replicate_iff]
    refine ⟨NorFlash.length_read _ _ _, fun x hx => ?_⟩
    exact of_decide_eq_true (List.all_eq_true.mp hblank x hx)

/-- What an append that succeeds has done. -/
theorem ringAppend_success (h : (ringAppend L r s d).rc = 0) :
    (ringErase L s.head d).1 = 0 ∧
      (ringAppend L r s d).chip.mem = NorFlash.program (L.slotToAddr s.head)
        (stampLogRecord L s.bootCount r).bytes (ringErase L s.head d).2.mem := by
  rw [ringAppend] at h ⊢
  have hlen := (stampLogRecord L s.bootCount r).size
  have hpage : L.slotToAddr s.head % w25qPageSize +
      (stampLogRecord L s.bootCount r).bytes.length ≤ w25qPageSize := by
    rw [hlen]
    exact slot_page L s.head
  generalize stampLogRecord L s.bootCount r = x at h hpage ⊢
  generalize ringErase L s.head d = e at h ⊢
  dsimp only at h ⊢
  split at h
  · cases h
  next hinit =>
  rw [if_neg hinit]
  split at h
  · cases h
  next herase =>
  rw [if_neg herase]
  split at h
  · cases h
  next hprogram =>
  rw [if_neg hprogram]
  exact ⟨not_not.mp herase, w25qProgram_ok hpage (not_not.mp hprogram)⟩

/-- An append that succeeds is read back when its slot takes the record or is the first of
its sector, and in no other case. -/
theorem ringAppend_readback_iff (h : (ringAppend L r s d).rc = 0) :
    slotBytes L (ringAppend L r s d).chip.mem s.head = (stampLogRecord L s.bootCount r).bytes ↔
      s.head % logRecordsPerSector = 0 ∨
        SlotTakes L d.mem s.head (stampLogRecord L s.bootCount r).bytes := by
  obtain ⟨herase, hmem⟩ := ringAppend_success h
  obtain ⟨hfirst, hother⟩ := ringErase_slot herase
  rw [hmem, ← slotTakes_iff]
  by_cases hzero : s.head % logRecordsPerSector = 0
  · exact iff_of_true (slotTakes_of_erased (hfirst hzero) _) (.inl hzero)
  · rw [hother hzero]
    exact (or_iff_right hzero).symm

theorem ringReadNth_iff (hslot : slot < L.totalRecords) (x : LogRecord)
    (hvalid : classifyRecord x.bytes = 1) :
    ringReadNth L slot m = (0, some x.bytes) ↔ slotBytes L m slot = x.bytes := by
  rw [ringReadNth, if_neg (Nat.not_le.mpr hslot)]
  constructor
  · intro h
    exact Option.some.inj (congrArg Prod.snd h)
  · intro h
    dsimp only
    rw [slotBytes] at h
    rw [h, if_pos hvalid]

/-- In every run, from any contents of the flash and with appends and boots that end in
any way: an append that succeeds is read back from the newest slot exactly when that slot
is the first of its sector, or had no bit cleared that the record sets. -/
theorem ring_append_readback_iff (L : RingLog) (b : LogPowerUp) (ins : ℕ → LogInput) (n : ℕ)
    (r : LogRecord) (outcomes : List WriteOutcome) :
    let σ := logRun L b ins n
    let x := stampLogRecord L σ.ring.bootCount r
    let a := ringAppend L r σ.ring ⟨σ.flash, outcomes⟩
    a.rc = 0 → (ringReadNth L σ.ring.head a.chip.mem = (0, some x.bytes) ↔
      σ.ring.head % logRecordsPerSector = 0 ∨ SlotTakes L σ.flash σ.ring.head x.bytes) := by
  intro σ x a hrc
  rw [ringReadNth_iff (logRun_head_lt L b ins n) x (classify_stampLogRecord L _ r)]
  exact ringAppend_readback_iff hrc

/-- The first record of a blank log. -/
theorem ring_append_readback_iff_first :
    let σ := logRun eventLog firstBoot sameTick 0
    let x := stampLogRecord eventLog σ.ring.bootCount zeroLogRecord
    let a := ringAppend eventLog zeroLogRecord σ.ring ⟨σ.flash, []⟩
    (ringReadNth eventLog σ.ring.head a.chip.mem = (0, some x.bytes) ↔
      σ.ring.head % logRecordsPerSector = 0 ∨ SlotTakes eventLog σ.flash σ.ring.head x.bytes) :=
  ring_append_readback_iff eventLog firstBoot sameTick 0 zeroLogRecord []
    (ringAppend_done (repeated_run eventLog zeroLogRecord 0).1 allDone_nil).1

/-- An event on a blank chip, and a second one whose program stops after four bytes. -/
def tornAppend (k : ℕ) : LogInput :=
  ⟨.append zeroLogRecord, if k = 0 then [] else
    [.timeout fun x => if x < eventLog.slotToAddr 1 + 4 then 0 else NorFlash.blank]⟩

theorem logRun_succ (L : RingLog) (b : LogPowerUp) (ins : ℕ → LogInput) (n : ℕ) :
    logRun L b ins (n + 1) = logStep L (ins n) (logRun L b ins n) := rfl

/-- The boot of a blank chip. -/
theorem logRun_firstBoot (L : RingLog) (ins : ℕ → LogInput) :
    logRun L firstBoot ins 0 = ⟨fun _ => NorFlash.blank, ⟨0, 1, true⟩, 1⟩ := by
  have hhead : ringHead L (fun _ => NorFlash.blank) = 0 :=
    ringHead_of_none fun p _ => not_slotValid_of_erased fun _ _ _ => rfl
  show logBoot L (fun _ => NorFlash.blank) 1 = _
  rw [logBoot, ringInit, hhead]
  rfl

/-- The next event goes over the torn slot: the append succeeds, and the record read back
is another one. -/
theorem torn_slot_programmed_over :
    let σ := logRun eventLog firstBoot tornAppend 2
    let r : LogRecord := zeroLogRecord.setWord logTimeOff 1
    let a := ringAppend eventLog r σ.ring ⟨σ.flash, []⟩
    a.rc = 0 ∧ ringReadNth eventLog σ.ring.head a.chip.mem ≠
      (0, some (stampLogRecord eventLog σ.ring.bootCount r).bytes) := by
  rw [logRun_succ, logRun_succ, logRun_firstBoot]
  decide +kernel

end OpenEVCharger
