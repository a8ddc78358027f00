import OpenEVCharger.Lib.Machine
import OpenEVCharger.Persist.RingLog

/-!
# Finding the head of a ring log

The head of a log is not stored: the scan at boot takes the slot behind the record
with the highest boot count and time, and the last one of those that tie. That is
the record appended last as long as the keys never go down from one append to the
next, and go up where the ring comes round to its first slot.
-/

namespace OpenEVCharger

open NorFlash (Mem Agree Erased)

/-! ## Keys -/

namespace LogKey

/-- The order of the keys, as one number. -/
def toNat (k : LogKey) : ℕ := k.boot.toNat * 2 ^ 32 + k.time.toNat

theorem le_iff {a b : LogKey} : a.le b ↔ a.toNat ≤ b.toNat := by
  have ha := a.time.toNat_lt
  have hb := b.time.toNat_lt
  rw [le, UInt16.lt_iff_toNat_lt, UInt32.le_iff_toNat_le, ← UInt16.toNat_inj, toNat, toNat]
  omega

theorem lt_iff {a b : LogKey} : a.lt b ↔ a.toNat < b.toNat := by
  have ha := a.time.toNat_lt
  have hb := b.time.toNat_lt
  rw [lt, UInt16.lt_iff_toNat_lt, UInt32.lt_iff_toNat_lt, ← UInt16.toNat_inj, toNat, toNat]
  omega

theorem toNat_inj {a b : LogKey} : a.toNat = b.toNat ↔ a = b := by
  constructor
  · intro h
    have ha := a.time.toNat_lt
    have hb := b.time.toNat_lt
    rw [toNat, toNat] at h
    have hboot : a.boot = b.boot := UInt16.toNat_inj.mp (by omega)
    have htime : a.time = b.time := UInt32.toNat_inj.mp (by rw [hboot] at h; omega)
    cases a
    cases b
    rw [mk.injEq]
    exact ⟨hboot, htime⟩
  · rintro rfl
    rfl

end LogKey

/-! ## The scan -/

variable {L : RingLog} {m : Mem}

def slotBytes (L : RingLog) (m : Mem) (slot : ℕ) : List UInt8 :=
  NorFlash.read m (L.slotToAddr slot) logRecordSize

def slotKey (L : RingLog) (m : Mem) (slot : ℕ) : LogKey := recordKey L (slotBytes L m slot)

def SlotValid (L : RingLog) (m : Mem) (slot : ℕ) : Prop := classifyRecord (slotBytes L m slot) = 1

/-- A valid slot that no valid one of the first `n` comes after in the order of the scan. -/
structure Latest (L : RingLog) (m : Mem) (n slot : ℕ) : Prop where
  bound : slot < n
  valid : SlotValid L m slot
  last : ∀ p < n, SlotValid L m p →
    (slotKey L m p).toNat < (slotKey L m slot).toNat ∨
      slotKey L m p = slotKey L m slot ∧ p ≤ slot

/-- What the scan of the first `n` slots has found. -/
inductive ScanSpec (L : RingLog) (m : Mem) (n : ℕ) : Option LatestRecord → Prop where
  | none (h : ∀ p < n, ¬ SlotValid L m p) : ScanSpec L m n none
  | some (slot : ℕ) (h : Latest L m n slot) : ScanSpec L m n (some ⟨slotKey L m slot, slot⟩)

theorem scanRecord_invalid {slot : ℕ} {b : List UInt8} (h : classifyRecord b ≠ 1)
    (latest : Option LatestRecord) : scanRecord L slot b latest = latest := if_pos h

theorem scanRecord_first {slot : ℕ} {b : List UInt8} (h : classifyRecord b = 1) :
    scanRecord L slot b none = some ⟨recordKey L b, slot⟩ := if_neg (not_not.mpr h)

theorem scanRecord_next {slot : ℕ} {b : List UInt8} (h : classifyRecord b = 1)
    (r : LatestRecord) : scanRecord L slot b (some r) =
      if r.key.le (recordKey L b) then some ⟨recordKey L b, slot⟩ else some r :=
  if_neg (not_not.mpr h)

theorem ringScan_succ (L : RingLog) (m : Mem) (n : ℕ) :
    ringScan L m (n + 1) = scanRecord L n (slotBytes L m n) (ringScan L m n) := rfl

theorem ringScan_spec (L : RingLog) (m : Mem) (n : ℕ) : ScanSpec L m n (ringScan L m n) := by
  induction n with
  | zero => exact .none (fun p hp => absurd hp (Nat.not_lt_zero p))
  | succ n ih =>
    rw [ringScan_succ]
    generalize ringScan L m n = latest at ih ⊢
    by_cases hvalid : SlotValid L m n
    · cases ih with
      | none h =>
        rw [scanRecord_first hvalid]
        refine .some n ⟨Nat.lt_succ_self n, hvalid, fun p hp hpvalid => ?_⟩
        rcases Nat.lt_succ_iff_lt_or_eq.mp hp with hlt | rfl
        · exact absurd hpvalid (h p hlt)
        · exact .inr ⟨rfl, Nat.le_refl _⟩
      | some slot h =>
        rw [scanRecord_next hvalid]
        split
        · next hle =>
          -- the new slot comes after the latest one, and so after all
          rw [LogKey.le_iff] at hle
          refine .some n ⟨Nat.lt_succ_self n, hvalid, fun p hp hpvalid => ?_⟩
          rcases Nat.lt_succ_iff_lt_or_eq.mp hp with hlt | rfl
          · have hp' : (slotKey L m p).toNat ≤ (slotKey L m slot).toNat := by
              rcases h.last p hlt hpvalid with hless | ⟨heq, _⟩
              · exact Nat.le_of_lt hless
              · exact Nat.le_of_eq (congrArg LogKey.toNat heq)
            rcases Nat.lt_or_eq_of_le (Nat.le_trans hp' hle) with hless | heq
            · exact .inl hless
            · exact .inr ⟨LogKey.toNat_inj.mp heq, Nat.le_of_lt hlt⟩
          · exact .inr ⟨rfl, Nat.le_refl _⟩
        · next hgt =>
          rw [LogKey.le_iff] at hgt
          refine .some slot ⟨Nat.lt_succ_of_lt h.bound, h.valid, fun p hp hpvalid => ?_⟩
          rcases Nat.lt_succ_iff_lt_or_eq.mp hp with hlt | rfl
          · exact h.last p hlt hpvalid
          · exact .inl (Nat.not_le.mp hgt)
    · rw [scanRecord_invalid hvalid]
      cases ih with
      | none h =>
        refine .none fun p hp => ?_
        rcases Nat.lt_succ_iff_lt_or_eq.mp hp with hlt | rfl
        · exact h p hlt
        · exact hvalid
      | some slot h =>
        refine .some slot ⟨Nat.lt_succ_of_lt h.bound, h.valid, fun p hp hpvalid => ?_⟩
        rcases Nat.lt_succ_iff_lt_or_eq.mp hp with hlt | rfl
        · exact h.last p hlt hpvalid
        · exact absurd hpvalid hvalid

theorem Latest.unique {n slot slot' : ℕ} (h : Latest L m n slot) (h' : Latest L m n slot') :
    slot = slot' := by
  rcases h.last slot' h'.bound h'.valid with hlt | ⟨heq, hle⟩
  · rcases h'.last slot h.bound h.valid with hlt' | ⟨heq', hle'⟩
    · omega
    · rw [heq'] at hlt
      omega
  · rcases h'.last slot h.bound h.valid with hlt' | ⟨heq', hle'⟩
    · rw [heq] at hlt'
      omega
    · omega

/-- The head is found behind the latest slot. -/
theorem ringHead_of_latest {slot : ℕ} (h : Latest L m L.totalRecords slot) :
    ringHead L m = (slot + 1) % L.totalRecords := by
  have hspec := ringScan_spec L m L.totalRecords
  rw [ringHead]
  cases hscan : ringScan L m L.totalRecords with
  | none =>
    rw [hscan] at hspec
    cases hspec with
    | none hnone => exact absurd h.valid (hnone slot h.bound)
  | some r =>
    rw [hscan] at hspec
    cases hspec with
    | some slot' h' => rw [h'.unique h]

theorem ringHead_of_none (h : ∀ p < L.totalRecords, ¬ SlotValid L m p) : ringHead L m = 0 := by
  have hspec := ringScan_spec L m L.totalRecords
  rw [ringHead]
  cases hscan : ringScan L m L.totalRecords with
  | none => rfl
  | some r =>
    rw [hscan] at hspec
    cases hspec with
    | some slot' h' => exact absurd h'.valid (h slot' h'.bound)

/-! ## Stamped records -/

variable {r : LogRecord} {s : RingState} {d : W25q}

theorem crc16_blank : crc16Ccitt (List.replicate 30 0xFF) ≠ 0xFFFF := by decide +kernel

/-- A stamped record is found valid. -/
theorem classify_stampLogRecord (L : RingLog) (bootCount : UInt16) (r : LogRecord) :
    classifyRecord (stampLogRecord L bootCount r).bytes = 1 := by
  rw [stampLogRecord]
  generalize r.setHalf L.bootCountOff bootCount = r
  have hcrc : (r.setHalf logCrcOff (crc16Ccitt (r.bytes.take logCrcOff))).half logCrcOff =
      crc16Ccitt (r.bytes.take logCrcOff) := Packed.half_setHalf (by decide) r
  have htake : (r.setHalf logCrcOff (crc16Ccitt (r.bytes.take logCrcOff))).bytes.take logCrcOff =
      r.bytes.take logCrcOff := Packed.take_set (Nat.le_refl _) r
  generalize r.setHalf logCrcOff _ = r' at hcrc htake ⊢
  rw [Packed.half] at hcrc
  rw [classifyRecord]
  split
  · next hall =>
    -- a blank record does not have the checksum of blank bytes
    have hblank : r'.bytes = List.replicate logRecordSize 0xFF := by
      refine List.eq_replicate_iff.mpr ⟨r'.size, fun x hx => ?_⟩
      exact of_decide_eq_true (List.all_eq_true.mp hall x hx)
    rw [hblank, List.take_replicate] at htake
    rw [hblank, ← htake] at hcrc
    exact absurd hcrc.symm crc16_blank
  · rw [htake, if_pos hcrc]

theorem recordKey_stampLogRecord (L : RingLog) (bootCount : UInt16) (r : LogRecord) :
    recordKey L (stampLogRecord L bootCount r).bytes = ⟨bootCount, le32Load r.bytes logTimeOff⟩ := by
  have hfits := L.bootCount_fits
  have hcrc : logCrcOff = 30 := rfl
  have htime : logTimeOff = 0 := rfl
  have hsize : logRecordSize = 32 := rfl
  rw [recordKey, LogKey.mk.injEq]
  constructor
  · -- the checksum lies behind the boot count
    exact (Packed.half_set_other (.inl (by omega)) _).trans (Packed.half_setHalf (by omega) r)
  · exact (Packed.word_set_other (.inl (by omega)) _).trans
      (Packed.word_set_other (.inl (by omega)) r)

/-! ## The ring and the records appended -/

/-- Where the sector that the next record goes to ends, counted in records. -/
def sectorEnd (count : ℕ) : ℕ :=
  (count + (logRecordsPerSector - 1)) / logRecordsPerSector * logRecordsPerSector

/-- The ring holds the records appended, in order and as far as their sectors have not
come round again; the slots ahead of the head are blank up to the end of its sector,
and in the first lap up to the end of the ring. -/
structure RingHolds (L : RingLog) (m : Mem) (log : List LogRecord) : Prop where
  kept : ∀ j (h : j < log.length), sectorEnd log.length ≤ j + L.totalRecords →
    slotBytes L m (j % L.totalRecords) = log[j].bytes
  blank : ∀ j, log.length ≤ j → j < sectorEnd log.length ∨ j < L.totalRecords →
    Erased m (L.slotToAddr (j % L.totalRecords)) logRecordSize
  valid : ∀ x ∈ log, classifyRecord x.bytes = 1

/-- The slots of two record numbers at most a lap apart. -/
theorem lap_cases {total c j : ℕ} (htotal : 0 < total) (hj : j < c + total) (hc : c ≤ j + total) :
    ∃ start, c = start + c % total ∧ c % total < total ∧ j % total < total ∧
      (∃ q, start = total * q) ∧
      (j = start + j % total ∨ j + total = start + j % total ∨ j = start + total + j % total) := by
  have hcdiv := Nat.div_add_mod c total
  have hjdiv := Nat.div_add_mod j total
  have hcmod := Nat.mod_lt c htotal
  have hjmod := Nat.mod_lt j htotal
  have hup : j / total < c / total + 2 := by
    refine Nat.lt_of_mul_lt_mul_left (a := total) ?_
    rw [Nat.mul_add]
    omega
  have hdown : c / total < j / total + 2 := by
    refine Nat.lt_of_mul_lt_mul_left (a := total) ?_
    rw [Nat.mul_add]
    omega
  refine ⟨total * (c / total), hcdiv.symm, hcmod, hjmod, ⟨_, rfl⟩, ?_⟩
  rcases (by omega : j / total = c / total ∨ c / total = j / total + 1 ∨
    j / total = c / total + 1) with heq | heq | heq
  · left
    rw [← heq]
    exact hjdiv.symm
  · right
    left
    rw [heq, Nat.mul_succ]
    omega
  · right
    right
    rw [heq, Nat.mul_succ] at hjdiv
    omega

theorem le_sectorEnd (c : ℕ) : c ≤ sectorEnd c ∧ sectorEnd c ≤ sectorEnd (c + 1) := by
  simp only [sectorEnd, logRecordsPerSector]
  omega

/-- The slot of a record that the next one leaves in place is another one, and in
another sector when the next one starts a sector. -/
theorem slot_of_earlier (L : RingLog) {c j : ℕ} (hj : j < c)
    (hend : sectorEnd (c + 1) ≤ j + L.totalRecords) :
    j % L.totalRecords ≠ c % L.totalRecords ∧
      (c % 128 = 0 → j % L.totalRecords / 128 ≠ c % L.totalRecords / 128) := by
  have hpos := L.totalRecords_pos
  have hlap := le_sectorEnd (c + 1)
  obtain ⟨start, hc, hc', hj', ⟨q, hq⟩, hcases⟩ :=
    lap_cases hpos (show j < c + L.totalRecords by omega) (show c ≤ j + L.totalRecords by omega)
  have hstart : start = 128 * (L.sectors * q) := by
    rw [hq, RingLog.totalRecords, Nat.mul_comm L.sectors, Nat.mul_assoc]
  have htotal : L.totalRecords = 128 * L.sectors := Nat.mul_comm _ _
  simp only [sectorEnd, logRecordsPerSector] at hend hlap
  generalize L.sectors * q = k at hstart
  generalize c % L.totalRecords = h at *
  generalize j % L.totalRecords = i at *
  omega

/-- The slots after the next one: those of its sector, and others. -/
theorem slot_of_later (L : RingLog) {c j : ℕ} (hj : c < j)
    (hend : j < sectorEnd (c + 1) ∨ j < L.totalRecords) :
    j % L.totalRecords ≠ c % L.totalRecords ∧
      (c % 128 = 0 → (j % L.totalRecords / 128 = c % L.totalRecords / 128 ↔
        j < sectorEnd (c + 1))) := by
  have hpos := L.totalRecords_pos
  have hnonempty := L.nonempty
  have htotal : L.totalRecords = 128 * L.sectors := Nat.mul_comm _ _
  simp only [sectorEnd, logRecordsPerSector] at hend ⊢
  obtain ⟨start, hc, hc', hj', ⟨q, hq⟩, hcases⟩ :=
    lap_cases hpos (show j < c + L.totalRecords by omega) (show c ≤ j + L.totalRecords by omega)
  have hstart : start = 128 * (L.sectors * q) := by
    rw [hq, RingLog.totalRecords, Nat.mul_comm L.sectors, Nat.mul_assoc]
  generalize L.sectors * q = k at hstart
  generalize c % L.totalRecords = h at *
  generalize j % L.totalRecords = i at *
  omega

/-! ## What an append leaves -/

/-- The erase before the first slot of a sector. -/
def erasedSector (L : RingLog) (slot : ℕ) (m : Mem) : Mem :=
  if slot % logRecordsPerSector = 0 ∧
      ¬ (slotBytes L m slot).all (fun x => decide (x = 0xFF)) then
    NorFlash.erase (L.sectorAddr slot) w25qSectorSize m
  else m

theorem ringErase_done (hdone : AllDone d.outcomes) (slot : ℕ) :
    (ringErase L slot d).1 = 0 ∧ (ringErase L slot d).2.mem = erasedSector L slot d.mem ∧
      AllDone (ringErase L slot d).2.outcomes := by
  rw [erasedSector]
  by_cases hfirst : slot % logRecordsPerSector = 0 ∧
      ¬ (slotBytes L d.mem slot).all (fun x => decide (x = 0xFF))
  · have herase : ringErase L slot d = w25qEraseSector (L.slotToAddr slot) d := if_pos hfirst
    rw [herase, if_pos hfirst, ← sectorBase_slotToAddr]
    exact w25qWrite_done hdone
  · have hnone : ringErase L slot d = (0, d) := if_neg hfirst
    rw [hnone, if_neg hfirst]
    exact ⟨rfl, rfl, hdone⟩

/-- An append none of whose writes times out. -/
theorem ringAppend_done (hinit : s.initialized = true) (hdone : AllDone d.outcomes) :
    (ringAppend L r s d).rc = 0 ∧ (ringAppend L r s d).record = stampLogRecord L s.bootCount r ∧
      (ringAppend L r s d).state = { s with head := (s.head + 1) % L.totalRecords } ∧
      (ringAppend L r s d).chip.mem =
        NorFlash.program (L.slotToAddr s.head) (stampLogRecord L s.bootCount r).bytes
          (erasedSector L s.head d.mem) := by
  obtain ⟨herase, hmem, hdone'⟩ := ringErase_done (L := L) hdone s.head
  have hlen := (stampLogRecord L s.bootCount r).size
  rw [ringAppend, if_neg (not_not.mpr hinit)]
  generalize ringErase L s.head d = e at herase hmem hdone' ⊢
  generalize stampLogRecord L s.bootCount r = x at hlen ⊢
  have hpage : L.slotToAddr s.head % w25qPageSize + x.bytes.length ≤ w25qPageSize := by
    rw [hlen]
    exact slot_page L s.head
  have hprogram : (w25qProgram (L.slotToAddr s.head) x.bytes e.2).1 = 0 := by
    rw [w25qProgram, if_neg]
    · exact (w25qWrite_done hdone').1
    · rw [hlen]
      decide
  have hmem' := w25qProgram_ok hpage hprogram
  rw [hmem] at hmem'
  dsimp only
  rw [if_neg (not_not.mpr herase), if_neg (not_not.mpr hprogram)]
  exact ⟨rfl, rfl, rfl, hmem'⟩

/-- The erase leaves the other sectors alone. -/
theorem erasedSector_other {slot p : ℕ}
    (h : slot % logRecordsPerSector ≠ 0 ∨ p / logRecordsPerSector ≠ slot / logRecordsPerSector) :
    Agree (erasedSector L slot m) m (L.slotToAddr p) logRecordSize := by
  rw [erasedSector]
  split
  · next hfirst =>
    refine NorFlash.agree_patch (NorFlash.not_within_of_disjoint ?_)
    have hne := h.resolve_left (not_not.mpr hfirst.1)
    simp only [RingLog.slotToAddr, RingLog.sectorAddr, logRecordSize, logRecordsPerSector,
      w25qSectorSize] at hne ⊢
    omega
  · exact Agree.refl _ _ _

theorem slot_disjoint (L : RingLog) {p q : ℕ} (h : p ≠ q) :
    L.slotToAddr p + logRecordSize ≤ L.slotToAddr q ∨
      L.slotToAddr q + logRecordSize ≤ L.slotToAddr p := by
  simp only [RingLog.slotToAddr, logRecordSize]
  omega

/-- A program of one slot leaves the others alone. -/
theorem program_other {p q : ℕ} (h : p ≠ q) (x : LogRecord) :
    Agree (NorFlash.program (L.slotToAddr q) x.bytes m) m (L.slotToAddr p) logRecordSize := by
  refine NorFlash.agree_patch (NorFlash.not_within_of_disjoint ?_)
  rw [x.size]
  exact slot_disjoint L h

/-- An erase leaves every slot of the sector blank. -/
theorem erase_sector_slot {slot p : ℕ} (h : p / logRecordsPerSector = slot / logRecordsPerSector) :
    Erased (NorFlash.erase (L.sectorAddr slot) w25qSectorSize m) (L.slotToAddr p) logRecordSize := by
  have hbounds := slotToAddr_bounds L p
  rw [RingLog.sectorAddr, h, ← RingLog.sectorAddr] at hbounds
  exact (NorFlash.erased_erase _ _ _).mono hbounds.1 hbounds.2

variable {log : List LogRecord}

theorem not_all_blank {b : List UInt8} (h : classifyRecord b = 1) :
    b.all (fun x => decide (x = 0xFF)) = false := by
  rw [classifyRecord] at h
  split at h
  · cases h
  · next hall => exact Bool.eq_false_iff.mpr hall

theorem mod_total_mod (L : RingLog) (c : ℕ) : c % L.totalRecords % 128 = c % 128 :=
  Nat.mod_mod_of_dvd c ⟨L.sectors, Nat.mul_comm _ _⟩

/-- Before the first slot of a sector is written, the sector is blank. -/
theorem RingHolds.sector_blank (h : RingHolds L m log) (hstart : log.length % 128 = 0) {p : ℕ}
    (hp : p / 128 = log.length % L.totalRecords / 128) :
    Erased (erasedSector L (log.length % L.totalRecords) m) (L.slotToAddr p) logRecordSize := by
  have htotal : L.totalRecords = 128 * L.sectors := Nat.mul_comm _ _
  have hfirst : log.length % L.totalRecords % 128 = 0 := (mod_total_mod L _).trans hstart
  rw [erasedSector]
  split
  · exact erase_sector_slot hp
  next hblank =>
  rcases Nat.lt_or_ge log.length L.totalRecords with hlap | hlap
  · -- in the first lap nothing has been written from here on
    rw [Nat.mod_eq_of_lt hlap] at hp hfirst
    have hpT : p < L.totalRecords := by omega
    have herased := h.blank p (by omega) (.inr hpT)
    rw [Nat.mod_eq_of_lt hpT] at herased
    exact herased
  · -- afterwards the first slot holds a record, so that the sector is erased
    have hkept := h.kept (log.length - L.totalRecords) (Nat.sub_lt_self L.totalRecords_pos hlap)
      (by simp only [sectorEnd, logRecordsPerSector]; omega)
    rw [← Nat.mod_eq_sub_mod hlap] at hkept
    refine absurd ⟨hfirst, ?_⟩ hblank
    rw [hkept, not_all_blank (h.valid _ (List.getElem_mem _))]
    exact Bool.false_ne_true

/-- An append puts its record into the next slot and keeps the ones before. -/
theorem RingHolds.append (h : RingHolds L m log) {x : LogRecord}
    (hx : classifyRecord x.bytes = 1) :
    RingHolds L (NorFlash.program (L.slotToAddr (log.length % L.totalRecords)) x.bytes
      (erasedSector L (log.length % L.totalRecords) m)) (log ++ [x]) := by
  have hlen : (log ++ [x]).length = log.length + 1 := List.length_append
  have hend := le_sectorEnd log.length
  have hsector : log.length % 128 ≠ 0 → sectorEnd (log.length + 1) = sectorEnd log.length := by
    simp only [sectorEnd, logRecordsPerSector]
    omega
  have hmod := mod_total_mod L log.length
  refine ⟨?_, ?_, ?_⟩
  · intro j hj hkept
    rw [hlen] at hj hkept
    rcases Nat.lt_succ_iff_lt_or_eq.mp hj with hlt | rfl
    · -- the records before stay
      obtain ⟨hne, hother⟩ := slot_of_earlier L hlt hkept
      rw [List.getElem_append_left hlt, ← h.kept j hlt (Nat.le_trans hend.2 hkept)]
      refine ((program_other hne x).trans (erasedSector_other ?_)).read
      by_cases hstart : log.length % 128 = 0
      · exact .inr (hother hstart)
      · exact .inl (by rw [hmod]; exact hstart)
    · have hblank : Erased (erasedSector L (log.length % L.totalRecords) m)
          (L.slotToAddr (log.length % L.totalRecords)) x.bytes.length := by
        rw [x.size]
        by_cases hstart : log.length % 128 = 0
        · exact h.sector_blank hstart rfl
        · refine (h.blank log.length (Nat.le_refl _) (.inl ?_)).congr
            (erasedSector_other (.inl (by rw [hmod]; exact hstart)))
          simp only [sectorEnd, logRecordsPerSector]
          omega
      have hread := NorFlash.read_program hblank
      rw [x.size] at hread
      rw [slotBytes, hread]
      simp
  · intro j hj hblank
    rw [hlen] at hj hblank
    obtain ⟨hne, hsame⟩ := slot_of_later L hj hblank
    refine Erased.congr ?_ (program_other hne x)
    by_cases hstart : log.length % 128 = 0
    · by_cases hin : j < sectorEnd (log.length + 1)
      · exact h.sector_blank hstart ((hsame hstart).mpr hin)
      · refine (h.blank j (by omega) (.inr (hblank.resolve_left hin))).congr
          (erasedSector_other (.inr ?_))
        exact fun heq => hin ((hsame hstart).mp heq)
    · refine (h.blank j (by omega) ?_).congr
        (erasedSector_other (.inl (by rw [hmod]; exact hstart)))
      rw [← hsector hstart]
      exact hblank
  · intro y hy
    rcases List.mem_append.mp hy with hold | hnew
    · exact h.valid y hold
    · rw [List.mem_singleton.mp hnew]
      exact hx

/-! ## The scan of the ring -/

theorem not_slotValid_of_erased {p : ℕ} (h : Erased m (L.slotToAddr p) logRecordSize) :
    ¬ SlotValid L m p := by
  rw [SlotValid, slotBytes, h.read]
  decide

/-- A valid slot holds one of the records of the last lap. -/
theorem RingHolds.valid_slot (h : RingHolds L m log) {p : ℕ} (hp : p < L.totalRecords)
    (hvalid : SlotValid L m p) :
    ∃ (j : ℕ) (hj : j < log.length), j % L.totalRecords = p ∧ slotBytes L m p = log[j].bytes := by
  have hblank : ∀ j, log.length ≤ j → j < sectorEnd log.length ∨ j < L.totalRecords →
      j % L.totalRecords ≠ p := by
    intro j hj hjend heq
    rw [← heq] at hvalid
    exact not_slotValid_of_erased (h.blank j hj hjend) hvalid
  -- the record of the last lap that the slot is for
  have hlap : ∃ j, j < log.length ∧ log.length ≤ j + L.totalRecords ∧ j % L.totalRecords = p := by
    have hpos := L.totalRecords_pos
    have hdiv := Nat.div_add_mod log.length L.totalRecords
    have hmod := Nat.mod_lt log.length hpos
    generalize hstart : L.totalRecords * (log.length / L.totalRecords) = start at hdiv
    rcases Nat.lt_or_ge p (log.length % L.totalRecords) with hlt | hge
    · refine ⟨start + p, by omega, by omega, ?_⟩
      rw [← hstart, Nat.mul_add_mod, Nat.mod_eq_of_lt hp]
    · rcases Nat.eq_zero_or_pos (log.length / L.totalRecords) with hzero | hfull
      · rw [hzero, Nat.mul_zero] at hstart
        exact absurd (Nat.mod_eq_of_lt hp) (hblank p (by omega) (.inr hp))
      · obtain ⟨q, hq⟩ : ∃ q, log.length / L.totalRecords = q + 1 := ⟨_, (Nat.sub_add_cancel hfull).symm⟩
        rw [hq, Nat.mul_succ] at hstart
        refine ⟨L.totalRecords * q + p, by omega, by omega, ?_⟩
        rw [Nat.mul_add_mod, Nat.mod_eq_of_lt hp]
  obtain ⟨j, hj, hjlap, heq⟩ := hlap
  refine ⟨j, hj, heq, ?_⟩
  rcases Nat.lt_or_ge (j + L.totalRecords) (sectorEnd log.length) with hover | hkept
  · refine absurd ?_ (hblank (j + L.totalRecords) hjlap (.inl hover))
    rw [Nat.add_mod_right, heq]
  · rw [← heq]
    exact h.kept j hj hkept

/-- The keys never go down, and go up where the ring comes round: each is below the
last one, or the same and of the same lap. -/
def KeysOrdered (L : RingLog) (log : List LogRecord) : Prop :=
  ∀ last ∈ log.getLast?, ∀ j (h : j < log.length),
    (recordKey L log[j].bytes).toNat < (recordKey L last.bytes).toNat ∨
      recordKey L log[j].bytes = recordKey L last.bytes ∧
        j / L.totalRecords = (log.length - 1) / L.totalRecords

theorem pred_div_of_mod_ne_zero {n total : ℕ} (htotal : 0 < total) (h : n % total ≠ 0) :
    (n - 1) / total = n / total := by
  have hdiv := Nat.div_add_mod n total
  have hmod := Nat.mod_lt n htotal
  have hpred : n - 1 = total * (n / total) + (n % total - 1) := by omega
  rw [hpred, Nat.mul_add_div htotal, Nat.div_eq_of_lt (show n % total - 1 < total by omega),
    Nat.add_zero]

theorem KeysOrdered.append (h : KeysOrdered L log) {x : LogRecord}
    (hx : ∀ last ∈ log.getLast?, (recordKey L last.bytes).le (recordKey L x.bytes) ∧
      (log.length % L.totalRecords = 0 → (recordKey L last.bytes).lt (recordKey L x.bytes))) :
    KeysOrdered L (log ++ [x]) := by
  intro last hlast j hj
  rw [List.getLast?_concat, Option.mem_some_iff] at hlast
  subst hlast
  rw [List.length_append] at hj ⊢
  rcases Nat.lt_succ_iff_lt_or_eq.mp hj with hlt | rfl
  · rw [List.getElem_append_left hlt]
    obtain ⟨last, hlast⟩ : ∃ last, log.getLast? = some last := by
      cases hget : log.getLast? with
      | none =>
        rw [List.getLast?_eq_none_iff] at hget
        rw [hget] at hlt
        exact absurd hlt (Nat.not_lt_zero j)
      | some last => exact ⟨last, rfl⟩
    obtain ⟨hle, hwrap⟩ := hx last hlast
    rw [LogKey.le_iff] at hle
    rw [LogKey.lt_iff] at hwrap
    rcases h last hlast j hlt with hless | ⟨heq, hsame⟩
    · exact .inl (Nat.lt_of_lt_of_le hless hle)
    · rw [heq]
      rcases Nat.lt_or_eq_of_le hle with hless | hkey
      · exact .inl hless
      · -- a tie does not come round the ring
        refine .inr ⟨LogKey.toNat_inj.mp hkey, ?_⟩
        have hmid : log.length % L.totalRecords ≠ 0 := fun h0 => by
          have := hwrap h0
          omega
        rw [hsame]
        show (log.length - 1) / L.totalRecords = (log.length + 1 - 1) / L.totalRecords
        rw [Nat.add_sub_cancel]
        exact pred_div_of_mod_ne_zero L.totalRecords_pos hmid
  · rw [List.getElem_concat_length rfl]
    exact .inr ⟨rfl, rfl⟩

/-- The scan finds the head behind the record appended last. -/
theorem RingHolds.ringHead (h : RingHolds L m log) (hkeys : KeysOrdered L log) :
    ringHead L m = log.length % L.totalRecords := by
  have hpos := L.totalRecords_pos
  cases hlast : log.getLast? with
  | none =>
    rw [List.getLast?_eq_none_iff] at hlast
    subst hlast
    rw [List.length_nil, Nat.zero_mod]
    refine ringHead_of_none fun p hp hvalid => ?_
    obtain ⟨j, hj, _⟩ := h.valid_slot hp hvalid
    exact absurd hj (Nat.not_lt_zero j)
  | some last =>
    have hne : log ≠ [] := by
      rintro rfl
      cases hlast
    have hlen : 0 < log.length := List.length_pos_iff.mpr hne
    have hget : log[log.length - 1] = last := by
      rw [List.getLast?_eq_some_getLast hne, Option.some.injEq, List.getLast_eq_getElem] at hlast
      exact hlast
    have hslot : slotBytes L m ((log.length - 1) % L.totalRecords) = last.bytes := by
      rw [h.kept (log.length - 1) (by omega) ?_, hget]
      have hsectors := L.nonempty
      simp only [sectorEnd, RingLog.totalRecords, logRecordsPerSector]
      omega
    have hlatest : Latest L m L.totalRecords ((log.length - 1) % L.totalRecords) := by
      refine ⟨Nat.mod_lt _ hpos, ?_, fun p hp hvalid => ?_⟩
      · rw [SlotValid, hslot]
        exact h.valid last (List.mem_of_getLast? hlast)
      · obtain ⟨j, hj, hjp, hjslot⟩ := h.valid_slot hp hvalid
        rw [slotKey, slotKey, hslot, hjslot]
        rcases hkeys last hlast j hj with hless | ⟨heq, hlap⟩
        · exact .inl hless
        · refine .inr ⟨heq, ?_⟩
          -- in one lap the slots are in the order of the records
          have hj' := Nat.div_add_mod j L.totalRecords
          have hl' := Nat.div_add_mod (log.length - 1) L.totalRecords
          rw [hlap] at hj'
          omega
    rw [ringHead_of_latest hlatest, Nat.mod_add_mod, Nat.sub_add_cancel hlen]

/-! ## Runs -/

/-- A unit as far as one of its logs goes. -/
structure LogUnit where
  flash : Mem
  ring : RingState
  bootNumber : ℕ

inductive LogAction where
  | append (r : LogRecord)
  | reboot
  deriving DecidableEq

/-- An action, and how the writes it does to the chip end. -/
structure LogInput where
  action : LogAction
  outcomes : List WriteOutcome

structure LogPowerUp where
  flash : Mem
  bootNumber : ℕ

/-- The log after a boot: scanned, and with the low half of the boot number. -/
def logBoot (L : RingLog) (flash : Mem) (bootNumber : ℕ) : LogUnit :=
  ⟨flash, ringSetBootCount (UInt16.ofNat bootNumber) (ringInit L flash ringPowerUp), bootNumber⟩

def logStep (L : RingLog) (i : LogInput) (σ : LogUnit) : LogUnit :=
  match i.action with
  | .append r =>
    let a := ringAppend L r σ.ring ⟨σ.flash, i.outcomes⟩
    { σ with flash := a.chip.mem, ring := a.state }
  | .reboot => logBoot L σ.flash (σ.bootNumber + 1)

def logMachine (L : RingLog) : Machine LogPowerUp LogInput LogUnit where
  boot b := logBoot L b.flash b.bootNumber
  step := logStep L

def logRun (L : RingLog) (b : LogPowerUp) (ins : ℕ → LogInput) (n : ℕ) : LogUnit :=
  (logMachine L).run b ins n

/-- The records appended with success, in order. -/
def appendedNext (L : RingLog) (i : LogInput) (σ : LogUnit) (log : List LogRecord) :
    List LogRecord :=
  match i.action with
  | .append r =>
    let a := ringAppend L r σ.ring ⟨σ.flash, i.outcomes⟩
    if a.rc = 0 then log ++ [a.record] else log
  | .reboot => log

def logAppended (L : RingLog) (b : LogPowerUp) (ins : ℕ → LogInput) (n : ℕ) : List LogRecord :=
  (logMachine L).history b ins (appendedNext L) [] n

/-- An append whose writes do not time out, of a record that does not come before the
last one, and comes after it in the first slot of the ring. -/
def AppendOrdered (L : RingLog) (i : LogInput) (σ : LogUnit) (log : List LogRecord) : Prop :=
  ∀ r, i.action = .append r → AllDone i.outcomes ∧
    ∀ last ∈ log.getLast?,
      (recordKey L last.bytes).le ⟨σ.ring.bootCount, le32Load r.bytes logTimeOff⟩ ∧
      (σ.ring.head = 0 →
        (recordKey L last.bytes).lt ⟨σ.ring.bootCount, le32Load r.bytes logTimeOff⟩)

/-- In every run the head is a slot of the ring. -/
theorem logRun_head_lt (L : RingLog) (b : LogPowerUp) (ins : ℕ → LogInput) (n : ℕ) :
    (logRun L b ins n).ring.head < L.totalRecords := by
  induction n with
  | zero => exact ringHead_lt L b.flash
  | succ n ih =>
    show (logStep L (ins n) (logRun L b ins n)).ring.head < L.totalRecords
    rw [logStep]
    cases (ins n).action with
    | append r => exact ringAppend_head_lt ih
    | reboot => exact ringHead_lt L _

/-- A unit whose log is as its records say. -/
structure LogHolds (L : RingLog) (σ : LogUnit) (log : List LogRecord) : Prop where
  holds : RingHolds L σ.flash log
  keys : KeysOrdered L log
  head : σ.ring.head = log.length % L.totalRecords
  initialized : σ.ring.initialized = true

variable {σ : LogUnit} {i : LogInput}

theorem logHolds_boot {flash : Mem} (h : RingHolds L flash log) (hkeys : KeysOrdered L log)
    (bootNumber : ℕ) : LogHolds L (logBoot L flash bootNumber) log :=
  ⟨h, hkeys, h.ringHead hkeys, rfl⟩

/-- A step that appends, with no write that times out. -/
theorem logStep_append {outcomes : List WriteOutcome} (hinit : σ.ring.initialized = true)
    (hdone : AllDone outcomes) :
    (logStep L ⟨.append r, outcomes⟩ σ).flash =
        NorFlash.program (L.slotToAddr σ.ring.head) (stampLogRecord L σ.ring.bootCount r).bytes
          (erasedSector L σ.ring.head σ.flash) ∧
      (logStep L ⟨.append r, outcomes⟩ σ).ring =
        { σ.ring with head := (σ.ring.head + 1) % L.totalRecords } ∧
      appendedNext L ⟨.append r, outcomes⟩ σ log =
        log ++ [stampLogRecord L σ.ring.bootCount r] := by
  obtain ⟨hrc, hrecord, hstate, hmem⟩ :=
    ringAppend_done (L := L) (r := r) (d := ⟨σ.flash, outcomes⟩) hinit hdone
  refine ⟨hmem, hstate, ?_⟩
  rw [← hrecord]
  exact if_pos hrc

theorem logHolds_step (h : LogHolds L σ log) (hordered : AppendOrdered L i σ log) :
    LogHolds L (logStep L i σ) (appendedNext L i σ log) := by
  obtain ⟨action, outcomes⟩ := i
  cases action with
  | reboot => exact logHolds_boot h.holds h.keys _
  | append r =>
    obtain ⟨hdone, hlast⟩ := hordered r rfl
    obtain ⟨hflash, hring, hnext⟩ := @logStep_append L r log _ _ h.initialized hdone
    have hvalid := classify_stampLogRecord L σ.ring.bootCount r
    have hkey := recordKey_stampLogRecord L σ.ring.bootCount r
    generalize stampLogRecord L σ.ring.bootCount r = x at hflash hnext hvalid hkey
    rw [hnext]
    refine ⟨?_, h.keys.append ?_, ?_, ?_⟩
    · rw [hflash, h.head]
      exact h.holds.append hvalid
    · rw [hkey, ← h.head]
      exact hlast
    · rw [hring, List.length_append, h.head]
      exact Nat.mod_add_mod _ _ _
    · rw [hring]
      exact h.initialized

/-- A blank region holds no records. -/
theorem ringHolds_blank {flash : Mem} (h : Erased flash L.base L.regionSize) :
    RingHolds L flash [] := by
  refine ⟨fun j hj => absurd hj (Nat.not_lt_zero j), fun j _ _ => ?_,
    fun x hx => absurd hx List.not_mem_nil⟩
  have hslot := Nat.mod_lt j L.totalRecords_pos
  generalize j % L.totalRecords = p at hslot ⊢
  refine h.mono (Nat.le_add_right _ _) ?_
  simp only [RingLog.totalRecords, RingLog.slotToAddr, RingLog.regionSize, logRecordSize,
    logRecordsPerSector, w25qSectorSize] at hslot ⊢
  omega

theorem keysOrdered_nil : KeysOrdered L [] := nofun

theorem logHolds_run (b : LogPowerUp) (ins : ℕ → LogInput) (n : ℕ)
    (hblank : Erased b.flash L.base L.regionSize)
    (hordered : ∀ k < n, AppendOrdered L (ins k) (logRun L b ins k) (logAppended L b ins k)) :
    LogHolds L (logRun L b ins n) (logAppended L b ins n) := by
  induction n with
  | zero => exact logHolds_boot (ringHolds_blank hblank) keysOrdered_nil _
  | succ n ih =>
    refine logHolds_step (ih fun k hk => hordered k (Nat.lt_succ_of_lt hk)) ?_
    exact hordered n (Nat.lt_succ_self n)

/-- In a run from a blank region whose appends are all ordered, the scan after a reboot
finds the slot behind the record appended last, and the ring holds every record but
those of the sector that the next append takes over, the oldest ones. -/
theorem ring_head_found (L : RingLog) (b : LogPowerUp) (ins : ℕ → LogInput)
    (n : ℕ) (hblank : Erased b.flash L.base L.regionSize)
    (hordered : ∀ k < n, AppendOrdered L (ins k) (logRun L b ins k) (logAppended L b ins k)) :
    let σ := logRun L b ins n
    let log := logAppended L b ins n
    (logStep L ⟨.reboot, []⟩ σ).ring.head = log.length % L.totalRecords ∧
      ∀ j (h : j < log.length), sectorEnd log.length ≤ j + L.totalRecords →
        slotBytes L σ.flash (j % L.totalRecords) = log[j].bytes := by
  intro σ log
  have hheld := logHolds_run b ins n hblank hordered
  exact ⟨hheld.holds.ringHead hheld.keys, hheld.holds.kept⟩

def zeroLogRecord : LogRecord := ⟨List.replicate logRecordSize 0, List.length_replicate⟩

/-- A blank chip at its first boot. -/
def firstBoot : LogPowerUp := ⟨fun _ => NorFlash.blank, 1⟩

theorem allDone_nil : AllDone [] := nofun

/-- A session of zeroes on a blank chip: the next one goes to slot 1. -/
theorem ring_head_found_first :
    let ins : ℕ → LogInput := fun _ => ⟨.append zeroLogRecord, []⟩
    let σ := logRun sessionLog firstBoot ins 1
    let log := logAppended sessionLog firstBoot ins 1
    (logStep sessionLog ⟨.reboot, []⟩ σ).ring.head = log.length % sessionLog.totalRecords ∧
      ∀ j (h : j < log.length), sectorEnd log.length ≤ j + sessionLog.totalRecords →
        slotBytes sessionLog σ.flash (j % sessionLog.totalRecords) = log[j].bytes := by
  refine ring_head_found sessionLog firstBoot (fun _ => ⟨.append zeroLogRecord, []⟩) 1
    (fun _ _ _ => rfl) fun k hk => ?_
  rintro r _
  have hzero : k = 0 := by omega
  subst hzero
  exact ⟨allDone_nil, nofun⟩

/-! ## Ties across the end of the ring -/

/-- One event after the other in the same tick. -/
def sameTick : ℕ → LogInput := fun _ => ⟨.append zeroLogRecord, []⟩

/-- The record of every one of them. -/
def sameTickRecord (L : RingLog) : LogRecord := stampLogRecord L 1 zeroLogRecord

theorem logAppended_succ (L : RingLog) (b : LogPowerUp) (ins : ℕ → LogInput) (n : ℕ) :
    logAppended L b ins (n + 1) =
      appendedNext L (ins n) (logRun L b ins n) (logAppended L b ins n) := rfl

/-- The same record over and over. -/
def repeated (r : LogRecord) : ℕ → LogInput := fun _ => ⟨.append r, []⟩

theorem repeated_run (L : RingLog) (r : LogRecord) (n : ℕ) :
    (logRun L firstBoot (repeated r) n).ring.initialized = true ∧
      (logRun L firstBoot (repeated r) n).ring.bootCount = 1 ∧
      logAppended L firstBoot (repeated r) n = List.replicate n (stampLogRecord L 1 r) := by
  induction n with
  | zero => exact ⟨rfl, rfl, rfl⟩
  | succ n ih =>
    obtain ⟨hinit, hboot, hlog⟩ := ih
    obtain ⟨_, hring, hnext⟩ := @logStep_append L r
      (logAppended L firstBoot (repeated r) n) _ _ hinit allDone_nil
    have hring' : (logRun L firstBoot (repeated r) (n + 1)).ring = _ := hring
    rw [logAppended_succ]
    refine ⟨?_, ?_, ?_⟩
    · rw [hring']
      exact hinit
    · rw [hring']
      exact hboot
    · refine hnext.trans ?_
      rw [hlog, hboot, List.replicate_succ']

/-- The first lap is in order. -/
theorem repeated_ordered (L : RingLog) (r : LogRecord) {n : ℕ} (hn : n < L.totalRecords)
    (h : LogHolds L (logRun L firstBoot (repeated r) n) (logAppended L firstBoot (repeated r) n)) :
    AppendOrdered L (repeated r n) (logRun L firstBoot (repeated r) n)
      (logAppended L firstBoot (repeated r) n) := by
  obtain ⟨_, hboot, hlog⟩ := repeated_run L r n
  rintro r' hr
  cases hr
  refine ⟨allDone_nil, fun last hlast => ?_⟩
  rw [hlog] at hlast
  have hlast' : last = stampLogRecord L 1 r := List.eq_of_mem_replicate (List.mem_of_getLast? hlast)
  have hkey : recordKey L last.bytes =
      ⟨(logRun L firstBoot (repeated r) n).ring.bootCount, le32Load r.bytes logTimeOff⟩ := by
    rw [hlast', recordKey_stampLogRecord, hboot]
  refine ⟨?_, fun hhead => ?_⟩
  · exact LogKey.le_iff.mpr (Nat.le_of_eq (congrArg LogKey.toNat hkey))
  · -- the head is at the first slot only before the first append
    rw [h.head, hlog, List.length_replicate, Nat.mod_eq_of_lt hn] at hhead
    subst hhead
    cases hlast

theorem repeated_holds (L : RingLog) (r : LogRecord) (n : ℕ) (hn : n ≤ L.totalRecords) :
    LogHolds L (logRun L firstBoot (repeated r) n) (logAppended L firstBoot (repeated r) n) := by
  induction n with
  | zero => exact logHolds_boot (ringHolds_blank fun _ _ _ => rfl) keysOrdered_nil _
  | succ n ih =>
    exact logHolds_step (ih (by omega)) (repeated_ordered L r hn (ih (by omega)))

/-- The ring after one record more than a lap of them. -/
theorem repeated_lap (L : RingLog) (r : LogRecord) :
    RingHolds L (logRun L firstBoot (repeated r) (L.totalRecords + 1)).flash
      (List.replicate (L.totalRecords + 1) (stampLogRecord L 1 r)) := by
  have hheld := repeated_holds L r L.totalRecords (Nat.le_refl _)
  obtain ⟨_, hboot, hlog⟩ := repeated_run L r L.totalRecords
  obtain ⟨hflash, _, _⟩ := @logStep_append L r
    (logAppended L firstBoot (repeated r) L.totalRecords) _ _ hheld.initialized allDone_nil
  have hflash' : (logRun L firstBoot (repeated r) (L.totalRecords + 1)).flash = _ := hflash
  have happend := hheld.holds.append (classify_stampLogRecord L 1 r)
  rw [hflash', hheld.head, hboot, List.replicate_succ', ← hlog]
  exact happend

/-- When a lap of records and one more are of the same tick, the scan takes the last slot
of the ring for the latest one. -/
theorem sameTick_head (L : RingLog) (hsectors : 2 ≤ L.sectors) :
    (logStep L ⟨.reboot, []⟩ (logRun L firstBoot sameTick (L.totalRecords + 1))).ring.head = 0 := by
  have hpos := L.totalRecords_pos
  have hring : RingHolds L (logRun L firstBoot sameTick (L.totalRecords + 1)).flash
      (List.replicate (L.totalRecords + 1) (sameTickRecord L)) := repeated_lap L zeroLogRecord
  have hlength : (List.replicate (L.totalRecords + 1) (sameTickRecord L)).length =
      L.totalRecords + 1 := List.length_replicate
  generalize (logRun L firstBoot sameTick (L.totalRecords + 1)) = σ at hring ⊢
  have hslot : slotBytes L σ.flash (L.totalRecords - 1) = (sameTickRecord L).bytes := by
    have hkept := hring.kept (L.totalRecords - 1) (by omega) ?_
    · rw [Nat.mod_eq_of_lt (by omega), List.getElem_replicate] at hkept
      exact hkept
    · rw [hlength]
      simp only [sectorEnd, RingLog.totalRecords, logRecordsPerSector]
      omega
  have hlatest : Latest L σ.flash L.totalRecords (L.totalRecords - 1) := by
    refine ⟨by omega, ?_, fun p hp hvalid => .inr ⟨?_, by omega⟩⟩
    · rw [SlotValid, hslot]
      exact classify_stampLogRecord _ _ _
    · obtain ⟨j, hj, _, hbytes⟩ := hring.valid_slot hp hvalid
      rw [slotKey, slotKey, hslot, hbytes, List.getElem_replicate]
  show ringHead L σ.flash = 0
  rw [ringHead_of_latest hlatest, Nat.sub_add_cancel hpos, Nat.mod_self]

/-- The event log after 8193 events of one tick: the last one is in slot 0, and the scan
sets the head to it. -/
theorem event_log_head_lost :
    let log := logAppended eventLog firstBoot sameTick 8193
    log.length % eventLog.totalRecords = 1 ∧
      (logStep eventLog ⟨.reboot, []⟩ (logRun eventLog firstBoot sameTick 8193)).ring.head = 0 := by
  obtain ⟨_, _, hlog⟩ := repeated_run eventLog zeroLogRecord 8193
  refine ⟨?_, sameTick_head eventLog (by decide)⟩
  have hlog' : logAppended eventLog firstBoot sameTick 8193 = _ := hlog
  rw [hlog', List.length_replicate]
  rfl

end OpenEVCharger
