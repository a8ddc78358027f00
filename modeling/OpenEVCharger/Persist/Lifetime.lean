import Mathlib.Algebra.BigOperators.Intervals
import Mathlib.Algebra.Order.BigOperators.Group.Finset
import Mathlib.Order.Interval.Finset.Nat
import OpenEVCharger.Persist.RingHead

/-!
# The lifetime energy

The total energy that `handle_get_lifetime_kwh` reports is the sum over the sessions in
the log. The log keeps the sessions of the last lap only, so that an append to a sector
that comes round again takes the energy of its sessions out of the total.
-/

namespace OpenEVCharger

open NorFlash (Mem Agree Erased)

/-! ## The total -/

/-- `mwh_delivered` of a session. -/
abbrev sessionMwhOff : ℕ := 8

def slotMwh (m : Mem) (slot : ℕ) : ℕ :=
  match ringReadNth sessionLog slot m with
  | (0, some b) => (le32Load b sessionMwhOff).toNat
  | _ => 0

/-- `total_mwh`, over every slot of the log. -/
def lifetimeSum (m : Mem) : ℕ :=
  ∑ slot ∈ Finset.range sessionLog.totalRecords, slotMwh m slot

def handleGetLifetimeKwh (m : Mem) : UInt32 :=
  if 0xFFFFFFFF < lifetimeSum m then 0xFFFFFFFF else UInt32.ofNat (lifetimeSum m)

/-! ## What an append displaces -/

/-- The energy of a session as the total counts it. -/
def recordMwh (b : List UInt8) : ℕ :=
  if classifyRecord b = 1 then (le32Load b sessionMwhOff).toNat else 0

/-- An append finds the first slot of a sector, and not blank. -/
def EraseNeeded (m : Mem) (head : ℕ) : Prop :=
  head % logRecordsPerSector = 0 ∧
    ¬ (slotBytes sessionLog m head).all (fun x => decide (x = 0xFF))

instance (m : Mem) (head : ℕ) : Decidable (EraseNeeded m head) :=
  inferInstanceAs (Decidable (_ ∧ _))

/-- The slots an append writes: those of the sector that it erases, or its own. -/
def displacedSlots (m : Mem) (head : ℕ) : Finset ℕ :=
  if EraseNeeded m head then
    (Finset.range sessionLog.totalRecords).filter
      fun slot => slot / logRecordsPerSector = head / logRecordsPerSector
  else {head}

def displacedMwh (m : Mem) (head : ℕ) : ℕ := ∑ slot ∈ displacedSlots m head, slotMwh m slot

/-- What an append leaves in its slot: the record, or without an erase the bits that it
has in common with what the slot held. -/
def slotLeft (m : Mem) (head : ℕ) (r : LogRecord) : List UInt8 :=
  if EraseNeeded m head then r.bytes
  else List.zipWith (· &&& ·) (slotBytes sessionLog m head) r.bytes

/-- The energy displaced is no more than that of the session, or the total is at the
most that it can report. -/
def KeepsTotal (m : Mem) (head : ℕ) (r : LogRecord) : Prop :=
  displacedMwh m head ≤ recordMwh (slotLeft m head r) ∨
    0xFFFFFFFF ≤ lifetimeSum m - displacedMwh m head + recordMwh (slotLeft m head r)

def StepKeepsTotal (i : LogInput) (σ : LogUnit) : Prop :=
  match i.action with
  | .append r => KeepsTotal σ.flash σ.ring.head (stampLogRecord sessionLog σ.ring.bootCount r)
  | .reboot => True

/-! ## One append -/

variable {m m' : Mem} {head slot n : ℕ} {r : LogRecord} {log : List LogRecord}

theorem slotMwh_eq (h : slot < sessionLog.totalRecords) :
    slotMwh m slot = recordMwh (slotBytes sessionLog m slot) := by
  rw [slotMwh, ringReadNth, if_neg (Nat.not_le.mpr h), recordMwh, slotBytes]
  generalize NorFlash.read m (sessionLog.slotToAddr slot) logRecordSize = b
  by_cases hvalid : classifyRecord b = 1
  · simp only [if_pos hvalid]
  · simp only [if_neg hvalid]

theorem slotMwh_congr (h : slot < sessionLog.totalRecords)
    (hagree : Agree m' m (sessionLog.slotToAddr slot) logRecordSize) :
    slotMwh m' slot = slotMwh m slot := by
  rw [slotMwh_eq h, slotMwh_eq h, slotBytes, slotBytes, hagree.read]

theorem slotMwh_erased (h : slot < sessionLog.totalRecords)
    (herased : Erased m (sessionLog.slotToAddr slot) logRecordSize) : slotMwh m slot = 0 := by
  rw [slotMwh_eq h]
  exact if_neg (not_slotValid_of_erased herased)

/-- The total fits the sixty-four bits it is summed in. -/
theorem lifetimeSum_lt (m : Mem) : lifetimeSum m < 2 ^ 64 := by
  have hslot : ∀ slot ∈ Finset.range sessionLog.totalRecords, slotMwh m slot ≤ 2 ^ 32 := by
    intro slot hslot
    rw [slotMwh_eq (Finset.mem_range.mp hslot), recordMwh]
    split
    · exact Nat.le_of_lt (UInt32.toNat_lt _)
    · exact Nat.zero_le _
  have hsum := Finset.sum_le_card_nsmul _ _ _ hslot
  rw [Finset.card_range] at hsum
  exact Nat.lt_of_le_of_lt hsum (by decide)

theorem handleGetLifetimeKwh_toNat (m : Mem) :
    (handleGetLifetimeKwh m).toNat = min (lifetimeSum m) 0xFFFFFFFF := by
  rw [handleGetLifetimeKwh]
  split
  · next h =>
    rw [Nat.min_eq_right (Nat.le_of_lt h)]
    rfl
  · next h =>
    rw [Nat.min_eq_left (Nat.not_lt.mp h), UInt32.toNat_ofNat_of_lt']
    exact Nat.lt_succ_of_le (Nat.not_lt.mp h)

theorem reported_le_iff :
    handleGetLifetimeKwh m ≤ handleGetLifetimeKwh m' ↔
      lifetimeSum m ≤ lifetimeSum m' ∨ 0xFFFFFFFF ≤ lifetimeSum m' := by
  rw [UInt32.le_iff_toNat_le, handleGetLifetimeKwh_toNat, handleGetLifetimeKwh_toNat]
  omega

theorem displacedSlots_subset (h : head < sessionLog.totalRecords) :
    displacedSlots m head ⊆ Finset.range sessionLog.totalRecords := by
  rw [displacedSlots]
  split
  · exact Finset.filter_subset _ _
  · exact Finset.singleton_subset_iff.mpr (Finset.mem_range.mpr h)

theorem head_mem_displacedSlots (h : head < sessionLog.totalRecords) :
    head ∈ displacedSlots m head := by
  rw [displacedSlots]
  split
  · exact Finset.mem_filter.mpr ⟨Finset.mem_range.mpr h, rfl⟩
  · exact Finset.mem_singleton_self head

theorem erasedSector_needed (h : EraseNeeded m head) :
    erasedSector sessionLog head m =
      NorFlash.erase (sessionLog.sectorAddr head) w25qSectorSize m := if_pos h

theorem erasedSector_kept (h : ¬ EraseNeeded m head) : erasedSector sessionLog head m = m :=
  if_neg h

/-- The flash after an append. -/
def appended (m : Mem) (head : ℕ) (r : LogRecord) : Mem :=
  NorFlash.program (sessionLog.slotToAddr head) r.bytes (erasedSector sessionLog head m)

/-- The slots that are not displaced stay as they are. -/
theorem slotMwh_appended_other (h : slot < sessionLog.totalRecords)
    (hother : slot ∉ displacedSlots m head) : slotMwh (appended m head r) slot = slotMwh m slot := by
  refine slotMwh_congr h ?_
  by_cases hneeded : EraseNeeded m head
  · rw [displacedSlots, if_pos hneeded, Finset.mem_filter, not_and] at hother
    have hsector := hother (Finset.mem_range.mpr h)
    have hne : slot ≠ head := by
      rintro rfl
      exact hsector rfl
    exact (program_other hne r).trans (erasedSector_other (.inr hsector))
  · rw [displacedSlots, if_neg hneeded, Finset.mem_singleton] at hother
    rw [appended, erasedSector_kept hneeded]
    exact program_other hother r

/-- Of those displaced, the others are blank afterwards. -/
theorem slotMwh_appended_erased (hslot : slot ∈ displacedSlots m head) (hne : slot ≠ head) :
    slotMwh (appended m head r) slot = 0 := by
  by_cases hneeded : EraseNeeded m head
  · rw [displacedSlots, if_pos hneeded, Finset.mem_filter, Finset.mem_range] at hslot
    refine slotMwh_erased hslot.1 ?_
    rw [appended, erasedSector_needed hneeded]
    exact (erase_sector_slot hslot.2).congr (program_other hne r)
  · rw [displacedSlots, if_neg hneeded, Finset.mem_singleton] at hslot
    exact absurd hslot hne

/-- The slot written. -/
theorem slotMwh_appended_head (h : head < sessionLog.totalRecords) :
    slotMwh (appended m head r) head = recordMwh (slotLeft m head r) := by
  rw [slotMwh_eq h, slotBytes, slotLeft, appended]
  by_cases hneeded : EraseNeeded m head
  · rw [if_pos hneeded, erasedSector_needed hneeded]
    have herased : Erased (NorFlash.erase (sessionLog.sectorAddr head) w25qSectorSize m)
        (sessionLog.slotToAddr head) r.bytes.length := by
      rw [r.size]
      exact erase_sector_slot rfl
    have hread := NorFlash.read_program herased
    rw [r.size] at hread
    rw [hread]
  · rw [if_neg hneeded, erasedSector_kept hneeded]
    have hread := @NorFlash.read_program_and m (sessionLog.slotToAddr head) r.bytes
    rw [r.size] at hread
    rw [hread, slotBytes]

theorem displacedMwh_le (h : head < sessionLog.totalRecords) :
    displacedMwh m head ≤ lifetimeSum m :=
  Finset.sum_le_sum_of_subset (displacedSlots_subset h)

/-- An append takes the energy of the displaced slots out of the total and adds its own. -/
theorem lifetimeSum_appended (h : head < sessionLog.totalRecords) :
    lifetimeSum (appended m head r) =
      lifetimeSum m - displacedMwh m head + recordMwh (slotLeft m head r) := by
  have hsub := displacedSlots_subset (m := m) h
  have hbefore : lifetimeSum m = _ := (Finset.sum_sdiff hsub).symm
  have hafter : lifetimeSum (appended m head r) = _ := (Finset.sum_sdiff hsub).symm
  have hothers : ∑ slot ∈ Finset.range sessionLog.totalRecords \ displacedSlots m head,
      slotMwh (appended m head r) slot =
        ∑ slot ∈ Finset.range sessionLog.totalRecords \ displacedSlots m head, slotMwh m slot := by
    refine Finset.sum_congr rfl fun slot hslot => ?_
    rw [Finset.mem_sdiff, Finset.mem_range] at hslot
    exact slotMwh_appended_other hslot.1 hslot.2
  have hdisplaced : ∑ slot ∈ displacedSlots m head, slotMwh (appended m head r) slot =
      recordMwh (slotLeft m head r) := by
    rw [← slotMwh_appended_head h]
    refine Finset.sum_eq_single head (fun slot hslot hne => slotMwh_appended_erased hslot hne) ?_
    exact fun hnot => absurd (head_mem_displacedSlots h) hnot
  rw [hafter, hothers, hdisplaced, hbefore, displacedMwh, Nat.add_sub_cancel]

/-- What an append reports afterwards is no less exactly when it keeps the total. -/
theorem reported_append_iff (h : head < sessionLog.totalRecords) :
    handleGetLifetimeKwh m ≤ handleGetLifetimeKwh (appended m head r) ↔ KeepsTotal m head r := by
  have hle := displacedMwh_le (m := m) h
  rw [reported_le_iff, lifetimeSum_appended h, KeepsTotal]
  generalize displacedMwh m head = displaced at hle ⊢
  generalize lifetimeSum m = total at hle ⊢
  omega

/-! ## Runs -/

variable {b : LogPowerUp} {ins : ℕ → LogInput} {σ : LogUnit} {i : LogInput}

/-- The log is initialized, and its head is one of its slots. -/
structure HeadInRing (σ : LogUnit) : Prop where
  initialized : σ.ring.initialized = true
  head : σ.ring.head < sessionLog.totalRecords

theorem headInRing_boot (flash : Mem) (bootNumber : ℕ) :
    HeadInRing (logBoot sessionLog flash bootNumber) :=
  ⟨rfl, ringHead_lt sessionLog flash⟩

theorem headInRing_step (h : HeadInRing σ) (hdone : AllDone i.outcomes) :
    HeadInRing (logStep sessionLog i σ) := by
  obtain ⟨action, outcomes⟩ := i
  cases action with
  | reboot => exact headInRing_boot _ _
  | append r =>
    obtain ⟨_, hring, _⟩ := @logStep_append sessionLog r [] _ _ h.initialized hdone
    constructor
    · rw [hring]
      exact h.initialized
    · rw [hring]
      exact Nat.mod_lt _ sessionLog.totalRecords_pos

/-- A step reports no less afterwards exactly when it keeps the total. -/
theorem reported_step_iff (h : HeadInRing σ) (hdone : AllDone i.outcomes) :
    handleGetLifetimeKwh σ.flash ≤ handleGetLifetimeKwh (logStep sessionLog i σ).flash ↔
      StepKeepsTotal i σ := by
  obtain ⟨action, outcomes⟩ := i
  cases action with
  | reboot => exact iff_of_true (UInt32.le_refl _) trivial
  | append r =>
    obtain ⟨hflash, _, _⟩ := @logStep_append sessionLog r [] _ _ h.initialized hdone
    rw [hflash]
    exact reported_append_iff h.head

theorem headInRing_run (hdone : ∀ k < n, AllDone (ins k).outcomes) :
    HeadInRing (logRun sessionLog b ins n) := by
  induction n with
  | zero => exact headInRing_boot _ _
  | succ n ih =>
    have hbefore := ih fun k hk => hdone k (Nat.lt_succ_of_lt hk)
    exact headInRing_step hbefore (hdone n (Nat.lt_succ_self n))

/-- Up to any step of a run of appends and reboots, the total reported has never gone
down exactly when no append has displaced more energy than it brought. -/
theorem lifetime_kept_iff (b : LogPowerUp) (ins : ℕ → LogInput) (n : ℕ)
    (hdone : ∀ k < n, AllDone (ins k).outcomes) :
    (∀ k < n, handleGetLifetimeKwh (logRun sessionLog b ins k).flash ≤
        handleGetLifetimeKwh (logRun sessionLog b ins (k + 1)).flash) ↔
      ∀ k < n, StepKeepsTotal (ins k) (logRun sessionLog b ins k) := by
  have hstep : ∀ k < n, (handleGetLifetimeKwh (logRun sessionLog b ins k).flash ≤
      handleGetLifetimeKwh (logRun sessionLog b ins (k + 1)).flash ↔
        StepKeepsTotal (ins k) (logRun sessionLog b ins k)) := by
    intro k hk
    have hhead : HeadInRing (logRun sessionLog b ins k) :=
      headInRing_run fun j hj => hdone j (Nat.lt_trans hj hk)
    exact reported_step_iff hhead (hdone k hk)
  constructor
  · exact fun h k hk => (hstep k hk).mp (h k hk)
  · exact fun h k hk => (hstep k hk).mpr (h k hk)

/-! ## The sessions of the last lap -/

theorem sum_getD {l : List ℕ} (h : l.length ≤ n) : ∑ i ∈ Finset.range n, l.getD i 0 = l.sum := by
  induction l generalizing n with
  | nil => exact Finset.sum_eq_zero fun i _ => rfl
  | cons x xs ih =>
    obtain ⟨k, rfl⟩ : ∃ k, n = k + 1 := ⟨n - 1, by rw [List.length_cons] at h; omega⟩
    rw [Finset.sum_range_succ', List.sum_cons, Nat.add_comm]
    exact congrArg (x + ·) (ih (Nat.le_of_succ_le_succ h))

theorem sum_getD_drop {l : List ℕ} {a : ℕ} (h : l.length ≤ a + n) :
    ∑ j ∈ Finset.Ico a (a + n), l.getD j 0 = (l.drop a).sum := by
  have hdrop : (l.drop a).length ≤ n := by
    rw [List.length_drop]
    omega
  rw [Finset.sum_Ico_eq_sum_range, Nat.add_sub_cancel_left, ← sum_getD hdrop]
  refine Finset.sum_congr rfl fun i _ => ?_
  rw [List.getD_eq_getElem?_getD, List.getD_eq_getElem?_getD, List.getElem?_drop]

/-- The sum over the slots, as one over a lap of records. -/
theorem lifetimeSum_lap (m : Mem) (a : ℕ) :
    lifetimeSum m = ∑ j ∈ Finset.Ico a (a + sessionLog.totalRecords),
      slotMwh m (j % sessionLog.totalRecords) := by
  rw [lifetimeSum, ← Nat.image_Ico_mod a sessionLog.totalRecords]
  exact Finset.sum_image (Nat.mod_injOn_Ico a sessionLog.totalRecords)

/-- The total is that of the sessions whose sectors have not come round again. -/
theorem lifetimeSum_holds (h : RingHolds sessionLog m log) :
    lifetimeSum m = ((log.map fun r => recordMwh r.bytes).drop
      (sectorEnd log.length - sessionLog.totalRecords)).sum := by
  have hpos := sessionLog.totalRecords_pos
  have hend := le_sectorEnd log.length
  rw [lifetimeSum_lap m (sectorEnd log.length - sessionLog.totalRecords),
    ← @sum_getD_drop sessionLog.totalRecords]
  · refine Finset.sum_congr rfl fun j hj => ?_
    rw [Finset.mem_Ico] at hj
    have hslot := Nat.mod_lt j hpos
    rw [List.getD_eq_getElem?_getD, List.getElem?_map]
    rcases Nat.lt_or_ge j log.length with hlt | hge
    · -- a record of the last lap is in its slot
      rw [slotMwh_eq hslot, h.kept j hlt (by omega), List.getElem?_eq_getElem hlt]
      rfl
    · rw [slotMwh_erased hslot (h.blank j hge (by omega)), List.getElem?_eq_none hge]
      rfl
  · rw [List.length_map]
    omega

/-- A session of one milliwatt-hour. -/
def oneMwhRecord : LogRecord := zeroLogRecord.setWord sessionMwhOff 1

theorem lifetime_kept_iff_first :
    (∀ k < 1, handleGetLifetimeKwh (logRun sessionLog firstBoot (repeated oneMwhRecord) k).flash ≤
        handleGetLifetimeKwh (logRun sessionLog firstBoot (repeated oneMwhRecord) (k + 1)).flash) ↔
      ∀ k < 1, StepKeepsTotal (repeated oneMwhRecord k)
        (logRun sessionLog firstBoot (repeated oneMwhRecord) k) :=
  lifetime_kept_iff firstBoot (repeated oneMwhRecord) 1 fun _ _ => allDone_nil

/-- The session after a lap of them takes a sector of sessions out of the total. -/
theorem lifetime_lost :
    handleGetLifetimeKwh (logRun sessionLog firstBoot (repeated oneMwhRecord) 1024).flash = 1024 ∧
      handleGetLifetimeKwh (logRun sessionLog firstBoot (repeated oneMwhRecord) 1025).flash =
        897 := by
  have hmwh : recordMwh (stampLogRecord sessionLog 1 oneMwhRecord).bytes = 1 := by
    rw [recordMwh, if_pos (classify_stampLogRecord _ _ _)]
    decide
  have htotal : ∀ n m, RingHolds sessionLog m
      (List.replicate n (stampLogRecord sessionLog 1 oneMwhRecord)) →
        lifetimeSum m = n - (sectorEnd n - sessionLog.totalRecords) := by
    intro n m h
    rw [lifetimeSum_holds h, List.map_replicate, hmwh, List.length_replicate, List.drop_replicate,
      List.sum_replicate, Nat.nsmul_eq_mul, Nat.mul_one]
  have hlap := (repeated_holds sessionLog oneMwhRecord 1024 (Nat.le_refl _)).holds
  rw [(repeated_run sessionLog oneMwhRecord 1024).2.2] at hlap
  have hnext : RingHolds sessionLog (logRun sessionLog firstBoot (repeated oneMwhRecord) 1025).flash
      (List.replicate 1025 (stampLogRecord sessionLog 1 oneMwhRecord)) :=
    repeated_lap sessionLog oneMwhRecord
  refine ⟨?_, ?_⟩
  · rw [← UInt32.toNat_inj, handleGetLifetimeKwh_toNat, htotal 1024 _ hlap]
    rfl
  · rw [← UInt32.toNat_inj, handleGetLifetimeKwh_toNat, htotal 1025 _ hnext]
    rfl

end OpenEVCharger
