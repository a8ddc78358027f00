import OpenEVCharger.Persist.Pingpong

/-!
# Interrupted ping-pong stores

A store issues two or three writes: the erase and the program of the target slot,
and the erase of the other one when it was current. Wherever power is lost among
them, the load finds the record it found before or the one being stored.
-/

namespace OpenEVCharger

open NorFlash (Mem Agree Erased Write Interrupted)

/-! ## The writes of a store -/

def eraseWrite (addr : ℕ) : Write where
  touched := NorFlash.within (sectorBase addr) w25qSectorSize
  result m := NorFlash.erase (sectorBase addr) w25qSectorSize m

def programWrite (addr : ℕ) (buf : List UInt8) : Write where
  touched := pageTouched addr buf.length
  result m := NorFlash.patch (pageTouched addr buf.length)
    (fun x => m x &&& buf.getD (pageIndex addr x) NorFlash.blank) m

/-- The slot that a store finds current. -/
def storeCurrent (addrA addrB : ℕ) (record : List UInt8) (m : Mem) : Option (Slot × UInt32) :=
  currentSlot (readAndValidate addrA record.length m) (readAndValidate addrB record.length m)

/-- The writes of `pingpong_store`, in order. -/
def storeWrites (addrA addrB : ℕ) (record : List UInt8) (m : Mem) : List Write :=
  let current := storeCurrent addrA addrB record m
  let target := targetSlot current
  [eraseWrite (slotAddr addrA addrB target),
    programWrite (slotAddr addrA addrB target) (stampRecord (nextCounter current) record)] ++
  if current.isSome then [eraseWrite (slotAddr addrA addrB target.other)] else []

/-- A cut-off write leaves every slot failing its checksum, as the write would have or
as it was. -/
def SlotsTorn (addrA addrB size : ℕ) (before completed m : Mem) : Prop :=
  ∀ slot, recordValid (NorFlash.read m (slotAddr addrA addrB slot) size) = false ∨
    NorFlash.read m (slotAddr addrA addrB slot) size =
      NorFlash.read completed (slotAddr addrA addrB slot) size ∨
    NorFlash.read m (slotAddr addrA addrB slot) size =
      NorFlash.read before (slotAddr addrA addrB slot) size

variable {addrA addrB : ℕ} {record : List UInt8} {d : W25q} {m m' : Mem}

/-! ## What a load finds -/

theorem Slot.other_other (slot : Slot) : slot.other.other = slot := by
  cases slot with
  | A => rfl
  | B => rfl

theorem Slot.eq_or_eq_other (slot target : Slot) : slot = target ∨ slot = target.other := by
  cases slot <;> cases target <;> simp [Slot.other]

/-- The current slot holds a record, with its counter. -/
theorem currentSlot_some {a b : SlotRead} {slot : Slot} {counter : UInt32}
    (h : currentSlot a b = some (slot, counter)) :
    (match slot with | .A => a | .B => b).valid = true ∧
      (match slot with | .A => a | .B => b).counter = counter := by
  rw [currentSlot] at h
  split at h
  · next hA =>
    cases h
    rw [Bool.and_eq_true] at hA
    exact ⟨hA.1, rfl⟩
  · split at h
    · next hB =>
      cases h
      exact ⟨hB, rfl⟩
    · cases h

/-- The load of a slot that is current. -/
theorem pingpongLoad_current {size : ℕ} {slot : Slot} {counter : UInt32}
    (hsize : pingpongSizeOk size = true)
    (hcur : currentSlot (readAndValidate addrA size m) (readAndValidate addrB size m) =
      some (slot, counter)) :
    recordValid (NorFlash.read m (slotAddr addrA addrB slot) size) = true ∧
      counter = le32Load (NorFlash.read m (slotAddr addrA addrB slot) size) counterOff ∧
      pingpongLoad addrA addrB size m =
        (0, NorFlash.read m (slotAddr addrA addrB slot) size, some (slot, counter)) := by
  rw [pingpongLoad_eq hsize, loadCurrent, hcur]
  obtain ⟨hvalid, hcounter⟩ := currentSlot_some hcur
  cases slot with
  | A =>
    replace hvalid : recordValid (NorFlash.read m addrA size) = true := hvalid
    refine ⟨hvalid, ?_, rfl⟩
    rw [← hcounter]
    exact if_pos hvalid
  | B =>
    replace hvalid : recordValid (NorFlash.read m addrB size) = true := hvalid
    refine ⟨hvalid, ?_, rfl⟩
    rw [← hcounter]
    exact if_pos hvalid

theorem pingpongLoad_none {size : ℕ} (hsize : pingpongSizeOk size = true)
    (hcur : currentSlot (readAndValidate addrA size m) (readAndValidate addrB size m) = none) :
    pingpongLoad addrA addrB size m = (1, List.replicate size 0, none) := by
  rw [pingpongLoad_eq hsize, loadCurrent, hcur]

theorem invalid_of_currentSlot_none {size : ℕ}
    (hcur : currentSlot (readAndValidate addrA size m) (readAndValidate addrB size m) = none)
    (slot : Slot) : recordValid (NorFlash.read m (slotAddr addrA addrB slot) size) = false := by
  obtain ⟨hA, hB⟩ := currentSlot_eq_none hcur
  cases slot with
  | A => exact hA
  | B => exact hB

/-- The store turns away from the slot that is current. -/
theorem other_targetSlot (slot : Slot) (counter : UInt32) :
    (targetSlot (some (slot, counter))).other = slot := by
  cases slot with
  | A => rfl
  | B => rfl

/-! ## What a load finds after a store that is cut off -/

section Cut

variable (hsize : pingpongSizeOk record.length = true)

include hsize

theorem size_bounds : 12 ≤ record.length ∧ record.length ≤ 256 := by
  simpa [pingpongSizeOk] using hsize

/-- With the other slot as it was and the target slot invalid or holding the new
record, the load finds what it found before or the new record. -/
theorem load_of_other_kept
    (hother : NorFlash.read m'
        (slotAddr addrA addrB (targetSlot (storeCurrent addrA addrB record m)).other)
        record.length =
      NorFlash.read m
        (slotAddr addrA addrB (targetSlot (storeCurrent addrA addrB record m)).other)
        record.length)
    (htarget : recordValid (NorFlash.read m'
        (slotAddr addrA addrB (targetSlot (storeCurrent addrA addrB record m))) record.length) =
          false ∨
      NorFlash.read m' (slotAddr addrA addrB (targetSlot (storeCurrent addrA addrB record m)))
        record.length = stampRecord (nextCounter (storeCurrent addrA addrB record m)) record) :
    pingpongLoad addrA addrB record.length m' = pingpongLoad addrA addrB record.length m ∨
      pingpongLoad addrA addrB record.length m' =
        (0, stampRecord (nextCounter (storeCurrent addrA addrB record m)) record,
          some (targetSlot (storeCurrent addrA addrB record m),
            nextCounter (storeCurrent addrA addrB record m))) := by
  generalize hcur : storeCurrent addrA addrB record m = current at hother htarget ⊢
  rw [storeCurrent] at hcur
  cases hcur' : currentSlot (readAndValidate addrA record.length m')
    (readAndValidate addrB record.length m') with
  | none =>
    left
    rw [pingpongLoad_none hsize hcur']
    cases current with
    | none => rw [pingpongLoad_none hsize hcur]
    | some c =>
      -- the slot that was current still is valid
      obtain ⟨slot, counter⟩ := c
      have hvalid := (pingpongLoad_current hsize hcur).1
      rw [other_targetSlot] at hother
      rw [← hother, invalid_of_currentSlot_none hcur' slot] at hvalid
      cases hvalid
  | some c' =>
    obtain ⟨slot', counter'⟩ := c'
    obtain ⟨hvalid', hcounter', hload'⟩ := pingpongLoad_current hsize hcur'
    rw [hload']
    rcases Slot.eq_or_eq_other slot' (targetSlot current) with htgt | htgt
    · right
      subst htgt
      rcases htarget with hinvalid | hstamped
      · rw [hinvalid] at hvalid'
        cases hvalid'
      · rw [hstamped] at hcounter' ⊢
        rw [hcounter', counter_stampRecord (size_bounds hsize).1]
    · left
      subst htgt
      rw [hother] at hvalid' hcounter' ⊢
      cases current with
      | none =>
        rw [invalid_of_currentSlot_none hcur] at hvalid'
        cases hvalid'
      | some c =>
        obtain ⟨slot, counter⟩ := c
        obtain ⟨_, hcounter, hload⟩ := pingpongLoad_current hsize hcur
        rw [other_targetSlot] at hcounter' ⊢
        rw [hload, hcounter', hcounter]

/-- With the new record in the target slot and the other slot invalid, the load finds
the new record. -/
theorem load_of_retired {current : Option (Slot × UInt32)}
    (hother : recordValid (NorFlash.read m' (slotAddr addrA addrB (targetSlot current).other)
      record.length) = false)
    (htarget : NorFlash.read m' (slotAddr addrA addrB (targetSlot current)) record.length =
      stampRecord (nextCounter current) record) :
    pingpongLoad addrA addrB record.length m' =
      (0, stampRecord (nextCounter current) record,
        some (targetSlot current, nextCounter current)) := by
  refine pingpongLoad_of_slots hsize ?_ hother
  have hlen := (size_bounds hsize).1
  rw [readAndValidate, htarget, recordValid_stampRecord hlen, if_pos rfl, counter_stampRecord hlen]

end Cut

/-! ## The writes one by one -/

variable {slot : Slot} {n : ℕ}

theorem eraseWrite_run (addr : ℕ) (m : Mem) :
    (eraseWrite addr).run m = NorFlash.erase (sectorBase addr) w25qSectorSize m := by
  funext x
  rw [Write.run, NorFlash.patch]
  split
  · rfl
  · next hx => exact (NorFlash.patch_of_not_touched (Bool.eq_false_iff.mpr hx)).symm

theorem programWrite_run (addr : ℕ) (buf : List UInt8) (m : Mem) :
    (programWrite addr buf).run m = NorFlash.patch (pageTouched addr buf.length)
      (fun x => m x &&& buf.getD (pageIndex addr x) NorFlash.blank) m := by
  funext x
  rw [Write.run, NorFlash.patch]
  split
  · rfl
  · next hx => exact (NorFlash.patch_of_not_touched (Bool.eq_false_iff.mpr hx)).symm

theorem eraseWrite_other (h : SlotPair addrA addrB) (slot : Slot) (hn : n ≤ w25qSectorSize) :
    ∀ x, slotAddr addrA addrB slot.other ≤ x → x < slotAddr addrA addrB slot.other + n →
      (eraseWrite (slotAddr addrA addrB slot)).touched x = false := by
  refine NorFlash.not_within_of_disjoint ?_
  rw [h.base]
  rcases h.disjoint slot with hd | hd
  · exact .inr hd
  · exact .inl (by omega)

theorem programWrite_other (h : SlotPair addrA addrB) (slot : Slot) {buf : List UInt8}
    (hbuf : buf.length ≤ 256) (hn : n ≤ w25qSectorSize) :
    ∀ x, slotAddr addrA addrB slot.other ≤ x → x < slotAddr addrA addrB slot.other + n →
      (programWrite (slotAddr addrA addrB slot) buf).touched x = false := by
  intro x h1 h2
  refine Bool.eq_false_iff.mpr fun htouched => ?_
  obtain ⟨h3, h4⟩ := pageTouched_bounds htouched (h.page slot hbuf)
  have hd := h.disjoint slot
  rw [w25qSectorSize] at hd hn
  omega

/-- An erase leaves its slot blank. -/
theorem read_eraseWrite (h : SlotPair addrA addrB) (slot : Slot) (hn : n ≤ w25qSectorSize) :
    NorFlash.read ((eraseWrite (slotAddr addrA addrB slot)).run m) (slotAddr addrA addrB slot) n =
      List.replicate n NorFlash.blank := by
  refine Erased.read fun x h1 h2 => ?_
  have hin : NorFlash.within (sectorBase (slotAddr addrA addrB slot)) w25qSectorSize x = true := by
    rw [h.base, NorFlash.within_iff]
    omega
  rw [Write.run, eraseWrite, NorFlash.patch_of_touched hin]
  show NorFlash.erase (sectorBase (slotAddr addrA addrB slot)) w25qSectorSize m x = NorFlash.blank
  exact NorFlash.patch_of_touched hin

/-- A program of a blank slot leaves its record. -/
theorem read_programWrite (h : SlotPair addrA addrB) (slot : Slot) {buf : List UInt8}
    (hbuf : buf.length ≤ 256)
    (hblank : Erased m (slotAddr addrA addrB slot) buf.length) :
    NorFlash.read ((programWrite (slotAddr addrA addrB slot) buf).run m)
      (slotAddr addrA addrB slot) buf.length = buf := by
  rw [programWrite_run, w25qProgram_eq (d := ⟨m, []⟩) (h.page slot hbuf)]
  exact NorFlash.read_program hblank

theorem storeWrites_eq (addrA addrB : ℕ) (record : List UInt8) (m : Mem) :
    storeWrites addrA addrB record m =
      eraseWrite (slotAddr addrA addrB (targetSlot (storeCurrent addrA addrB record m))) ::
      programWrite (slotAddr addrA addrB (targetSlot (storeCurrent addrA addrB record m)))
        (stampRecord (nextCounter (storeCurrent addrA addrB record m)) record) ::
      if (storeCurrent addrA addrB record m).isSome then
        [eraseWrite (slotAddr addrA addrB (targetSlot (storeCurrent addrA addrB record m)).other)]
      else [] := rfl

/-! ## Interrupted stores -/

section Store

variable (h : SlotPair addrA addrB) (hsize : pingpongSizeOk record.length = true)

include h hsize

/-- The slots after the first write of a store. -/
theorem read_after_erase (slot : Slot) :
    NorFlash.read ((eraseWrite (slotAddr addrA addrB slot)).run m)
        (slotAddr addrA addrB slot.other) record.length =
      NorFlash.read m (slotAddr addrA addrB slot.other) record.length ∧
    recordValid (NorFlash.read ((eraseWrite (slotAddr addrA addrB slot)).run m)
      (slotAddr addrA addrB slot) record.length) = false := by
  have hn : record.length ≤ w25qSectorSize :=
    Nat.le_trans (size_bounds hsize).2 (by decide)
  refine ⟨(Write.agree_run (eraseWrite_other h slot hn)).read, ?_⟩
  rw [read_eraseWrite h slot hn]
  exact not_recordValid_erased hsize

/-- The slots after the second write of a store. -/
theorem read_after_program (slot : Slot) (counter : UInt32) :
    NorFlash.read ((programWrite (slotAddr addrA addrB slot) (stampRecord counter record)).run
          ((eraseWrite (slotAddr addrA addrB slot)).run m))
        (slotAddr addrA addrB slot.other) record.length =
      NorFlash.read m (slotAddr addrA addrB slot.other) record.length ∧
    NorFlash.read ((programWrite (slotAddr addrA addrB slot) (stampRecord counter record)).run
          ((eraseWrite (slotAddr addrA addrB slot)).run m))
        (slotAddr addrA addrB slot) record.length = stampRecord counter record := by
  have hbounds := size_bounds hsize
  have hn : record.length ≤ w25qSectorSize := Nat.le_trans hbounds.2 (by decide)
  have hlen := length_stampRecord counter hbounds.1
  have hbuf : (stampRecord counter record).length ≤ 256 := hlen ▸ hbounds.2
  constructor
  · rw [(Write.agree_run (programWrite_other h slot hbuf hn)).read]
    exact (read_after_erase h hsize slot).1
  · have hblank : Erased ((eraseWrite (slotAddr addrA addrB slot)).run m)
        (slotAddr addrA addrB slot) (stampRecord counter record).length := by
      rw [hlen]
      exact NorFlash.erased_of_read (read_eraseWrite h slot hn)
    have hread := read_programWrite h slot hbuf hblank
    rw [hlen] at hread
    exact hread

/-- Wherever a store loses power, the load finds what it found before the store or the
new record. -/
theorem load_interrupted
    (hloss : Interrupted (SlotsTorn addrA addrB record.length)
      (storeWrites addrA addrB record m) m m') :
    pingpongLoad addrA addrB record.length m' = pingpongLoad addrA addrB record.length m ∨
      pingpongLoad addrA addrB record.length m' =
        (0, stampRecord (nextCounter (storeCurrent addrA addrB record m)) record,
          some (targetSlot (storeCurrent addrA addrB record m),
            nextCounter (storeCurrent addrA addrB record m))) := by
  have hbounds := size_bounds hsize
  have hn : record.length ≤ w25qSectorSize := Nat.le_trans hbounds.2 (by decide)
  have hkept := @load_of_other_kept addrA addrB record m
  rw [storeWrites_eq] at hloss
  generalize storeCurrent addrA addrB record m = current at hkept hloss ⊢
  have hbuf : (stampRecord (nextCounter current) record).length ≤ 256 := by
    rw [length_stampRecord _ hbounds.1]
    exact hbounds.2
  obtain ⟨herased, hblank⟩ := read_after_erase (m := m) h hsize (targetSlot current)
  obtain ⟨hother, htarget⟩ :=
    read_after_program (m := m) h hsize (targetSlot current) (nextCounter current)
  cases hloss with
  | before => exact .inl rfl
  | within _ hout htorn =>
    -- cut off in the erase of the target slot
    have hsame : NorFlash.read m' (slotAddr addrA addrB (targetSlot current).other)
        record.length =
        NorFlash.read m (slotAddr addrA addrB (targetSlot current).other) record.length :=
      Agree.read fun x h1 h2 => hout x (eraseWrite_other h _ hn x h1 h2)
    rcases htorn (targetSlot current) with hinvalid | hdone | hkeep
    · exact hkept hsize hsame (.inl hinvalid)
    · refine hkept hsize hsame (.inl ?_)
      rw [hdone]
      exact hblank
    · exact .inl (pingpongLoad_congr (targetSlot current) hkeep hsame)
  | later hloss =>
  cases hloss with
  | before => exact hkept hsize herased (.inl hblank)
  | within _ hout htorn =>
    -- cut off in the program of the target slot
    refine hkept hsize ?_ ?_
    · rw [← herased]
      exact Agree.read fun x h1 h2 => hout x (programWrite_other h _ hbuf hn x h1 h2)
    · rcases htorn (targetSlot current) with hinvalid | hdone | hkeep
      · exact .inl hinvalid
      · rw [hdone]
        exact .inr htarget
      · rw [hkeep]
        exact .inl hblank
  | later hloss =>
  cases current with
  | none =>
    cases hloss
    exact hkept hsize hother (.inr htarget)
  | some c =>
  generalize htgt : targetSlot (some c) = target at hkept hbuf hother htarget herased hblank hloss ⊢
  -- the new record stays while the slot that was current is erased
  have hstay := eraseWrite_other (n := record.length) h target.other hn
  rw [Slot.other_other] at hstay
  have hretired : recordValid (NorFlash.read m' (slotAddr addrA addrB target.other)
        record.length) = false →
      NorFlash.read m' (slotAddr addrA addrB target) record.length =
        stampRecord (nextCounter (some c)) record →
      pingpongLoad addrA addrB record.length m' =
        (0, stampRecord (nextCounter (some c)) record, some (target, nextCounter (some c))) := by
    intro h1 h2
    rw [← htgt] at h1 h2 ⊢
    exact load_of_retired hsize h1 h2
  cases hloss with
  | before => exact hkept hsize hother (.inr htarget)
  | within _ hout htorn =>
    -- cut off in the erase of the slot that was current
    have hnew : NorFlash.read m' (slotAddr addrA addrB target) record.length =
        stampRecord (nextCounter (some c)) record := by
      rw [← htarget]
      exact Agree.read fun x h1 h2 => hout x (hstay x h1 h2)
    rcases htorn target.other with hinvalid | hdone | hkeep
    · exact .inr (hretired hinvalid hnew)
    · refine .inr (hretired ?_ hnew)
      rw [hdone]
      exact (read_after_erase h hsize target.other).2
    · exact hkept hsize (hkeep.trans hother) (.inr hnew)
  | later hloss =>
    cases hloss
    right
    refine hretired (read_after_erase h hsize target.other).2 ?_
    exact (Write.agree_run hstay).read.trans htarget

/-- A store that is cut off returns the load to what it found before the store or to the
record stored; a record that could be loaded before leaves one to load. -/
theorem store_power_loss
    (hloss : Interrupted (SlotsTorn addrA addrB record.length)
      (storeWrites addrA addrB record m) m m') :
    (pingpongLoad addrA addrB record.length m' = pingpongLoad addrA addrB record.length m ∨
      pingpongLoad addrA addrB record.length m' =
        (0, stampRecord (nextCounter (storeCurrent addrA addrB record m)) record,
          some (targetSlot (storeCurrent addrA addrB record m),
            nextCounter (storeCurrent addrA addrB record m)))) ∧
    ((pingpongLoad addrA addrB record.length m).1 = 0 →
      (pingpongLoad addrA addrB record.length m').1 = 0) := by
  have hcases := load_interrupted h hsize hloss
  refine ⟨hcases, fun hbefore => ?_⟩
  rcases hcases with hsame | hnew
  · rw [hsame]
    exact hbefore
  · rw [hnew]

end Store

def blankChip : Mem := fun _ => NorFlash.blank

theorem not_valid_blankChip {size : ℕ} (hsize : pingpongSizeOk size = true) (addr : ℕ) :
    (readAndValidate addr size blankChip).valid = false := by
  have hread : NorFlash.read blankChip addr size = List.replicate size NorFlash.blank :=
    Erased.read fun _ _ _ => rfl
  rw [readAndValidate, hread]
  exact not_recordValid_erased hsize

/-- A record of 32 bytes, as all records but one are. -/
def zeroRecord : List UInt8 := List.replicate 32 0

/-- The slots of the boot configuration. -/
theorem slotPair_boot : SlotPair 0x0000 0x1000 := ⟨rfl, rfl, nofun⟩

theorem store_power_loss_completed :
    let after := NorFlash.runWrites (storeWrites 0x0000 0x1000 zeroRecord blankChip) blankChip
    let current := storeCurrent 0x0000 0x1000 zeroRecord blankChip
    (pingpongLoad 0x0000 0x1000 zeroRecord.length after =
        pingpongLoad 0x0000 0x1000 zeroRecord.length blankChip ∨
      pingpongLoad 0x0000 0x1000 zeroRecord.length after =
        (0, stampRecord (nextCounter current) zeroRecord,
          some (targetSlot current, nextCounter current))) ∧
    ((pingpongLoad 0x0000 0x1000 zeroRecord.length blankChip).1 = 0 →
      (pingpongLoad 0x0000 0x1000 zeroRecord.length after).1 = 0) :=
  store_power_loss slotPair_boot rfl (Interrupted.of_runWrites _ _)

/-- With no record yet, a store that is cut off before its first write leaves none. -/
theorem first_store_lost :
    ¬ ∀ m m' : Mem, Interrupted (SlotsTorn 0x0000 0x1000 32)
        (storeWrites 0x0000 0x1000 zeroRecord m) m m' →
      (pingpongLoad 0x0000 0x1000 32 m').1 = 0 := by
  intro hall
  have hloaded := hall blankChip blankChip (.before _ _)
  have hinvalid := not_valid_blankChip (show pingpongSizeOk 32 = true from rfl)
  have hnone : currentSlot (readAndValidate 0x0000 32 blankChip)
      (readAndValidate 0x1000 32 blankChip) = none := by
    rw [currentSlot, hinvalid, hinvalid]
    rfl
  rw [pingpongLoad_none rfl hnone] at hloaded
  cases hloaded

/-! ## Histories of stores -/

/-- Stores of records of one size, in order, each completed or cut off. -/
inductive StoreHistory (addrA addrB size : ℕ) : List (List UInt8) → Mem → Mem → Prop where
  | nil (m : Mem) : StoreHistory addrA addrB size [] m m
  | cons {record : List UInt8} {records : List (List UInt8)} {m m' m'' : Mem}
      (hlen : record.length = size)
      (hloss : Interrupted (SlotsTorn addrA addrB size) (storeWrites addrA addrB record m) m m')
      (hrest : StoreHistory addrA addrB size records m' m'') :
      StoreHistory addrA addrB size (record :: records) m m''

/-- Whatever is cut off, the load finds what it found at first or one of the records
stored since. -/
theorem load_history {size : ℕ} {records : List (List UInt8)} (h : SlotPair addrA addrB)
    (hsize : pingpongSizeOk size = true) (hist : StoreHistory addrA addrB size records m m') :
    pingpongLoad addrA addrB size m' = pingpongLoad addrA addrB size m ∨
      ∃ record ∈ records, ∃ counter slot,
        pingpongLoad addrA addrB size m' = (0, stampRecord counter record, slot) := by
  induction hist with
  | nil m => exact .inl rfl
  | cons hlen hloss _ ih =>
    rcases ih with hsame | ⟨later, hmem, counter, slot, hload⟩
    · subst hlen
      rcases load_interrupted h hsize hloss with hkept | hnew
      · exact .inl (hsame.trans hkept)
      · exact .inr ⟨_, List.mem_cons_self .., _, _, hsame.trans hnew⟩
    · exact .inr ⟨later, List.mem_cons_of_mem _ hmem, counter, slot, hload⟩

/-! ## The writes are those of the store -/

/-- When a write of a store times out, it leaves what `torn` allows. -/
def WritesTorn (torn : Mem → Mem → Mem → Prop) : List Write → List WriteOutcome → Mem → Prop
  | w :: ws, .done :: outcomes, m => WritesTorn torn ws outcomes (w.run m)
  | w :: _, .timeout left :: _, m => torn m (w.run m) (NorFlash.patch w.touched left m)
  | _, _, _ => True

variable {torn : Mem → Mem → Mem → Prop}

theorem writesTorn_nil {ws : List Write} : WritesTorn torn ws [] m := by
  cases ws with
  | nil => trivial
  | cons w ws => trivial

/-- A write that is cut off leaves what `torn` allows. -/
structure TornBy (torn : Mem → Mem → Mem → Prop) (w : Write) (m m' : Mem) : Prop where
  out : ∀ x, w.touched x = false → m' x = m x
  left : torn m (w.run m) m'

theorem TornBy.interrupted {w : Write} (h : TornBy torn w m m') (ws : List Write) :
    Interrupted torn (w :: ws) m m' := .within ws h.out h.left

/-- A write of the chip: it does what it should, or times out with its cells torn. -/
theorem w25qWrite_torn {touched : ℕ → Bool} {result : Mem} {w : Write} {ws : List Write}
    (htouched : w.touched = touched) (hresult : w.run d.mem = result)
    (htorn : WritesTorn torn (w :: ws) d.outcomes d.mem) :
    ((w25qWrite touched result d).1 = 0 ∧ (w25qWrite touched result d).2.mem = w.run d.mem ∧
      WritesTorn torn ws (w25qWrite touched result d).2.outcomes
        (w25qWrite touched result d).2.mem) ∨
    (w25qWrite touched result d).1 ≠ 0 ∧
      TornBy torn w d.mem (w25qWrite touched result d).2.mem := by
  obtain ⟨mem, outcomes⟩ := d
  subst htouched hresult
  cases outcomes with
  | nil =>
    exact .inl ⟨rfl, rfl, writesTorn_nil⟩
  | cons o rest =>
    cases o with
    | done => exact .inl ⟨rfl, rfl, htorn⟩
    | timeout left =>
      refine .inr ⟨nofun, fun x hx => ?_, htorn⟩
      exact NorFlash.patch_of_not_touched hx

theorem w25qEraseSector_torn {addr : ℕ} {ws : List Write}
    (htorn : WritesTorn torn (eraseWrite addr :: ws) d.outcomes d.mem) :
    ((w25qEraseSector addr d).1 = 0 ∧ (w25qEraseSector addr d).2.mem = (eraseWrite addr).run d.mem ∧
      WritesTorn torn ws (w25qEraseSector addr d).2.outcomes (w25qEraseSector addr d).2.mem) ∨
    (w25qEraseSector addr d).1 ≠ 0 ∧
      TornBy torn (eraseWrite addr) d.mem (w25qEraseSector addr d).2.mem :=
  w25qWrite_torn rfl (eraseWrite_run addr d.mem) htorn

theorem w25qProgram_torn {addr : ℕ} {buf : List UInt8} {ws : List Write}
    (hlen : 0 < buf.length ∧ buf.length ≤ 256)
    (htorn : WritesTorn torn (programWrite addr buf :: ws) d.outcomes d.mem) :
    ((w25qProgram addr buf d).1 = 0 ∧
      (w25qProgram addr buf d).2.mem = (programWrite addr buf).run d.mem ∧
      WritesTorn torn ws (w25qProgram addr buf d).2.outcomes (w25qProgram addr buf d).2.mem) ∨
    (w25qProgram addr buf d).1 ≠ 0 ∧
      TornBy torn (programWrite addr buf) d.mem (w25qProgram addr buf d).2.mem := by
  rw [w25qProgram, if_neg]
  · exact w25qWrite_torn rfl (programWrite_run addr buf d.mem) htorn
  · rw [w25qPageSize]
    omega

theorem pingpongFinish_interrupted {current : Option (Slot × UInt32)}
    (htorn : WritesTorn torn
      (if current.isSome then [eraseWrite (slotAddr addrA addrB (targetSlot current).other)] else [])
      d.outcomes d.mem) :
    Interrupted torn
      (if current.isSome then [eraseWrite (slotAddr addrA addrB (targetSlot current).other)] else [])
      d.mem (pingpongFinish addrA addrB current record d).chip.mem := by
  rw [pingpongFinish]
  by_cases hread : w25qRead (slotAddr addrA addrB (targetSlot current)) record.length d ≠ record
  · rw [if_pos hread]
    exact .before _ _
  rw [if_neg hread]
  cases current with
  | none => exact .before _ _
  | some c =>
    rw [if_pos (Option.isSome_some (a := c))] at htorn ⊢
    dsimp only
    rw [if_pos (Option.isSome_some (a := c))]
    rcases w25qEraseSector_torn htorn with ⟨hrc, hrun, _⟩ | ⟨hrc, hloss⟩
    · rw [if_neg (not_not.mpr hrc)]
      refine .later ?_
      rw [← hrun]
      exact .before _ _
    · rw [if_pos hrc]
      exact hloss.interrupted _

/-- However the writes of a store end, it leaves what they leave when the power is lost
at some point of them. -/
theorem pingpongStore_interrupted (hsize : pingpongSizeOk record.length = true)
    (htorn : WritesTorn torn (storeWrites addrA addrB record d.mem) d.outcomes d.mem) :
    Interrupted torn (storeWrites addrA addrB record d.mem) d.mem
      (pingpongStore addrA addrB record d).chip.mem := by
  have hbounds := size_bounds hsize
  rw [storeWrites_eq, storeCurrent] at htorn ⊢
  rw [pingpongStore, hsize]
  dsimp only
  generalize currentSlot _ _ = current at htorn ⊢
  have hlen := length_stampRecord (nextCounter current) hbounds.1
  generalize stampRecord (nextCounter current) record = stamped at hlen htorn ⊢
  generalize haddr : slotAddr addrA addrB (targetSlot current) = addr at htorn ⊢
  rw [if_neg (show ¬ (!true) = true from nofun)]
  rcases w25qEraseSector_torn htorn with ⟨hrc, hrun, htorn⟩ | ⟨hrc, hloss⟩
  swap
  · rw [if_pos hrc]
    exact hloss.interrupted _
  rw [if_neg (not_not.mpr hrc)]
  refine .later ?_
  rw [← hrun]
  rcases w25qProgram_torn (by omega) htorn with ⟨hrc, hrun, htorn⟩ | ⟨hrc, hloss⟩
  swap
  · rw [if_pos hrc]
    exact hloss.interrupted _
  rw [if_neg (not_not.mpr hrc)]
  refine .later ?_
  rw [← hrun]
  subst haddr
  exact pingpongFinish_interrupted htorn

/-! ## When a store succeeds -/

/-- No write of a store times out. -/
def WritesDone (ws : List Write) (outcomes : List WriteOutcome) (m : Mem) : Prop :=
  WritesTorn (fun _ _ _ => False) ws outcomes m

theorem writesDone_of_allDone {outcomes : List WriteOutcome} (h : AllDone outcomes)
    (ws : List Write) (m : Mem) : WritesDone ws outcomes m := by
  induction ws generalizing outcomes m with
  | nil => cases outcomes with
    | nil => trivial
    | cons o rest => trivial
  | cons w ws ih =>
    cases outcomes with
    | nil => trivial
    | cons o rest =>
      have ho : o = .done := h o (List.mem_cons_self ..)
      subst ho
      exact ih (fun o' hmem => h o' (List.mem_cons_of_mem _ hmem)) (w.run m)

/-- A write of the chip succeeds when it does not time out. -/
theorem w25qWrite_done_iff {touched : ℕ → Bool} {result : Mem} {w : Write} {ws : List Write}
    (hresult : w.run d.mem = result) :
    WritesDone (w :: ws) d.outcomes d.mem ↔
      (w25qWrite touched result d).1 = 0 ∧ (w25qWrite touched result d).2.mem = w.run d.mem ∧
        WritesDone ws (w25qWrite touched result d).2.outcomes
          (w25qWrite touched result d).2.mem := by
  obtain ⟨mem, outcomes⟩ := d
  subst hresult
  cases outcomes with
  | nil => exact iff_of_true trivial ⟨rfl, rfl, writesTorn_nil⟩
  | cons o rest =>
    cases o with
    | done => exact ⟨fun h => ⟨rfl, rfl, h⟩, fun h => h.2.2⟩
    | timeout left => exact ⟨fun h => absurd h (fun hf => hf), fun h => by cases h.1⟩

theorem w25qEraseSector_done_iff {addr : ℕ} {ws : List Write} :
    WritesDone (eraseWrite addr :: ws) d.outcomes d.mem ↔
      (w25qEraseSector addr d).1 = 0 ∧
        (w25qEraseSector addr d).2.mem = (eraseWrite addr).run d.mem ∧
        WritesDone ws (w25qEraseSector addr d).2.outcomes (w25qEraseSector addr d).2.mem :=
  w25qWrite_done_iff (eraseWrite_run addr d.mem)

theorem w25qProgram_done_iff {addr : ℕ} {buf : List UInt8} {ws : List Write}
    (hlen : 0 < buf.length ∧ buf.length ≤ 256) :
    WritesDone (programWrite addr buf :: ws) d.outcomes d.mem ↔
      (w25qProgram addr buf d).1 = 0 ∧
        (w25qProgram addr buf d).2.mem = (programWrite addr buf).run d.mem ∧
        WritesDone ws (w25qProgram addr buf d).2.outcomes (w25qProgram addr buf d).2.mem := by
  rw [w25qProgram, if_neg]
  · exact w25qWrite_done_iff (programWrite_run addr buf d.mem)
  · rw [w25qPageSize]
    omega

theorem writesDone_nil {outcomes : List WriteOutcome} : WritesDone [] outcomes m := by
  cases outcomes with
  | nil => trivial
  | cons o rest => trivial

theorem pingpongFinish_rc_iff {current : Option (Slot × UInt32)}
    (hread : w25qRead (slotAddr addrA addrB (targetSlot current)) record.length d = record) :
    (pingpongFinish addrA addrB current record d).rc = 0 ↔
      WritesDone
        (if current.isSome then [eraseWrite (slotAddr addrA addrB (targetSlot current).other)]
          else []) d.outcomes d.mem := by
  rw [pingpongFinish, if_neg (not_not.mpr hread)]
  cases current with
  | none => exact iff_of_true rfl writesDone_nil
  | some c =>
    rw [if_pos (Option.isSome_some (a := c))]
    dsimp only
    rw [if_pos (Option.isSome_some (a := c)), w25qEraseSector_done_iff]
    by_cases hrc : (w25qEraseSector (slotAddr addrA addrB (targetSlot (some c)).other) d).1 = 0
    · rw [if_neg (not_not.mpr hrc)]
      have hrun := (w25qWrite_ok hrc).trans (eraseWrite_run _ _).symm
      exact iff_of_true rfl ⟨hrc, hrun, writesDone_nil⟩
    · rw [if_pos hrc]
      exact iff_of_false nofun fun h => hrc h.1

/-- A store succeeds exactly when none of its writes times out. -/
theorem pingpongStore_rc_iff (h : SlotPair addrA addrB)
    (hsize : pingpongSizeOk record.length = true) :
    (pingpongStore addrA addrB record d).rc = 0 ↔
      WritesDone (storeWrites addrA addrB record d.mem) d.outcomes d.mem := by
  have hbounds := size_bounds hsize
  rw [storeWrites_eq, storeCurrent, pingpongStore, hsize]
  dsimp only
  generalize currentSlot _ _ = current
  have hlen := length_stampRecord (nextCounter current) hbounds.1
  -- the verifying read after an erase and a program that succeed
  have hverify := (read_after_program (m := d.mem) h hsize (targetSlot current)
    (nextCounter current)).2
  generalize stampRecord (nextCounter current) record = stamped at hlen hverify ⊢
  rw [if_neg (show ¬ (!true) = true from nofun), w25qEraseSector_done_iff]
  by_cases he : (w25qEraseSector (slotAddr addrA addrB (targetSlot current)) d).1 = 0
  swap
  · rw [if_pos he]
    exact iff_of_false nofun fun hdone => he hdone.1
  rw [if_neg (not_not.mpr he)]
  have herun : (w25qEraseSector (slotAddr addrA addrB (targetSlot current)) d).2.mem =
      (eraseWrite (slotAddr addrA addrB (targetSlot current))).run d.mem :=
    (w25qWrite_ok he).trans (eraseWrite_run _ _).symm
  rw [← herun] at hverify
  rw [and_iff_right he, and_iff_right herun, w25qProgram_done_iff (by omega)]
  clear he herun
  generalize (w25qEraseSector (slotAddr addrA addrB (targetSlot current)) d).2 = e at hverify ⊢
  by_cases hp : (w25qProgram (slotAddr addrA addrB (targetSlot current)) stamped e).1 = 0
  swap
  · rw [if_pos hp]
    exact iff_of_false nofun fun hdone => hp hdone.1
  rw [if_neg (not_not.mpr hp)]
  have hpage : slotAddr addrA addrB (targetSlot current) % w25qPageSize + stamped.length ≤
      w25qPageSize := h.page _ (by omega)
  have hprun : (w25qProgram (slotAddr addrA addrB (targetSlot current)) stamped e).2.mem =
      (programWrite (slotAddr addrA addrB (targetSlot current)) stamped).run e.mem := by
    rw [w25qProgram_ok hpage hp, programWrite_run, w25qProgram_eq hpage]
  rw [and_iff_right hp, and_iff_right hprun]
  refine pingpongFinish_rc_iff ?_
  rw [w25qRead, hprun, hlen]
  exact hverify

/-! ## When a store fails -/

theorem pingpongFinish_failed {current : Option (Slot × UInt32)}
    (hread : w25qRead (slotAddr addrA addrB (targetSlot current)) record.length d = record)
    (htorn : WritesTorn torn
      (if current.isSome then [eraseWrite (slotAddr addrA addrB (targetSlot current).other)] else [])
      d.outcomes d.mem)
    (hrc : (pingpongFinish addrA addrB current record d).rc ≠ 0) :
    ∃ before completed,
      torn before completed (pingpongFinish addrA addrB current record d).chip.mem := by
  rw [pingpongFinish, if_neg (not_not.mpr hread)] at hrc ⊢
  cases current with
  | none => exact absurd rfl hrc
  | some c =>
    rw [if_pos (Option.isSome_some (a := c))] at htorn
    dsimp only at hrc ⊢
    rw [if_pos (Option.isSome_some (a := c))] at hrc ⊢
    rcases w25qEraseSector_torn htorn with ⟨he, _, _⟩ | ⟨he, hloss⟩
    · rw [if_neg (not_not.mpr he)] at hrc
      exact absurd rfl hrc
    · rw [if_pos he]
      exact ⟨_, _, hloss.left⟩

/-- A store that fails leaves what its write that times out leaves. -/
theorem pingpongStore_failed (h : SlotPair addrA addrB)
    (hsize : pingpongSizeOk record.length = true)
    (htorn : WritesTorn torn (storeWrites addrA addrB record d.mem) d.outcomes d.mem)
    (hrc : (pingpongStore addrA addrB record d).rc ≠ 0) :
    ∃ before completed, torn before completed (pingpongStore addrA addrB record d).chip.mem := by
  have hbounds := size_bounds hsize
  rw [storeWrites_eq, storeCurrent] at htorn
  rw [pingpongStore, hsize] at hrc ⊢
  dsimp only at hrc ⊢
  generalize currentSlot _ _ = current at htorn hrc ⊢
  have hlen := length_stampRecord (nextCounter current) hbounds.1
  -- the verifying read after an erase and a program that succeed
  have hverify := (read_after_program (m := d.mem) h hsize (targetSlot current)
    (nextCounter current)).2
  generalize stampRecord (nextCounter current) record = stamped at hlen hverify htorn hrc ⊢
  rw [if_neg (show ¬ (!true) = true from nofun)] at hrc ⊢
  rcases w25qEraseSector_torn htorn with ⟨he, herun, htorn⟩ | ⟨he, hloss⟩
  swap
  · rw [if_pos he]
    exact ⟨_, _, hloss.left⟩
  rw [if_neg (not_not.mpr he)] at hrc ⊢
  rw [← herun] at hverify
  rcases w25qProgram_torn (by omega) htorn with ⟨hp, hprun, htorn⟩ | ⟨hp, hloss⟩
  swap
  · rw [if_pos hp]
    exact ⟨_, _, hloss.left⟩
  rw [if_neg (not_not.mpr hp)] at hrc ⊢
  refine pingpongFinish_failed ?_ htorn hrc
  rw [w25qRead, hprun, hlen]
  exact hverify

/-- A write that times out leaves what a condition on the memory allows, or does not. -/
theorem writesTorn_or (P : Mem → Prop) (ws : List Write) (outcomes : List WriteOutcome) (m : Mem) :
    WritesTorn (fun _ _ left => P left) ws outcomes m ∨
      WritesTorn (fun _ _ left => ¬ P left) ws outcomes m := by
  induction ws generalizing outcomes m with
  | nil => exact .inl (by cases outcomes <;> trivial)
  | cons w ws ih =>
    cases outcomes with
    | nil => exact .inl trivial
    | cons o rest =>
      cases o with
      | done => exact ih rest (w.run m)
      | timeout left => exact Classical.em _

/-- A store that fails leaves the memory as its write that times out does. -/
theorem pingpongStore_failed_iff (h : SlotPair addrA addrB)
    (hsize : pingpongSizeOk record.length = true) (P : Mem → Prop)
    (hrc : (pingpongStore addrA addrB record d).rc ≠ 0) :
    WritesTorn (fun _ _ left => P left) (storeWrites addrA addrB record d.mem) d.outcomes d.mem ↔
      P (pingpongStore addrA addrB record d).chip.mem := by
  constructor
  · intro htorn
    obtain ⟨_, _, hleft⟩ := pingpongStore_failed h hsize htorn hrc
    exact hleft
  · intro hP
    rcases writesTorn_or P (storeWrites addrA addrB record d.mem) d.outcomes d.mem with
      htorn | htorn
    · exact htorn
    · obtain ⟨_, _, hleft⟩ := pingpongStore_failed h hsize htorn hrc
      exact absurd hP hleft

/-! ## Without timeouts -/

theorem w25qProgram_allDone {addr : ℕ} {buf : List UInt8} (h : AllDone d.outcomes) :
    AllDone (w25qProgram addr buf d).2.outcomes := by
  rw [w25qProgram]
  split
  · exact h
  · exact (w25qWrite_done h).2.2

theorem pingpongFinish_allDone {current : Option (Slot × UInt32)} (h : AllDone d.outcomes) :
    AllDone (pingpongFinish addrA addrB current record d).chip.outcomes := by
  rw [pingpongFinish]
  dsimp only
  repeat' split
  · exact h
  · exact (w25qWrite_done h).2.2
  · exact (w25qWrite_done h).2.2
  · exact h

/-- A store without timeouts succeeds, and leaves none to come. -/
theorem pingpongStore_done (h : SlotPair addrA addrB) (hsize : pingpongSizeOk record.length = true)
    (hdone : AllDone d.outcomes) :
    (pingpongStore addrA addrB record d).rc = 0 ∧
      AllDone (pingpongStore addrA addrB record d).chip.outcomes := by
  refine ⟨(pingpongStore_rc_iff h hsize).mpr (writesDone_of_allDone hdone _ _), ?_⟩
  rw [pingpongStore]
  dsimp only
  repeat' split
  · exact hdone
  · exact (w25qWrite_done hdone).2.2
  · exact w25qProgram_allDone (w25qWrite_done hdone).2.2
  · exact pingpongFinish_allDone (w25qProgram_allDone (w25qWrite_done hdone).2.2)

end OpenEVCharger
