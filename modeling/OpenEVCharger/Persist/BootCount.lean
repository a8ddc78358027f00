import OpenEVCharger.Persist.BootRecords
import OpenEVCharger.Persist.Interrupted
import OpenEVCharger.Persist.RingHead

/-!
# The boot count over power losses

The boot count has one sector only, which a boot erases before it programs the next
count. A power loss between the two leaves no record, and the next boot starts over
at one. As long as none comes there, each boot returns more than every boot before it,
and what later boots append to a log comes after what earlier ones did.
-/

namespace OpenEVCharger

open NorFlash (Mem Agree Erased Write Interrupted)

/-! ## Boots -/

/-- The writes of `boot_count_increment`, in order. -/
def bootCountWrites (m : Mem) : List Write :=
  [eraseWrite bootCountSector,
    programWrite bootCountSector (BootCountRecord.ofCount (bootCountCurrent m + 1)).bytes]

/-- A cut-off write leaves the record invalid, as the write would have or as it was. -/
def BootCountTorn (before completed m : Mem) : Prop :=
  ¬ BootCountRecord.Valid (bootCountRead m) ∨ bootCountRead m = bootCountRead completed ∨
    bootCountRead m = bootCountRead before

/-- One boot: the flash that a power loss inside the increment leaves, or none; and what
the rest of the chip holds at the next boot. -/
structure CountedBoot where
  loss : Option Mem
  rest : Mem

/-- The chip with the sector of the boot count as it is and the rest changed. -/
def CountedBoot.keepSector (i : CountedBoot) (m : Mem) : Mem :=
  NorFlash.patch (NorFlash.within bootCountSector w25qSectorSize) m i.rest

def countedBoot (i : CountedBoot) (m : Mem) : Mem :=
  i.keepSector (i.loss.getD (bootCountIncrement ⟨m, []⟩).2.mem)

def bootCountMachine : Machine Mem CountedBoot Mem where
  boot flash := flash
  step := countedBoot

def bootCountRun (flash : Mem) (ins : ℕ → CountedBoot) (n : ℕ) : Mem :=
  bootCountMachine.run flash ins n

/-- What the increment of a boot returns, unless power is lost in it. -/
def bootCountReturned (i : CountedBoot) (m : Mem) : Option UInt32 :=
  if i.loss.isSome then none else some (bootCountIncrement ⟨m, []⟩).1

/-- A power loss comes inside the writes of the increment. -/
def LossInside (i : CountedBoot) (m : Mem) : Prop :=
  ∀ left ∈ i.loss, Interrupted BootCountTorn (bootCountWrites m) m left

/-- A power loss does not come between the erase of a record and the end of the program
of the next one. -/
def KeepsRecord (i : CountedBoot) (m : Mem) : Prop :=
  ∀ left ∈ i.loss, BootCountRecord.Valid (bootCountRead m) →
    BootCountRecord.Valid (bootCountRead left)

/-! ## One increment -/

variable {m m' : Mem} {i : CountedBoot}

theorem bootCountRead_congr (h : Agree m m' bootCountSector w25qSectorSize) :
    bootCountRead m = bootCountRead m' := by
  refine Packed.ext ?_
  exact (h.mono (Nat.le_refl _) (by decide)).read

theorem bootCountCurrent_of_read (h : bootCountRead m = bootCountRead m') :
    bootCountCurrent m = bootCountCurrent m' := by
  rw [bootCountCurrent, bootCountCurrent, h]

/-- The sector after the erase. -/
theorem erased_bootCount (m : Mem) :
    Erased ((eraseWrite bootCountSector).run m) bootCountSector w25qSectorSize := by
  rw [eraseWrite_run]
  exact NorFlash.erased_erase _ _ m

theorem not_valid_erased (h : Erased m bootCountSector w25qSectorSize) :
    ¬ BootCountRecord.Valid (bootCountRead m) := by
  rintro ⟨hversion, _⟩
  have hread : (bootCountRead m).bytes = List.replicate 32 NorFlash.blank :=
    (h.mono (Nat.le_refl _) (by decide)).read
  rw [BootCountRecord.version, Packed.byteAt, hread] at hversion
  cases hversion

/-- The record after the erase and the program. -/
theorem bootCountRead_program (h : Erased m bootCountSector w25qSectorSize) (n : UInt32) :
    bootCountRead ((programWrite bootCountSector (BootCountRecord.ofCount n).bytes).run m) =
      BootCountRecord.ofCount n := by
  have hlen := (BootCountRecord.ofCount n).size
  have hpage : bootCountSector % w25qPageSize + (BootCountRecord.ofCount n).bytes.length ≤
      w25qPageSize := by
    rw [hlen]
    decide
  have hblank : Erased m bootCountSector (BootCountRecord.ofCount n).bytes.length := by
    rw [hlen]
    exact h.mono (Nat.le_refl _) (by decide)
  refine Packed.ext ?_
  have hread := NorFlash.read_program hblank
  rw [hlen] at hread
  rw [programWrite_run]
  exact (congrArg (fun x => NorFlash.read x bootCountSector 32)
    (w25qProgram_eq (d := ⟨m, []⟩) hpage)).trans hread

/-- An increment without timeouts returns the next count and leaves its record. -/
theorem bootCountIncrement_done (m : Mem) :
    (bootCountIncrement ⟨m, []⟩).1 = bootCountCurrent m + 1 ∧
      bootCountRead (bootCountIncrement ⟨m, []⟩).2.mem =
        BootCountRecord.ofCount (bootCountCurrent m + 1) := by
  have hread := bootCountRead_program (erased_bootCount m) (bootCountCurrent m + 1)
  rw [bootCountIncrement]
  generalize bootCountCurrent m + 1 = next at hread ⊢
  have hlen := (BootCountRecord.ofCount next).size
  have hcount := BootCountRecord.count_ofCount next
  generalize BootCountRecord.ofCount next = r at hread hlen hcount ⊢
  have herase : w25qEraseSector bootCountSector ⟨m, []⟩ =
      (0, ⟨(eraseWrite bootCountSector).run m, []⟩) := by
    rw [eraseWrite_run]
    rfl
  rw [herase]
  have hprogram : w25qProgram bootCountSector r.bytes ⟨(eraseWrite bootCountSector).run m, []⟩ =
      (0, ⟨(programWrite bootCountSector r.bytes).run ((eraseWrite bootCountSector).run m), []⟩) := by
    rw [programWrite_run, w25qProgram, if_neg (by rw [hlen]; decide)]
    rfl
  dsimp only
  rw [if_neg (not_not.mpr rfl), hprogram]
  dsimp only
  rw [if_neg (not_not.mpr rfl)]
  exact ⟨hcount, hread⟩

/-- A power loss inside an increment leaves the record as it was, the next one or none. -/
theorem bootCount_power_loss {left : Mem}
    (h : Interrupted BootCountTorn (bootCountWrites m) m left) :
    bootCountRead left = bootCountRead m ∨
      bootCountRead left = BootCountRecord.ofCount (bootCountCurrent m + 1) ∨
      ¬ BootCountRecord.Valid (bootCountRead left) := by
  have hblank := not_valid_erased (erased_bootCount m)
  have hprogram := bootCountRead_program (erased_bootCount m) (bootCountCurrent m + 1)
  rw [bootCountWrites] at h
  cases h with
  | before _ _ => exact .inl rfl
  | within _ _ htorn =>
    rcases htorn with hnone | hcompleted | hbefore
    · exact .inr (.inr hnone)
    · rw [hcompleted]
      exact .inr (.inr hblank)
    · exact .inl hbefore
  | later h =>
    cases h with
    | before _ _ => exact .inr (.inr hblank)
    | within _ _ htorn =>
      rcases htorn with hnone | hcompleted | hbefore
      · exact .inr (.inr hnone)
      · exact .inr (.inl (hcompleted.trans hprogram))
      · rw [hbefore]
        exact .inr (.inr hblank)
    | later h =>
      cases h with
      | before _ _ => exact .inr (.inl hprogram)

/-! ## Runs -/

variable {flash : Mem} {ins : ℕ → CountedBoot} {n : ℕ}

theorem bootCountCurrent_keepSector (i : CountedBoot) (m : Mem) :
    bootCountCurrent (i.keepSector m) = bootCountCurrent m := by
  refine bootCountCurrent_of_read (bootCountRead_congr fun x h1 h2 => ?_)
  exact NorFlash.patch_of_touched (NorFlash.within_iff.mpr ⟨h1, h2⟩)

theorem bootCountCurrent_of_ofCount {count : UInt32}
    (h : bootCountRead m = BootCountRecord.ofCount count) : bootCountCurrent m = count := by
  rw [bootCountCurrent, h, if_pos (BootCountRecord.valid_ofCount count),
    BootCountRecord.count_ofCount]

/-- What a boot makes of the count: the next one when the increment is completed, and
that or the same when power is lost in it. -/
theorem countedBoot_current (hinside : LossInside i m) (hkeeps : KeepsRecord i m) :
    bootCountCurrent (countedBoot i m) = bootCountCurrent m + 1 ∨
      i.loss.isSome = true ∧ bootCountCurrent (countedBoot i m) = bootCountCurrent m := by
  rw [countedBoot, bootCountCurrent_keepSector]
  cases hloss : i.loss with
  | none => exact .inl (bootCountCurrent_of_ofCount (bootCountIncrement_done m).2)
  | some left =>
    show bootCountCurrent left = _ ∨ true = true ∧ bootCountCurrent left = _
    rcases bootCount_power_loss (hinside left hloss) with hsame | hnext | hnone
    · exact .inr ⟨rfl, bootCountCurrent_of_read hsame⟩
    · exact .inl (bootCountCurrent_of_ofCount hnext)
    · -- without a record there was none before
      have hbefore : ¬ BootCountRecord.Valid (bootCountRead m) :=
        fun hvalid => hnone (hkeeps left hloss hvalid)
      refine .inr ⟨rfl, ?_⟩
      rw [bootCountCurrent, bootCountCurrent, if_neg hnone, if_neg hbefore]

theorem toNat_succ {c : UInt32} (h : c.toNat + 1 < 2 ^ 32) : (c + 1).toNat = c.toNat + 1 := by
  rw [UInt32.toNat_add]
  exact Nat.mod_eq_of_lt h

/-- A run whose power losses come inside the increments and keep the record. -/
structure CountKept (flash : Mem) (ins : ℕ → CountedBoot) (n : ℕ) : Prop where
  inside : ∀ k < n, LossInside (ins k) (bootCountRun flash ins k)
  keeps : ∀ k < n, KeepsRecord (ins k) (bootCountRun flash ins k)
  width : (bootCountCurrent flash).toNat + n < 2 ^ 32

namespace CountKept

variable (h : CountKept flash ins n)

include h

theorem step {k : ℕ} (hk : k < n) :
    bootCountCurrent (bootCountRun flash ins (k + 1)) =
        bootCountCurrent (bootCountRun flash ins k) + 1 ∨
      (ins k).loss.isSome = true ∧ bootCountCurrent (bootCountRun flash ins (k + 1)) =
        bootCountCurrent (bootCountRun flash ins k) :=
  countedBoot_current (h.inside k hk) (h.keeps k hk)

theorem bound {k : ℕ} (hk : k ≤ n) :
    (bootCountCurrent (bootCountRun flash ins k)).toNat ≤ (bootCountCurrent flash).toNat + k := by
  have hwidth := h.width
  induction k with
  | zero => exact Nat.le_refl _
  | succ k ih =>
    have hprev := ih (Nat.le_of_succ_le hk)
    rcases h.step hk with hnext | ⟨_, hsame⟩
    · rw [hnext, toNat_succ (by omega)]
      omega
    · rw [hsame]
      omega

theorem mono {a b : ℕ} (hab : a ≤ b) (hb : b ≤ n) :
    (bootCountCurrent (bootCountRun flash ins a)).toNat ≤
      (bootCountCurrent (bootCountRun flash ins b)).toNat := by
  have hwidth := h.width
  induction b, hab using Nat.le_induction with
  | base => exact Nat.le_refl _
  | succ b hab ih =>
    have hprev := ih (Nat.le_of_succ_le hb)
    have hbound := h.bound (Nat.le_of_succ_le hb)
    rcases h.step hb with hnext | ⟨_, hsame⟩
    · rw [hnext, toNat_succ (by omega)]
      omega
    · rw [hsame]
      exact hprev

/-- A boot that returns a count returns one more than it finds, and leaves it. -/
theorem returned {k : ℕ} {c : UInt32} (hk : k < n)
    (hc : bootCountReturned (ins k) (bootCountRun flash ins k) = some c) :
    c.toNat = (bootCountCurrent (bootCountRun flash ins k)).toNat + 1 ∧
      bootCountCurrent (bootCountRun flash ins (k + 1)) = c := by
  have hwidth := h.width
  have hbound := h.bound (Nat.le_of_lt hk)
  have hstep := h.step hk
  rw [bootCountReturned] at hc
  split at hc
  · cases hc
  next hloss =>
  rw [(bootCountIncrement_done _).1] at hc
  cases hc
  refine ⟨toNat_succ (by omega), ?_⟩
  rcases hstep with hnext | ⟨hsome, _⟩
  · exact hnext
  · exact absurd hsome hloss

end CountKept

/-- The scan of a log does not take a record of an earlier count before one of a later
count, while the counts fit the sixteen bits of a record. -/
theorem latest_not_earlier {L : RingLog} {p q : ℕ} {c c' : UInt32} (hlt : c < c')
    (hfits : c'.toNat < 2 ^ 16) (hp : p < L.totalRecords) (hvalid : SlotValid L m p)
    (hkey : (slotKey L m p).boot = c'.toUInt16) (hq : Latest L m L.totalRecords q) :
    (slotKey L m q).boot ≠ c.toUInt16 := by
  intro hboot
  have hlast : (slotKey L m p).toNat ≤ (slotKey L m q).toNat := by
    rcases hq.last p hp hvalid with hless | ⟨heq, _⟩
    · exact Nat.le_of_lt hless
    · exact Nat.le_of_eq (congrArg LogKey.toNat heq)
  have hltNat : c.toNat < c'.toNat := UInt32.lt_iff_toNat_lt.mp hlt
  have htime := (slotKey L m q).time.toNat_lt
  rw [LogKey.toNat, LogKey.toNat, hkey, hboot, UInt32.toNat_toUInt16, UInt32.toNat_toUInt16,
    Nat.mod_eq_of_lt hfits, Nat.mod_eq_of_lt (Nat.lt_trans hltNat hfits)] at hlast
  omega

/-- As long as no power loss comes between the erase and the end of the program, every
boot returns more than the boots before it, and the scan of a log that holds one of its
records does not end at a record of theirs. -/
theorem boot_counts_increase (flash : Mem) (ins : ℕ → CountedBoot) (n : ℕ)
    (hinside : ∀ k < n, LossInside (ins k) (bootCountRun flash ins k))
    (hkeeps : ∀ k < n, KeepsRecord (ins k) (bootCountRun flash ins k))
    (hwidth : (bootCountCurrent flash).toNat + n < 2 ^ 32) :
    ∀ i j, i < j → j < n → ∀ c c', bootCountReturned (ins i) (bootCountRun flash ins i) = some c →
      bootCountReturned (ins j) (bootCountRun flash ins j) = some c' →
        c < c' ∧ (c'.toNat < 2 ^ 16 → ∀ L m p q, p < L.totalRecords → SlotValid L m p →
          (slotKey L m p).boot = c'.toUInt16 → Latest L m L.totalRecords q →
            (slotKey L m q).boot ≠ c.toUInt16) := by
  intro i j hij hj c c' hc hc'
  have h : CountKept flash ins n := ⟨hinside, hkeeps, hwidth⟩
  have hi := (h.returned (Nat.lt_trans hij hj) hc).2
  have hmono := h.mono (Nat.succ_le_of_lt hij) (Nat.le_of_lt hj)
  have hlast := (h.returned hj hc').1
  rw [hi] at hmono
  have hlt : c < c' := UInt32.lt_iff_toNat_lt.mpr (by omega)
  exact ⟨hlt, fun hfits L m p q => latest_not_earlier hlt hfits⟩

/-- A blank chip, and boots without a power loss. -/
def blankBootCount : Mem := fun _ => NorFlash.blank

def countedBoots (_ : ℕ) : CountedBoot := ⟨none, blankBootCount⟩

theorem returned_of_current {c : UInt32} (hloss : i.loss = none) (h : bootCountCurrent m = c) :
    bootCountReturned i m = some (c + 1) := by
  rw [bootCountReturned, hloss, (bootCountIncrement_done m).1, h]
  rfl

theorem boot_counts_increase_twice :
    bootCountReturned (countedBoots 0) (bootCountRun blankBootCount countedBoots 0) = some 1 ∧
      ∀ c', bootCountReturned (countedBoots 1) (bootCountRun blankBootCount countedBoots 1) =
        some c' → 1 < c' := by
  have hfirst : bootCountReturned (countedBoots 0) (bootCountRun blankBootCount countedBoots 0) =
      some 1 := returned_of_current (c := 0) rfl rfl
  refine ⟨hfirst, fun c' hc' => ?_⟩
  exact (boot_counts_increase blankBootCount countedBoots 2 nofun nofun (by decide) 0 1 Nat.one_pos
    (Nat.lt_succ_self 1) 1 c' hfirst hc').1

/-- The second boot loses power in the erase, which has cleared the sector. -/
def lossInErase (k : ℕ) : CountedBoot :=
  ⟨if k = 1 then some blankBootCount else none, blankBootCount⟩

/-- The third boot starts over at one, as the first did. -/
theorem boot_count_lost :
    LossInside (lossInErase 1) (bootCountRun blankBootCount lossInErase 1) ∧
      bootCountReturned (lossInErase 0) (bootCountRun blankBootCount lossInErase 0) = some 1 ∧
      bootCountReturned (lossInErase 2) (bootCountRun blankBootCount lossInErase 2) = some 1 := by
  refine ⟨?_, returned_of_current (c := 0) rfl rfl, ?_⟩
  · rintro left hleft
    cases hleft
    refine .within _ (fun x hx => ?_) (.inl (not_valid_erased fun _ _ _ => rfl))
    -- the first boot has left the rest of the chip blank
    exact (NorFlash.patch_of_not_touched hx).symm
  · refine returned_of_current (c := 0) rfl ?_
    exact bootCountCurrent_keepSector (lossInErase 1) blankBootCount

end OpenEVCharger
