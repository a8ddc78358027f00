import OpenEVCharger.Ota.Commit

/-!
# Power loss during the overwrite

The bank that is erased first holds the vector table and the code that would finish
an interrupted update. From the first page erase on until the second word is
programmed the CPU finds no first instruction.
-/

namespace OpenEVCharger

open NorFlash (Mem Agree Erased)

/-- The second word of the vector table, which the CPU starts at. -/
def resetVector (bank0 : Mem) : UInt32 := le32Load (NorFlash.read bank0 (flashBank0Base + 4) 4) 0

/-- The CPU starts in the bank. What it runs there is taken to be intact. -/
structure CanStart (bank0 : Mem) : Prop where
  above : flashBank0Base ≤ (resetVector bank0).toNat
  below : (resetVector bank0).toNat < flashBank0Base + flashBank0Size

instance (bank0 : Mem) : Decidable (CanStart bank0) :=
  decidable_of_iff (flashBank0Base ≤ (resetVector bank0).toNat ∧
    (resetVector bank0).toNat < flashBank0Base + flashBank0Size)
    ⟨fun h => ⟨h.1, h.2⟩, fun h => ⟨h.above, h.below⟩⟩

/-- The bank when power is lost with the first `k` operations done. -/
def bankAfterLoss (buf : List UInt8) (bank0 : Mem) (k : ℕ) : Mem :=
  runFmc ((flashOverwriteBank0 buf).take k) bank0

/-- The next boot runs the old image, overwrites the bank from the staged one, or
runs the image that is complete. -/
def Recovers (buf : List UInt8) (bank0 : Mem) (d : W25q) (bank : Mem) : Prop :=
  CanStart bank ∧
    (Agree bank bank0 flashBank0Base flashBank0Size ∨ otaBoot true bank d = .overwrite buf ∨
      NorFlash.read bank flashBank0Base buf.length = buf)

/-- Every point of the overwrite can lose power. -/
def PowerLossAtomic (buf : List UInt8) (bank0 : Mem) (d : W25q) : Prop :=
  ∀ k ≤ (flashOverwriteBank0 buf).length, Recovers buf bank0 d (bankAfterLoss buf bank0 k)

/-! ## The bank in between -/

variable {bank0 : Mem} {buf : List UInt8} {d : W25q}

theorem length_eraseOps (page n : ℕ) : (eraseOps page n).length = n := by
  induction n generalizing page with
  | zero => rfl
  | succ n ih => rw [eraseOps, List.length_cons, ih]

theorem take_eraseOps (page n k : ℕ) : (eraseOps page n).take k = eraseOps page (min k n) := by
  induction n generalizing page k with
  | zero => rw [Nat.min_zero, eraseOps, List.take_nil]
  | succ n ih =>
    cases k with
    | zero => rfl
    | succ k => rw [Nat.succ_min_succ, eraseOps, eraseOps, List.take_succ_cons, ih]

theorem take_programOps (addr n k : ℕ) (src : List UInt8) :
    (programOps addr n src).take k = programOps addr (min k n) src := by
  induction n generalizing addr src k with
  | zero => rw [Nat.min_zero, programOps, List.take_nil]
  | succ n ih =>
    cases k with
    | zero => rfl
    | succ k => rw [Nat.succ_min_succ, programOps, programOps, List.take_succ_cons, ih]

theorem one_le_numPages (h : Programmable buf) : 1 ≤ numPages buf.length := by
  have hpos := h.pos
  have hle := le_numPages buf.length
  rcases Nat.eq_zero_or_pos (numPages buf.length) with hzero | hpages
  · rw [hzero] at hle
    omega
  · exact hpages

/-- Once the first page is erased it holds nothing but the words programmed so far. -/
theorem erased_bankAfterLoss (h : Programmable buf) {k : ℕ} (hk : 1 ≤ k)
    (hwords : 4 * (k - numPages buf.length) ≤ flashPageSize) :
    Erased (bankAfterLoss buf bank0 k) (flashBank0Base + 4 * (k - numPages buf.length))
      (flashPageSize - 4 * (k - numPages buf.length)) := by
  have hpages := one_le_numPages h
  rw [bankAfterLoss, h.ops, List.take_append, take_eraseOps, length_eraseOps, take_programOps,
    runFmc_append]
  have herased := @runFmc_eraseOps bank0 flashBank0Base (min k (numPages buf.length))
  have hpage : flashPageSize ≤ min k (numPages buf.length) * flashPageSize :=
    Nat.le_mul_of_pos_left _ (Nat.le_min.mpr ⟨hk, hpages⟩)
  generalize flashPageSize = size at herased hpage hwords ⊢
  -- the programs so far end where the range starts
  refine (herased.mono (Nat.le_add_right _ _) (by omega)).congr ?_
  exact runFmc_programOps_agree (.inr (by omega))

theorem resetVector_erased (h : Erased bank0 (flashBank0Base + 4) 4) :
    resetVector bank0 = 0xFFFFFFFF := by
  rw [resetVector, h.read]
  decide

theorem not_canStart_erased (h : Erased bank0 (flashBank0Base + 4) 4) : ¬ CanStart bank0 := by
  intro hstart
  have hbelow := hstart.below
  rw [resetVector_erased h] at hbelow
  exact absurd hbelow (by decide)

/-- From the first page erase until the second word is programmed the unit does not
start. -/
theorem not_recovers_in_window (h : Programmable buf) {k : ℕ} (hk : 1 ≤ k)
    (hwords : k ≤ numPages buf.length + 1) :
    ¬ Recovers buf bank0 d (bankAfterLoss buf bank0 k) := by
  rintro ⟨hstart, _⟩
  have hpage : 4 * (k - numPages buf.length) ≤ flashPageSize :=
    Nat.le_trans (show 4 * (k - numPages buf.length) ≤ 4 by omega) (by decide)
  refine not_canStart_erased ((erased_bankAfterLoss h hk hpage).mono ?_ ?_) hstart
  · omega
  · simp only [flashPageSize] at hpage ⊢
    omega

/-! ## A sample update -/

/-- A bank whose vector table points into it. -/
def sampleBank : Mem := fun x =>
  if x = flashBank0Base + 4 then 0x01
  else if x = flashBank0Base + 5 then 0x01
  else if x = flashBank0Base + 6 then 0x00
  else if x = flashBank0Base + 7 then 0x08
  else NorFlash.blank

/-- The chip after the sample image is committed. -/
def sampleStaged : W25q := ⟨(otaRun true blankPowerUp (sampleUpload fun _ => []) 3).flash, []⟩

theorem sampleStaged_overwrite : otaBoot true sampleBank sampleStaged = .overwrite sampleImage := by
  refine (@otaBoot_overwrite_iff sampleBank sampleStaged 4 (crc32 sampleImage) sampleImage (by decide)
    ?_ ?_ ?_).mpr
    ⟨by decide, ?_⟩
  · decide +kernel
  · decide +kernel
  · decide +kernel
  · decide +kernel

/-! ## The update -/

/-- No update is atomic: a unit that loses power once the first page of its bank is
erased does not start again. -/
theorem apply_not_power_loss_atomic (bank0 : Mem) (d : W25q) {buf : List UInt8}
    (hover : otaBoot true bank0 d = .overwrite buf) : ¬ PowerLossAtomic buf bank0 d := by
  intro hatomic
  have hprog := programmable_of_otaBoot hover
  have hlen : 1 ≤ (flashOverwriteBank0 buf).length := by
    rw [hprog.ops, List.length_append, length_eraseOps]
    exact Nat.le_trans (one_le_numPages hprog) (Nat.le_add_right _ _)
  exact not_recovers_in_window hprog (Nat.le_refl 1) (Nat.le_add_left _ _) (hatomic 1 hlen)

theorem apply_not_power_loss_atomic_sample :
    ¬ PowerLossAtomic sampleImage sampleBank sampleStaged :=
  apply_not_power_loss_atomic sampleBank sampleStaged sampleStaged_overwrite

/-- A unit that starts, applies the sample image and loses power after one page erase
does not start again. -/
theorem half_erased_unit_dead :
    CanStart sampleBank ∧ otaBoot true sampleBank sampleStaged = .overwrite sampleImage ∧
      ¬ CanStart (bankAfterLoss sampleImage sampleBank 1) :=
  ⟨by decide +kernel, sampleStaged_overwrite, by decide +kernel⟩

end OpenEVCharger
