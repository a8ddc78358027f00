import OpenEVCharger.Persist.OtaStage

/-!
# Applying a staged image

`flash_apply_pending_ota_image` and `flash_overwrite_bank0_from_ram` of
`hal/gd32f205/flash.c`, and the call at boot in `main.c`. The checks run from the
bank that the overwrite then erases; the overwrite is the list of page erases and
word programs it hands to the flash controller.
-/

namespace OpenEVCharger

open NorFlash (Mem Agree Erased)

abbrev flashBank0Base : ℕ := 0x08000000
abbrev flashBank0Size : ℕ := 0x00080000
abbrev flashPageSize : ℕ := 0x00000800
abbrev flashOtaApplyMaxSize : ℕ := 64 * 1024

/-! ## The overwrite -/

/-- One operation of the flash controller. -/
inductive FmcOp where
  | erasePage (addr : ℕ)
  | programWord (addr : ℕ) (word : List UInt8)
  deriving DecidableEq, Repr

def FmcOp.run : FmcOp → Mem → Mem
  | .erasePage addr, m => NorFlash.erase addr flashPageSize m
  | .programWord addr word, m => NorFlash.program addr word m

def runFmc (ops : List FmcOp) (bank0 : Mem) : Mem := ops.foldl (fun m op => op.run m) bank0

def eraseOps : ℕ → ℕ → List FmcOp
  | _, 0 => []
  | page, n + 1 => .erasePage page :: eraseOps (page + flashPageSize) n

def programOps : ℕ → ℕ → List UInt8 → List FmcOp
  | _, 0, _ => []
  | addr, n + 1, src => .programWord addr (src.take 4) :: programOps (addr + 4) n (src.drop 4)

def numPages (size : ℕ) : ℕ := (size + (flashPageSize - 1)) / flashPageSize

/-- What `flash_overwrite_bank0_from_ram` does, in order. -/
def flashOverwriteBank0 (src : List UInt8) : List FmcOp :=
  if src.length = 0 ∨ flashBank0Size < src.length then []
  else if src.length % 4 ≠ 0 then []
  else eraseOps flashBank0Base (numPages src.length) ++
    programOps flashBank0Base (src.length / 4) src

/-! ## The decision -/

/-- An image padded with `0xFF` to a word. -/
def padToWord (img : List UInt8) : List UInt8 :=
  img ++ List.replicate ((img.length + 3) / 4 * 4 - img.length) 0xFF

/-- How the call at boot ends: back in `main`, or in the overwrite, which ends in
a reset. -/
inductive ApplyOutcome where
  | returned (rc : Int) (cfg : BootConfig) (chip : W25q)
  | overwrite (buf : List UInt8)

/-- A return that clears the flag first. -/
def returnCleared (rc : Int) (c : BootConfig) (d : W25q) : ApplyOutcome :=
  .returned rc (otaStageClearPending c d).cfg (otaStageClearPending c d).chip

def flashApplyPendingOtaImage (bank0 : Mem) (c : BootConfig) (d : W25q) : ApplyOutcome :=
  if c.pendingOtaFlag = 0 then .returned (-1) c d
  else if c.stagedImageSize = 0 ∨ flashOtaApplyMaxSize < c.stagedImageSize.toNat then
    returnCleared (-2) c d
  -- the running image is the staged one already
  else if crc32 (NorFlash.read bank0 flashBank0Base c.stagedImageSize.toNat) =
      c.stagedImageCrc32 then returnCleared 0 c d
  else if otaStageComputeCrc c.stagedImageSize d ≠ c.stagedImageCrc32 then
    returnCleared (-3) c d
  else
    let img := w25qRead otaStageRegionBase c.stagedImageSize.toNat d
    -- the copy in RAM is checked once more
    if crc32 img ≠ c.stagedImageCrc32 then returnCleared (-3) c d
    else .overwrite (padToWord img)

/-- The boot path of `main`, in a build that applies images or in one that only
clears the flag. -/
def otaBoot (applyEnabled : Bool) (bank0 : Mem) (d : W25q) : ApplyOutcome :=
  let l := bootConfigLoad d
  if l.cfg.pendingOtaFlag = 0 then .returned 0 l.cfg l.chip
  else if applyEnabled then flashApplyPendingOtaImage bank0 l.cfg l.chip
  else returnCleared 0 l.cfg l.chip

/-! ## What the overwrite leaves -/

variable {bank0 : Mem} {c : BootConfig} {d : W25q} {src : List UInt8}

theorem runFmc_append (xs ys : List FmcOp) (bank0 : Mem) :
    runFmc (xs ++ ys) bank0 = runFmc ys (runFmc xs bank0) := List.foldl_append

theorem runFmc_cons (op : FmcOp) (ops : List FmcOp) (bank0 : Mem) :
    runFmc (op :: ops) bank0 = runFmc ops (op.run bank0) := rfl

theorem runFmc_eraseOps_agree {page n a k : ℕ}
    (h : a + k ≤ page ∨ page + n * flashPageSize ≤ a) :
    Agree (runFmc (eraseOps page n) bank0) bank0 a k := by
  induction n generalizing page bank0 with
  | zero => exact Agree.refl _ _ _
  | succ n ih =>
    rw [Nat.succ_mul] at h
    have hpage : a + k ≤ page ∨ page + flashPageSize ≤ a := by
      generalize flashPageSize = size at h ⊢
      omega
    have hlater : a + k ≤ page + flashPageSize ∨
        page + flashPageSize + n * flashPageSize ≤ a := by
      generalize flashPageSize = size at h ⊢
      omega
    have hfirst : Agree ((FmcOp.erasePage page).run bank0) bank0 a k :=
      NorFlash.agree_patch (NorFlash.not_within_of_disjoint hpage)
    rw [eraseOps, runFmc_cons]
    exact (ih hlater).trans hfirst

theorem runFmc_eraseOps {page n : ℕ} :
    Erased (runFmc (eraseOps page n) bank0) page (n * flashPageSize) := by
  induction n generalizing page bank0 with
  | zero =>
    intro x h1 h2
    omega
  | succ n ih =>
    rw [eraseOps, runFmc_cons]
    have hfirst : Erased ((FmcOp.erasePage page).run bank0) page flashPageSize :=
      NorFlash.erased_erase _ _ _
    intro x h1 h2
    rcases Nat.lt_or_ge x (page + flashPageSize) with hx | hx
    · exact (hfirst.congr (runFmc_eraseOps_agree (.inl (Nat.le_refl _)))) x h1 hx
    · refine ih x hx ?_
      rw [Nat.succ_mul] at h2
      omega

theorem runFmc_programOps_agree {addr n a k : ℕ} (h : a + k ≤ addr ∨ addr + 4 * n ≤ a) :
    Agree (runFmc (programOps addr n src) bank0) bank0 a k := by
  induction n generalizing addr src bank0 with
  | zero => exact Agree.refl _ _ _
  | succ n ih =>
    have hlen : (src.take 4).length ≤ 4 := by
      rw [List.length_take]
      omega
    have hfirst : Agree ((FmcOp.programWord addr (src.take 4)).run bank0) bank0 a k :=
      NorFlash.agree_patch (NorFlash.not_within_of_disjoint (by omega))
    rw [programOps, runFmc_cons]
    exact (ih (by omega)).trans hfirst

theorem runFmc_programOps {addr n : ℕ} (hlen : src.length = 4 * n)
    (herased : Erased bank0 addr src.length) :
    NorFlash.read (runFmc (programOps addr n src) bank0) addr src.length = src := by
  induction n generalizing addr src bank0 with
  | zero =>
    have hnil : src = [] := List.eq_nil_of_length_eq_zero hlen
    rw [hnil]
    rfl
  | succ n ih =>
    have htake : (src.take 4).length = 4 := by
      rw [List.length_take]
      omega
    have hdrop : (src.drop 4).length = 4 * n := by
      rw [List.length_drop]
      omega
    rw [programOps, runFmc_cons]
    have hword : NorFlash.read ((FmcOp.programWord addr (src.take 4)).run bank0) addr 4 =
        src.take 4 := by
      have hread := @NorFlash.read_program bank0 addr (src.take 4)
        (herased.mono (Nat.le_refl _) (by omega))
      rw [htake] at hread
      exact hread
    have hrest : Erased ((FmcOp.programWord addr (src.take 4)).run bank0) (addr + 4)
        (src.drop 4).length := by
      refine (herased.mono (Nat.le_add_right _ _) (by omega)).congr ?_
      exact NorFlash.agree_patch (NorFlash.not_within_of_disjoint (by omega))
    have hhead : NorFlash.read (runFmc (programOps (addr + 4) n (src.drop 4))
        ((FmcOp.programWord addr (src.take 4)).run bank0)) addr 4 = src.take 4 := by
      rw [(runFmc_programOps_agree (.inl (Nat.le_refl _))).read, hword]
    have htail := ih hdrop hrest
    rw [hdrop] at htail
    have hsplit : src.length = 4 + 4 * n := by omega
    rw [hsplit, NorFlash.read_add, hhead, htail, List.take_append_drop]

/-- What the source's range and alignment checks let through. -/
structure Programmable (src : List UInt8) : Prop where
  pos : 0 < src.length
  fits : src.length ≤ flashBank0Size
  aligned : src.length % 4 = 0

theorem Programmable.ops (h : Programmable src) :
    flashOverwriteBank0 src = eraseOps flashBank0Base (numPages src.length) ++
      programOps flashBank0Base (src.length / 4) src := by
  have hrange : ¬ (src.length = 0 ∨ flashBank0Size < src.length) := by
    rintro (h0 | hbig)
    · exact absurd h0 (Nat.ne_of_gt h.pos)
    · exact absurd h.fits (Nat.not_le.mpr hbig)
  rw [flashOverwriteBank0, if_neg hrange, if_neg (not_not.mpr h.aligned)]

theorem le_numPages (size : ℕ) : size ≤ numPages size * flashPageSize := by
  rw [numPages]
  simp only [flashPageSize]
  omega

/-- A completed overwrite leaves the bank holding the source. -/
theorem read_runFmc_overwrite (h : Programmable src) :
    NorFlash.read (runFmc (flashOverwriteBank0 src) bank0) flashBank0Base src.length = src := by
  have hlen : src.length = 4 * (src.length / 4) := by
    have := h.aligned
    omega
  rw [h.ops, runFmc_append]
  refine runFmc_programOps hlen ?_
  exact runFmc_eraseOps.mono (Nat.le_refl _) (Nat.add_le_add_left (le_numPages _) _)

/-! ## When the overwrite is reached -/

theorem length_padToWord (img : List UInt8) : (padToWord img).length = (img.length + 3) / 4 * 4 := by
  rw [padToWord, List.length_append, List.length_replicate]
  omega

theorem programmable_padToWord {img : List UInt8} (hpos : 0 < img.length)
    (hmax : img.length ≤ flashOtaApplyMaxSize) : Programmable (padToWord img) := by
  have hlen := length_padToWord img
  refine ⟨by omega, ?_, by omega⟩
  simp only [flashBank0Size, flashOtaApplyMaxSize] at hmax ⊢
  omega

/-- The checks that lead to the overwrite, and the buffer it gets. -/
structure ApplyReady (bank0 : Mem) (c : BootConfig) (d : W25q) : Prop where
  flag : c.pendingOtaFlag ≠ 0
  pos : c.stagedImageSize ≠ 0
  fits : c.stagedImageSize.toNat ≤ flashOtaApplyMaxSize
  differs : crc32 (NorFlash.read bank0 flashBank0Base c.stagedImageSize.toNat) ≠
    c.stagedImageCrc32
  staged : crc32 (stagedBytes c.stagedImageSize.toNat d.mem) = c.stagedImageCrc32

theorem ApplyReady.overwrite (h : ApplyReady bank0 c d) :
    flashApplyPendingOtaImage bank0 c d =
      .overwrite (padToWord (stagedBytes c.stagedImageSize.toNat d.mem)) := by
  have hrange : ¬ (c.stagedImageSize = 0 ∨
      flashOtaApplyMaxSize < c.stagedImageSize.toNat) := by
    rintro (h0 | hbig)
    · exact h.pos h0
    · exact absurd h.fits (Nat.not_le.mpr hbig)
  have hstage : ¬ otaStageComputeCrc c.stagedImageSize d ≠ c.stagedImageCrc32 := by
    rw [otaStageComputeCrc_eq]
    exact not_not.mpr h.staged
  rw [flashApplyPendingOtaImage, if_neg h.flag, if_neg hrange, if_neg h.differs, if_neg hstage]
  exact if_neg (not_not.mpr h.staged)

theorem applyReady_of_overwrite {buf : List UInt8}
    (h : flashApplyPendingOtaImage bank0 c d = .overwrite buf) :
    ApplyReady bank0 c d ∧ buf = padToWord (stagedBytes c.stagedImageSize.toNat d.mem) := by
  rw [flashApplyPendingOtaImage] at h
  split at h
  · cases h
  next hflag =>
  split at h
  · cases h
  next hrange =>
  split at h
  · cases h
  next hdiffers =>
  split at h
  · cases h
  next hstage =>
  have hready : ApplyReady bank0 c d := by
    refine ⟨hflag, fun h0 => hrange (.inl h0), Nat.not_lt.mp fun hbig => hrange (.inr hbig),
      hdiffers, ?_⟩
    rw [← otaStageComputeCrc_eq]
    exact not_not.mp hstage
  have hcopy : ¬ crc32 (w25qRead otaStageRegionBase c.stagedImageSize.toNat d) ≠
      c.stagedImageCrc32 := not_not.mpr hready.staged
  dsimp only at h
  rw [if_neg hcopy] at h
  injection h with h
  exact ⟨hready, h.symm⟩

/-- The boot hands the overwrite nothing that it refuses. -/
theorem programmable_of_otaBoot {buf : List UInt8} (h : otaBoot true bank0 d = .overwrite buf) :
    Programmable buf := by
  rw [otaBoot] at h
  generalize bootConfigLoad d = l at h
  split at h
  · cases h
  rw [if_pos rfl] at h
  obtain ⟨hready, rfl⟩ := applyReady_of_overwrite h
  have hlen : (stagedBytes l.cfg.stagedImageSize.toNat l.chip.mem).length =
      l.cfg.stagedImageSize.toNat := NorFlash.length_read _ _ _
  refine programmable_padToWord ?_ ?_
  · rw [hlen]
    exact Nat.pos_of_ne_zero fun h0 => hready.pos (UInt32.toNat_inj.mp h0)
  · rw [hlen]
    exact hready.fits

end OpenEVCharger
