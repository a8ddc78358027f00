import OpenEVCharger.Persist.BootConfig

/-!
# OTA staging

`persist/ota_stage.c`: a firmware image goes to the megabyte at `0x400000`, is
erased sector by sector before it and programmed page by page, and is marked in
the boot configuration once it is complete.
-/

namespace OpenEVCharger

open NorFlash (Mem Agree Erased)

abbrev otaStageRegionBase : ℕ := 0x400000
abbrev otaStageRegionSize : ℕ := 0x100000
abbrev otaStageMaxImageSize : ℕ := otaStageRegionSize

/-- Erases `n` sectors from `addr` on, up to the first erase that fails. -/
def eraseSectors : ℕ → ℕ → W25q → Int × W25q
  | _, 0, d => (0, d)
  | addr, n + 1, d =>
    let e := w25qEraseSector addr d
    if e.1 < 0 then (-1, e.2) else eraseSectors (addr + w25qSectorSize) n e.2

def otaStageBegin (imageSize : UInt32) (d : W25q) : Int × W25q :=
  if imageSize = 0 then (-3, d)
  else if otaStageMaxImageSize < imageSize.toNat then (-2, d)
  else
    eraseSectors otaStageRegionBase
      ((imageSize.toNat + (w25qSectorSize - 1)) / w25qSectorSize) d

/-- Programs `data` from `addr` on, split at the page boundaries. Every round
takes a byte at least, so that the length of the data is fuel enough. -/
def programPages : ℕ → ℕ → List UInt8 → W25q → Int × W25q
  | 0, _, _, d => (0, d)
  | fuel + 1, addr, data, d =>
    if data.length = 0 then (0, d)
    else
      let thisProg := min data.length (w25qPageSize - addr % w25qPageSize)
      let p := w25qProgram addr (data.take thisProg) d
      if p.1 < 0 then (-1, p.2)
      else programPages fuel (addr + thisProg) (data.drop thisProg) p.2

def otaStageWrite (offset : UInt32) (data : List UInt8) (d : W25q) : Int × W25q :=
  if data.length = 0 then (-4, d)
  else if otaStageRegionSize < offset.toNat + data.length then (-3, d)
  else programPages data.length (otaStageRegionBase + offset.toNat) data d

/-- The loop of `ota_stage_compute_crc`, 256 bytes a round. -/
def stageCrcLoop (m : Mem) : ℕ → ℕ → ℕ → OtaCrcCtx → OtaCrcCtx
  | 0, _, _, ctx => ctx
  | fuel + 1, addr, remaining, ctx =>
    if remaining = 0 then ctx
    else
      let thisChunk := min remaining 256
      stageCrcLoop m fuel (addr + thisChunk) (remaining - thisChunk)
        (otaCrcUpdate ctx (NorFlash.read m addr thisChunk))

def otaStageComputeCrc (imageSize : UInt32) (d : W25q) : UInt32 :=
  otaCrcFinalize (stageCrcLoop d.mem imageSize.toNat otaStageRegionBase imageSize.toNat otaCrcInit)

def otaStageMarkPending (imageSize imageCrc32 : UInt32) (c : BootConfig) (d : W25q) :
    BootConfigResult :=
  bootConfigSetPendingOta 1 imageSize imageCrc32 c d

def otaStageClearPending (c : BootConfig) (d : W25q) : BootConfigResult :=
  bootConfigSetPendingOta 0 0 0 c d

/-- The first bytes of the staging region. -/
def stagedBytes (n : ℕ) (m : Mem) : List UInt8 := NorFlash.read m otaStageRegionBase n

/-! ## The erase -/

variable {d : W25q} {a n : ℕ}

theorem sectorBase_add {addr : ℕ} (h : sectorBase addr = addr) :
    sectorBase (addr + w25qSectorSize) = addr + w25qSectorSize := by
  rw [sectorBase] at h ⊢
  rw [Nat.add_div_right addr (by decide), Nat.succ_mul, h]

theorem eraseSectors_agree {addr count : ℕ} (hbase : sectorBase addr = addr)
    (h : a + n ≤ addr ∨ addr + count * w25qSectorSize ≤ a) :
    Agree (eraseSectors addr count d).2.mem d.mem a n := by
  induction count generalizing addr d with
  | zero => exact Agree.refl _ _ _
  | succ count ih =>
    have hfirst : Agree (w25qEraseSector addr d).2.mem d.mem a n := by
      refine w25qEraseSector_agree ?_
      rw [hbase]
      rw [Nat.succ_mul] at h
      generalize w25qSectorSize = sector at h ⊢
      omega
    rw [eraseSectors]
    split
    · exact hfirst
    · refine (ih (sectorBase_add hbase) ?_).trans hfirst
      rw [Nat.succ_mul] at h
      generalize w25qSectorSize = sector at h ⊢
      omega

/-- An erase that reports success leaves every sector of its range erased. -/
theorem eraseSectors_ok {addr count : ℕ} (hbase : sectorBase addr = addr)
    (hrc : (eraseSectors addr count d).1 = 0) :
    Erased (eraseSectors addr count d).2.mem addr (count * w25qSectorSize) := by
  induction count generalizing addr d with
  | zero =>
    intro x h1 h2
    omega
  | succ count ih =>
    rw [eraseSectors] at hrc ⊢
    split at hrc
    · simp at hrc
    next hneg =>
    rw [if_neg hneg]
    have hnext := sectorBase_add hbase
    have hfirst : Erased (w25qEraseSector addr d).2.mem addr w25qSectorSize := by
      have hok := @w25qEraseSector_ok d addr (w25qEraseSector_rc hneg)
      rw [hbase] at hok
      exact hok
    intro x h1 h2
    rcases Nat.lt_or_ge x (addr + w25qSectorSize) with hx | hx
    · -- the sectors after the first leave it erased
      exact (hfirst.congr (eraseSectors_agree hnext (.inl (Nat.le_refl _)))) x h1 hx
    · refine ih hnext hrc x hx ?_
      rw [Nat.succ_mul] at h2
      omega

/-- The number of sectors an image covers. -/
theorem le_sectors (size : ℕ) :
    size ≤ (size + (w25qSectorSize - 1)) / w25qSectorSize * w25qSectorSize := by
  simp only [w25qSectorSize]
  omega

theorem otaStageBegin_agree {imageSize : UInt32} (h : a + n ≤ otaStageRegionBase) :
    Agree (otaStageBegin imageSize d).2.mem d.mem a n := by
  rw [otaStageBegin]
  split
  · exact Agree.refl _ _ _
  · split
    · exact Agree.refl _ _ _
    · exact eraseSectors_agree (by decide) (.inl h)

/-- A begin that succeeds leaves room for the image erased. -/
theorem otaStageBegin_ok {imageSize : UInt32} (hrc : (otaStageBegin imageSize d).1 = 0) :
    imageSize ≠ 0 ∧ imageSize.toNat ≤ otaStageMaxImageSize ∧
      Erased (otaStageBegin imageSize d).2.mem otaStageRegionBase imageSize.toNat := by
  rw [otaStageBegin] at hrc ⊢
  split at hrc
  · simp at hrc
  next hzero =>
  rw [if_neg hzero]
  split at hrc
  · simp at hrc
  next hmax =>
  rw [if_neg hmax]
  refine ⟨hzero, Nat.not_lt.mp hmax, ?_⟩
  have herased := eraseSectors_ok (by decide) hrc
  exact herased.mono (Nat.le_refl _) (Nat.add_le_add_left (le_sectors _) _)

/-! ## The write -/

/-- What is left of the page is enough for what is programmed in it. -/
theorem thisProg_fits (addr : ℕ) (data : List UInt8) :
    addr % w25qPageSize +
      (data.take (min data.length (w25qPageSize - addr % w25qPageSize))).length ≤
        w25qPageSize := by
  rw [List.length_take, w25qPageSize]
  omega

theorem programPages_agree {fuel addr : ℕ} {data : List UInt8}
    (h : a + n ≤ addr ∨ addr + data.length ≤ a) :
    Agree (programPages fuel addr data d).2.mem d.mem a n := by
  induction fuel generalizing addr data d with
  | zero => exact Agree.refl _ _ _
  | succ fuel ih =>
    rw [programPages]
    split
    · exact Agree.refl _ _ _
    dsimp only
    have hfirst : Agree (w25qProgram addr
        (data.take (min data.length (w25qPageSize - addr % w25qPageSize))) d).2.mem
        d.mem a n := by
      refine w25qProgram_agree (thisProg_fits addr data) ?_
      rw [List.length_take]
      omega
    split
    · exact hfirst
    · refine (ih ?_).trans hfirst
      rw [List.length_drop]
      omega

/-- Programming erased cells page by page leaves the data. -/
theorem programPages_ok {fuel addr : ℕ} {data : List UInt8} (hfuel : data.length ≤ fuel)
    (herased : Erased d.mem addr data.length) (hrc : (programPages fuel addr data d).1 = 0) :
    NorFlash.read (programPages fuel addr data d).2.mem addr data.length = data := by
  induction fuel generalizing addr data d with
  | zero =>
    have hnil : data = [] := List.eq_nil_of_length_eq_zero (Nat.le_zero.mp hfuel)
    rw [hnil]
    rfl
  | succ fuel ih =>
    rw [programPages] at hrc ⊢
    split at hrc
    · next hzero =>
      rw [List.eq_nil_of_length_eq_zero hzero]
      rfl
    next hzero =>
    rw [if_neg hzero]
    dsimp only at hrc ⊢
    have hfits := thisProg_fits addr data
    generalize hk : min data.length (w25qPageSize - addr % w25qPageSize) = k at hrc hfits ⊢
    have hkpos : 0 < k := by
      have := Nat.mod_lt addr (show 0 < w25qPageSize by decide)
      omega
    have hkle : k ≤ data.length := by omega
    have htake : (data.take k).length = k := by
      rw [List.length_take]
      omega
    have hdrop : (data.drop k).length = data.length - k := List.length_drop
    split at hrc
    · simp at hrc
    next hneg =>
    rw [if_neg hneg]
    have hmem := w25qProgram_ok hfits (w25qProgram_rc hneg)
    -- the cells after this page's share stay erased
    have hrest : Erased (w25qProgram addr (data.take k) d).2.mem (addr + k)
        (data.drop k).length := by
      refine (herased.mono (Nat.le_add_right _ _) (by omega)).congr ?_
      exact w25qProgram_agree hfits (.inr (by omega))
    have htail := ih (by omega) hrest hrc
    have hhead : NorFlash.read (programPages fuel (addr + k) (data.drop k)
        (w25qProgram addr (data.take k) d).2).2.mem addr k = data.take k := by
      rw [(programPages_agree (.inl (Nat.le_refl _))).read, hmem]
      have hread := @NorFlash.read_program d.mem addr (data.take k)
        (herased.mono (Nat.le_refl _) (by omega))
      rw [htake] at hread
      exact hread
    rw [hdrop] at htail
    calc NorFlash.read _ addr data.length
        = NorFlash.read _ addr (k + (data.length - k)) := by rw [Nat.add_sub_cancel' hkle]
      _ = data.take k ++ data.drop k := by rw [NorFlash.read_add, hhead, htail]
      _ = data := List.take_append_drop k data

theorem otaStageWrite_agree {offset : UInt32} {data : List UInt8}
    (h : a + n ≤ otaStageRegionBase + offset.toNat ∨
      otaStageRegionBase + offset.toNat + data.length ≤ a) :
    Agree (otaStageWrite offset data d).2.mem d.mem a n := by
  rw [otaStageWrite]
  split
  · exact Agree.refl _ _ _
  · split
    · exact Agree.refl _ _ _
    · exact programPages_agree h

/-- A write to erased cells that succeeds leaves the data there. -/
theorem otaStageWrite_ok {offset : UInt32} {data : List UInt8}
    (herased : Erased d.mem (otaStageRegionBase + offset.toNat) data.length)
    (hrc : (otaStageWrite offset data d).1 = 0) :
    NorFlash.read (otaStageWrite offset data d).2.mem (otaStageRegionBase + offset.toNat)
      data.length = data := by
  rw [otaStageWrite] at hrc ⊢
  split at hrc
  · simp at hrc
  next hlen =>
  rw [if_neg hlen]
  split at hrc
  · simp at hrc
  next hend =>
  rw [if_neg hend]
  exact programPages_ok (Nat.le_refl _) herased hrc

/-! ## The check -/

theorem stageCrcLoop_eq {m : Mem} {fuel addr remaining : ℕ} (h : remaining ≤ fuel)
    (ctx : OtaCrcCtx) :
    stageCrcLoop m fuel addr remaining ctx =
      otaCrcUpdate ctx (NorFlash.read m addr remaining) := by
  induction fuel generalizing addr remaining ctx with
  | zero =>
    have hzero : remaining = 0 := Nat.le_zero.mp h
    subst hzero
    rfl
  | succ fuel ih =>
    rw [stageCrcLoop]
    split
    · next hzero =>
      subst hzero
      rfl
    · next hzero =>
      have hsplit : remaining = min remaining 256 + (remaining - min remaining 256) := by omega
      dsimp only
      rw [ih (by omega), otaCrcUpdate_append, ← NorFlash.read_add, ← hsplit]

/-- The check at the end of an upload reads the whole image. -/
theorem otaStageComputeCrc_eq (imageSize : UInt32) (d : W25q) :
    otaStageComputeCrc imageSize d = crc32 (stagedBytes imageSize.toNat d.mem) := by
  rw [otaStageComputeCrc, stageCrcLoop_eq (Nat.le_refl _), otaCrcFinalize_update_init, stagedBytes]

/-! ## The mark -/

/-- Marking an image that the copy names already is answered without a store. -/
theorem otaStageMarkPending_same {imageSize imageCrc32 : UInt32} {c : BootConfig}
    (h : c.pendingOta = ⟨1, imageSize, imageCrc32⟩) :
    otaStageMarkPending imageSize imageCrc32 c d = ⟨0, c, d⟩ := by
  have hsame : decide (c.pendingOta = (⟨1, imageSize, imageCrc32⟩ : PendingOta)) = true :=
    decide_eq_true h
  rw [otaStageMarkPending, bootConfigSetPendingOta]
  rw [if_pos (by decide), hsame, bootConfigUpdate, if_pos rfl]

theorem otaStageMarkPending_new {imageSize imageCrc32 : UInt32} {c : BootConfig}
    (h : c.pendingOta ≠ ⟨1, imageSize, imageCrc32⟩) :
    otaStageMarkPending imageSize imageCrc32 c d =
      bootConfigStore (c.setPendingOta ⟨1, imageSize, imageCrc32⟩) d := by
  have hnew : decide (c.pendingOta = (⟨1, imageSize, imageCrc32⟩ : PendingOta)) = false :=
    decide_eq_false h
  rw [otaStageMarkPending, bootConfigSetPendingOta]
  rw [if_pos (by decide), hnew, bootConfigUpdate, if_neg (by decide)]

theorem otaStageMarkPending_agree {imageSize imageCrc32 : UInt32} {c : BootConfig}
    (h : 0x2000 ≤ a) : Agree (otaStageMarkPending imageSize imageCrc32 c d).chip.mem d.mem a n :=
  bootConfigUpdate_agree h

end OpenEVCharger
