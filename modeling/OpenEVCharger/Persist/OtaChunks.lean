import OpenEVCharger.Persist.Interrupted
import OpenEVCharger.Persist.OtaStage

/-!
# An image staged in chunks

The chunks of an image are written one behind the other with `ota_stage_write` and go
through the streaming CRC as they come. However the image is split, the staging region
holds it in the end, its three checksums agree, and no program crosses a flash page.
-/

namespace OpenEVCharger

open NorFlash (Agree Erased)

/-! ## Writing the chunks -/

/-- What the writes of the chunks leave: the return code, the running CRC and the chip. -/
structure ChunksWritten where
  rc : Int
  crc : OtaCrcCtx
  chip : W25q

/-- Each chunk is written at the running offset, and added to the CRC unless that fails. -/
def otaWriteChunks : ℕ → List (List UInt8) → OtaCrcCtx → W25q → ChunksWritten
  | _, [], crc, d => ⟨0, crc, d⟩
  | offset, chunk :: chunks, crc, d =>
    let w := otaStageWrite (UInt32.ofNat offset) chunk d
    if w.1 < 0 then ⟨w.1, crc, w.2⟩
    else otaWriteChunks (offset + chunk.length) chunks (otaCrcUpdate crc chunk) w.2

/-- A page program: where to, and what. -/
abbrev PageProgram := ℕ × List UInt8

/-- The page programs that the loop of `ota_stage_write` issues. -/
def pagePrograms : ℕ → ℕ → List UInt8 → List PageProgram
  | 0, _, _ => []
  | fuel + 1, addr, data =>
    if data.length = 0 then []
    else
      let thisProg := min data.length (w25qPageSize - addr % w25qPageSize)
      (addr, data.take thisProg) :: pagePrograms fuel (addr + thisProg) (data.drop thisProg)

/-- Those of all chunks. -/
def chunkPrograms : ℕ → List (List UInt8) → List PageProgram
  | _, [] => []
  | offset, chunk :: chunks =>
    pagePrograms chunk.length (otaStageRegionBase + offset) chunk ++
      chunkPrograms (offset + chunk.length) chunks

/-- Programs one after the other, up to the first that fails. -/
def runPrograms : List PageProgram → W25q → Int × W25q
  | [], d => (0, d)
  | p :: ps, d =>
    let r := w25qProgram p.1 p.2 d
    if r.1 < 0 then (-1, r.2) else runPrograms ps r.2

/-- A program of some bytes of one flash page. -/
structure PageProgram.InPage (p : PageProgram) : Prop where
  nonempty : p.2 ≠ []
  fits : p.1 % w25qPageSize + p.2.length ≤ w25qPageSize

/-! ## The programs issued -/

variable {d : W25q} {data : List UInt8} {fuel addr offset : ℕ} {chunks : List (List UInt8)}

theorem programPages_eq (fuel addr : ℕ) (data : List UInt8) (d : W25q) :
    programPages fuel addr data d = runPrograms (pagePrograms fuel addr data) d := by
  induction fuel generalizing addr data d with
  | zero => rfl
  | succ fuel ih =>
    rw [programPages, pagePrograms]
    split
    · rfl
    · dsimp only
      rw [runPrograms, ih]

theorem runPrograms_append (ps qs : List PageProgram) (d : W25q) :
    runPrograms (ps ++ qs) d =
      if (runPrograms ps d).1 < 0 then runPrograms ps d else runPrograms qs (runPrograms ps d).2 := by
  induction ps generalizing d with
  | nil => rfl
  | cons p ps ih =>
    rw [List.cons_append, runPrograms, runPrograms]
    by_cases hrc : (w25qProgram p.1 p.2 d).1 < 0
    · rw [if_pos hrc, if_pos hrc]
      rfl
    · rw [if_neg hrc, if_neg hrc]
      exact ih _

theorem runPrograms_rc (ps : List PageProgram) (d : W25q) :
    (runPrograms ps d).1 = 0 ∨ (runPrograms ps d).1 = -1 := by
  induction ps generalizing d with
  | nil => exact .inl rfl
  | cons p ps ih =>
    rw [runPrograms]
    split
    · exact .inr rfl
    · exact ih _

theorem pagePrograms_inPage (fuel addr : ℕ) (data : List UInt8) :
    ∀ p ∈ pagePrograms fuel addr data, p.InPage := by
  induction fuel generalizing addr data with
  | zero => exact fun p hp => absurd hp List.not_mem_nil
  | succ fuel ih =>
    intro p hp
    rw [pagePrograms] at hp
    split at hp
    · exact absurd hp List.not_mem_nil
    next hlen =>
    rcases List.mem_cons.mp hp with rfl | hrest
    · refine ⟨List.ne_nil_of_length_pos ?_, thisProg_fits addr data⟩
      have hpage := Nat.mod_lt addr (show 0 < w25qPageSize by decide)
      rw [List.length_take]
      omega
    · exact ih _ _ p hrest

theorem chunkPrograms_inPage (offset : ℕ) (chunks : List (List UInt8)) :
    ∀ p ∈ chunkPrograms offset chunks, p.InPage := by
  induction chunks generalizing offset with
  | nil => exact fun p hp => absurd hp List.not_mem_nil
  | cons chunk chunks ih =>
    intro p hp
    rcases List.mem_append.mp hp with hfirst | hrest
    · exact pagePrograms_inPage _ _ _ p hfirst
    · exact ih _ p hrest

/-- Programs of a page or less succeed unless the chip fails. -/
theorem runPrograms_done {ps : List PageProgram} (hpage : ∀ p ∈ ps, p.InPage)
    (h : AllDone d.outcomes) :
    (runPrograms ps d).1 = 0 ∧ AllDone (runPrograms ps d).2.outcomes := by
  induction ps generalizing d with
  | nil => exact ⟨rfl, h⟩
  | cons p ps ih =>
    have hp := hpage p (List.mem_cons_self ..)
    have hlen : ¬ (p.2.length = 0 ∨ w25qPageSize < p.2.length) := by
      have hpos := List.length_pos_iff.mpr hp.nonempty
      have hfits := hp.fits
      omega
    have hrc : (w25qProgram p.1 p.2 d).1 = 0 := by
      rw [w25qProgram, if_neg hlen]
      exact (w25qWrite_done h).1
    rw [runPrograms]
    rw [hrc, if_neg (by decide)]
    exact ih (fun q hq => hpage q (List.mem_cons_of_mem _ hq)) (w25qProgram_allDone h)

/-! ## One chunk -/

/-- The offsets of the region are words. -/
theorem toNat_stageOffset (h : offset ≤ otaStageRegionSize) :
    (UInt32.ofNat offset).toNat = offset :=
  UInt32.toNat_ofNat_of_lt' (Nat.lt_of_le_of_lt h (by decide))

/-- A write of some bytes within the region issues the programs of its loop. -/
theorem otaStageWrite_programs {chunk : List UInt8} (hne : chunk ≠ [])
    (hfits : offset + chunk.length ≤ otaStageRegionSize) :
    otaStageWrite (UInt32.ofNat offset) chunk d =
      runPrograms (pagePrograms chunk.length (otaStageRegionBase + offset) chunk) d := by
  have hpos := List.length_pos_iff.mpr hne
  rw [otaStageWrite, if_neg (Nat.ne_of_gt hpos), toNat_stageOffset (by omega),
    if_neg (Nat.not_lt.mpr hfits),
    programPages_eq]

/-! ## All chunks -/

/-- The writes of the chunks are the programs of all of them, up to the first that fails. -/
theorem otaWriteChunks_programs (hne : ∀ chunk ∈ chunks, chunk ≠ [])
    (hfits : offset + chunks.flatten.length ≤ otaStageRegionSize) (crc : OtaCrcCtx) (d : W25q) :
    (otaWriteChunks offset chunks crc d).rc = (runPrograms (chunkPrograms offset chunks) d).1 ∧
      (otaWriteChunks offset chunks crc d).chip =
        (runPrograms (chunkPrograms offset chunks) d).2 := by
  induction chunks generalizing offset crc d with
  | nil => exact ⟨rfl, rfl⟩
  | cons chunk chunks ih =>
    rw [List.flatten_cons, List.length_append] at hfits
    rw [otaWriteChunks, chunkPrograms, runPrograms_append,
      otaStageWrite_programs (hne chunk (List.mem_cons_self ..)) (by omega)]
    split
    · exact ⟨rfl, rfl⟩
    · exact ih (fun c hc => hne c (List.mem_cons_of_mem _ hc)) (by omega) _ _

/-- Writes that succeed leave the chunks one behind the other, and their CRC. -/
theorem otaWriteChunks_ok (hne : ∀ chunk ∈ chunks, chunk ≠ [])
    (hfits : offset + chunks.flatten.length ≤ otaStageRegionSize) (crc : OtaCrcCtx)
    (herased : Erased d.mem (otaStageRegionBase + offset) chunks.flatten.length)
    (hrc : (otaWriteChunks offset chunks crc d).rc = 0) :
    (otaWriteChunks offset chunks crc d).crc = otaCrcUpdate crc chunks.flatten ∧
      NorFlash.read (otaWriteChunks offset chunks crc d).chip.mem (otaStageRegionBase + offset)
        chunks.flatten.length = chunks.flatten ∧
      ∀ a n, a + n ≤ otaStageRegionBase + offset →
        Agree (otaWriteChunks offset chunks crc d).chip.mem d.mem a n := by
  induction chunks generalizing offset crc d with
  | nil => exact ⟨rfl, rfl, fun a n _ => Agree.refl _ _ _⟩
  | cons chunk chunks ih =>
    rw [List.flatten_cons, List.length_append] at hfits herased
    have hoffset := @toNat_stageOffset offset (by omega)
    have hwritten := @otaStageWrite_ok d (UInt32.ofNat offset) chunk
    have houtside := fun a n => @otaStageWrite_agree d a n (UInt32.ofNat offset) chunk
    rw [hoffset] at hwritten houtside
    rw [otaWriteChunks] at hrc ⊢
    by_cases hneg : (otaStageWrite (UInt32.ofNat offset) chunk d).1 < 0
    · rw [if_pos hneg] at hrc
      exact absurd hrc (Int.ne_of_lt hneg)
    rw [if_neg hneg] at hrc ⊢
    have hwrote : (otaStageWrite (UInt32.ofNat offset) chunk d).1 = 0 := by
      rw [otaStageWrite_programs (hne chunk (List.mem_cons_self ..)) (by omega)] at hneg ⊢
      rcases runPrograms_rc (pagePrograms chunk.length (otaStageRegionBase + offset) chunk) d with
        hzero | hminus
      · exact hzero
      · rw [hminus] at hneg
        exact absurd (by decide) hneg
    have hchunk := hwritten (herased.mono (Nat.le_refl _) (by omega)) hwrote
    -- the cells behind the chunk are still erased
    have hbehind : Erased (otaStageWrite (UInt32.ofNat offset) chunk d).2.mem
        (otaStageRegionBase + (offset + chunk.length)) chunks.flatten.length :=
      (herased.mono (by omega) (by omega)).congr (houtside _ _ (.inr (by omega)))
    obtain ⟨hcrc, hread, hkeep⟩ := ih (fun c hc => hne c (List.mem_cons_of_mem _ hc)) (by omega)
      (otaCrcUpdate crc chunk) hbehind hrc
    refine ⟨?_, ?_, fun a n ha => ?_⟩
    · rw [hcrc, otaCrcUpdate_append, List.flatten_cons]
    · rw [List.flatten_cons, List.length_append, NorFlash.read_add, Nat.add_assoc, hread,
        (hkeep _ _ (Nat.le_of_eq (Nat.add_assoc _ _ _))).read, hchunk]
    · exact (hkeep a n (by omega)).trans (houtside a n (.inl (by omega)))

/-- However an image is split into chunks and wherever in the region its first chunk goes:
every page program stays inside one page, and without a failure of the chip all writes
succeed. Writes that succeed into erased flash leave the image there and the streaming
CRC equal to its one-shot CRC, and for an image at the start of the region the CRC that
is computed back from the flash is the same. -/
theorem ota_chunks_staged (chunks : List (List UInt8)) (offset : ℕ) (d : W25q)
    (hne : ∀ chunk ∈ chunks, chunk ≠ [])
    (hfits : offset + chunks.flatten.length ≤ otaStageRegionSize)
    (herased : Erased d.mem (otaStageRegionBase + offset) chunks.flatten.length) :
    let w := otaWriteChunks offset chunks otaCrcInit d
    ((w.rc, w.chip) = runPrograms (chunkPrograms offset chunks) d ∧
        ∀ p ∈ chunkPrograms offset chunks, p.InPage) ∧
      (AllDone d.outcomes → w.rc = 0) ∧
      (w.rc = 0 →
        NorFlash.read w.chip.mem (otaStageRegionBase + offset) chunks.flatten.length =
            chunks.flatten ∧
          otaCrcFinalize w.crc = crc32 chunks.flatten ∧
          (offset = 0 → otaStageComputeCrc (UInt32.ofNat chunks.flatten.length) w.chip =
            otaCrcFinalize w.crc)) := by
  obtain ⟨hrc, hchip⟩ := otaWriteChunks_programs hne hfits otaCrcInit d
  have hpages := chunkPrograms_inPage offset chunks
  refine ⟨⟨Prod.ext hrc hchip, hpages⟩, fun hdone => ?_, fun hok => ?_⟩
  · rw [hrc]
    exact (runPrograms_done hpages hdone).1
  · obtain ⟨hcrc, hread, -⟩ := otaWriteChunks_ok hne hfits otaCrcInit herased hok
    refine ⟨hread, ?_, fun hzero => ?_⟩
    · rw [hcrc, otaCrcFinalize_update_init]
    · subst hzero
      rw [otaStageComputeCrc_eq, toNat_stageOffset (by omega), hcrc,
        otaCrcFinalize_update_init, stagedBytes]
      exact congrArg crc32 hread

theorem ota_chunks_staged_two :
    let chunks : List (List UInt8) := [[1, 2, 3], [4, 5]]
    let w := otaWriteChunks 254 chunks otaCrcInit ⟨blankChip, []⟩
    ((w.rc, w.chip) = runPrograms (chunkPrograms 254 chunks) ⟨blankChip, []⟩ ∧
        ∀ p ∈ chunkPrograms 254 chunks, p.InPage) ∧
      (AllDone [] → w.rc = 0) ∧
      (w.rc = 0 →
        NorFlash.read w.chip.mem (otaStageRegionBase + 254) chunks.flatten.length =
            chunks.flatten ∧
          otaCrcFinalize w.crc = crc32 chunks.flatten ∧
          (254 = 0 → otaStageComputeCrc (UInt32.ofNat chunks.flatten.length) w.chip =
            otaCrcFinalize w.crc)) :=
  ota_chunks_staged [[1, 2, 3], [4, 5]] 254 ⟨blankChip, []⟩ (by decide) (by decide)
    fun _ _ _ => rfl

end OpenEVCharger
