import OpenEVCharger.Ota.Staging

/-!
# From COMMIT to the boot

A COMMIT is answered from the copy of the configuration in RAM and with the
megabyte of the staging region as its bound; the boot decides from the record in
the flash and with a bound of 64 KB. What is answered OK is applied exactly when
the record is in the flash as well and the image is below the smaller bound.
-/

namespace OpenEVCharger

open NorFlash (Mem Agree Erased)

/-- At the next boot the record of the image is found, and either the bank holds an
image with that checksum or it is overwritten with the accepted bytes, padded to a
word. -/
def AppliedAtBoot (accepted : List UInt8) (size crc : UInt32) (bank0 : Mem) (d : W25q) : Prop :=
  (bootConfigLoad d).cfg.pendingOta = ⟨1, size, crc⟩ ∧
    (crc32 (NorFlash.read bank0 flashBank0Base size.toNat) = crc ∨
      otaBoot true bank0 d = .overwrite (padToWord accepted) ∧
        NorFlash.read (runFmc (flashOverwriteBank0 (padToWord accepted)) bank0) flashBank0Base
          (padToWord accepted).length = padToWord accepted)

/-! ## The boot -/

variable {bank0 : Mem} {c : BootConfig} {d : W25q} {size crc : UInt32}

theorem otaBoot_pending (hfound : (bootConfigRead d.mem).2.pendingOta = ⟨1, size, crc⟩) :
    otaBoot true bank0 d = flashApplyPendingOtaImage bank0 (bootConfigRead d.mem).2 d := by
  have hrc : (bootConfigRead d.mem).1 = 0 := by
    rcases bootConfigRead_cases d.mem with hrc | ⟨_, hzero⟩
    · exact hrc
    · rw [hzero, pendingOta_zero] at hfound
      exact absurd (congrArg PendingOta.flag hfound) (show (0 : UInt8) ≠ 1 by decide)
  have hflag : ¬ (bootConfigRead d.mem).2.pendingOtaFlag = 0 := by
    rw [(BootConfig.fields_of_pendingOta hfound).1]
    exact show (1 : UInt8) ≠ 0 by decide
  rw [otaBoot, bootConfigLoad_of_read hrc]
  dsimp only
  rw [if_neg hflag, if_pos rfl]

/-- With the record in the flash and another image running, the boot overwrites the
bank exactly when the staged image is one it applies. -/
theorem otaBoot_overwrite_iff {buf : List UInt8} (hpos : size ≠ 0)
    (hfound : (bootConfigRead d.mem).2.pendingOta = ⟨1, size, crc⟩)
    (hdiffers : crc32 (NorFlash.read bank0 flashBank0Base size.toNat) ≠ crc)
    (hstaged : crc32 (stagedBytes size.toNat d.mem) = crc) :
    otaBoot true bank0 d = .overwrite buf ↔
      size.toNat ≤ flashOtaApplyMaxSize ∧ buf = padToWord (stagedBytes size.toNat d.mem) := by
  rw [otaBoot_pending hfound]
  generalize (bootConfigRead d.mem).2 = cfg at hfound
  obtain ⟨hflag, hsize, hcrc⟩ := BootConfig.fields_of_pendingOta hfound
  constructor
  · intro hover
    obtain ⟨hready, hbuf⟩ := applyReady_of_overwrite hover
    rw [hsize] at hbuf
    have hfits := hready.fits
    rw [hsize] at hfits
    exact ⟨hfits, hbuf⟩
  · rintro ⟨hfits, rfl⟩
    have hready : ApplyReady bank0 cfg d := by
      refine ⟨?_, ?_, ?_, ?_, ?_⟩
      · rw [hflag]
        exact show (1 : UInt8) ≠ 0 by decide
      · rw [hsize]
        exact hpos
      · rw [hsize]
        exact hfits
      · rw [hsize, hcrc]
        exact hdiffers
      · rw [hsize, hcrc]
        exact hstaged
    have hover := hready.overwrite
    rw [hsize] at hover
    exact hover

theorem padToWord_injective {xs ys : List UInt8} (hlen : xs.length = ys.length)
    (h : padToWord xs = padToWord ys) : xs = ys := by
  have htake := congrArg (List.take xs.length) h
  rw [padToWord, padToWord, List.take_left, hlen, List.take_left] at htake
  exact htake

/-! ## The mark -/

/-- After a mark that succeeds the flash names the image exactly when the copy in
RAM did not name it before, or the flash did. -/
theorem markPending_found_iff (hrc : (otaStageMarkPending size crc c d).rc = 0) :
    (bootConfigRead (otaStageMarkPending size crc c d).chip.mem).2.pendingOta = ⟨1, size, crc⟩ ↔
      c.pendingOta ≠ ⟨1, size, crc⟩ ∨
        (bootConfigRead d.mem).2.pendingOta = ⟨1, size, crc⟩ := by
  by_cases hsame : c.pendingOta = ⟨1, size, crc⟩
  · rw [otaStageMarkPending_same hsame]
    constructor
    · exact .inr
    · rintro (hne | hfound)
      · exact absurd hsame hne
      · exact hfound
  · rw [otaStageMarkPending_new hsame] at hrc ⊢
    refine iff_of_true ?_ (.inl hsame)
    rw [(bootConfigStore_read hrc).2, BootConfig.pendingOta_setPendingOta]

/-- A COMMIT answered OK has checked the staged image and marked it. -/
theorem commit_accepted {σ : OtaMcu} {a : OtaAbortArgs} {outcomes : List WriteOutcome}
    (hok : (otaReply ⟨.request (.commit a), outcomes⟩ σ).map (fun r => r.event.status) =
      some .ok) :
    CommitReady a σ.session ⟨σ.flash, outcomes⟩ ∧
      (otaStageMarkPending σ.session.expectedSize σ.session.expectedCrc32 σ.cfg
        ⟨σ.flash, outcomes⟩).rc = 0 ∧
      (otaStep true ⟨.request (.commit a), outcomes⟩ σ).flash =
        (otaStageMarkPending σ.session.expectedSize σ.session.expectedCrc32 σ.cfg
          ⟨σ.flash, outcomes⟩).chip.mem := by
  cases hup : σ.up with
  | false =>
    rw [otaReply_down hup] at hok
    cases hok
  | true =>
    rw [otaReply_request hup] at hok
    have hstatus : (handleOtaCommit a σ.session σ.cfg ⟨σ.flash, outcomes⟩).reply.event.status =
        .ok := Option.some.inj hok
    cases handleOtaCommit_spec a σ.session σ.cfg ⟨σ.flash, outcomes⟩ with
    | refused hreply _ _ _ => exact absurd hstatus hreply
    | marked hready hreply hs hc hd =>
      refine ⟨hready, hreply.mp hstatus, ?_⟩
      rw [otaStep_request hup]
      exact congrArg W25q.mem hd

/-- What a boot does with a record in the flash and the image it names. -/
theorem appliedAtBoot_iff {accepted : List UInt8} (hpos : size ≠ 0)
    (hstaged : crc32 (stagedBytes size.toNat d.mem) = crc)
    (hlength : accepted.length = size.toNat) :
    AppliedAtBoot accepted size crc bank0 d ↔
      (bootConfigRead d.mem).2.pendingOta = ⟨1, size, crc⟩ ∧
        (crc32 (NorFlash.read bank0 flashBank0Base size.toNat) = crc ∨
          size.toNat ≤ flashOtaApplyMaxSize ∧ stagedBytes size.toNat d.mem = accepted) := by
  rw [AppliedAtBoot, pendingOta_bootConfigLoad]
  refine and_congr_right fun hfound => ?_
  by_cases hbank : crc32 (NorFlash.read bank0 flashBank0Base size.toNat) = crc
  · exact iff_of_true (.inl hbank) (.inl hbank)
  have hlen : (stagedBytes size.toNat d.mem).length = accepted.length := by
    rw [stagedBytes, NorFlash.length_read, hlength]
  rw [or_iff_right hbank, or_iff_right hbank, otaBoot_overwrite_iff hpos hfound hbank hstaged]
  constructor
  · rintro ⟨⟨hfits, hbuf⟩, _⟩
    exact ⟨hfits, (padToWord_injective hlen.symm hbuf).symm⟩
  · rintro ⟨hfits, heq⟩
    refine ⟨⟨hfits, congrArg padToWord heq.symm⟩, ?_⟩
    have hnonempty : 0 < accepted.length := by
      rw [hlength]
      exact Nat.pos_of_ne_zero fun h0 => hpos (UInt32.toNat_inj.mp h0)
    exact read_runFmc_overwrite (programmable_padToWord hnonempty (hlength ▸ hfits))

/-! ## Committed images -/

/-- An image committed with OK and left alone in the flash is applied at the next
boot exactly when its record is in the flash, that is unless the copy in RAM named
it before the COMMIT and the flash did not, and the bank already holds an image with
its checksum, or the image is small enough and the flash holds what was accepted. -/
theorem commit_applied_iff (b : OtaPowerUp) (ins : ℕ → OtaInput) {n m : ℕ} (a : OtaAbortArgs)
    (bootOutcomes : List WriteOutcome) (hcommit : (ins n).action = .request (.commit a))
    (hok : (otaReply (ins n) (otaRun true b ins n)).map (fun r => r.event.status) = some .ok)
    (hflash : (otaRun true b ins m).flash = (otaRun true b ins (n + 1)).flash) :
    let σ := otaRun true b ins n
    let τ := otaRun true b ins m
    let size := σ.session.expectedSize
    let crc := σ.session.expectedCrc32
    let accepted := (otaHistory true b ins n).accepted
    AppliedAtBoot accepted size crc τ.bank0 ⟨τ.flash, bootOutcomes⟩ ↔
      (σ.cfg.pendingOta ≠ ⟨1, size, crc⟩ ∨
        (bootConfigRead σ.flash).2.pendingOta = ⟨1, size, crc⟩) ∧
      (crc32 (NorFlash.read τ.bank0 flashBank0Base size.toNat) = crc ∨
        size.toNat ≤ flashOtaApplyMaxSize ∧ stagedBytes size.toNat σ.flash = accepted) := by
  have hin : ins n = ⟨.request (.commit a), (ins n).outcomes⟩ := by rw [← hcommit]
  rw [hin] at hok
  obtain ⟨hready, hrc, hstep⟩ := commit_accepted hok
  have htracks := tracked_run true b ins n hready.session
  rw [otaRun_succ, hin, hstep] at hflash
  intro σ τ size crc accepted
  have hsize : size.toNat ≤ otaStageRegionSize := htracks.fits
  have hsame : stagedBytes size.toNat τ.flash = stagedBytes size.toNat σ.flash := by
    show stagedBytes size.toNat (otaRun true b ins m).flash = _
    rw [hflash]
    exact Agree.read (otaStageMarkPending_agree (by decide))
  have hlength : accepted.length = size.toNat := by
    show (otaHistory true b ins n).accepted.length = _
    rw [← htracks.length, hready.complete]
  have hstaged : crc32 (stagedBytes size.toNat τ.flash) = crc := by
    rw [hsame]
    exact hready.staged
  have hfound := markPending_found_iff hrc
  rw [← hflash] at hfound
  rw [← hfound, ← hsame]
  exact appliedAtBoot_iff htracks.pos hstaged hlength

/-- The sample image, uploaded to a blank chip without a failure, is applied. -/
theorem commit_applied_iff_sample :
    let σ := otaRun true blankPowerUp (sampleUpload fun _ => []) 2
    let τ := otaRun true blankPowerUp (sampleUpload fun _ => []) 3
    AppliedAtBoot (otaHistory true blankPowerUp (sampleUpload fun _ => []) 2).accepted
      σ.session.expectedSize σ.session.expectedCrc32 τ.bank0 ⟨τ.flash, []⟩ := by
  have hok : (otaReply (sampleUpload (fun _ => []) 2)
      (otaRun true blankPowerUp (sampleUpload fun _ => []) 2)).map (fun r => r.event.status) =
        some .ok := by decide +kernel
  have hiff := commit_applied_iff blankPowerUp (sampleUpload fun _ => []) (m := 3) sampleCommit []
    rfl hok rfl
  have hmarked : (otaRun true blankPowerUp (sampleUpload fun _ => []) 2).cfg.pendingOta ≠
      ⟨1, (otaRun true blankPowerUp (sampleUpload fun _ => []) 2).session.expectedSize,
        (otaRun true blankPowerUp (sampleUpload fun _ => []) 2).session.expectedCrc32⟩ := by
    decide +kernel
  have hfits : (otaRun true blankPowerUp (sampleUpload fun _ => []) 2).session.expectedSize.toNat ≤
      flashOtaApplyMaxSize := by decide +kernel
  have hstaged : stagedBytes
      (otaRun true blankPowerUp (sampleUpload fun _ => []) 2).session.expectedSize.toNat
      (otaRun true blankPowerUp (sampleUpload fun _ => []) 2).flash =
      (otaHistory true blankPowerUp (sampleUpload fun _ => []) 2).accepted := by decide +kernel
  exact hiff.mpr ⟨.inl hmarked, .inr ⟨hfits, hstaged⟩⟩

/-- The first COMMIT fails to erase a slot of the configuration; the second one is
answered from the copy in RAM. -/
def failedMarkUpload : ℕ → OtaInput :=
  sampleUpload fun k => if k = 2 then [.timeout fun _ => NorFlash.blank] else []

/-- The retry of a COMMIT that failed to be stored is answered OK, and the boot finds
no record. -/
theorem commit_retry_not_applied :
    let σ := otaRun true blankPowerUp failedMarkUpload 3
    let τ := otaRun true blankPowerUp failedMarkUpload 4
    (otaReply (failedMarkUpload 2) (otaRun true blankPowerUp failedMarkUpload 2)).map
        (fun r => r.event.status) = some .persistFail ∧
      (otaReply (failedMarkUpload 3) σ).map (fun r => r.event.status) = some .ok ∧
      ¬ AppliedAtBoot (otaHistory true blankPowerUp failedMarkUpload 3).accepted
        σ.session.expectedSize σ.session.expectedCrc32 τ.bank0 ⟨τ.flash, []⟩ := by
  refine ⟨?_, ?_, ?_⟩
  · decide +kernel
  · decide +kernel
  intro happlied
  have hnone : (bootConfigLoad ⟨(otaRun true blankPowerUp failedMarkUpload 4).flash, []⟩).cfg.pendingOta
      = ⟨0, 0, 0⟩ := by decide +kernel
  have hflag := congrArg PendingOta.flag (hnone.symm.trans happlied.1)
  exact absurd hflag (show (0 : UInt8) ≠ 1 by decide)

end OpenEVCharger
