import OpenEVCharger.Ota.Staging
import OpenEVCharger.Persist.Interrupted

/-!
# The pending record and the staged image

The record of a staged image and the image itself lie in different sectors, and a
BEGIN erases the one without looking at the other. As long as no BEGIN comes while
the record is pending, and a store that fails leaves no slot with contents of its
own making, the record names what the staging region holds.
-/

namespace OpenEVCharger

open NorFlash (Mem Agree)

/-- The record that a boot would find is pending. -/
def RecordPending (flash : Mem) : Prop := (bootConfigRead flash).2.pendingOtaFlag ≠ 0

/-- A pending record names what the staging region holds. -/
def PendingStaged (flash : Mem) : Prop :=
  RecordPending flash →
    crc32 (stagedBytes (bootConfigRead flash).2.stagedImageSize.toNat flash) =
      (bootConfigRead flash).2.stagedImageCrc32

instance (flash : Mem) : Decidable (RecordPending flash) := inferInstanceAs (Decidable (_ ≠ _))

instance (flash : Mem) : Decidable (PendingStaged flash) := inferInstanceAs (Decidable (_ → _))

/-! ## Stores of the configuration -/

/-- A write of this store that times out leaves each slot failing its checksum, as the
write would have left it or as it was. -/
def ConfigStoreTorn (c : BootConfig) (d : W25q) : Prop :=
  WritesTorn (SlotsTorn bootConfigSlotA bootConfigSlotB bootConfigSize)
    (storeWrites bootConfigSlotA bootConfigSlotB c.setVersion.bytes d.mem) d.outcomes d.mem

variable {c : BootConfig} {d : W25q} {flash flash' : Mem}

/-- After a store that is torn at worst, the record in the flash has the pending fields
it had or those of the copy. -/
theorem pendingOta_store_torn (h : ConfigStoreTorn c d) :
    (bootConfigRead (bootConfigPingpongStore c.setVersion d).chip.mem).2.pendingOta =
        (bootConfigRead d.mem).2.pendingOta ∨
      (bootConfigRead (bootConfigPingpongStore c.setVersion d).chip.mem).2.pendingOta =
        c.pendingOta := by
  have hlen : c.setVersion.bytes.length = bootConfigSize := c.setVersion.size
  have hsize : pingpongSizeOk c.setVersion.bytes.length = true := by
    rw [hlen]
    rfl
  have htorn : WritesTorn
      (SlotsTorn bootConfigSlotA bootConfigSlotB c.setVersion.bytes.length)
      (storeWrites bootConfigSlotA bootConfigSlotB c.setVersion.bytes d.mem) d.outcomes d.mem := by
    rw [hlen]
    exact h
  rw [bootConfigPingpongStore_chip]
  have hloss := pingpongStore_interrupted hsize htorn
  rcases load_interrupted slotPair_bootConfig hsize hloss with hsame | hnew
  · rw [hlen] at hsame
    exact .inl (congrArg (fun r => r.2.pendingOta) (bootConfigRead_of_load hsame))
  · right
    rw [← BootConfig.pendingOta_setVersion c]
    refine BootConfig.pendingOta_congr fun k hlo hhi => ?_
    rw [hlen] at hnew
    rw [bootConfigRead_bytes, hnew]
    have hlen' : c.setVersion.bytes.length = 32 := hlen
    exact getD_stampRecord (by omega) (.inr (by omega)) (by omega)

/-- What the pending fields of the record and the staged bytes settle. -/
theorem PendingStaged.of_fields {p : PendingOta}
    (hfields : (bootConfigRead flash).2.pendingOta = p)
    (h : p.flag ≠ 0 → crc32 (stagedBytes p.imageSize.toNat flash) = p.imageCrc32) :
    PendingStaged flash := by
  intro hpending
  obtain ⟨hflag, hsize, hcrc⟩ := BootConfig.fields_of_pendingOta hfields
  rw [hsize, hcrc]
  refine h ?_
  rw [← hflag]
  exact hpending

theorem PendingStaged.fields (h : PendingStaged flash)
    (hflag : (bootConfigRead flash).2.pendingOta.flag ≠ 0) :
    crc32 (stagedBytes (bootConfigRead flash).2.pendingOta.imageSize.toNat flash) =
      (bootConfigRead flash).2.pendingOta.imageCrc32 := by
  rw [PendingStaged, RecordPending] at h
  generalize (bootConfigRead flash).2 = cfg at h hflag ⊢
  exact h hflag

/-- A store of the configuration, torn at worst, keeps the property when the copy names
nothing or what is staged. -/
theorem PendingStaged.store (h : PendingStaged d.mem) (htorn : ConfigStoreTorn c d)
    (hnew : c.pendingOta.flag ≠ 0 →
      crc32 (stagedBytes c.pendingOta.imageSize.toNat d.mem) = c.pendingOta.imageCrc32) :
    PendingStaged (bootConfigPingpongStore c.setVersion d).chip.mem := by
  have hstaged : ∀ size : UInt32,
      stagedBytes size.toNat (bootConfigPingpongStore c.setVersion d).chip.mem =
        stagedBytes size.toNat d.mem := by
    intro size
    rw [← bootConfigStore_chip]
    exact (bootConfigStore_agree (by decide)).read
  rcases pendingOta_store_torn htorn with hsame | hcopy
  · refine .of_fields hsame fun hflag => ?_
    rw [hstaged]
    exact h.fields hflag
  · refine .of_fields hcopy fun hflag => ?_
    rw [hstaged]
    exact hnew hflag

/-! ## Steps -/

/-- A BEGIN that passes the checks of its arguments. -/
def BeginChecked (a : OtaBeginArgs) : Prop :=
  ¬ (a.sessionId = 0 ∨ a.imageSize = 0) ∧ a.imageSize.toNat ≤ otaStageMaxImageSize

/-- A BEGIN is about to erase the staging region under a pending record. -/
def ErasesPending (i : OtaInput) (σ : OtaMcu) : Prop :=
  RecordPending σ.flash ∧ σ.up = true ∧ ∃ a, i.action = .request (.begin a) ∧ BeginChecked a

/-- The store of a boot, the defaults or the cleared record, is torn at worst. -/
def BootStoreTorn (d : W25q) : Prop :=
  ((bootConfigRead d.mem).1 = 1 → ConfigStoreTorn .zero d) ∧
    ((bootConfigRead d.mem).1 = 0 →
      ConfigStoreTorn ((bootConfigRead d.mem).2.setPendingOta ⟨0, 0, 0⟩) d)

/-- The store that a step may make is torn at worst. -/
def OtaStoreTorn (i : OtaInput) (σ : OtaMcu) : Prop :=
  match i.action with
  | .request (.commit _) =>
    ConfigStoreTorn
      (σ.cfg.setPendingOta ⟨1, σ.session.expectedSize, σ.session.expectedCrc32⟩)
      ⟨σ.flash, i.outcomes⟩
  | .request _ => True
  | .reset _ => BootStoreTorn ⟨σ.flash, i.outcomes⟩

/-- What holds while an image may be pending: the record names what is staged, and no
chunk fits the session any more. -/
structure PendingHeld (s : OtaSession) (flash : Mem) : Prop where
  staged : PendingStaged flash
  complete : RecordPending flash → otaInSession s → s.nextOffset = s.expectedSize

theorem PendingHeld.of_not_pending {s : OtaSession} (h : ¬ RecordPending flash) :
    PendingHeld s flash :=
  ⟨fun hp => absurd hp h, fun hp => absurd hp h⟩

variable {s : OtaSession} {H : OtaHandled}

theorem not_recordPending_of_agree (h : ¬ RecordPending flash) (hagree : Agree flash' flash 0 0x2000) :
    ¬ RecordPending flash' := by
  rw [RecordPending, bootConfigRead_congr hagree]
  exact h

/-- A BEGIN that fails the checks of its arguments changes nothing. -/
theorem handleOtaBegin_unchecked {a : OtaBeginArgs} (h : ¬ BeginChecked a) :
    (handleOtaBegin a s c d).session = s ∧ (handleOtaBegin a s c d).chip = d := by
  rw [handleOtaBegin]
  split
  · exact ⟨rfl, rfl⟩
  next hargs =>
  split
  · exact ⟨rfl, rfl⟩
  next hmax => exact absurd ⟨hargs, Nat.not_lt.mp hmax⟩ h

theorem BeginSpec.pendingHeld {a : OtaBeginArgs} (hspec : BeginSpec a s c d H)
    (hno : ¬ RecordPending d.mem) : PendingHeld H.session H.chip.mem := by
  refine .of_not_pending (not_recordPending_of_agree hno ?_)
  cases hspec with
  | refused _ _ _ hd =>
    rw [hd]
    exact Agree.refl _ _ _
  | eraseFail _ _ _ hd =>
    rw [hd]
    exact otaStageBegin_agree (by decide)
  | started _ _ _ _ hd =>
    rw [hd]
    exact otaStageBegin_agree (by decide)

/-- No chunk is written under a pending record, since none fits the session. -/
theorem ChunkSpec.pendingHeld {k : OtaChunkArgs} (hspec : ChunkSpec k s c d H)
    (h : PendingHeld s d.mem) : PendingHeld H.session H.chip.mem := by
  have hwrite : ChunkFits k s → H.chip = (otaStageWrite k.offset k.data d).2 →
      PendingHeld H.session H.chip.mem := by
    intro hfits hd
    have hno : ¬ RecordPending d.mem := by
      intro hpending
      have hsize := hfits.size
      have hpos := k.nonempty
      rw [hfits.offset, h.complete hpending hfits.session] at hsize
      omega
    refine .of_not_pending (not_recordPending_of_agree hno ?_)
    rw [hd]
    refine otaStageWrite_agree (.inl ?_)
    exact Nat.le_trans (by decide) (Nat.le_add_right otaStageRegionBase _)
  cases hspec with
  | refused _ _ hs _ hd =>
    rw [hs, hd]
    exact h
  | writeError _ hfits _ _ hd => exact hwrite hfits hd
  | accepted _ hfits _ _ _ hd => exact hwrite hfits hd

/-- A COMMIT marks what it has checked. -/
theorem CommitSpec.pendingHeld {a : OtaAbortArgs} (hspec : CommitSpec a s c d H)
    (h : PendingHeld s d.mem)
    (htorn : ConfigStoreTorn (c.setPendingOta ⟨1, s.expectedSize, s.expectedCrc32⟩) d) :
    PendingHeld H.session H.chip.mem := by
  cases hspec with
  | refused _ hs _ hd =>
    rw [hs, hd]
    exact h
  | marked hready _ hs _ hd =>
    rw [hs, hd]
    refine ⟨?_, fun _ _ => hready.complete⟩
    by_cases hsame : c.pendingOta = ⟨1, s.expectedSize, s.expectedCrc32⟩
    · rw [otaStageMarkPending_same hsame]
      exact h.staged
    · rw [otaStageMarkPending_new hsame, bootConfigStore_chip]
      refine h.staged.store htorn fun _ => ?_
      rw [BootConfig.pendingOta_setPendingOta]
      exact hready.staged

/-- Every request keeps the record and the staged bytes together. -/
theorem handleOta_pendingHeld {r : OtaRequest} (h : PendingHeld s d.mem)
    (hbegin : ∀ a, r = .begin a → ¬ BeginChecked a ∨ ¬ RecordPending d.mem)
    (hcommit : ∀ a, r = .commit a →
      ConfigStoreTorn (c.setPendingOta ⟨1, s.expectedSize, s.expectedCrc32⟩) d) :
    PendingHeld (handleOta r s c d).session (handleOta r s c d).chip.mem := by
  cases r with
  | «begin» a =>
    rcases hbegin a rfl with hargs | hno
    · obtain ⟨hs, hd⟩ := handleOtaBegin_unchecked (s := s) (c := c) (d := d) hargs
      show PendingHeld (handleOtaBegin a s c d).session (handleOtaBegin a s c d).chip.mem
      rw [hs, hd]
      exact h
    · exact (handleOtaBegin_spec a s c d).pendingHeld hno
  | chunk k => exact (handleOtaChunk_spec k s c d).pendingHeld h
  | commit a => exact (handleOtaCommit_spec a s c d).pendingHeld h (hcommit a rfl)
  | abort a =>
    show PendingHeld (handleOtaAbort a s c d).session d.mem
    by_cases htoken : otaInSession s ∧ a.sessionId = s.sessionId
    · have hs : (handleOtaAbort a s c d).session = otaSessionReset := if_pos htoken
      rw [hs]
      exact ⟨h.staged, fun _ hin => absurd hin not_otaInSession_reset⟩
    · have hs : (handleOtaAbort a s c d).session = s := if_neg htoken
      rw [hs]
      exact h

/-! ## The boot -/

variable {applyEnabled : Bool} {bank0 : Mem} {outcomes : List WriteOutcome} {k : ℕ}

theorem otaStageClearPending_eq (c : BootConfig) (d : W25q) :
    otaStageClearPending c d =
      bootConfigUpdate (decide (c.pendingOta = ⟨0, 0, 0⟩)) (c.setPendingOta ⟨0, 0, 0⟩) c d := by
  rw [otaStageClearPending, bootConfigSetPendingOta, if_neg (not_not.mpr rfl)]

/-- Clearing the record keeps the property. -/
theorem pendingStaged_clear (h : PendingStaged d.mem)
    (htorn : ConfigStoreTorn (c.setPendingOta ⟨0, 0, 0⟩) d) :
    PendingStaged (otaStageClearPending c d).chip.mem := by
  rw [otaStageClearPending_eq]
  cases decide (c.pendingOta = ⟨0, 0, 0⟩) with
  | true => exact h
  | false =>
    show PendingStaged (bootConfigStore (c.setPendingOta ⟨0, 0, 0⟩) d).chip.mem
    rw [bootConfigStore_chip]
    refine h.store htorn fun hflag => ?_
    rw [BootConfig.pendingOta_setPendingOta] at hflag
    exact absurd rfl hflag

/-- The apply leaves the flash alone, or clears the record in it. -/
theorem pendingStaged_apply (h : PendingStaged d.mem)
    (htorn : ConfigStoreTorn (c.setPendingOta ⟨0, 0, 0⟩) d) :
    PendingStaged (OtaMcu.afterBoot k d.mem bank0 (flashApplyPendingOtaImage bank0 c d)).flash := by
  have hclear : ∀ rc, PendingStaged
      (OtaMcu.afterBoot k d.mem bank0 (returnCleared rc c d)).flash :=
    fun rc => pendingStaged_clear h htorn
  rw [flashApplyPendingOtaImage]
  split
  · exact h
  split
  · exact hclear _
  split
  · exact hclear _
  split
  · exact hclear _
  dsimp only
  split
  · exact hclear _
  · exact h

/-- What follows the load at boot, which stores at most a cleared record. -/
theorem pendingStaged_loaded {l : BootConfigResult} (h : PendingStaged l.chip.mem)
    (hclear : l.cfg.pendingOtaFlag ≠ 0 →
      l.chip = d ∧ ConfigStoreTorn (l.cfg.setPendingOta ⟨0, 0, 0⟩) d) :
    PendingStaged (OtaMcu.afterBoot k d.mem bank0
      (if l.cfg.pendingOtaFlag = 0 then .returned 0 l.cfg l.chip
        else if applyEnabled then flashApplyPendingOtaImage bank0 l.cfg l.chip
        else returnCleared 0 l.cfg l.chip)).flash := by
  by_cases hflag : l.cfg.pendingOtaFlag = 0
  · rw [if_pos hflag]
    exact h
  rw [if_neg hflag]
  obtain ⟨hchip, htorn⟩ := hclear hflag
  rw [hchip] at h ⊢
  cases applyEnabled with
  | true =>
    rw [if_pos rfl]
    exact pendingStaged_apply h htorn
  | false =>
    rw [if_neg nofun]
    exact pendingStaged_clear h htorn

/-- A boot changes the flash by the store of the defaults or by a clear, or not at all. -/
theorem pendingStaged_boot (h : PendingStaged d.mem) (htorn : BootStoreTorn d) :
    PendingStaged (OtaMcu.afterBoot k d.mem bank0 (otaBoot applyEnabled bank0 d)).flash := by
  rw [otaBoot]
  obtain ⟨hdefaults, hclear⟩ := htorn
  rcases bootConfigRead_cases d.mem with hrc | ⟨hrc, hzero⟩
  · have hload := bootConfigLoad_of_read hrc
    replace hclear := hclear hrc
    generalize (bootConfigRead d.mem).2 = cfg at hclear hload
    refine pendingStaged_loaded ?_ fun _ => ?_
    · rw [hload]
      exact h
    · rw [hload]
      exact ⟨rfl, hclear⟩
  · have hpending := pendingOta_bootConfigLoad d
    rw [hzero, pendingOta_zero] at hpending
    have hchip := (bootConfigLoad_defaults hrc).1
    refine pendingStaged_loaded ?_ fun hne => absurd (BootConfig.fields_of_pendingOta hpending).1 hne
    rw [hchip]
    refine h.store (hdefaults hrc) fun hne => ?_
    rw [pendingOta_zero] at hne
    exact absurd rfl hne

/-! ## Runs -/

variable {σ : OtaMcu} {i : OtaInput}

theorem pendingHeld_step (h : PendingHeld σ.session σ.flash) (hbegin : ¬ ErasesPending i σ)
    (htorn : OtaStoreTorn i σ) :
    PendingHeld (otaStep applyEnabled i σ).session (otaStep applyEnabled i σ).flash := by
  obtain ⟨action, outcomes⟩ := i
  cases action with
  | reset k =>
    have hs : (otaStep applyEnabled ⟨.reset k, outcomes⟩ σ).session = otaSessionBoot :=
      otaReset_session _ _ _ _ _
    rw [hs]
    refine ⟨?_, fun _ hin => absurd hin not_otaInSession_boot⟩
    show PendingStaged (otaReset applyEnabled k outcomes σ.flash σ.bank0).flash
    rw [otaReset]
    replace htorn : BootStoreTorn ⟨σ.flash, outcomes⟩ := htorn
    exact pendingStaged_boot (d := ⟨σ.flash, outcomes⟩) h.staged htorn
  | request r =>
    cases hup : σ.up with
    | false =>
      rw [otaStep_down hup]
      exact h
    | true =>
      rw [otaStep_request hup]
      refine handleOta_pendingHeld h ?_ ?_
      · rintro a rfl
        by_cases hchecked : BeginChecked a
        · exact .inr fun hpending => hbegin ⟨hpending, hup, a, rfl, hchecked⟩
        · exact .inl hchecked
      · rintro a rfl
        exact htorn

/-- In a run in which no BEGIN erases the staging region under a pending record, and no
store that fails makes up a record, a pending record always names what is staged. -/
theorem pending_names_staged (applyEnabled : Bool) (b : OtaPowerUp) (ins : ℕ → OtaInput) (n : ℕ)
    (hflash : PendingStaged b.flash) (hboot : BootStoreTorn ⟨b.flash, b.outcomes⟩)
    (hbegin : ∀ k < n, ¬ ErasesPending (ins k) (otaRun applyEnabled b ins k))
    (htorn : ∀ k < n, OtaStoreTorn (ins k) (otaRun applyEnabled b ins k)) :
    PendingStaged (otaRun applyEnabled b ins n).flash := by
  have hheld : PendingHeld (otaRun applyEnabled b ins n).session
      (otaRun applyEnabled b ins n).flash := by
    induction n with
    | zero =>
      rw [otaRun_zero, otaReset_session, otaReset]
      exact ⟨pendingStaged_boot (d := ⟨b.flash, b.outcomes⟩) hflash hboot,
        fun _ hin => absurd hin not_otaInSession_boot⟩
    | succ n ih =>
      rw [otaRun_succ]
      refine pendingHeld_step (ih ?_ ?_) (hbegin n (Nat.lt_succ_self n))
        (htorn n (Nat.lt_succ_self n))
      · exact fun k hk => hbegin k (Nat.lt_succ_of_lt hk)
      · exact fun k hk => htorn k (Nat.lt_succ_of_lt hk)
  exact hheld.staged

theorem configStoreTorn_of_no_outcomes (h : d.outcomes = []) : ConfigStoreTorn c d := by
  rw [ConfigStoreTorn, h]
  exact writesTorn_nil

theorem bootStoreTorn_of_no_outcomes (h : d.outcomes = []) : BootStoreTorn d :=
  ⟨fun _ => configStoreTorn_of_no_outcomes h, fun _ => configStoreTorn_of_no_outcomes h⟩

theorem begin_of_sampleUpload {outs : ℕ → List WriteOutcome} {a : OtaBeginArgs}
    (h : (sampleUpload outs k).action = .request (.begin a)) : k = 0 := by
  match k with
  | 0 => rfl
  | 1 => cases h
  | k + 2 => cases h

theorem otaStoreTorn_sampleUpload (k : ℕ) (σ : OtaMcu) :
    OtaStoreTorn (sampleUpload (fun _ => []) k) σ := by
  match k with
  | 0 => trivial
  | 1 => trivial
  | k + 2 => exact configStoreTorn_of_no_outcomes rfl

/-- A sample image is uploaded to a blank chip with no failure and stays staged. -/
theorem pending_names_staged_sample :
    PendingStaged (otaRun true blankPowerUp (sampleUpload fun _ => []) 3).flash := by
  have hinit : PendingStaged blankPowerUp.flash := by decide +kernel
  have hboot := bootStoreTorn_of_no_outcomes (d := ⟨blankPowerUp.flash, blankPowerUp.outcomes⟩) rfl
  have hblank : ¬ RecordPending (otaRun true blankPowerUp (sampleUpload fun _ => []) 0).flash := by
    decide +kernel
  refine pending_names_staged true blankPowerUp (sampleUpload fun _ => []) 3 hinit hboot ?_ ?_
  · rintro k _ ⟨hpending, _, a, hbegin, _⟩
    have hk := begin_of_sampleUpload hbegin
    subst hk
    exact hblank hpending
  · exact fun k _ => otaStoreTorn_sampleUpload k _

/-- The sample image is committed, and then another upload begins. -/
def supersededUpload (k : ℕ) : OtaInput :=
  if k = 3 then ⟨.request (.begin ⟨4, 0, 8, 3⟩), []⟩ else sampleUpload (fun _ => []) k

/-- The BEGIN after a COMMIT erases the image and leaves the record that names it. -/
theorem begin_erases_pending :
    PendingStaged blankPowerUp.flash ∧
      ¬ PendingStaged (otaRun true blankPowerUp supersededUpload 4).flash := by
  constructor
  · decide +kernel
  · decide +kernel

end OpenEVCharger
