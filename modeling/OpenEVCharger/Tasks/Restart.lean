import OpenEVCharger.Comms.Requests
import OpenEVCharger.Tasks.Enrolment
import OpenEVCharger.Tasks.Flash
import OpenEVCharger.Tasks.Settings

/-!
# Settings across a restart

As long as the writes that store them succeed, the copies of the settings in RAM are the records
in the flash, whatever becomes of the other stores. A boot that finds such a flash, whether after
a reset, a crash or a loss of power, starts the tasks with the settings that the last run had.
-/

namespace OpenEVCharger

open NorFlash (Mem Agree)

/-! ## The records of the settings -/

/-- The boot configuration and the calibration, in RAM and in the flash. -/
def PersistState.records (σ : PersistState) : SettersState := ⟨σ.cfg, σ.cal, σ.flash⟩

/-- A store that holds settings. -/
def FlashStore.HoldsSettings (s : FlashStore) : Prop := s = .bootConfig ∨ s = .calibration

instance (s : FlashStore) : Decidable s.HoldsSettings := inferInstanceAs (Decidable (_ ∨ _))

variable {σ σ' : PersistState} {op : PersistOp} {outcomes : List WriteOutcome} {s : FlashStore}

/-- The flash of `σ'` holds the records that the flash of `σ` does. -/
structure SameSettings (σ' σ : PersistState) : Prop where
  config : bootConfigRead σ'.flash = bootConfigRead σ.flash
  calibration : calibrationRead σ'.flash = calibrationRead σ.flash

/-- An operation on another store leaves the records of the settings alone. -/
theorem sameRecords_setting {t : FlashStore} (outcomes : List WriteOutcome)
    (ht : t.HoldsSettings) (hheads : HeadsInRange σ) (hs : op.store = some s)
    (hother : ¬ s.HoldsSettings) :
    SameRecords t (persistStep ⟨op, outcomes⟩ σ).flash σ.flash := by
  have hapart : FlashStore.Apart t s := by
    refine FlashStore.apart_iff.mpr ⟨fun heq => hother (heq ▸ ht), ?_, ?_⟩
    · rintro ⟨rfl, -⟩
      exact absurd ht (by decide)
    · rintro ⟨rfl, -⟩
      exact absurd ht (by decide)
  have hconfined := persistStep_confined (i := ⟨op, outcomes⟩) hheads hs
  exact sameRecords_of_agree (hconfined.agree hapart)

theorem sameSettings_step (hheads : HeadsInRange σ) (hs : op.store = some s)
    (hother : ¬ s.HoldsSettings) : SameSettings (persistStep ⟨op, outcomes⟩ σ) σ := by
  have hconfig := sameRecords_setting (t := .bootConfig) outcomes (.inl rfl) hheads hs hother
  have hcalibration := sameRecords_setting (t := .calibration) outcomes (.inr rfl) hheads hs hother
  exact ⟨hconfig, hcalibration⟩

/-- It leaves their copies in RAM alone as well. -/
theorem copies_step (outcomes : List WriteOutcome) (σ : PersistState) (hs : op.store = some s)
    (hother : ¬ s.HoldsSettings) :
    (persistStep ⟨op, outcomes⟩ σ).cfg = σ.cfg ∧ (persistStep ⟨op, outcomes⟩ σ).cal = σ.cal := by
  cases op with
  | reset => cases hs
  | setter call =>
    refine absurd ?_ hother
    cases call <;> cases hs
    · exact .inl rfl
    · exact .inl rfl
    · exact .inl rfl
    · exact .inl rfl
    · exact .inr rfl
    · exact .inr rfl
  | bootConfigLoad => exact absurd (.inl (Option.some.inj hs).symm) hother
  | calibrationLoad => exact absurd (.inr (Option.some.inj hs).symm) hother
  | _ => exact ⟨rfl, rfl⟩

theorem Coherent.congr (h : Coherent σ.records) (hsame : SameSettings σ' σ)
    (hcfg : σ'.cfg = σ.cfg) (hcal : σ'.cal = σ.cal) : Coherent σ'.records := by
  refine ⟨?_, ?_, ?_⟩
  · show bootConfigRead σ'.flash = (0, σ'.cfg)
    rw [hsame.config, hcfg]
    exact h.config
  · show calibrationRead σ'.flash = (0, σ'.cal.cal)
    rw [hsame.calibration, hcal]
    exact h.calibration
  · show σ'.cal.cal.version ≠ 1 ∧ σ'.cal.cal.version ≠ 2
    rw [hcal]
    exact h.version

/-- An operation keeps the copies and the records the same, unless a write of the settings
fails. -/
theorem coherent_step (hheads : HeadsInRange σ) (h : Coherent σ.records) (hs : op.store = some s)
    (hdone : s.HoldsSettings → AllDone outcomes) :
    Coherent (persistStep ⟨op, outcomes⟩ σ).records := by
  by_cases hsettings : s.HoldsSettings
  · have hall := hdone hsettings
    cases op with
    | setter call =>
      exact (callSetter_spec ⟨call, outcomes⟩ σ.records).coherent h fun r _ =>
        writesDone_of_allDone hall _ _
    | bootConfigLoad =>
      have hload := bootConfigLoad_of_found (d := ⟨σ.flash, outcomes⟩) h.config
      rw [persistStep]
      dsimp only
      rw [hload]
      exact h
    | calibrationLoad =>
      have hload := calibrationLoad_of_read (s := σ.cal) (d := ⟨σ.flash, outcomes⟩) h.calibration
        h.version.1 h.version.2
      rw [persistStep]
      dsimp only
      rw [hload]
      exact ⟨h.config, h.calibration, h.version⟩
    | reset => cases hs
    | _ =>
      cases hs
      rcases hsettings with h | h
      · cases h
      · cases h
  · obtain ⟨hcfg, hcal⟩ := copies_step outcomes σ hs hsettings
    exact h.congr (sameSettings_step hheads hs hsettings) hcfg hcal

section Other

variable (i : PersistInput) {flash : Mem} (hs : i.op.store = some s) (hother : ¬ s.HoldsSettings)

include hs hother

theorem coherent_other (hstored : Stored flash σ) (h : Coherent σ.records) :
    Coherent (persistStep i σ).records :=
  coherent_step hstored.headsInRange h hs fun hsettings => absurd hsettings hother

theorem settings_other (σ : PersistState) : (persistStep i σ).settings = σ.settings := by
  obtain ⟨hcfg, hcal⟩ := copies_step i.outcomes σ hs hother
  rw [PersistState.settings, PersistState.settings, hcfg, hcal]

end Other

/-- The check for a pending update keeps the copies and the records the same. -/
theorem coherent_returned {cfg : BootConfig} {chip : W25q} (h : Coherent σ.records)
    (hdone : AllDone outcomes)
    (hreturned : (cfg = σ.cfg ∧ chip = ⟨σ.flash, outcomes⟩) ∨
      (cfg = (otaStageClearPending σ.cfg ⟨σ.flash, outcomes⟩).cfg ∧
        chip = (otaStageClearPending σ.cfg ⟨σ.flash, outcomes⟩).chip)) :
    Coherent ({ σ with cfg := cfg, flash := chip.mem } : PersistState).records := by
  rcases hreturned with ⟨rfl, rfl⟩ | ⟨rfl, rfl⟩
  · exact h
  · have hcleared := (callSetter_spec ⟨.pendingOta 0 0 0, outcomes⟩ σ.records).coherent h
      fun r _ => writesDone_of_allDone hdone _ _
    exact hcleared

/-! ## The boot -/

namespace MainBoot

variable {b : MainBoot}

/-- The boot count has been raised, before anything is loaded. -/
def counted (b : MainBoot) : PersistState :=
  persistStep ⟨.bootCountIncrement, b.outcomes 0⟩ (persistPowerUp b.flash)

/-- The boot configuration and the calibration have been loaded. -/
def loaded (b : MainBoot) : PersistState :=
  persistStep ⟨.calibrationLoad, b.outcomes 2⟩
    (persistStep ⟨.bootConfigLoad, b.outcomes 1⟩ b.counted)

theorem loads_eq (b : MainBoot) :
    b.loads = persistStep ⟨.authlist .load, b.outcomes 3⟩ b.loaded := rfl

theorem stored_loaded (b : MainBoot) : Stored b.flash b.loaded :=
  (((Stored.powerUp b.flash).step _).step _).step _

theorem sameSettings_counted (b : MainBoot) : SameSettings b.counted (persistPowerUp b.flash) :=
  sameSettings_step (headsInRange_powerUp b.flash) rfl (by decide)

theorem persistStep_bootConfigLoad (o : List WriteOutcome) (σ : PersistState) :
    persistStep ⟨.bootConfigLoad, o⟩ σ = σ.withConfig (bootConfigLoad ⟨σ.flash, o⟩) := rfl

theorem persistStep_calibrationLoad (o : List WriteOutcome) (σ : PersistState) :
    persistStep ⟨.calibrationLoad, o⟩ σ =
      σ.withCalibration (calibrationLoad σ.cal ⟨σ.flash, o⟩) := rfl

/-- What a load of the boot configuration leaves of the fields. -/
theorem fields_withConfig (r : BootConfigResult) (σ : PersistState) :
    (σ.withConfig r).cfg = r.cfg ∧ (σ.withConfig r).cal = σ.cal ∧
      (σ.withConfig r).flash = r.chip.mem := ⟨rfl, rfl, rfl⟩

theorem records_withCalibration (r : CalibrationResult) (σ : PersistState) :
    (σ.withCalibration r).records = ⟨σ.cfg, r.state, r.chip.mem⟩ := rfl

theorem coherent_withConfig {l : BootConfigResult} {o : List WriteOutcome}
    (hconfig : bootConfigRead l.chip.mem = (0, l.cfg)) (h : AllDone o) (σ : PersistState) :
    Coherent (persistStep ⟨.calibrationLoad, o⟩ (σ.withConfig l)).records := by
  have hcal := calibrationLoad_coherent (d := ⟨l.chip.mem, o⟩) h σ.cal
  have hagree : Agree (calibrationLoad σ.cal ⟨l.chip.mem, o⟩).chip.mem l.chip.mem 0 0x2000 :=
    calibrationLoad_agree (Nat.le_refl _)
  have hboth := coherent_of_loads hconfig hagree hcal.1 hcal.2
  obtain ⟨hcfg, hkept, hmem⟩ := fields_withConfig l σ
  rw [persistStep_calibrationLoad, records_withCalibration, hcfg, hkept, hmem]
  exact hboth

/-- The boot leaves the copies as they are in the flash, if its writes do not time out. -/
theorem coherent_loaded (h : ∀ k, AllDone (b.outcomes k)) : Coherent b.loaded.records := by
  have hload := bootConfigLoad_coherent (d := ⟨b.counted.flash, b.outcomes 1⟩) (h 1)
  rw [loaded, persistStep_bootConfigLoad]
  exact coherent_withConfig hload.1 (h 2) b.counted

theorem coherent_logs (hstored : Stored b.flash σ) (h : Coherent σ.records) :
    Coherent (b.logs σ).records := by
  have hevents := hstored.step ⟨.event .init, []⟩
  have hstamped := hevents.step ⟨.event (.setBootCount b.bootCount.toUInt16), []⟩
  have hsessions := hstamped.step ⟨.session .init, []⟩
  have hboth := hsessions.step ⟨.session (.setBootCount b.bootCount.toUInt16), []⟩
  have hevent : ¬ FlashStore.HoldsSettings .eventLog := by decide
  have hsession : ¬ FlashStore.HoldsSettings .sessionLog := by decide
  have hcrash : ¬ FlashStore.HoldsSettings .crashState := by decide
  have h1 := coherent_other ⟨.event .init, []⟩ rfl hevent hstored h
  have h2 := coherent_other ⟨.event (.setBootCount b.bootCount.toUInt16), []⟩ rfl hevent hevents h1
  have h3 := coherent_other ⟨.session .init, []⟩ rfl hsession hstamped h2
  have h4 := coherent_other ⟨.session (.setBootCount b.bootCount.toUInt16), []⟩ rfl hsession
    hsessions h3
  rw [logs]
  exact coherent_other ⟨.crash (.bootIncrement b.wasCrash), b.outcomes 5⟩ rfl hcrash hboth h4

/-- The tasks find the records of the settings in RAM, unless a write of the boot times out. -/
theorem coherent_stores (h : ∀ k, AllDone (b.outcomes k)) (hchip : b.w25qOk = true)
    (hstores : b.stores = some σ) : Coherent σ.records := by
  have hloads : Coherent b.loads.records := by
    rw [loads_eq]
    exact coherent_other _ rfl (by decide) b.stored_loaded (coherent_loaded h)
  cases hpending : b.pendingOta with
  | overwrite buf =>
    rw [stores, hchip, hpending] at hstores
    cases hstores
  | returned rc cfg chip =>
    rw [stores_of_returned hchip hpending] at hstores
    rw [← Option.some.inj hstores]
    have hreturned := pendingOta_returned hpending
    refine coherent_logs ((stored_loads b).returned hreturned) ?_
    exact coherent_returned hloads (h 4) hreturned

/-! ### A boot that finds the records -/

theorem settings_logs (b : MainBoot) (σ : PersistState) : (b.logs σ).settings = σ.settings := by
  have hevent : ¬ FlashStore.HoldsSettings .eventLog := by decide
  have hsession : ¬ FlashStore.HoldsSettings .sessionLog := by decide
  have hcrash : ¬ FlashStore.HoldsSettings .crashState := by decide
  rw [logs, settings_other _ rfl hcrash, settings_other _ rfl hsession,
    settings_other _ rfl hsession, settings_other _ rfl hevent, settings_other _ rfl hevent]

theorem settings_withCalibration (r : CalibrationResult) (σ : PersistState) :
    (σ.withCalibration r).settings = settingsOf σ.cfg r.state.cal := rfl

theorem settings_loads {c : BootConfig} {k : Calibration} (o o' : List WriteOutcome)
    (hconfig : bootConfigRead σ.flash = (0, c)) (hcal : calibrationRead σ.flash = (0, k))
    (hversion : k.version ≠ 1 ∧ k.version ≠ 2) :
    (persistStep ⟨.calibrationLoad, o'⟩ (persistStep ⟨.bootConfigLoad, o⟩ σ)).settings =
      settingsOf c k := by
  have hfound := bootConfigLoad_of_found (d := ⟨σ.flash, o⟩) hconfig
  have hread := calibrationLoad_of_read (s := σ.cal) (d := ⟨σ.flash, o'⟩) hcal
    hversion.1 hversion.2
  obtain ⟨hcfg, hkept, hmem⟩ := fields_withConfig ⟨0, c, ⟨σ.flash, o⟩⟩ σ
  rw [persistStep_calibrationLoad, persistStep_bootConfigLoad, settings_withCalibration, hfound,
    hcfg, hkept, hmem, hread]

theorem settings_found {υ τ : PersistState} (o o' : List WriteOutcome) (h : Coherent τ.records)
    (hflash : υ.flash = τ.flash) (hsame : SameSettings σ υ) :
    (persistStep ⟨.calibrationLoad, o'⟩ (persistStep ⟨.bootConfigLoad, o⟩ σ)).settings =
      τ.settings := by
  have hconfig : bootConfigRead σ.flash = (0, τ.cfg) :=
    (hsame.config.trans (congrArg bootConfigRead hflash)).trans h.config
  have hcal : calibrationRead σ.flash = (0, τ.cal.cal) :=
    (hsame.calibration.trans (congrArg calibrationRead hflash)).trans h.calibration
  exact settings_loads o o' hconfig hcal h.version

theorem settings_loaded {τ : PersistState} (h : Coherent τ.records) (hflash : b.flash = τ.flash) :
    b.loaded.settings = τ.settings := by
  rw [loaded]
  exact settings_found _ _ h hflash b.sameSettings_counted

theorem settings_withFlash (cfg : BootConfig) (flash : Mem) (σ : PersistState) :
    ({ σ with cfg := cfg, flash := flash } : PersistState).settings =
      settingsOf cfg σ.cal.cal := rfl

theorem otaStageClearPending_eq (c : BootConfig) (d : W25q) :
    otaStageClearPending c d = bootConfigSetPendingOta 0 0 0 c d := rfl

/-- A boot finds the settings that the flash holds, however its own writes end. -/
theorem settings_stores {τ : PersistState} (h : Coherent τ.records) (hflash : b.flash = τ.flash)
    (hchip : b.w25qOk = true) (hstores : b.stores = some σ) : σ.settings = τ.settings := by
  have hloads : b.loads.settings = τ.settings := by
    rw [← settings_loaded h hflash, loads_eq]
    exact settings_other _ rfl (by decide) b.loaded
  cases hpending : b.pendingOta with
  | overwrite buf =>
    rw [stores, hchip, hpending] at hstores
    cases hstores
  | returned rc cfg chip =>
    rw [stores_of_returned hchip hpending] at hstores
    rw [← Option.some.inj hstores, settings_logs, ← hloads]
    have hreturned := pendingOta_returned hpending
    generalize b.loads = υ at hreturned ⊢
    rw [settings_withFlash]
    rcases hreturned with ⟨rfl, _⟩ | ⟨rfl, _⟩
    · rfl
    · rw [otaStageClearPending_eq]
      exact settings_setPendingOta 0 0 0 υ.cfg ⟨υ.flash, b.outcomes 4⟩ υ.cal.cal

/-- A build that does not apply updates always starts the tasks. -/
theorem stores_isSome (h : b.applyEnabled = false) : b.stores.isSome = true := by
  cases hchip : b.w25qOk with
  | false =>
    rw [stores, hchip]
    rfl
  | true =>
    have hpending : ∃ rc cfg chip, b.pendingOta = .returned rc cfg chip := by
      rw [pendingOta]
      split
      · exact ⟨_, _, _, rfl⟩
      · rw [h]
        exact ⟨_, _, _, rfl⟩
    obtain ⟨rc, cfg, chip, hpending⟩ := hpending
    rw [stores_of_returned hchip hpending]
    rfl

end MainBoot

/-! ## In every run -/

section Runs

open Charger

variable {B : ChargerBuild} {b : ChargerBoot} {ins : ℕ → ChargerInput}

theorem coherent_run (hchip : b.main.w25qOk = true) (hboot : ∀ k, AllDone (b.main.outcomes k))
    {n : ℕ} (hdone : ∀ p ∈ carried B b ins n, ∀ s, p.1.store = some s → s.HoldsSettings →
      AllDone p.2) : Coherent (chargerRun B b ins n).persist.store.records := by
  induction n with
  | zero => exact MainBoot.coherent_stores hboot hchip b.main_stores
  | succ n ih =>
    rw [carried_succ] at hdone
    have hbefore := ih fun p hp => hdone p (List.mem_append_left _ hp)
    rw [chargerRun_succ, persist_step]
    rcases carries_cases (ins n) (chargerRun B b ins n) with hnone | ⟨⟨r, outcomes⟩, hone⟩
    · rw [hnone]
      exact hbefore
    · rw [hone] at hdone ⊢
      have hlast := hdone (r, outcomes) (List.mem_append_right _ (List.mem_singleton_self _))
      have hspec := persistServe_spec r outcomes (chargerRun B b ins n).persist
      rw [List.foldl_cons, List.foldl_nil]
      cases hspec with
      | same h =>
        rw [h]
        exact hbefore
      | operated op hop h =>
        rw [h]
        obtain ⟨s, hs⟩ := Option.isSome_iff_exists.mp hop.1
        exact coherent_step (stored_run n).headsInRange hbefore hs (hlast s (hop.2 ▸ hs))

theorem allDone_of_persists (h : ∀ k outcomes txFree, ins k = .persist outcomes txFree →
    AllDone outcomes) (n : ℕ) : ∀ p ∈ carried B b ins n, AllDone p.2 := by
  induction n with
  | zero => exact fun p hp => absurd hp List.not_mem_nil
  | succ n ih =>
    intro p hp
    rw [carried_succ] at hp
    rcases List.mem_append.mp hp with hp | hp
    · exact ih p hp
    · cases hi : ins n with
      | persist outcomes txFree =>
        rw [hi] at hp
        obtain ⟨r, -, rfl⟩ := List.mem_map.mp hp
        exact h n outcomes txFree hi
      | _ =>
        rw [hi] at hp
        exact absurd hp List.not_mem_nil

end Runs

def amendedBuild : ChargerBuild := ⟨defaultFlags, [], [], .zero 12⟩

/-- A limit of 16 A arrives, and is dispatched and stored. -/
def amendedInput : ℕ → ChargerInput
  | 0 => .arrive (fcSendFrame ((FcRequest.setAdvertisedAmps 16).frame 1))
  | 1 => .comms ⟨0, true, (false, false)⟩
  | _ => .persist [] fun _ => true

/-- The watchdog has ended a run. -/
def restartedMain (flash : Mem) : MainBoot :=
  { listedMain with flash := flash, applyEnabled := false, wasCrash := true }

def restartedBoot (flash : Mem) : ChargerBoot where
  main := restartedMain flash
  stores := (restartedMain flash).stores.get (MainBoot.stores_isSome rfl)
  main_stores := (Option.some_get _).symm
  reading := listedBoot.reading
  txFree := listedBoot.txFree

theorem restartedBoot_main (flash : Mem) :
    (restartedBoot flash).main.flash = flash ∧ (restartedBoot flash).main.w25qOk = true :=
  ⟨rfl, rfl⟩

theorem allDone_amendedInput (k : ℕ) (outcomes : List WriteOutcome) (txFree : ℕ → Bool)
    (h : amendedInput k = .persist outcomes txFree) : AllDone outcomes := by
  rcases k with _ | _ | k
  · cases h
  · cases h
  · cases h
    exact fun o ho => absurd ho List.not_mem_nil

end OpenEVCharger
