import OpenEVCharger.Lib.Machine
import OpenEVCharger.Persist.BootConfig
import OpenEVCharger.Persist.Calibration
import OpenEVCharger.Persist.Interrupted

/-!
# Setters

The setters of the boot configuration and of the calibration, called one after the
other. Each changes the copy in RAM before it stores it and does nothing when the
copy holds the value already, so that what a setter reports can be relied on as long
as no store fails, and no longer.
-/

namespace OpenEVCharger

open NorFlash (Mem Agree)

/-! ## Calls -/

inductive SetterCall where
  | advertisedAmps (amps : UInt8)
  | requireRfidAuth (enable : UInt8)
  | gfciFaultPolicy (policy : UInt8)
  | pendingOta (pending : UInt8) (imageSize imageCrc32 : UInt32)
  | bl0939 (a : Bl0939Calibration)
  | cp (a : CpCalibration)
  deriving DecidableEq

/-- The copies in RAM and the flash. -/
structure SettersState where
  cfg : BootConfig
  cal : CalibrationState
  flash : Mem

/-- A call, and how the writes it does to the chip end. -/
structure SetterInput where
  call : SetterCall
  outcomes : List WriteOutcome

/-- The return code of a call, and what it leaves. -/
structure SetterResult where
  rc : Int
  state : SettersState

def SettersState.withConfig (σ : SettersState) (r : BootConfigResult) : SetterResult :=
  ⟨r.rc, { σ with cfg := r.cfg, flash := r.chip.mem }⟩

def SettersState.withCalibration (σ : SettersState) (r : CalibrationResult) : SetterResult :=
  ⟨r.rc, { σ with cal := r.state, flash := r.chip.mem }⟩

def callSetter (i : SetterInput) (σ : SettersState) : SetterResult :=
  let d : W25q := ⟨σ.flash, i.outcomes⟩
  match i.call with
  | .advertisedAmps amps => σ.withConfig (bootConfigSetAdvertisedAmps amps σ.cfg d)
  | .requireRfidAuth enable => σ.withConfig (bootConfigSetRequireRfidAuth enable σ.cfg d)
  | .gfciFaultPolicy policy => σ.withConfig (bootConfigSetGfciFaultPolicy policy σ.cfg d)
  | .pendingOta pending size crc => σ.withConfig (bootConfigSetPendingOta pending size crc σ.cfg d)
  | .bl0939 a => σ.withCalibration (calibrationSetBl0939 a σ.cal d)
  | .cp a => σ.withCalibration (calibrationSetCp a σ.cal d)

/-- The unit at power-up, and how the writes of its loads end. -/
structure SettersPowerUp where
  flash : Mem
  outcomes : List WriteOutcome

/-- The loads at boot, one after the other. -/
def bootLoads (d : W25q) : SettersState :=
  let l := bootConfigLoad d
  let k := calibrationLoad calibrationPowerUp l.chip
  ⟨l.cfg, k.state, k.chip.mem⟩

def settersMachine : Machine SettersPowerUp SetterInput SettersState where
  boot b := bootLoads ⟨b.flash, b.outcomes⟩
  step i σ := (callSetter i σ).state

def settersRun (b : SettersPowerUp) (ins : ℕ → SetterInput) (n : ℕ) : SettersState :=
  settersMachine.run b ins n

/-! ## What a setter promises -/

/-- The records hold the value that a call sets. -/
def SetterCall.Holds (call : SetterCall) (cfg : BootConfig) (cal : Calibration) : Prop :=
  match call with
  | .advertisedAmps amps => cfg.fc41dAdvertisedAmps = amps
  | .requireRfidAuth enable => cfg.requireRfidAuth = if enable ≠ 0 then 1 else 0
  | .gfciFaultPolicy policy => cfg.gfciFaultPolicy = policy
  | .pendingOta pending size crc =>
    cfg.pendingOta = if pending ≠ 0 then ⟨1, size, crc⟩ else ⟨0, 0, 0⟩
  | .bl0939 a => cal.bl0939 = a
  | .cp a => cal.cp = a

/-- A call that returns zero has its value found by the loads of the next boot, however
the writes of that boot end; one that returns an error has changed nothing. -/
structure SetterKept (i : SetterInput) (σ : SettersState) : Prop where
  success : (callSetter i σ).rc = 0 → ∀ outcomes,
    let found := bootLoads ⟨(callSetter i σ).state.flash, outcomes⟩
    i.call.Holds found.cfg found.cal.cal
  error : (callSetter i σ).rc ≠ 0 →
    (callSetter i σ).state.cfg = σ.cfg ∧ (callSetter i σ).state.cal = σ.cal ∧
      bootConfigRead (callSetter i σ).state.flash = bootConfigRead σ.flash ∧
      calibrationRead (callSetter i σ).state.flash = calibrationRead σ.flash

/-! ## What a setter stores -/

/-- The record that a call is about to store, unless it refuses its argument or finds
the value in the copy already. -/
inductive SetterRecord where
  | config (c : BootConfig)
  | calibration (c : Calibration)
  deriving DecidableEq

def SetterCall.stored (call : SetterCall) (σ : SettersState) : Option SetterRecord :=
  match call with
  | .advertisedAmps amps =>
    if σ.cfg.fc41dAdvertisedAmps = amps then none
    else some (.config (σ.cfg.setByte BootConfig.fc41dAdvertisedAmpsOff amps
      fc41dAdvertisedAmpsOff_le))
  | .requireRfidAuth enable =>
    let enable : UInt8 := if enable ≠ 0 then 1 else 0
    if σ.cfg.requireRfidAuth = enable then none
    else some (.config (σ.cfg.setByte BootConfig.requireRfidAuthOff enable
      requireRfidAuthOff_le))
  | .gfciFaultPolicy policy =>
    if 1 < policy ∨ σ.cfg.gfciFaultPolicy = policy then none
    else some (.config (σ.cfg.setByte BootConfig.gfciFaultPolicyOff policy
      gfciFaultPolicyOff_le))
  | .pendingOta pending size crc =>
    let p : PendingOta := if pending ≠ 0 then ⟨1, size, crc⟩ else ⟨0, 0, 0⟩
    if σ.cfg.pendingOta = p then none else some (.config (σ.cfg.setPendingOta p))
  | .bl0939 a =>
    if σ.cal.cal.bl0939 = a then none
    else some (.calibration ((σ.cal.cal.setVersion calibrationVersion).setBl0939 a))
  | .cp a =>
    if a.slopeDen = 0 ∨ σ.cal.cal.cp = a then none
    else some (.calibration ((σ.cal.cal.setVersion calibrationVersion).setCp a))

/-- The writes that store a record. -/
def SetterRecord.writes (r : SetterRecord) (m : Mem) : List NorFlash.Write :=
  match r with
  | .config c => storeWrites bootConfigSlotA bootConfigSlotB c.setVersion.bytes m
  | .calibration c => storeWrites calibrationSlotA calibrationSlotB c.bytes m

/-- No write of the store that a call is about to make times out. -/
def SetterStoreDone (i : SetterInput) (σ : SettersState) : Prop :=
  ∀ r ∈ i.call.stored σ, WritesDone (r.writes σ.flash) i.outcomes σ.flash

/-! ## What a call can do -/

variable {i : SetterInput} {σ : SettersState} {call : SetterCall} {c c' : BootConfig}
  {k k' : Calibration} {d : W25q}

/-- What a call holds is in the payload of the records. -/
theorem SetterCall.holds_congr (h : ∀ j, 8 ≤ j → j < 28 → c.bytes.getD j 0 = c'.bytes.getD j 0)
    (hcp : k.cp = k'.cp) (hbl : k.bl0939 = k'.bl0939) : call.Holds c k ↔ call.Holds c' k' := by
  have hbyte : ∀ off, 8 ≤ off → off < 28 → c.byteAt off = c'.byteAt off := h
  cases call with
  | advertisedAmps amps =>
    show c.byteAt 8 = amps ↔ c'.byteAt 8 = amps
    rw [hbyte 8 (by omega) (by omega)]
  | requireRfidAuth enable =>
    show c.byteAt 9 = _ ↔ c'.byteAt 9 = _
    rw [hbyte 9 (by omega) (by omega)]
  | gfciFaultPolicy policy =>
    show c.byteAt 20 = policy ↔ c'.byteAt 20 = policy
    rw [hbyte 20 (by omega) (by omega)]
  | pendingOta pending size crc =>
    show c.pendingOta = _ ↔ c'.pendingOta = _
    rw [BootConfig.pendingOta_congr fun j hlo hhi => h j (by omega) (by omega)]
  | bl0939 a =>
    show k.bl0939 = a ↔ k'.bl0939 = a
    rw [hbl]
  | cp a =>
    show k.cp = a ↔ k'.cp = a
    rw [hcp]

/-- A call changes nothing, or stores a changed copy of one of the records. -/
inductive CallSpec (i : SetterInput) (σ : SettersState) (R : SetterResult) : Prop where
  | kept (hstored : i.call.stored σ = none) (hstate : R.state = σ)
      (hheld : R.rc = 0 → i.call.Holds σ.cfg σ.cal.cal)
  | config (new : BootConfig) (hstored : i.call.stored σ = some (.config new))
      (hnew : i.call.Holds new σ.cal.cal) (hold : ¬ i.call.Holds σ.cfg σ.cal.cal)
      (hR : R = σ.withConfig (bootConfigStore new ⟨σ.flash, i.outcomes⟩))
  | calibration (new : Calibration) (hstored : i.call.stored σ = some (.calibration new))
      (hnew : i.call.Holds σ.cfg new) (hold : ¬ i.call.Holds σ.cfg σ.cal.cal)
      (hversion : new.version = calibrationVersion)
      (hrc : R.rc = (calibrationStore new ⟨σ.flash, i.outcomes⟩).rc)
      (hcal : R.state.cal.cal = (calibrationStore new ⟨σ.flash, i.outcomes⟩).record)
      (hcfg : R.state.cfg = σ.cfg)
      (hflash : R.state.flash = (calibrationStore new ⟨σ.flash, i.outcomes⟩).chip.mem)

/-- The setters of the boot configuration have one shape. -/
theorem callSpec_update {unchanged : Prop} [Decidable unchanged] {new : BootConfig}
    {R : SetterResult} (hR : R = σ.withConfig (bootConfigUpdate (decide unchanged) new σ.cfg
      ⟨σ.flash, i.outcomes⟩))
    (hstored : i.call.stored σ = if unchanged then none else some (.config new))
    (hnew : i.call.Holds new σ.cal.cal) (hiff : i.call.Holds σ.cfg σ.cal.cal ↔ unchanged) :
    CallSpec i σ R := by
  by_cases h : unchanged
  · rw [if_pos h] at hstored
    rw [decide_eq_true h, bootConfigUpdate, if_pos rfl] at hR
    rw [hR]
    exact .kept hstored rfl fun _ => hiff.mpr h
  · rw [if_neg h] at hstored
    rw [decide_eq_false h, bootConfigUpdate, if_neg Bool.false_ne_true] at hR
    exact .config new hstored hnew (fun hheld => h (hiff.mp hheld)) hR

/-- So have those of the calibration, but for the copy of the interrupt. -/
theorem callSpec_store {new : Calibration} {isr : Calibration → CpIsr} {R : CalibrationResult}
    (hR : R =
      let st := calibrationStore new ⟨σ.flash, i.outcomes⟩
      if st.rc < 0 then ⟨st.rc, { σ.cal with cal := st.record }, st.chip⟩
      else ⟨0, ⟨st.record, isr st.record⟩, st.chip⟩)
    (hstored : i.call.stored σ = some (.calibration new)) (hnew : i.call.Holds σ.cfg new)
    (hold : ¬ i.call.Holds σ.cfg σ.cal.cal) (hversion : new.version = calibrationVersion) :
    CallSpec i σ (σ.withCalibration R) := by
  have hrc : (calibrationStore new ⟨σ.flash, i.outcomes⟩).rc = 0 ∨
      (calibrationStore new ⟨σ.flash, i.outcomes⟩).rc < 0 := packedStore_rc
  dsimp only at hR
  rcases hrc with hzero | hneg
  · rw [if_neg (by rw [hzero]; nofun)] at hR
    rw [hR]
    exact .calibration new hstored hnew hold hversion hzero.symm rfl rfl rfl
  · rw [if_pos hneg] at hR
    rw [hR]
    exact .calibration new hstored hnew hold hversion rfl rfl rfl rfl

theorem callSetter_spec (i : SetterInput) (σ : SettersState) :
    CallSpec i σ (callSetter i σ) := by
  obtain ⟨call, outcomes⟩ := i
  cases call with
  | advertisedAmps amps =>
    exact callSpec_update rfl rfl (BootConfig.byteAt_setByte_self (by decide) σ.cfg) Iff.rfl
  | requireRfidAuth enable =>
    exact callSpec_update rfl rfl (BootConfig.byteAt_setByte_self (by decide) σ.cfg) Iff.rfl
  | gfciFaultPolicy policy =>
    by_cases hpolicy : 1 < policy
    · have hrefused : callSetter ⟨.gfciFaultPolicy policy, outcomes⟩ σ =
          σ.withConfig ⟨-1, σ.cfg, ⟨σ.flash, outcomes⟩⟩ := congrArg σ.withConfig (if_pos hpolicy)
      rw [hrefused]
      exact .kept (if_pos (.inl hpolicy)) rfl nofun
    · refine @callSpec_update _ σ (σ.cfg.gfciFaultPolicy = policy) _ _ _
        (congrArg σ.withConfig (if_neg hpolicy)) ?_
        (BootConfig.byteAt_setByte_self (by decide) σ.cfg) Iff.rfl
      show (if 1 < policy ∨ σ.cfg.gfciFaultPolicy = policy then none else _) = _
      simp only [hpolicy, false_or]
  | pendingOta pending size crc =>
    exact callSpec_update rfl rfl (BootConfig.pendingOta_setPendingOta _ _) Iff.rfl
  | bl0939 a =>
    show CallSpec _ σ (σ.withCalibration (calibrationSetBl0939 a σ.cal ⟨σ.flash, outcomes⟩))
    by_cases hsame : σ.cal.cal.bl0939 = a
    · rw [calibrationSetBl0939, if_pos hsame]
      exact .kept (if_pos hsame) rfl fun _ => hsame
    · refine @callSpec_store _ σ _ (fun _ => σ.cal.isr) _ (if_neg hsame) (if_neg hsame)
        (Calibration.bl0939_setBl0939 _ _) hsame ?_
      rw [Calibration.version_setBl0939, Calibration.version_setVersion]
  | cp a =>
    show CallSpec _ σ (σ.withCalibration (calibrationSetCp a σ.cal ⟨σ.flash, outcomes⟩))
    by_cases hden : a.slopeDen = 0
    · rw [calibrationSetCp, if_pos hden]
      exact .kept (if_pos (.inl hden)) rfl nofun
    by_cases hsame : σ.cal.cal.cp = a
    · rw [calibrationSetCp, if_neg hden, if_pos hsame]
      exact .kept (if_pos (.inr hsame)) rfl fun _ => hsame
    · have hnot : ¬ (a.slopeDen = 0 ∨ σ.cal.cal.cp = a) := not_or.mpr ⟨hden, hsame⟩
      refine @callSpec_store _ σ _ publishToIsr _ ?_ (if_neg hnot)
        (Calibration.cp_setCp _ _) hsame ?_
      · rw [calibrationSetCp, if_neg hden, if_neg hsame]
      · rw [Calibration.version_setCp, Calibration.version_setVersion]

/-! ## Coherent copies -/

/-- The copies in RAM are the records in the flash, of a version that a load leaves
alone. -/
structure Coherent (σ : SettersState) : Prop where
  config : bootConfigRead σ.flash = (0, σ.cfg)
  calibration : calibrationRead σ.flash = (0, σ.cal.cal)
  version : σ.cal.cal.version ≠ 1 ∧ σ.cal.cal.version ≠ 2

/-- A boot that finds both records leaves the flash alone. -/
theorem bootLoads_of_found {c : BootConfig} {k : CalibrationState} (hc : bootConfigLoad d = ⟨0, c, d⟩)
    (hk : calibrationLoad calibrationPowerUp d = ⟨0, k, d⟩) : bootLoads d = ⟨c, k, d.mem⟩ := by
  rw [bootLoads, hc]
  dsimp only
  rw [hk]

/-- The loads of a boot find the copies. -/
theorem Coherent.bootLoads (h : Coherent σ) (outcomes : List WriteOutcome) :
    bootLoads ⟨σ.flash, outcomes⟩ = ⟨σ.cfg, ⟨σ.cal.cal, publishToIsr σ.cal.cal⟩, σ.flash⟩ :=
  bootLoads_of_found (d := ⟨σ.flash, outcomes⟩) (bootConfigLoad_of_found h.config)
    (calibrationLoad_of_read h.calibration h.version.1 h.version.2)

/-! ## The boot -/

theorem bootConfigLoad_coherent (h : AllDone d.outcomes) :
    bootConfigRead (bootConfigLoad d).chip.mem = (0, (bootConfigLoad d).cfg) ∧
      AllDone (bootConfigLoad d).chip.outcomes := by
  rcases bootConfigRead_cases d.mem with hfound | ⟨hnone, _⟩
  · rw [bootConfigLoad_of_read hfound]
    exact ⟨Prod.ext hfound rfl, h⟩
  · obtain ⟨hchip, hcfg⟩ := bootConfigLoad_defaults hnone
    rw [hchip, hcfg]
    have hsize : pingpongSizeOk BootConfig.zero.setVersion.bytes.length = true := rfl
    obtain ⟨hrc, hdone⟩ := pingpongStore_done slotPair_bootConfig hsize h
    exact ⟨bootConfigRead_pingpongStore hrc, hdone⟩

/-- What the load of the calibration leaves in RAM is in the flash. -/
theorem calibrationLoad_coherent (h : AllDone d.outcomes) (s : CalibrationState) :
    calibrationRead (calibrationLoad s d).chip.mem = (0, (calibrationLoad s d).state.cal) ∧
      Calibration.version (calibrationLoad s d).state.cal ≠ 1 ∧
      Calibration.version (calibrationLoad s d).state.cal ≠ 2 := by
  rcases calibrationLoad_cases s d with ⟨c, hread, h1, h2, hload⟩ | ⟨c, hversion, hchip, hcal⟩
  · rw [hload]
    exact ⟨hread, h1, h2⟩
  · have hsize : pingpongSizeOk c.bytes.length = true := by
      rw [c.size]
      rfl
    have hrc : (calibrationStore c d).rc = 0 := (pingpongStore_done slotPair_calibration hsize h).1
    rw [hchip, hcal, (fields_calibrationStore c d).1, hversion]
    exact ⟨calibrationRead_store hrc, nofun, nofun⟩

theorem outsideSlots_calibration {a n : ℕ} (h : a + n ≤ calibrationSlotA) :
    OutsideSlots calibrationSlotA calibrationSlotB a n := by
  intro slot
  left
  cases slot with
  | A => exact h
  | B => exact Nat.le_trans h (by decide)

theorem calibrationLoad_agree {s : CalibrationState} {a n : ℕ} (h : a + n ≤ calibrationSlotA) :
    Agree (calibrationLoad s d).chip.mem d.mem a n := by
  rcases calibrationLoad_cases s d with ⟨c, _, _, _, hload⟩ | ⟨c, _, hchip, _⟩
  · rw [hload]
    exact Agree.refl _ _ _
  · rw [hchip]
    exact packedStore_agree slotPair_calibration (outsideSlots_calibration h)

theorem coherent_of_loads {l : BootConfigResult} {r : CalibrationResult}
    (hconfig : bootConfigRead l.chip.mem = (0, l.cfg)) (hagree : Agree r.chip.mem l.chip.mem 0 0x2000)
    (hcal : calibrationRead r.chip.mem = (0, r.state.cal))
    (hversion : Calibration.version r.state.cal ≠ 1 ∧ Calibration.version r.state.cal ≠ 2) :
    Coherent ⟨l.cfg, r.state, r.chip.mem⟩ :=
  ⟨(bootConfigRead_congr hagree).trans hconfig, hcal, hversion⟩

/-- Without timeouts a boot leaves the copies as they are in the flash. -/
theorem coherent_boot (h : AllDone d.outcomes) : Coherent (bootLoads d) := by
  obtain ⟨hconfig, hdone⟩ := bootConfigLoad_coherent h
  obtain ⟨hcal, hversion⟩ := calibrationLoad_coherent hdone calibrationPowerUp
  exact coherent_of_loads hconfig (calibrationLoad_agree (Nat.le_refl _)) hcal hversion

/-! ## A step -/

theorem withVersion_payload (c : BootConfig) {j : ℕ} (hlo : 8 ≤ j) :
    c.setVersion.bytes.getD j 0 = c.bytes.getD j 0 := by
  have hlen : 0 + [bootConfigVersion].length ≤ c.bytes.length := by
    rw [c.size]
    decide
  have hget := getD_setBytes hlen j
  rw [if_neg (by rw [List.length_singleton]; omega)] at hget
  exact hget

/-- A store leaves the payload of the caller's record alone, however it ends. -/
theorem payload_bootConfigStore (c : BootConfig) (d : W25q) {j : ℕ} (hlo : 8 ≤ j) (hhi : j < 28) :
    (bootConfigStore c d).cfg.bytes.getD j 0 = c.bytes.getD j 0 := by
  rw [bootConfigStore_cfg, bootConfigPingpongStore_bytes, ← withVersion_payload c hlo]
  rcases pingpongStore_record bootConfigSlotA bootConfigSlotB c.setVersion.bytes d with
    hrec | ⟨hsize, counter, hrec⟩
  · rw [hrec]
  · rw [hrec]
    exact getD_stampRecord hsize (.inr hlo) (by rw [c.setVersion.size]; exact hhi)

variable {R : SetterResult} {r : SetterRecord}

/-- A call that is about to store leaves the copy holding the value, however the store
ends. -/
theorem CallSpec.holds (hspec : CallSpec i σ R) (h : i.call.stored σ = some r) :
    i.call.Holds R.state.cfg R.state.cal.cal ∧ ¬ i.call.Holds σ.cfg σ.cal.cal := by
  cases hspec with
  | kept hstored _ _ => cases hstored.symm.trans h
  | config new hstored hnew hold hR =>
    rw [hR]
    refine ⟨?_, hold⟩
    refine (SetterCall.holds_congr ?_ rfl rfl).mpr hnew
    exact fun j hlo hhi => payload_bootConfigStore new _ hlo hhi
  | calibration new hstored hnew hold hversion hrc hcal hcfg hflash =>
    obtain ⟨_, hcp, hbl⟩ := fields_calibrationStore new ⟨σ.flash, i.outcomes⟩
    rw [hcal, hcfg]
    exact ⟨(SetterCall.holds_congr (fun _ _ _ => rfl) hcp hbl).mpr hnew, hold⟩

theorem bootConfigStore_rc_iff (c : BootConfig) (d : W25q) :
    (bootConfigStore c d).rc = 0 ↔
      WritesDone ((SetterRecord.config c).writes d.mem) d.outcomes d.mem := by
  rw [bootConfigStore_rc]
  exact pingpongStore_rc_iff slotPair_bootConfig (by rw [c.setVersion.size]; rfl)

theorem calibrationStore_rc_iff (c : Calibration) (d : W25q) :
    (calibrationStore c d).rc = 0 ↔
      WritesDone ((SetterRecord.calibration c).writes d.mem) d.outcomes d.mem :=
  pingpongStore_rc_iff slotPair_calibration (by rw [c.size]; rfl)

/-- A call that is about to store succeeds exactly when no write of it times out. -/
theorem CallSpec.rc_iff (hspec : CallSpec i σ R) (h : i.call.stored σ = some r) :
    R.rc = 0 ↔ WritesDone (r.writes σ.flash) i.outcomes σ.flash := by
  cases hspec with
  | kept hstored _ _ => cases hstored.symm.trans h
  | config new hstored hnew hold hR =>
    cases hstored.symm.trans h
    rw [hR]
    exact bootConfigStore_rc_iff new ⟨σ.flash, i.outcomes⟩
  | calibration new hstored hnew hold hversion hrc hcal hcfg hflash =>
    cases hstored.symm.trans h
    rw [hrc]
    exact calibrationStore_rc_iff new ⟨σ.flash, i.outcomes⟩

theorem coherent_config {c : BootConfig} (h : Coherent σ) (hrc : (bootConfigStore c d).rc = 0)
    (hflash : d.mem = σ.flash) : Coherent (σ.withConfig (bootConfigStore c d)).state := by
  refine ⟨?_, ?_, h.version⟩
  · show bootConfigRead (bootConfigStore c d).chip.mem = (0, (bootConfigStore c d).cfg)
    rw [bootConfigStore_chip, bootConfigStore_cfg]
    exact bootConfigRead_pingpongStore (bootConfigStore_ok hrc).1
  · show calibrationRead (bootConfigStore c d).chip.mem = (0, σ.cal.cal)
    rw [← h.calibration, ← hflash]
    exact packedRead_congr rfl (bootConfigStore_agree (Nat.le_refl _))
      (bootConfigStore_agree (by decide))

theorem coherent_calibration {c : Calibration} {s : CalibrationState} (h : Coherent σ)
    (hrc : (calibrationStore c d).rc = 0) (hversion : c.version = calibrationVersion)
    (hcal : s.cal = (calibrationStore c d).record) (hflash : d.mem = σ.flash) :
    Coherent ⟨σ.cfg, s, (calibrationStore c d).chip.mem⟩ := by
  refine ⟨?_, ?_, ?_⟩
  · show bootConfigRead (calibrationStore c d).chip.mem = (0, σ.cfg)
    rw [← h.config, ← hflash]
    exact bootConfigRead_congr
      (packedStore_agree slotPair_calibration (outsideSlots_calibration (Nat.le_refl _)))
  · show calibrationRead (calibrationStore c d).chip.mem = (0, s.cal)
    rw [hcal]
    exact calibrationRead_store hrc
  · show Calibration.version s.cal ≠ 1 ∧ Calibration.version s.cal ≠ 2
    rw [hcal, (fields_calibrationStore c d).1, hversion]
    exact ⟨nofun, nofun⟩

/-- A call keeps the copies coherent unless its store fails. -/
theorem CallSpec.coherent (hspec : CallSpec i σ R) (h : Coherent σ) (hdone : SetterStoreDone i σ) :
    Coherent R.state := by
  have hok : ∀ r, i.call.stored σ = some r → R.rc = 0 :=
    fun r hr => (hspec.rc_iff hr).mpr (hdone r hr)
  cases hspec with
  | kept hstored hstate _ =>
    rw [hstate]
    exact h
  | config new hstored hnew hold hR =>
    have hrc := hok _ hstored
    rw [hR] at hrc ⊢
    exact coherent_config h hrc rfl
  | calibration new hstored hnew hold hversion hrc hcal hcfg hflash =>
    have hzero := hok _ hstored
    rw [hrc] at hzero
    have hR := coherent_calibration h hzero hversion hcal rfl
    rw [← hcfg, ← hflash] at hR
    exact hR

/-! ## Runs -/

/-- A call whose store does not fail keeps what it promises. -/
theorem Coherent.setterKept (h : Coherent σ) (hdone : SetterStoreDone i σ) : SetterKept i σ := by
  have hspec := callSetter_spec i σ
  generalize hR : callSetter i σ = R at hspec
  have hnext := hspec.coherent h hdone
  refine ⟨?_, ?_⟩
  · intro hrc outcomes
    rw [hR] at hrc ⊢
    rw [hnext.bootLoads]
    cases hstored : i.call.stored σ with
    | some r => exact (hspec.holds hstored).1
    | none =>
      cases hspec with
      | kept _ hstate hheld =>
        rw [hstate]
        exact hheld hrc
      | config _ hsome _ _ _ => cases hsome.symm.trans hstored
      | calibration _ hsome _ _ _ _ _ _ _ => cases hsome.symm.trans hstored
  · intro hrc
    rw [hR] at hrc ⊢
    cases hstored : i.call.stored σ with
    | some r => exact absurd ((hspec.rc_iff hstored).mpr (hdone r hstored)) hrc
    | none =>
      cases hspec with
      | kept _ hstate _ =>
        rw [hstate]
        exact ⟨rfl, rfl, rfl, rfl⟩
      | config _ hsome _ _ _ => cases hsome.symm.trans hstored
      | calibration _ hsome _ _ _ _ _ _ _ => cases hsome.symm.trans hstored

/-- A call whose store fails has changed the copy. -/
theorem SetterKept.storeDone (h : SetterKept i σ) : SetterStoreDone i σ := by
  intro r hr
  have hspec := callSetter_spec i σ
  rw [← hspec.rc_iff hr]
  by_contra hrc
  obtain ⟨hcfg, hcal, _⟩ := h.error hrc
  obtain ⟨hnew, hold⟩ := hspec.holds hr
  rw [hcfg, hcal] at hnew
  exact hold hnew

variable {b : SettersPowerUp} {ins : ℕ → SetterInput}

theorem coherent_settersRun {n : ℕ} (hboot : AllDone b.outcomes)
    (hdone : ∀ k < n, SetterStoreDone (ins k) (settersRun b ins k)) :
    Coherent (settersRun b ins n) := by
  induction n with
  | zero => exact coherent_boot (d := ⟨b.flash, b.outcomes⟩) hboot
  | succ n ih =>
    have hn := ih fun k hk => hdone k (Nat.lt_succ_of_lt hk)
    exact (callSetter_spec _ _).coherent hn (hdone n (Nat.lt_succ_self n))

/-- Up to any call of a run, every setter has kept what it promises exactly when no
store of a setter has failed. -/
theorem setters_kept_iff (b : SettersPowerUp) (ins : ℕ → SetterInput) (n : ℕ)
    (hboot : AllDone b.outcomes) :
    (∀ k < n, SetterKept (ins k) (settersRun b ins k)) ↔
      ∀ k < n, SetterStoreDone (ins k) (settersRun b ins k) := by
  constructor
  · exact fun h k hk => (h k hk).storeDone
  · intro h k hk
    have hcoherent : Coherent (settersRun b ins k) :=
      coherent_settersRun hboot fun j hj => h j (Nat.lt_trans hj hk)
    exact hcoherent.setterKept (h k hk)

/-- A blank unit, whose current limit is set twice: the erase of the first store times
out, and the second call finds the copy changed already. -/
def blankSetters : SettersPowerUp := ⟨fun _ => NorFlash.blank, []⟩

def limitSetTwice (k : ℕ) : SetterInput :=
  ⟨.advertisedAmps 16, if k = 0 then [.timeout fun _ => NorFlash.blank] else []⟩

theorem setters_kept_iff_blank :
    AllDone blankSetters.outcomes ∧
      ((∀ k < 2, SetterKept (limitSetTwice k) (settersRun blankSetters limitSetTwice k)) ↔
        ∀ k < 2, SetterStoreDone (limitSetTwice k) (settersRun blankSetters limitSetTwice k)) :=
  ⟨nofun, setters_kept_iff blankSetters limitSetTwice 2 nofun⟩

/-- The first call returns an error and leaves the copy changed; the second returns
zero, and a boot does not find the value. -/
theorem failed_set_then_lost :
    (callSetter (limitSetTwice 0) (settersRun blankSetters limitSetTwice 0)).rc = -2 ∧
      ¬ SetterKept (limitSetTwice 0) (settersRun blankSetters limitSetTwice 0) ∧
      (callSetter (limitSetTwice 1) (settersRun blankSetters limitSetTwice 1)).rc = 0 ∧
      ¬ SetterKept (limitSetTwice 1) (settersRun blankSetters limitSetTwice 1) := by
  have hrc : (callSetter (limitSetTwice 0) (settersRun blankSetters limitSetTwice 0)).rc = -2 := by
    decide +kernel
  have hfailed : (callSetter (limitSetTwice 0)
      (settersRun blankSetters limitSetTwice 0)).state.cfg.fc41dAdvertisedAmps ≠
        (settersRun blankSetters limitSetTwice 0).cfg.fc41dAdvertisedAmps := by
    decide +kernel
  have hretry : (callSetter (limitSetTwice 1) (settersRun blankSetters limitSetTwice 1)).rc = 0 := by
    decide +kernel
  have hlost : (bootLoads ⟨(callSetter (limitSetTwice 1)
      (settersRun blankSetters limitSetTwice 1)).state.flash, []⟩).cfg.fc41dAdvertisedAmps ≠ 16 := by
    decide +kernel
  refine ⟨hrc, fun h => ?_, hretry, fun h => hlost (h.success hretry [])⟩
  exact hfailed (congrArg BootConfig.fc41dAdvertisedAmps (h.error (by rw [hrc]; nofun)).1)

end OpenEVCharger
