import Mathlib.Algebra.Order.Ring.Abs
import Mathlib.Algebra.Order.Ring.Int
import OpenEVCharger.Lib.Machine
import OpenEVCharger.Persist.Migration

/-!
# The slope the ADC interrupt divides by

`hal/gd32f205/adc_inject.c` over the calibration: the interrupt converts each count
with the copy that the load and the setters publish. A boot whose flash does not
answer skips the load, and the meter setter then stores a record with no slope in
it, which the interrupt of a later boot divides by.
-/

namespace OpenEVCharger

open NorFlash (Mem Agree Write Interrupted)

/-! ## The conversion -/

/-- An `int32_t`, unless the value does not fit. -/
def checkedInt32 (x : Int) : Option Int := if -2 ^ 31 ≤ x ∧ x < 2 ^ 31 then some x else none

/-- `convert_mv`, or nothing where C leaves it undefined: when a step overflows or the
denominator is zero. -/
def convertMv (raw : ℕ) (s : CpIsr) : Option Int := do
  let diff ← checkedInt32 (raw - s.anchorRaw.toInt)
  let scaled ← checkedInt32 (diff * s.slopeNum.toInt)
  let quotient ← if s.slopeDen = 0 then none else checkedInt32 (scaled.tdiv s.slopeDen.toInt)
  let mv ← checkedInt32 (quotient + 12000)
  let mv := if mv > 12000 then 12000 else mv
  some (if mv < -12000 then -12000 else mv)

/-- A count of the converter, which is set to 12 bits. -/
abbrev adcCounts : ℕ := 4096

/-- The interrupt can convert every count. -/
structure Converts (s : CpIsr) : Prop where
  den : s.slopeDen ≠ 0
  mv : ∀ raw < adcCounts, (convertMv raw s).isSome

/-! ## Boots and setters -/

inductive CalibrationCall where
  /-- `main` from reset, with the flash answering or not. -/
  | boot (flashOk : Bool)
  | setCp (a : CpCalibration)
  | setBl0939 (a : Bl0939Calibration)
  deriving DecidableEq

/-- A call, and how the writes it does to the chip end. -/
structure CalibrationInput where
  call : CalibrationCall
  outcomes : List WriteOutcome

/-- The copies in RAM and the flash. -/
structure CalibrationSystem where
  cal : CalibrationState
  flash : Mem

def CalibrationSystem.after (r : CalibrationResult) : CalibrationSystem := ⟨r.state, r.chip.mem⟩

def callCalibration (i : CalibrationInput) (σ : CalibrationSystem) : CalibrationSystem :=
  let d : W25q := ⟨σ.flash, i.outcomes⟩
  match i.call with
  | .boot false => ⟨calibrationPowerUp, σ.flash⟩
  | .boot true => .after (calibrationLoad calibrationPowerUp d)
  | .setCp a => .after (calibrationSetCp a σ.cal d)
  | .setBl0939 a => .after (calibrationSetBl0939 a σ.cal d)

/-- From a power-up with any flash. -/
def calibrationMachine : Machine Mem CalibrationInput CalibrationSystem where
  boot m := ⟨calibrationPowerUp, m⟩
  step := callCalibration

def calibrationRun (m : Mem) (ins : ℕ → CalibrationInput) (n : ℕ) : CalibrationSystem :=
  calibrationMachine.run m ins n

/-- The record that a call stores, if any. -/
def callStored (call : CalibrationCall) (σ : CalibrationSystem) : Option Calibration :=
  match call with
  | .boot false => none
  | .boot true => loadStored σ.flash
  | .setCp a =>
    if a.slopeDen = 0 ∨ σ.cal.cal.cp = a then none
    else some ((σ.cal.cal.setVersion calibrationVersion).setCp a)
  | .setBl0939 a =>
    if σ.cal.cal.bl0939 = a then none
    else some ((σ.cal.cal.setVersion calibrationVersion).setBl0939 a)

/-- The writes of a call that fail leave what the chip may leave. -/
def CallTorn (i : CalibrationInput) (σ : CalibrationSystem) : Prop :=
  WritesTorn CalibrationTorn (storedWrites (callStored i.call σ) σ.flash) i.outcomes σ.flash

/-- A call that does not store a record without a slope: the meter setter is not to
change anything while the copy in RAM has none. -/
def KeepsSlope (call : CalibrationCall) (σ : CalibrationSystem) : Prop :=
  ∀ a, call = .setBl0939 a → σ.cal.cal.bl0939 ≠ a → σ.cal.cal.cp.slopeDen ≠ 0

/-- A load would not find a record without a slope. -/
def FlashSlope (m : Mem) : Prop := ∀ c, calibrationRead m = (0, c) → c.cp.slopeDen ≠ 0

/-! ## Conversions that are defined -/

/-- What the copy for the interrupt holds: values of 16 bits, and a slope. -/
structure IsrOk (s : CpIsr) : Prop where
  anchor : -32768 ≤ s.anchorRaw.toInt ∧ s.anchorRaw.toInt ≤ 32767
  num : -32768 ≤ s.slopeNum.toInt ∧ s.slopeNum.toInt ≤ 32767
  den : s.slopeDen ≠ 0

theorem checkedInt32_some {x b : Int} (h : |x| ≤ b) (hb : b < 2 ^ 31) :
    checkedInt32 x = some x := by
  have hbounds := abs_le.mp h
  exact if_pos ⟨by omega, by omega⟩

/-- A count less the anchor is below 2^16, times the numerator below 2^31, and a
division does not make it larger. -/
theorem IsrOk.converts {s : CpIsr} (h : IsrOk s) : Converts s where
  den := h.den
  mv := by
    intro raw hraw
    obtain ⟨⟨ha, ha'⟩, ⟨hn, hn'⟩, hden⟩ := h
    replace hraw : raw < 4096 := hraw
    have hdiff : |(raw : Int) - s.anchorRaw.toInt| ≤ 36863 := abs_le.mpr ⟨by omega, by omega⟩
    have hnum : |s.slopeNum.toInt| ≤ 32768 := abs_le.mpr ⟨by omega, by omega⟩
    have hscaled : |((raw : Int) - s.anchorRaw.toInt) * s.slopeNum.toInt| ≤ 36863 * 32768 := by
      rw [abs_mul]
      exact mul_le_mul hdiff hnum (abs_nonneg _) (by decide)
    have hquotient : |(((raw : Int) - s.anchorRaw.toInt) * s.slopeNum.toInt).tdiv
        s.slopeDen.toInt| ≤ 36863 * 32768 := by
      refine le_trans ?_ hscaled
      rw [Int.abs_eq_natAbs, Int.abs_eq_natAbs, Int.natAbs_tdiv]
      exact Int.ofNat_le.mpr (Nat.div_le_self _ _)
    have hmv : |(((raw : Int) - s.anchorRaw.toInt) * s.slopeNum.toInt).tdiv s.slopeDen.toInt +
        12000| ≤ 36863 * 32768 + 12000 :=
      (abs_add_le _ _).trans (add_le_add hquotient (by decide))
    rw [convertMv, checkedInt32_some hdiff (by decide)]
    dsimp only [Option.bind_eq_bind, Option.bind_some]
    rw [checkedInt32_some hscaled (by decide)]
    dsimp only [Option.bind_some]
    rw [if_neg hden, checkedInt32_some hquotient (by decide)]
    dsimp only [Option.bind_some]
    rw [checkedInt32_some hmv (by decide)]
    rfl

theorem Calibration.isrOk {c : Calibration} (h : c.cp.slopeDen ≠ 0) : IsrOk (publishToIsr c) where
  anchor := by
    rw [publishToIsr, Int16.toInt_toInt32]
    exact ⟨Int16.le_toInt _, Int.le_of_lt_add_one (Int16.toInt_lt _)⟩
  num := by
    rw [publishToIsr, Int16.toInt_toInt32]
    exact ⟨Int16.le_toInt _, Int.le_of_lt_add_one (Int16.toInt_lt _)⟩
  den := by
    intro hzero
    refine h (Int16.toInt_inj.mp ?_)
    have := congrArg Int32.toInt hzero
    rwa [publishToIsr, Int16.toInt_toInt32] at this

/-! ## What a call leaves -/

variable {c : Calibration} {i : CalibrationInput} {σ : CalibrationSystem} {m m' : Mem}
  {s : CalibrationState} {d : W25q}

theorem isrOk_powerUp : IsrOk calibrationPowerUp.isr where
  anchor := by decide
  num := by decide
  den := by decide

/-- No migration concerns the pilot fields. -/
theorem cp_migrate (c : Calibration) : (migrate c).1.cp = c.cp := by
  obtain ⟨hboth, hsecond, hnone⟩ := migrate_eq c
  have hkeeps : ∀ {c c' : Calibration}, KeepsBytes c c' → c'.cp = c.cp := by
    intro c c' h
    rw [Calibration.cp, Calibration.cp, h.half (by decide) (by decide) (by decide),
      h.half (by decide) (by decide) (by decide), h.half (by decide) (by decide) (by decide)]
  by_cases h1 : c.version = 1
  · rw [hboth h1]
    exact hkeeps ((keepsBytes_migrateV1 c).trans (keepsBytes_migrateV2 _))
  by_cases h2 : c.version = 2
  · rw [hsecond h2]
    exact hkeeps (keepsBytes_migrateV2 c)
  · rw [hnone h1 h2]

theorem cp_defaults : Calibration.defaults.cp =
    ⟨calDefaultCpAnchorRaw, calDefaultCpSlopeNum, calDefaultCpSlopeDen⟩ :=
  Calibration.cp_setCp _ _

/-- A load publishes the slope it finds, or the default one. -/
theorem calibrationLoad_isrOk (h : FlashSlope d.mem) :
    IsrOk (calibrationLoad calibrationPowerUp d).state.isr := by
  rcases calibrationRead_cases d.mem with ⟨c, hread⟩ | hread
  · obtain ⟨_, hsame, hisr⟩ := calibrationLoad_found calibrationPowerUp hread
    rw [hisr]
    refine Calibration.isrOk ?_
    rw [hsame.fields.1, cp_migrate]
    exact h c hread
  · have hstored : (Calibration.cp (calibrationStore .defaults d).record).slopeDen ≠ 0 := by
      rw [(fields_calibrationStore _ d).2.1, cp_defaults]
      decide
    rw [calibrationLoad, hread]
    dsimp only
    rw [if_neg (by decide), if_pos rfl]
    split
    · exact isrOk_powerUp
    · exact Calibration.isrOk hstored

/-- What a load stores has the slope that it finds, or the default one. -/
theorem loadStored_slope (h : FlashSlope m) (hstored : loadStored m = some c) :
    c.cp.slopeDen ≠ 0 := by
  rcases calibrationRead_cases m with ⟨c', hread⟩ | hread
  · rw [loadStored_found hread] at hstored
    split at hstored
    · rw [← Option.some.inj hstored, cp_migrate]
      exact h c' hread
    · cases hstored
  · have hdefaults : loadStored m = some .defaults := by
      rw [loadStored, hread]
      rfl
    rw [hdefaults] at hstored
    rw [← Option.some.inj hstored, cp_defaults]
    decide

/-- Every record that a call stores has a slope. -/
theorem callStored_slope {call : CalibrationCall} (h : FlashSlope σ.flash)
    (hkeeps : KeepsSlope call σ) (hstored : callStored call σ = some c) : c.cp.slopeDen ≠ 0 := by
  cases call with
  | boot flashOk =>
    cases flashOk with
    | false => cases hstored
    | true => exact loadStored_slope h hstored
  | setCp a =>
    rw [callStored] at hstored
    split at hstored
    · cases hstored
    · next hset =>
      rw [← Option.some.inj hstored, Calibration.cp_setCp]
      exact fun hzero => hset (.inl hzero)
  | setBl0939 a =>
    rw [callStored] at hstored
    split at hstored
    · cases hstored
    · next hset =>
      rw [← Option.some.inj hstored, Calibration.cp_setBl0939,
        Calibration.cp_setVersion]
      exact hkeeps a rfl hset

/-- A setter of the pilot fields publishes a slope that it stores, or leaves the copy for
the interrupt. -/
theorem calibrationSetCp_spec (a : CpCalibration) (s : CalibrationState) (d : W25q)
    (hisr : IsrOk s.isr) :
    IsrOk (calibrationSetCp a s d).state.isr ∧ (calibrationSetCp a s d).chip =
      storedChip (if a.slopeDen = 0 ∨ s.cal.cp = a then none
        else some ((s.cal.setVersion calibrationVersion).setCp a)) d := by
  rw [calibrationSetCp]
  by_cases hzero : a.slopeDen = 0
  · rw [if_pos hzero, if_pos (.inl hzero)]
    exact ⟨hisr, rfl⟩
  rw [if_neg hzero]
  by_cases hsame : s.cal.cp = a
  · rw [if_pos hsame, if_pos (.inr hsame)]
    exact ⟨hisr, rfl⟩
  rw [if_neg hsame, if_neg (not_or.mpr ⟨hzero, hsame⟩)]
  have hcp : Calibration.cp ((s.cal.setVersion calibrationVersion).setCp a) = a :=
    Calibration.cp_setCp _ _
  generalize (s.cal.setVersion calibrationVersion).setCp a = c at hcp ⊢
  dsimp only
  split
  · exact ⟨hisr, rfl⟩
  · refine ⟨Calibration.isrOk ?_, rfl⟩
    rw [(fields_calibrationStore c d).2.1, hcp]
    exact hzero

/-- The setter of the meter fields leaves the copy for the interrupt. -/
theorem calibrationSetBl0939_spec (a : Bl0939Calibration) (s : CalibrationState) (d : W25q) :
    (calibrationSetBl0939 a s d).state.isr = s.isr ∧ (calibrationSetBl0939 a s d).chip =
      storedChip (if s.cal.bl0939 = a then none
        else some ((s.cal.setVersion calibrationVersion).setBl0939 a)) d := by
  rw [calibrationSetBl0939]
  by_cases hsame : s.cal.bl0939 = a
  · rw [if_pos hsame, if_pos hsame]
    exact ⟨rfl, rfl⟩
  rw [if_neg hsame, if_neg hsame]
  generalize (s.cal.setVersion calibrationVersion).setBl0939 a = c
  dsimp only
  split
  · exact ⟨rfl, rfl⟩
  · exact ⟨rfl, rfl⟩

theorem flash_after (r : CalibrationResult) : (CalibrationSystem.after r).flash = r.chip.mem := rfl

theorem isr_after (r : CalibrationResult) :
    (CalibrationSystem.after r).cal.isr = r.state.isr := rfl

/-- A call publishes a slope or leaves the copy for the interrupt, and leaves the chip
with what it stores. -/
theorem callCalibration_spec (h : FlashSlope σ.flash) (hisr : IsrOk σ.cal.isr) :
    IsrOk (callCalibration i σ).cal.isr ∧ (callCalibration i σ).flash =
      (storedChip (callStored i.call σ) ⟨σ.flash, i.outcomes⟩).mem := by
  obtain ⟨call, outcomes⟩ := i
  rw [callCalibration]
  cases call with
  | boot flashOk =>
    cases flashOk with
    | false => exact ⟨isrOk_powerUp, rfl⟩
    | true =>
      dsimp only
      rw [flash_after, isr_after, calibrationLoad_chip]
      exact ⟨@calibrationLoad_isrOk ⟨σ.flash, outcomes⟩ h, rfl⟩
  | setCp a =>
    dsimp only
    obtain ⟨hset, hchip⟩ := calibrationSetCp_spec a σ.cal ⟨σ.flash, outcomes⟩ hisr
    rw [flash_after, isr_after, hchip]
    exact ⟨hset, rfl⟩
  | setBl0939 a =>
    dsimp only
    obtain ⟨hset, hchip⟩ := calibrationSetBl0939_spec a σ.cal ⟨σ.flash, outcomes⟩
    rw [flash_after, isr_after, hchip, hset]
    exact ⟨hisr, rfl⟩

/-- However its writes end, a call leaves the record that the flash held or the one it
stores. -/
theorem flashSlope_storedChip {stored : Option Calibration} {outcomes : List WriteOutcome}
    (h : FlashSlope m) (hslope : ∀ c ∈ stored, c.cp.slopeDen ≠ 0) {ws : List Write}
    (hws : ws = storedWrites stored m) (htorn : WritesTorn CalibrationTorn ws outcomes m) :
    FlashSlope (storedChip stored ⟨m, outcomes⟩).mem := by
  have hloss := @storedChip_interrupted ⟨m, outcomes⟩ stored ws hws htorn
  subst hws
  rcases calibrationRead_interrupted hloss with hkept | ⟨c, hstored, c', hread, hsame⟩
  · intro c hread
    exact h c (hkept.symm.trans hread)
  · intro c'' hread'
    have hc : c' = c'' := congrArg Prod.snd (hread.symm.trans hread')
    rw [← hc, hsame.fields.1]
    exact hslope c hstored

/-! ## Runs -/

/-- The copy for the interrupt has a slope, and so has the record that a boot would load. -/
structure SlopeOk (σ : CalibrationSystem) : Prop where
  isr : IsrOk σ.cal.isr
  flash : FlashSlope σ.flash

theorem SlopeOk.step (h : SlopeOk σ) (hkeeps : KeepsSlope i.call σ) (htorn : CallTorn i σ) :
    SlopeOk (callCalibration i σ) := by
  obtain ⟨hisr, hflash⟩ := callCalibration_spec (i := i) h.flash h.isr
  refine ⟨hisr, ?_⟩
  rw [hflash]
  exact flashSlope_storedChip h.flash (fun c hc => callStored_slope h.flash hkeeps hc) rfl htorn

/-- From a flash whose record has a slope on, as long as the meter setter stores nothing
while the copy in RAM has no slope, the interrupt can convert every count in every
state reached. -/
theorem cp_conversion_defined (m : Mem) (ins : ℕ → CalibrationInput) (n : ℕ)
    (hflash : FlashSlope m) (htorn : ∀ k < n, CallTorn (ins k) (calibrationRun m ins k))
    (hkeeps : ∀ k < n, KeepsSlope (ins k).call (calibrationRun m ins k)) :
    ∀ k ≤ n, Converts (calibrationRun m ins k).cal.isr := by
  intro k hk
  have hok : SlopeOk (calibrationRun m ins k) := by
    induction k with
    | zero => exact ⟨isrOk_powerUp, hflash⟩
    | succ k ih => exact (ih (Nat.le_of_succ_le hk)).step (hkeeps k hk) (htorn k hk)
  exact hok.isr.converts

theorem flashSlope_blankChip : FlashSlope blankChip := by
  intro c hread
  have hnone : (calibrationRead blankChip).1 = 1 := by decide +kernel
  rw [hread] at hnone
  cases hnone

def meterFields : Bl0939Calibration := ⟨1, 1, 1, 1, 0⟩

/-- A boot of a blank unit, and the meter setter. -/
def bootThenMeter (k : ℕ) : CalibrationInput :=
  ⟨if k = 0 then .boot true else .setBl0939 meterFields, []⟩

theorem cp_conversion_defined_blank :
    Converts (calibrationRun blankChip bootThenMeter 2).cal.isr := by
  have hcached : (calibrationRun blankChip bootThenMeter 1).cal.cal.cp.slopeDen ≠ 0 := by
    decide +kernel
  have hkeeps : ∀ k < 2, KeepsSlope (bootThenMeter k).call (calibrationRun blankChip
      bootThenMeter k) := by
    intro k hk
    rcases Nat.le_one_iff_eq_zero_or_eq_one.mp (Nat.le_of_lt_succ hk) with rfl | rfl
    · intro a hcall
      have hboot : (bootThenMeter 0).call = .boot true := rfl
      rw [hboot] at hcall
      cases hcall
    · exact fun _ _ _ => hcached
  exact cp_conversion_defined blankChip bootThenMeter 2 flashSlope_blankChip
    (fun _ _ => writesTorn_nil) hkeeps 2 (Nat.le_refl 2)

/-- A boot of a blank unit whose flash does not answer, the meter setter, which stores
its copy without pilot fields, and the next boot. -/
def meterWithoutLoad (k : ℕ) : CalibrationInput :=
  ⟨if k = 0 then .boot false else if k = 1 then .setBl0939 meterFields else .boot true, []⟩

/-- The interrupt of that boot divides by zero. -/
theorem meter_store_without_load :
    FlashSlope blankChip ∧ (∀ k < 3, (meterWithoutLoad k).outcomes = []) ∧
      ¬ Converts (calibrationRun blankChip meterWithoutLoad 3).cal.isr := by
  have hzero : (calibrationRun blankChip meterWithoutLoad 3).cal.isr.slopeDen = 0 := by
    decide +kernel
  exact ⟨flashSlope_blankChip, fun _ _ => rfl, fun h => h.den hzero⟩

end OpenEVCharger
