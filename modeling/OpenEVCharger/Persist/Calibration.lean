import OpenEVCharger.Persist.Packed

/-!
# Calibration

`persist/calibration.c`: the control-pilot and meter calibration, a 32-byte ping-pong
record with a copy in RAM and a second copy of its pilot fields for the ADC
interrupt. A load brings records of older versions up to date.
-/

namespace OpenEVCharger

open NorFlash (Mem Agree)

def calibrationSlotA : ℕ := 0x002000
def calibrationSlotB : ℕ := 0x003000
def calibrationVersion : UInt8 := 3

def calDefaultCpAnchorRaw : Int16 := 1462
def calDefaultCpSlopeNum : Int16 := 3540
def calDefaultCpSlopeDen : Int16 := 459
def calDefaultBl0939FreqConst : Int32 := 271900

/-- `struct calibration`. -/
abbrev Calibration := Packed 32

/-- The pilot fields, as the setter gets them. -/
structure CpCalibration where
  anchorRaw : Int16
  slopeNum : Int16
  slopeDen : Int16
  deriving DecidableEq

/-- The meter fields, as the setter gets them. -/
structure Bl0939Calibration where
  vUvPerRaw : Int16
  iaNaPerRaw : Int16
  ibUaPerRaw : Int16
  paUwPerRaw : Int16
  freqConst : Int32
  deriving DecidableEq

namespace Calibration

abbrev versionOff : ℕ := 0
abbrev cpAnchorRawOff : ℕ := 8
abbrev cpSlopeNumOff : ℕ := 10
abbrev cpSlopeDenOff : ℕ := 12
abbrev bl0939VUvPerRawOff : ℕ := 14
abbrev bl0939IaNaPerRawOff : ℕ := 16
abbrev bl0939IbUaPerRawOff : ℕ := 18
abbrev bl0939PaUwPerRawOff : ℕ := 20
abbrev bl0939FreqConstOff : ℕ := 22

def version (c : Calibration) : UInt8 := c.byteAt versionOff
def bl0939IaNaPerRaw (c : Calibration) : Int16 := (c.half bl0939IaNaPerRawOff).toInt16

def cp (c : Calibration) : CpCalibration :=
  ⟨(c.half cpAnchorRawOff).toInt16, (c.half cpSlopeNumOff).toInt16,
    (c.half cpSlopeDenOff).toInt16⟩

def bl0939 (c : Calibration) : Bl0939Calibration :=
  ⟨(c.half bl0939VUvPerRawOff).toInt16, c.bl0939IaNaPerRaw,
    (c.half bl0939IbUaPerRawOff).toInt16, (c.half bl0939PaUwPerRawOff).toInt16,
    (c.word bl0939FreqConstOff).toInt32⟩

def setVersion (v : UInt8) (c : Calibration) : Calibration := c.setByte versionOff v

def setIa (v : Int16) (c : Calibration) : Calibration := c.setHalf bl0939IaNaPerRawOff v.toUInt16

def setFreqConst (v : Int32) (c : Calibration) : Calibration :=
  c.setWord bl0939FreqConstOff v.toUInt32

def setCp (a : CpCalibration) (c : Calibration) : Calibration :=
  ((c.setHalf cpAnchorRawOff a.anchorRaw.toUInt16).setHalf cpSlopeNumOff
    a.slopeNum.toUInt16).setHalf cpSlopeDenOff a.slopeDen.toUInt16

def setBl0939 (a : Bl0939Calibration) (c : Calibration) : Calibration :=
  ((((c.setHalf bl0939VUvPerRawOff a.vUvPerRaw.toUInt16).setHalf bl0939IaNaPerRawOff
    a.iaNaPerRaw.toUInt16).setHalf bl0939IbUaPerRawOff a.ibUaPerRaw.toUInt16).setHalf
    bl0939PaUwPerRawOff a.paUwPerRaw.toUInt16).setWord bl0939FreqConstOff a.freqConst.toUInt32

/-- The record written when there is none. -/
def defaults : Calibration :=
  setCp ⟨calDefaultCpAnchorRaw, calDefaultCpSlopeNum, calDefaultCpSlopeDen⟩
    (setVersion calibrationVersion (.zero 32))

end Calibration

/-! ## State -/

/-- The copy that the ADC interrupt reads. -/
structure CpIsr where
  anchorRaw : Int32
  slopeNum : Int32
  slopeDen : Int32
  deriving DecidableEq

/-- The static variables: `s_cal` and the copy for the interrupt. -/
structure CalibrationState where
  cal : Calibration
  isr : CpIsr
  deriving DecidableEq

def calibrationPowerUp : CalibrationState :=
  ⟨.zero 32, calDefaultCpAnchorRaw.toInt32, calDefaultCpSlopeNum.toInt32,
    calDefaultCpSlopeDen.toInt32⟩

def publishToIsr (c : Calibration) : CpIsr :=
  ⟨c.cp.anchorRaw.toInt32, c.cp.slopeNum.toInt32, c.cp.slopeDen.toInt32⟩

/-- What the load or a setter returns and leaves behind. -/
structure CalibrationResult where
  rc : Int
  state : CalibrationState
  chip : W25q

def calibrationBl0939FreqConst (s : CalibrationState) : Int32 :=
  if s.cal.bl0939.freqConst ≠ 0 then s.cal.bl0939.freqConst else calDefaultBl0939FreqConst

/-! ## Load -/

/-- From version 1 to 2: the current scale in nA instead of µA, clamped. -/
def migrateV1 (c : Calibration) : Calibration :=
  let na : Int := c.bl0939IaNaPerRaw.toInt * 1000
  let na := if na > 32767 then 32767 else na
  let na := if na < -32768 then -32768 else na
  (c.setIa (.ofInt na)).setVersion 2

/-- From version 2 to 3: the frequency constant where reserved bytes were. -/
def migrateV2 (c : Calibration) : Calibration := (c.setFreqConst 0).setVersion calibrationVersion

/-- The record brought up to date, and whether it was changed. -/
def migrate (c : Calibration) : Calibration × Bool :=
  let (c, migrated) := if c.version = 1 then (migrateV1 c, true) else (c, false)
  if c.version = 2 then (migrateV2 c, true) else (c, migrated)

def calibrationRead (m : Mem) : Int × Calibration :=
  packedRead calibrationSlotA calibrationSlotB 32 m

def calibrationStore (c : Calibration) (d : W25q) : PackedStored 32 :=
  packedStore calibrationSlotA calibrationSlotB c d

def calibrationLoad (s : CalibrationState) (d : W25q) : CalibrationResult :=
  let r := calibrationRead d.mem
  if r.1 < 0 then ⟨r.1, s, d⟩
  else if r.1 = 1 then
    let st := calibrationStore .defaults d
    if st.rc < 0 then ⟨st.rc, { s with cal := st.record }, st.chip⟩
    else ⟨0, ⟨st.record, publishToIsr st.record⟩, st.chip⟩
  else
    let (c, migrated) := migrate r.2
    if migrated then
      -- a store that fails is retried at the next boot
      let st := calibrationStore c d
      ⟨0, ⟨st.record, publishToIsr st.record⟩, st.chip⟩
    else ⟨0, ⟨c, publishToIsr c⟩, d⟩

/-! ## Setters -/

def calibrationSetBl0939 (a : Bl0939Calibration) (s : CalibrationState) (d : W25q) :
    CalibrationResult :=
  if s.cal.bl0939 = a then ⟨0, s, d⟩
  else
    let st := calibrationStore ((s.cal.setVersion calibrationVersion).setBl0939 a) d
    if st.rc < 0 then ⟨st.rc, { s with cal := st.record }, st.chip⟩
    else ⟨0, { s with cal := st.record }, st.chip⟩

def calibrationSetCp (a : CpCalibration) (s : CalibrationState) (d : W25q) : CalibrationResult :=
  if a.slopeDen = 0 then ⟨-1, s, d⟩
  else if s.cal.cp = a then ⟨0, s, d⟩
  else
    let st := calibrationStore ((s.cal.setVersion calibrationVersion).setCp a) d
    if st.rc < 0 then ⟨st.rc, { s with cal := st.record }, st.chip⟩
    else ⟨0, ⟨st.record, publishToIsr st.record⟩, st.chip⟩

/-! ## Fields -/

namespace Calibration

variable {c c' : Calibration}

/-- The fields are in the payload. -/
theorem fields_congr (h : ∀ k, 8 ≤ k → k < 28 → c.bytes.getD k 0 = c'.bytes.getD k 0) :
    c.cp = c'.cp ∧ c.bl0939 = c'.bl0939 := by
  have hhalf : ∀ off, 8 ≤ off → off + 2 ≤ 28 → c.half off = c'.half off :=
    fun off hlo hhi => le16Load_congr fun k _ _ => h k (by omega) (by omega)
  have hword : c.word bl0939FreqConstOff = c'.word bl0939FreqConstOff :=
    le32Load_congr fun k hlo hhi => h k (Nat.le_trans (by decide) hlo)
      (Nat.lt_of_lt_of_le hhi (by decide))
  constructor
  · rw [cp, cp, hhalf 8 (by omega) (by omega), hhalf 10 (by omega) (by omega),
      hhalf 12 (by omega) (by omega)]
  · rw [bl0939, bl0939, bl0939IaNaPerRaw, bl0939IaNaPerRaw, hword, hhalf 14 (by omega) (by omega),
      hhalf 16 (by omega) (by omega), hhalf 18 (by omega) (by omega),
      hhalf 20 (by omega) (by omega)]

theorem cp_setCp (a : CpCalibration) (c : Calibration) : (c.setCp a).cp = a := by
  rw [cp, setCp, Packed.half_setHalf (by decide), Packed.half_setHalf_other (by decide),
    Packed.half_setHalf_other (by decide), Packed.half_setHalf (by decide),
    Packed.half_setHalf_other (by decide), Packed.half_setHalf (by decide),
    Int16.toInt16_toUInt16, Int16.toInt16_toUInt16, Int16.toInt16_toUInt16]

theorem bl0939_setBl0939 (a : Bl0939Calibration) (c : Calibration) :
    (c.setBl0939 a).bl0939 = a := by
  have hhalf : ∀ off, off + 2 ≤ 22 → (c.setBl0939 a).half off =
      ((((c.setHalf 14 a.vUvPerRaw.toUInt16).setHalf 16 a.iaNaPerRaw.toUInt16).setHalf 18
        a.ibUaPerRaw.toUInt16).setHalf 20 a.paUwPerRaw.toUInt16).half off :=
    fun off h => Packed.half_setWord_other (.inl h) _
  have hfreq : (c.setBl0939 a).word bl0939FreqConstOff = a.freqConst.toUInt32 := by
    rw [setBl0939, Packed.word_setWord (by decide)]
  -- each half word is behind the ones set before it
  have hpa : (c.setBl0939 a).half 20 = a.paUwPerRaw.toUInt16 := by
    rw [hhalf 20 (by omega), Packed.half_setHalf (by decide)]
  have hib : (c.setBl0939 a).half 18 = a.ibUaPerRaw.toUInt16 := by
    rw [hhalf 18 (by omega), Packed.half_setHalf_other (by decide), Packed.half_setHalf (by decide)]
  have hia : (c.setBl0939 a).half 16 = a.iaNaPerRaw.toUInt16 := by
    rw [hhalf 16 (by omega), Packed.half_setHalf_other (by decide),
      Packed.half_setHalf_other (by decide), Packed.half_setHalf (by decide)]
  have hv : (c.setBl0939 a).half 14 = a.vUvPerRaw.toUInt16 := by
    rw [hhalf 14 (by omega), Packed.half_setHalf_other (by decide),
      Packed.half_setHalf_other (by decide), Packed.half_setHalf_other (by decide),
      Packed.half_setHalf (by decide)]
  rw [bl0939, bl0939IaNaPerRaw, hfreq, hpa, hib, hia, hv, Int16.toInt16_toUInt16,
    Int16.toInt16_toUInt16, Int16.toInt16_toUInt16, Int16.toInt16_toUInt16,
    Int32.toInt32_toUInt32]

theorem version_setVersion (v : UInt8) (c : Calibration) : (c.setVersion v).version = v :=
  Packed.byteAt_setByte (by decide) c

theorem version_setCp (a : CpCalibration) (c : Calibration) : (c.setCp a).version = c.version := by
  rw [version, setCp, Packed.byteAt_setHalf_other (by decide),
    Packed.byteAt_setHalf_other (by decide), Packed.byteAt_setHalf_other (by decide), version]

theorem version_setBl0939 (a : Bl0939Calibration) (c : Calibration) :
    (c.setBl0939 a).version = c.version := by
  rw [version, setBl0939, Packed.byteAt_setWord_other (by decide),
    Packed.byteAt_setHalf_other (by decide), Packed.byteAt_setHalf_other (by decide),
    Packed.byteAt_setHalf_other (by decide), Packed.byteAt_setHalf_other (by decide), version]

theorem cp_setVersion (v : UInt8) (c : Calibration) : (c.setVersion v).cp = c.cp := by
  have hhalf : ∀ off, 1 ≤ off → (c.setVersion v).half off = c.half off :=
    fun off h => Packed.half_set_other (.inr h) c
  rw [cp, cp, hhalf 8 (by omega), hhalf 10 (by omega), hhalf 12 (by omega)]

theorem cp_setBl0939 (a : Bl0939Calibration) (c : Calibration) : (c.setBl0939 a).cp = c.cp := by
  have hhalf : ∀ off, off + 2 ≤ 14 → (c.setBl0939 a).half off = c.half off := by
    intro off h
    have hbefore : ∀ k, 14 ≤ k → off + 2 ≤ k := fun k hk => Nat.le_trans h hk
    rw [setBl0939, Packed.half_setWord_other (.inl (hbefore _ (by decide))),
      Packed.half_setHalf_other (.inl (hbefore _ (by decide))),
      Packed.half_setHalf_other (.inl (hbefore _ (by decide))),
      Packed.half_setHalf_other (.inl (hbefore _ (by decide))),
      Packed.half_setHalf_other (.inl (hbefore _ (by decide)))]
  rw [cp, cp, hhalf 8 (by omega), hhalf 10 (by omega), hhalf 12 (by omega)]

end Calibration

/-! ## Stores and loads -/

variable {c : Calibration} {s : CalibrationState} {d : W25q} {m : Mem}

theorem slotPair_calibration : SlotPair calibrationSlotA calibrationSlotB := ⟨rfl, rfl, nofun⟩

/-- A store leaves the version and the fields of the caller's record alone. -/
theorem fields_calibrationStore (c : Calibration) (d : W25q) :
    Calibration.version (calibrationStore c d).record = c.version ∧
      Calibration.cp (calibrationStore c d).record = c.cp ∧
      Calibration.bl0939 (calibrationStore c d).record = c.bl0939 :=
  ⟨getD_packedStore (.inl (by decide)) (by decide),
    Calibration.fields_congr fun k hlo hhi => getD_packedStore (.inr hlo) (by omega)⟩

/-- After a store that succeeds the load finds the record stored. -/
theorem calibrationRead_store (hrc : (calibrationStore c d).rc = 0) :
    calibrationRead (calibrationStore c d).chip.mem = (0, (calibrationStore c d).record) :=
  packedRead_store slotPair_calibration rfl hrc

/-- A record of another version than 1 and 2 is loaded as it is. -/
theorem calibrationLoad_of_read (h : calibrationRead d.mem = (0, c)) (h1 : c.version ≠ 1)
    (h2 : c.version ≠ 2) : calibrationLoad s d = ⟨0, ⟨c, publishToIsr c⟩, d⟩ := by
  have hmigrate : migrate c = (c, false) := by
    rw [migrate, if_neg h1]
    exact if_neg h2
  rw [calibrationLoad, h]
  dsimp only
  rw [if_neg (by decide), if_neg (by decide), hmigrate]
  rfl

/-- A migrated record has the current version, and one left alone another than 1 and 2. -/
theorem version_migrate (c : Calibration) :
    ((migrate c).2 = true → (migrate c).1.version = calibrationVersion) ∧
      ((migrate c).2 = false → (migrate c).1 = c ∧ c.version ≠ 1 ∧ c.version ≠ 2) := by
  by_cases h1 : c.version = 1
  · have hv1 : (migrateV1 c).version = 2 := Calibration.version_setVersion _ _
    have hmigrate : migrate c = (migrateV2 (migrateV1 c), true) := by
      rw [migrate, if_pos h1]
      exact if_pos hv1
    rw [hmigrate]
    exact ⟨fun _ => Calibration.version_setVersion _ _, nofun⟩
  by_cases h2 : c.version = 2
  · have hmigrate : migrate c = (migrateV2 c, true) := by
      rw [migrate, if_neg h1]
      exact if_pos h2
    rw [hmigrate]
    exact ⟨fun _ => Calibration.version_setVersion _ _, nofun⟩
  · have hmigrate : migrate c = (c, false) := by
      rw [migrate, if_neg h1]
      exact if_neg h2
    rw [hmigrate]
    exact ⟨nofun, fun _ => ⟨rfl, h1, h2⟩⟩

/-- A read finds a record, or returns one and zeroes. -/
theorem calibrationRead_cases (m : Mem) :
    (∃ c, calibrationRead m = (0, c)) ∨ calibrationRead m = (1, .zero 32) := by
  have hsplit : ∀ r : Int × Calibration, r.1 = 0 ∨ r = (1, .zero 32) →
      (∃ c, r = (0, c)) ∨ r = (1, .zero 32) := by
    intro r hr
    rcases hr with hfound | hnone
    · exact .inl ⟨r.2, Prod.ext hfound rfl⟩
    · exact .inr hnone
  exact hsplit _ (packedRead_cases rfl m)

/-- A load leaves a record of the current layout alone, and stores any other. -/
theorem calibrationLoad_cases (s : CalibrationState) (d : W25q) :
    (∃ c : Calibration, calibrationRead d.mem = (0, c) ∧ c.version ≠ 1 ∧ c.version ≠ 2 ∧
      calibrationLoad s d = ⟨0, ⟨c, publishToIsr c⟩, d⟩) ∨
    ∃ c : Calibration, c.version = calibrationVersion ∧
      (calibrationLoad s d).chip = (calibrationStore c d).chip ∧
      (calibrationLoad s d).state.cal = (calibrationStore c d).record := by
  rcases calibrationRead_cases d.mem with ⟨c, hread⟩ | hread
  · obtain ⟨hnew, hsame⟩ := version_migrate c
    cases hmigrated : (migrate c).2 with
    | false =>
      obtain ⟨_, h1, h2⟩ := hsame hmigrated
      exact .inl ⟨c, hread, h1, h2, calibrationLoad_of_read hread h1 h2⟩
    | true =>
      refine .inr ⟨(migrate c).1, hnew hmigrated, ?_⟩
      rw [calibrationLoad, hread]
      dsimp only
      rw [if_neg (by decide), if_neg (by decide), if_pos hmigrated]
      exact ⟨rfl, rfl⟩
  · have hversion : Calibration.defaults.version = calibrationVersion := by
      rw [Calibration.defaults, Calibration.version_setCp, Calibration.version_setVersion]
    refine .inr ⟨.defaults, hversion, ?_⟩
    rw [calibrationLoad, hread]
    dsimp only
    rw [if_neg (by decide), if_pos rfl]
    split
    · exact ⟨rfl, rfl⟩
    · exact ⟨rfl, rfl⟩

end OpenEVCharger
