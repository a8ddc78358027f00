import Mathlib.Logic.Relation
import OpenEVCharger.Persist.Calibration
import OpenEVCharger.Persist.Interrupted

/-!
# Calibration migrations across reboots

A load that brings a record up to date stores it, and the store may fail or lose
power, so that the next load finds the old record again. Through any number of
reboots the flash holds the original record or the upgraded one, and each load ends
with the upgraded one in RAM: no scaling is applied twice or left out.
-/

namespace OpenEVCharger

open NorFlash (Mem Agree Write Interrupted)

/-! ## What an upgrade is -/

/-- The current scale in nA per count, of a record of any version. -/
def upgradedIaNaPerRaw (c : Calibration) : Int :=
  if c.version = 1 then max (-32768) (min 32767 (c.bl0939IaNaPerRaw.toInt * 1000))
  else c.bl0939IaNaPerRaw.toInt

/-- The frequency constant, where records before version 3 have reserved bytes. -/
def upgradedFreqConst (c : Calibration) : Int32 :=
  if c.version = calibrationVersion then c.bl0939.freqConst else 0

/-- `c'` is `c` with each upgraded field transformed once. -/
structure Upgraded (c c' : Calibration) : Prop where
  version : c'.version = calibrationVersion
  ia : c'.bl0939IaNaPerRaw.toInt = upgradedIaNaPerRaw c
  freqConst : c'.bl0939.freqConst = upgradedFreqConst c
  cp : c'.cp = c.cp
  vUv : c'.bl0939.vUvPerRaw = c.bl0939.vUvPerRaw
  ibUa : c'.bl0939.ibUaPerRaw = c.bl0939.ibUaPerRaw
  paUw : c'.bl0939.paUwPerRaw = c.bl0939.paUwPerRaw
  pad0 : ∀ k, 1 ≤ k → k < 4 → c'.byteAt k = c.byteAt k
  reserved : ∀ k, 26 ≤ k → k < 28 → c'.byteAt k = c.byteAt k

/-! ## Reboots -/

/-- The record that a load stores, if any. -/
def loadStored (m : Mem) : Option Calibration :=
  let r := calibrationRead m
  if r.1 < 0 then none
  else if r.1 = 1 then some .defaults
  else if (migrate r.2).2 then some (migrate r.2).1
  else none

/-- The writes of a store, if there is one. -/
def storedWrites (stored : Option Calibration) (m : Mem) : List Write :=
  match stored with
  | some c => storeWrites calibrationSlotA calibrationSlotB c.bytes m
  | none => []

/-- The writes of a load. -/
def loadWrites (m : Mem) : List Write := storedWrites (loadStored m) m

/-- The chip after a store, if there is one. -/
def storedChip (stored : Option Calibration) (d : W25q) : W25q :=
  match stored with
  | some c => (calibrationStore c d).chip
  | none => d

/-- What a write that fails or loses power leaves in the slots of the record. -/
abbrev CalibrationTorn : Mem → Mem → Mem → Prop := SlotsTorn calibrationSlotA calibrationSlotB 32

/-- What can happen to the flash from one load to the next. -/
inductive CalibrationStep : Mem → Mem → Prop where
  /-- A load, with any of its writes failing. -/
  | load (s : CalibrationState) {d : W25q} {ws : List Write} (hws : ws = loadWrites d.mem)
      (htorn : WritesTorn CalibrationTorn ws d.outcomes d.mem) :
      CalibrationStep d.mem (calibrationLoad s d).chip.mem
  /-- A load that loses power. -/
  | powerLoss {m m' : Mem} (hloss : Interrupted CalibrationTorn (loadWrites m) m m') :
      CalibrationStep m m'
  /-- Writes to other sectors. -/
  | elsewhere {m m' : Mem} (hA : Agree m' m calibrationSlotA 32)
      (hB : Agree m' m calibrationSlotB 32) : CalibrationStep m m'

/-- Any number of them. -/
abbrev CalibrationReboots : Mem → Mem → Prop := Relation.ReflTransGen CalibrationStep

/-! ## Records up to what a store stamps -/

/-- Two records with the same bytes but for the counter and the CRC. -/
def SameRecord (c c' : Calibration) : Prop :=
  ∀ k, (k < 4 ∨ 8 ≤ k) → k < 28 → c'.byteAt k = c.byteAt k

namespace SameRecord

variable {c c' c'' : Calibration}

theorem refl (c : Calibration) : SameRecord c c := fun _ _ _ => rfl

theorem trans (h : SameRecord c c') (h' : SameRecord c' c'') : SameRecord c c'' :=
  fun k hk hlt => (h' k hk hlt).trans (h k hk hlt)

theorem version (h : SameRecord c c') : c'.version = c.version := h 0 (.inl (by decide)) (by decide)

theorem fields (h : SameRecord c c') : c'.cp = c.cp ∧ c'.bl0939 = c.bl0939 :=
  Calibration.fields_congr fun k hlo hhi => h k (.inr hlo) hhi

theorem ia (h : SameRecord c c') : c'.bl0939IaNaPerRaw = c.bl0939IaNaPerRaw :=
  congrArg Bl0939Calibration.iaNaPerRaw h.fields.2

/-- The same bytes set in both. -/
theorem set (h : SameRecord c c') (off : ℕ) (v : List UInt8) :
    SameRecord (c.set off v) (c'.set off v) := by
  intro k hk hlt
  by_cases hfits : off + v.length ≤ 32
  · rw [Packed.byteAt, Packed.byteAt, Packed.getD_set hfits, Packed.getD_set hfits]
    split
    · rfl
    · exact h k hk hlt
  · rw [Packed.set, Packed.set, dif_neg hfits, dif_neg hfits]
    exact h k hk hlt

theorem migrateV1 (h : SameRecord c c') : SameRecord (migrateV1 c) (migrateV1 c') := by
  rw [OpenEVCharger.migrateV1, OpenEVCharger.migrateV1, h.ia]
  exact (h.set _ _).set _ _

theorem migrateV2 (h : SameRecord c c') : SameRecord (migrateV2 c) (migrateV2 c') :=
  (h.set _ _).set _ _

theorem migrate (h : SameRecord c c') :
    SameRecord (migrate c).1 (migrate c').1 ∧ (migrate c').2 = (migrate c).2 := by
  have hstep : ∀ {a a' : Calibration} {b : Bool}, SameRecord a a' →
      SameRecord (if a.version = 2 then (OpenEVCharger.migrateV2 a, true) else (a, b)).1
          (if a'.version = 2 then (OpenEVCharger.migrateV2 a', true) else (a', b)).1 ∧
        (if a'.version = 2 then (OpenEVCharger.migrateV2 a', true) else (a', b)).2 =
          (if a.version = 2 then (OpenEVCharger.migrateV2 a, true) else (a, b)).2 := by
    intro a a' b ha
    rw [ha.version]
    by_cases h2 : a.version = 2
    · rw [if_pos h2, if_pos h2]
      exact ⟨ha.migrateV2, rfl⟩
    · rw [if_neg h2, if_neg h2]
      exact ⟨ha, rfl⟩
  rw [OpenEVCharger.migrate, OpenEVCharger.migrate, h.version]
  by_cases h1 : c.version = 1
  · rw [if_pos h1, if_pos h1]
    exact hstep h.migrateV1
  · rw [if_neg h1, if_neg h1]
    exact hstep h

/-- A store stamps the counter and the CRC. -/
theorem calibrationStore (c : Calibration) (d : W25q) :
    SameRecord c (calibrationStore c d).record := fun _ hk hlt => getD_packedStore hk hlt

end SameRecord

/-! ## One migration -/

variable {c c' : Calibration} {s : CalibrationState} {d : W25q} {m m' : Mem}

/-- Both steps, or the second, or none. -/
theorem migrate_eq (c : Calibration) :
    (c.version = 1 → migrate c = (migrateV2 (migrateV1 c), true)) ∧
      (c.version = 2 → migrate c = (migrateV2 c, true)) ∧
      (c.version ≠ 1 → c.version ≠ 2 → migrate c = (c, false)) := by
  refine ⟨fun h1 => ?_, fun h2 => ?_, fun h1 h2 => ?_⟩
  · have hv1 : (migrateV1 c).version = 2 := Calibration.version_setVersion _ _
    rw [migrate, if_pos h1]
    exact if_pos hv1
  · rw [migrate, if_neg (by rw [h2]; decide)]
    exact if_pos h2
  · rw [migrate, if_neg h1]
    exact if_neg h2

/-- The bytes outside the version and the two upgraded fields are the same. -/
def KeepsBytes (c c' : Calibration) : Prop :=
  ∀ k, 1 ≤ k → (k < 16 ∨ 18 ≤ k) → (k < 22 ∨ 26 ≤ k) → c'.byteAt k = c.byteAt k

theorem keepsBytes_migrateV1 (c : Calibration) : KeepsBytes c (migrateV1 c) := by
  intro k hk hia _
  rw [migrateV1, Calibration.setVersion, Packed.setByte, Packed.byteAt_set_other (.inr hk),
    Calibration.setIa, Packed.setHalf, Packed.byteAt_set_other hia]

theorem keepsBytes_migrateV2 (c : Calibration) : KeepsBytes c (migrateV2 c) := by
  intro k hk _ hfreq
  rw [migrateV2, Calibration.setVersion, Packed.setByte, Packed.byteAt_set_other (.inr hk),
    Calibration.setFreqConst, Packed.setWord, Packed.byteAt_set_other hfreq]

theorem KeepsBytes.trans {c'' : Calibration} (h : KeepsBytes c c') (h' : KeepsBytes c' c'') :
    KeepsBytes c c'' := fun k hk hia hfreq => (h' k hk hia hfreq).trans (h k hk hia hfreq)

theorem KeepsBytes.half (h : KeepsBytes c c') {off : ℕ} (hlo : 8 ≤ off)
    (hia : off + 2 ≤ 16 ∨ 18 ≤ off) (hhi : off + 2 ≤ 22) : c'.half off = c.half off :=
  le16Load_congr fun k _ _ => h k (by omega) (by omega) (by omega)

/-- With the bytes kept, the version and the two fields are left to check. -/
theorem KeepsBytes.upgraded (h : KeepsBytes c c') (hversion : c'.version = calibrationVersion)
    (hia : c'.bl0939IaNaPerRaw.toInt = upgradedIaNaPerRaw c)
    (hfreq : c'.bl0939.freqConst = upgradedFreqConst c) : Upgraded c c' where
  version := hversion
  ia := hia
  freqConst := hfreq
  cp := by
    rw [Calibration.cp, Calibration.cp, h.half (by decide) (by decide) (by decide),
      h.half (by decide) (by decide) (by decide), h.half (by decide) (by decide) (by decide)]
  vUv := congrArg UInt16.toInt16 (h.half (by decide) (by decide) (by decide))
  ibUa := congrArg UInt16.toInt16 (h.half (by decide) (by decide) (by decide))
  paUw := congrArg UInt16.toInt16 (h.half (by decide) (by decide) (by decide))
  pad0 := fun k hlo hhi => h k hlo (.inl (by omega)) (.inl (by omega))
  reserved := fun k hlo _ => h k (by omega) (.inr (by omega)) (.inr hlo)

theorem freqConst_migrateV2 (c : Calibration) : (migrateV2 c).bl0939.freqConst = 0 := by
  have hword : (migrateV2 c).word Calibration.bl0939FreqConstOff = (0 : Int32).toUInt32 := by
    rw [migrateV2, Calibration.setVersion, Packed.setByte, Packed.word_set_other (.inr (by decide)),
      Calibration.setFreqConst, Packed.word_setWord (by decide)]
  rw [Calibration.bl0939, hword, Int32.toInt32_toUInt32]

theorem ia_migrateV2 (c : Calibration) :
    (migrateV2 c).bl0939IaNaPerRaw = c.bl0939IaNaPerRaw := by
  have hhalf : (migrateV2 c).half Calibration.bl0939IaNaPerRawOff =
      c.half Calibration.bl0939IaNaPerRawOff := by
    rw [migrateV2, Calibration.setVersion, Packed.setByte, Packed.half_set_other (.inr (by decide)),
      Calibration.setFreqConst, Packed.half_setWord_other (.inl (by decide))]
  exact congrArg UInt16.toInt16 hhalf

/-- The scaling clamps to the range of the field. -/
theorem ia_migrateV1 (c : Calibration) :
    (migrateV1 c).bl0939IaNaPerRaw.toInt =
      max (-32768) (min 32767 (c.bl0939IaNaPerRaw.toInt * 1000)) := by
  have hhalf : (migrateV1 c).half Calibration.bl0939IaNaPerRawOff =
      (Int16.ofInt (max (-32768) (min 32767 (c.bl0939IaNaPerRaw.toInt * 1000)))).toUInt16 := by
    rw [migrateV1, Calibration.setVersion, Packed.setByte, Packed.half_set_other (.inr (by decide)),
      Calibration.setIa, Packed.half_setHalf (by decide)]
    congr 2
    omega
  rw [Calibration.bl0939IaNaPerRaw, hhalf, Int16.toInt16_toUInt16]
  exact Int16.toInt_ofInt_of_le (by omega) (by omega)

/-- A load of a record that it knows upgrades it. -/
theorem upgraded_migrate (hversion : c.version = 1 ∨ c.version = 2 ∨ c.version = 3) :
    Upgraded c (migrate c).1 := by
  obtain ⟨hboth, hsecond, hnone⟩ := migrate_eq c
  rcases hversion with h1 | h2 | h3
  · rw [hboth h1]
    refine ((keepsBytes_migrateV1 c).trans (keepsBytes_migrateV2 _)).upgraded
      (Calibration.version_setVersion _ _) ?_ ?_
    · rw [ia_migrateV2, ia_migrateV1, upgradedIaNaPerRaw, if_pos h1]
    · rw [freqConst_migrateV2, upgradedFreqConst, h1, if_neg (by decide)]
  · rw [hsecond h2]
    refine (keepsBytes_migrateV2 c).upgraded (Calibration.version_setVersion _ _) ?_ ?_
    · rw [ia_migrateV2, upgradedIaNaPerRaw, h2, if_neg (by decide)]
    · rw [freqConst_migrateV2, upgradedFreqConst, h2, if_neg (by decide)]
  · rw [hnone (by rw [h3]; decide) (by rw [h3]; decide)]
    refine KeepsBytes.upgraded (fun _ _ _ _ => rfl) h3 ?_ ?_
    · rw [upgradedIaNaPerRaw, h3, if_neg (by decide)]
    · rw [upgradedFreqConst, h3, if_pos (by decide)]

/-- What a store stamps is none of it. -/
theorem Upgraded.sameRecord {c'' : Calibration} (h : Upgraded c c') (hsame : SameRecord c' c'') :
    Upgraded c c'' where
  version := hsame.version.trans h.version
  ia := by rw [hsame.ia, h.ia]
  freqConst := by rw [hsame.fields.2, h.freqConst]
  cp := hsame.fields.1.trans h.cp
  vUv := by rw [hsame.fields.2, h.vUv]
  ibUa := by rw [hsame.fields.2, h.ibUa]
  paUw := by rw [hsame.fields.2, h.paUw]
  pad0 := fun k hlo hhi => (hsame k (.inl hhi) (by omega)).trans (h.pad0 k hlo hhi)
  reserved := fun k hlo hhi => (hsame k (.inr (by omega)) hhi).trans (h.reserved k hlo hhi)

/-! ## The flash between loads -/

/-- The flash holds the record `c` or the one it is upgraded to. -/
def HoldsRecord (c : Calibration) (m : Mem) : Prop :=
  ∃ c', calibrationRead m = (0, c') ∧ (SameRecord c c' ∨ SameRecord (migrate c).1 c')

theorem loadStored_found (hread : calibrationRead m = (0, c)) :
    loadStored m = if (migrate c).2 then some (migrate c).1 else none := by
  rw [loadStored, hread]
  rfl

/-- A load stores what is written above, and nothing else. -/
theorem calibrationLoad_chip (s : CalibrationState) (d : W25q) :
    (calibrationLoad s d).chip = storedChip (loadStored d.mem) d := by
  rcases calibrationRead_cases d.mem with ⟨c, hread⟩ | hread
  · rw [loadStored_found hread, calibrationLoad, hread]
    dsimp only
    rw [if_neg (by decide), if_neg (by decide)]
    split
    · rfl
    · rfl
  · have hstored : loadStored d.mem = some .defaults := by
      rw [loadStored, hread]
      rfl
    rw [hstored, calibrationLoad, hread]
    dsimp only
    rw [if_neg (by decide), if_pos rfl]
    split
    · rfl
    · rfl

theorem storedChip_interrupted {stored : Option Calibration} {ws : List Write}
    (hws : ws = storedWrites stored d.mem)
    (htorn : WritesTorn CalibrationTorn ws d.outcomes d.mem) :
    Interrupted CalibrationTorn ws d.mem (storedChip stored d).mem := by
  cases stored with
  | none =>
    subst hws
    exact .before _ _
  | some c =>
    subst hws
    refine pingpongStore_interrupted ?_ htorn
    rw [c.size]
    rfl

/-- A load whose writes fail leaves what a power loss among them leaves. -/
theorem calibrationLoad_interrupted (s : CalibrationState) {ws : List Write}
    (hws : ws = loadWrites d.mem) (htorn : WritesTorn CalibrationTorn ws d.outcomes d.mem) :
    Interrupted CalibrationTorn ws d.mem (calibrationLoad s d).chip.mem := by
  rw [calibrationLoad_chip]
  exact storedChip_interrupted hws htorn

/-- Wherever a store of a packed record stops, the load finds the record it found before
or the one stored. -/
theorem packedRead_interrupted {addrA addrB n : ℕ} {r : Packed n} (h : SlotPair addrA addrB)
    (hsize : pingpongSizeOk n = true)
    (hloss : Interrupted (SlotsTorn addrA addrB n) (storeWrites addrA addrB r.bytes m) m m') :
    packedRead addrA addrB n m' = packedRead addrA addrB n m ∨
      ∃ r' : Packed n, packedRead addrA addrB n m' = (0, r') ∧
        ∀ k, (k < 4 ∨ 8 ≤ k) → k < n - 4 → r'.byteAt k = r.byteAt k := by
  have hload := @load_interrupted addrA addrB r.bytes m m' h
  rw [r.size] at hload
  rcases hload hsize hloss with hkept | hnew
  · left
    refine Prod.ext ?_ (Packed.ext ?_)
    · rw [packedRead_rc, packedRead_rc, hkept]
    · rw [packedRead_bytes hsize, packedRead_bytes hsize, hkept]
  · right
    refine ⟨(packedRead addrA addrB n m').2, Prod.ext ?_ rfl, fun k hk hlt => ?_⟩
    · rw [packedRead_rc, hnew]
    · rw [Packed.byteAt, packedRead_bytes hsize, hnew]
      refine getD_stampRecord ?_ hk ?_
      · rw [pingpongSizeOk, Bool.and_eq_true, decide_eq_true_iff] at hsize
        rw [r.size]
        exact hsize.1
      · rw [r.size]
        exact hlt

/-- Wherever a load stops, the next one finds the record it found or the one stored. -/
theorem calibrationRead_interrupted {stored : Option Calibration}
    (hloss : Interrupted CalibrationTorn (storedWrites stored m) m m') :
    calibrationRead m' = calibrationRead m ∨
      ∃ c ∈ stored, ∃ c', calibrationRead m' = (0, c') ∧ SameRecord c c' := by
  cases stored with
  | none =>
    cases hloss
    exact .inl rfl
  | some c =>
    rcases packedRead_interrupted slotPair_calibration rfl hloss with hkept | ⟨c', hread, hsame⟩
    · exact .inl hkept
    · exact .inr ⟨c, rfl, c', hread, hsame⟩

/-- A load of the original record stores the upgraded one, and a load of the upgraded
one stores none. -/
theorem HoldsRecord.loadStored (h : HoldsRecord c m)
    (hversion : c.version = 1 ∨ c.version = 2 ∨ c.version = 3) {stored : Calibration}
    (hstored : loadStored m = some stored) : SameRecord (migrate c).1 stored := by
  obtain ⟨c', hread, hold⟩ := h
  rw [loadStored_found hread] at hstored
  by_cases hmigrated : (OpenEVCharger.migrate c').2 = true
  · rw [if_pos hmigrated] at hstored
    rw [← Option.some.inj hstored]
    rcases hold with hsame | hsame
    · exact hsame.migrate.1
    · have hv : c'.version = calibrationVersion :=
        hsame.version.trans (upgraded_migrate hversion).version
      have hnone := (migrate_eq c').2.2 (by rw [hv]; decide) (by rw [hv]; decide)
      rw [hnone] at hmigrated
      cases hmigrated
  · rw [if_neg hmigrated] at hstored
    cases hstored

theorem HoldsRecord.interrupted (h : HoldsRecord c m)
    (hversion : c.version = 1 ∨ c.version = 2 ∨ c.version = 3) {ws : List Write}
    (hws : ws = loadWrites m) (hloss : Interrupted CalibrationTorn ws m m') :
    HoldsRecord c m' := by
  subst hws
  rcases calibrationRead_interrupted hloss with hkept | ⟨stored, hstored, c', hread, hsame⟩
  · obtain ⟨c', hread, hold⟩ := h
    exact ⟨c', hkept.trans hread, hold⟩
  · exact ⟨c', hread, .inr ((h.loadStored hversion hstored).trans hsame)⟩

theorem HoldsRecord.step (h : HoldsRecord c m)
    (hversion : c.version = 1 ∨ c.version = 2 ∨ c.version = 3) (hstep : CalibrationStep m m') :
    HoldsRecord c m' := by
  cases hstep with
  | load s hws htorn =>
    exact h.interrupted hversion hws (calibrationLoad_interrupted s hws htorn)
  | powerLoss hloss => exact h.interrupted hversion rfl hloss
  | elsewhere hA hB =>
    obtain ⟨c', hread, hold⟩ := h
    exact ⟨c', (packedRead_congr rfl hA hB).trans hread, hold⟩

theorem HoldsRecord.reboots (h : HoldsRecord c m)
    (hversion : c.version = 1 ∨ c.version = 2 ∨ c.version = 3)
    (hrun : CalibrationReboots m m') : HoldsRecord c m' := by
  induction hrun with
  | refl => exact h
  | tail _ hstep ih => exact ih.step hversion hstep

/-! ## The load at the end -/

/-- A load that finds a record ends with the record it is upgraded to. -/
theorem calibrationLoad_found (s : CalibrationState) (hread : calibrationRead d.mem = (0, c)) :
    (calibrationLoad s d).rc = 0 ∧ SameRecord (migrate c).1 (calibrationLoad s d).state.cal ∧
      (calibrationLoad s d).state.isr = publishToIsr (calibrationLoad s d).state.cal := by
  rw [calibrationLoad, hread]
  dsimp only
  rw [if_neg (by decide), if_neg (by decide)]
  split
  · exact ⟨rfl, .calibrationStore _ d, rfl⟩
  · exact ⟨rfl, .refl _, rfl⟩

/-- From a record of version 1, 2 or 3 on, after any number of loads, failed stores,
power losses and other writes, a load ends with the record of version 3 in which each
upgraded field has been transformed once and the other fields are those of the record,
and hands its pilot fields to the interrupt. -/
theorem calibration_upgraded_once {c : Calibration} {m m' : Mem}
    (hread : calibrationRead m = (0, c))
    (hversion : c.version = 1 ∨ c.version = 2 ∨ c.version = 3)
    (hrun : CalibrationReboots m m') (s : CalibrationState) (outcomes : List WriteOutcome) :
    (calibrationLoad s ⟨m', outcomes⟩).rc = 0 ∧
      Upgraded c (calibrationLoad s ⟨m', outcomes⟩).state.cal ∧
      (calibrationLoad s ⟨m', outcomes⟩).state.isr =
        publishToIsr (calibrationLoad s ⟨m', outcomes⟩).state.cal := by
  have hstart : HoldsRecord c m := ⟨c, hread, .inl (.refl c)⟩
  obtain ⟨c', hread', hold⟩ := hstart.reboots hversion hrun
  obtain ⟨hrc, hcal, hisr⟩ := @calibrationLoad_found c' ⟨m', outcomes⟩ s hread'
  refine ⟨hrc, ?_, hisr⟩
  have hup := upgraded_migrate hversion
  rcases hold with hsame | hsame
  · exact hup.sameRecord (hsame.migrate.1.trans hcal)
  · -- the record has been upgraded, so that this load leaves it
    have hv : c'.version = calibrationVersion := hsame.version.trans hup.version
    rw [(migrate_eq c').2.2 (by rw [hv]; decide) (by rw [hv]; decide)] at hcal
    exact hup.sameRecord (hsame.trans hcal)

/-- A record of version 1 with 5 µA per count, as an old release stored it. -/
def oldRecord : PackedStored 32 :=
  calibrationStore (Calibration.setVersion 1 (Calibration.setIa 5 (.zero 32))) ⟨blankChip, []⟩

/-- A store of a packed record without timeouts succeeds. -/
theorem packedStore_done {addrA addrB n : ℕ} {r : Packed n} (h : SlotPair addrA addrB)
    (hsize : pingpongSizeOk n = true) (hdone : AllDone d.outcomes) :
    (packedStore addrA addrB r d).rc = 0 := by
  refine (pingpongStore_done h ?_ hdone).1
  rw [r.size]
  exact hsize

theorem calibrationRead_oldRecord : calibrationRead oldRecord.chip.mem = (0, oldRecord.record) :=
  calibrationRead_store
    (packedStore_done slotPair_calibration rfl fun _ ho => absurd ho List.not_mem_nil)

/-- The first write of a load may fail without effect. -/
theorem step_load_unchanged (s : CalibrationState) (m : Mem) :
    CalibrationStep m (calibrationLoad s ⟨m, [.timeout m]⟩).chip.mem := by
  have htorn : ∀ ws, WritesTorn CalibrationTorn ws [.timeout m] m := by
    intro ws
    cases ws with
    | nil => trivial
    | cons w ws =>
      intro slot
      rw [NorFlash.patch_self]
      exact .inr (.inr rfl)
  obtain ⟨ws, hws⟩ : ∃ ws, ws = loadWrites m := ⟨_, rfl⟩
  exact @CalibrationStep.load s ⟨m, [.timeout m]⟩ ws hws (htorn ws)

theorem calibration_upgraded_once_retried :
    let d := (calibrationLoad calibrationPowerUp
      ⟨oldRecord.chip.mem, [.timeout oldRecord.chip.mem]⟩).chip
    (calibrationLoad calibrationPowerUp ⟨d.mem, []⟩).rc = 0 ∧
      Upgraded oldRecord.record (calibrationLoad calibrationPowerUp ⟨d.mem, []⟩).state.cal ∧
      (calibrationLoad calibrationPowerUp ⟨d.mem, []⟩).state.isr =
        publishToIsr (calibrationLoad calibrationPowerUp ⟨d.mem, []⟩).state.cal :=
  calibration_upgraded_once calibrationRead_oldRecord
    (.inl ((fields_calibrationStore _ _).1.trans (Calibration.version_setVersion 1 _)))
    (.single (step_load_unchanged _ _)) _ _

end OpenEVCharger
