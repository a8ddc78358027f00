import OpenEVCharger.Persist.BootRecords
import OpenEVCharger.Persist.OtaStage
import OpenEVCharger.Persist.RfidAuthlist
import OpenEVCharger.Persist.RingLog
import OpenEVCharger.Persist.Setters

/-!
# The map of the flash

Every store computes its addresses from constants of its own. Put together, the
regions are apart but for two: the authorisation list lies in the second and third
sector of the event log. As long as the list is not stored and the head of the event
log stays out of those sectors, no store writes what another one keeps.
-/

namespace OpenEVCharger

open NorFlash (Mem Agree Confined)

/-! ## Stores -/

inductive FlashStore where
  | bootConfig
  | calibration
  | eventLog
  | rfidAuthlist
  | sessionLog
  | bootCount
  | crashState
  | otaStage
  deriving DecidableEq, Repr

namespace FlashStore

/-- The first address of the slots of a store. -/
def base : FlashStore → ℕ
  | bootConfig => bootConfigSlotA
  | calibration => calibrationSlotA
  | eventLog => OpenEVCharger.eventLog.base
  | rfidAuthlist => rfidAuthlistSlotA
  | sessionLog => OpenEVCharger.sessionLog.base
  | bootCount => bootCountSector
  | crashState => crashStateSlotA
  | otaStage => otaStageRegionBase

def size : FlashStore → ℕ
  | bootConfig | calibration | rfidAuthlist | crashState => 2 * w25qSectorSize
  | eventLog => OpenEVCharger.eventLog.regionSize
  | sessionLog => OpenEVCharger.sessionLog.regionSize
  | bootCount => w25qSectorSize
  | otaStage => otaStageRegionSize

end FlashStore

/-! ## Operations -/

inductive RingOp where
  | init
  | setBootCount (bootCount : UInt16)
  | append (r : LogRecord)

inductive OtaStageOp where
  | «begin» (imageSize : UInt32)
  | write (offset : UInt32) (data : List UInt8)

inductive PersistOp where
  | reset
  | bootCountIncrement
  | bootConfigLoad
  | calibrationLoad
  | setter (call : SetterCall)
  | authlist (call : AuthlistCall)
  | event (op : RingOp)
  | session (op : RingOp)
  | crash (op : CrashOp)
  | ota (op : OtaStageOp)

/-- The store that an operation is on. -/
def PersistOp.store : PersistOp → Option FlashStore
  | reset => none
  | bootCountIncrement => some .bootCount
  | bootConfigLoad => some .bootConfig
  | calibrationLoad => some .calibration
  | setter (.bl0939 _) | setter (.cp _) => some .calibration
  | setter _ => some .bootConfig
  | authlist _ => some .rfidAuthlist
  | event _ => some .eventLog
  | session _ => some .sessionLog
  | crash _ => some .crashState
  | ota _ => some .otaStage

/-- The copies in RAM and the flash. -/
structure PersistState where
  flash : Mem
  cfg : BootConfig
  cal : CalibrationState
  authlist : RfidAuthlist
  eventRing : RingState
  sessionRing : RingState
  crash : CrashState

/-- An operation, and how the writes it does end. -/
structure PersistInput where
  op : PersistOp
  outcomes : List WriteOutcome

def persistPowerUp (flash : Mem) : PersistState :=
  ⟨flash, .zero, calibrationPowerUp, .zero 128, ringPowerUp, ringPowerUp, crashStatePowerUp⟩

def ringStep (L : RingLog) (op : RingOp) (s : RingState) (d : W25q) : RingState × W25q :=
  match op with
  | .init => (ringInit L d.mem s, d)
  | .setBootCount bootCount => (ringSetBootCount bootCount s, d)
  | .append r => ((ringAppend L r s d).state, (ringAppend L r s d).chip)

def otaStageStep (op : OtaStageOp) (d : W25q) : W25q :=
  match op with
  | .begin imageSize => (otaStageBegin imageSize d).2
  | .write offset data => (otaStageWrite offset data d).2

namespace PersistState

variable (σ : PersistState)

def withConfig (r : BootConfigResult) : PersistState := { σ with cfg := r.cfg, flash := r.chip.mem }

def withCalibration (r : CalibrationResult) : PersistState :=
  { σ with cal := r.state, flash := r.chip.mem }

def withSetters (s : SettersState) : PersistState :=
  { σ with cfg := s.cfg, cal := s.cal, flash := s.flash }

def withAuthlist (r : RfidAuthlistResult) : PersistState :=
  { σ with authlist := r.list, flash := r.chip.mem }

def withEvent (r : RingState × W25q) : PersistState :=
  { σ with eventRing := r.1, flash := r.2.mem }

def withSession (r : RingState × W25q) : PersistState :=
  { σ with sessionRing := r.1, flash := r.2.mem }

def withCrash (r : CrashStateResult) : PersistState :=
  { σ with crash := r.state, flash := r.chip.mem }

def withChip (d : W25q) : PersistState := { σ with flash := d.mem }

theorem flash_withConfig (r : BootConfigResult) : (σ.withConfig r).flash = r.chip.mem := rfl

theorem flash_withCalibration (r : CalibrationResult) :
    (σ.withCalibration r).flash = r.chip.mem := rfl

theorem flash_withSetters (s : SettersState) : (σ.withSetters s).flash = s.flash := rfl

theorem flash_withAuthlist (r : RfidAuthlistResult) : (σ.withAuthlist r).flash = r.chip.mem := rfl

theorem flash_withEvent (r : RingState × W25q) : (σ.withEvent r).flash = r.2.mem := rfl

theorem flash_withSession (r : RingState × W25q) : (σ.withSession r).flash = r.2.mem := rfl

theorem flash_withCrash (r : CrashStateResult) : (σ.withCrash r).flash = r.chip.mem := rfl

theorem flash_withChip (d : W25q) : (σ.withChip d).flash = d.mem := rfl

end PersistState

def persistStep (i : PersistInput) (σ : PersistState) : PersistState :=
  let d : W25q := ⟨σ.flash, i.outcomes⟩
  match i.op with
  | .reset => persistPowerUp σ.flash
  | .bootCountIncrement => σ.withChip (bootCountIncrement d).2
  | .bootConfigLoad => σ.withConfig (bootConfigLoad d)
  | .calibrationLoad => σ.withCalibration (calibrationLoad σ.cal d)
  | .setter call => σ.withSetters (callSetter ⟨call, i.outcomes⟩ ⟨σ.cfg, σ.cal, σ.flash⟩).state
  | .authlist call => σ.withAuthlist (callAuthlist call σ.authlist d)
  | .event op => σ.withEvent (ringStep eventLog op σ.eventRing d)
  | .session op => σ.withSession (ringStep sessionLog op σ.sessionRing d)
  | .crash op => σ.withCrash (crashStep op σ.crash d)
  | .ota op => σ.withChip (otaStageStep op d)

def persistMachine : Machine Mem PersistInput PersistState where
  boot := persistPowerUp
  step := persistStep

def persistRun (flash : Mem) (ins : ℕ → PersistInput) (n : ℕ) : PersistState :=
  persistMachine.run flash ins n

/-! ## Regions -/

/-- The regions of two stores have no byte in common. -/
def FlashStore.Apart (s t : FlashStore) : Prop := s.base + s.size ≤ t.base ∨ t.base + t.size ≤ s.base

instance (s t : FlashStore) : Decidable (s.Apart t) := inferInstanceAs (Decidable (_ ∨ _))

/-- Of all pairs of stores only the event log and the authorisation list overlap. -/
theorem FlashStore.apart_iff {s t : FlashStore} :
    s.Apart t ↔ s ≠ t ∧ ¬ (s = eventLog ∧ t = rfidAuthlist) ∧ ¬ (s = rfidAuthlist ∧ t = eventLog) := by
  cases s <;> cases t <;> decide

variable {i : PersistInput} {σ : PersistState} {s t : FlashStore} {d : W25q}

/-- The heads of the logs are slots of their rings. -/
structure HeadsInRange (σ : PersistState) : Prop where
  event : σ.eventRing.head < eventLog.totalRecords
  session : σ.sessionRing.head < sessionLog.totalRecords

theorem ringStep_head_lt {L : RingLog} {op : RingOp} {r : RingState}
    (h : r.head < L.totalRecords) : (ringStep L op r d).1.head < L.totalRecords := by
  cases op with
  | init => exact ringHead_lt L d.mem
  | setBootCount bootCount => exact h
  | append rec => exact ringAppend_head_lt h

theorem ringPowerUp_head_lt (L : RingLog) : ringPowerUp.head < L.totalRecords := L.totalRecords_pos

theorem headsInRange_powerUp (flash : Mem) : HeadsInRange (persistPowerUp flash) :=
  ⟨ringPowerUp_head_lt eventLog, ringPowerUp_head_lt sessionLog⟩

namespace HeadsInRange

variable (h : HeadsInRange σ)

include h

theorem withEvent {r : RingState × W25q} (hr : r.1.head < eventLog.totalRecords) :
    HeadsInRange (σ.withEvent r) := ⟨hr, h.session⟩

theorem withSession {r : RingState × W25q} (hr : r.1.head < sessionLog.totalRecords) :
    HeadsInRange (σ.withSession r) := ⟨h.event, hr⟩

theorem withConfig (r : BootConfigResult) : HeadsInRange (σ.withConfig r) := ⟨h.event, h.session⟩

theorem withCalibration (r : CalibrationResult) : HeadsInRange (σ.withCalibration r) :=
  ⟨h.event, h.session⟩

theorem withSetters (s : SettersState) : HeadsInRange (σ.withSetters s) := ⟨h.event, h.session⟩

theorem withAuthlist (r : RfidAuthlistResult) : HeadsInRange (σ.withAuthlist r) :=
  ⟨h.event, h.session⟩

theorem withCrash (r : CrashStateResult) : HeadsInRange (σ.withCrash r) := ⟨h.event, h.session⟩

theorem withChip (d : W25q) : HeadsInRange (σ.withChip d) := ⟨h.event, h.session⟩

/-- The heads stay in their rings. -/
theorem step (i : PersistInput) : HeadsInRange (persistStep i σ) := by
  rw [persistStep]
  split
  · exact headsInRange_powerUp σ.flash
  · exact h.withChip _
  · exact h.withConfig _
  · exact h.withCalibration _
  · exact h.withSetters _
  · exact h.withAuthlist _
  · exact h.withEvent (ringStep_head_lt h.event)
  · exact h.withSession (ringStep_head_lt h.session)
  · exact h.withCrash _
  · exact h.withChip _

end HeadsInRange

/-! ## Where an operation writes -/

theorem outsideSlots_of_apart {addrA addrB a n : ℕ} (hB : addrB = addrA + w25qSectorSize)
    (h : a + n ≤ addrA ∨ addrA + 2 * w25qSectorSize ≤ a) : OutsideSlots addrA addrB a n := by
  rw [Nat.two_mul, ← Nat.add_assoc, ← hB] at h
  have hle : addrA ≤ addrB := hB ▸ Nat.le_add_right _ _
  intro slot
  cases slot with
  | A =>
    refine h.imp_right fun hhi => Nat.le_trans ?_ hhi
    exact Nat.add_le_add_right hle _
  | B => exact h.imp_left fun hlo => Nat.le_trans hlo hle

/-- An operation on a log writes the sector of the head at most. -/
theorem ringStep_agree {L : RingLog} {op : RingOp} {r : RingState} {a n : ℕ}
    (h : ∀ rec, op = .append rec →
      a + n ≤ L.sectorAddr r.head ∨ L.sectorAddr r.head + w25qSectorSize ≤ a) :
    Agree (ringStep L op r d).2.mem d.mem a n := by
  cases op with
  | init => exact Agree.refl _ _ _
  | setBootCount bootCount => exact Agree.refl _ _ _
  | append rec => exact ringAppend_agree (h rec rfl)

theorem sectorAddr_bounds {L : RingLog} {slot : ℕ} (h : slot < L.totalRecords) :
    L.base ≤ L.sectorAddr slot ∧
      L.sectorAddr slot + w25qSectorSize ≤ L.base + L.regionSize := by
  have hsector : slot / logRecordsPerSector < L.sectors :=
    Nat.div_lt_of_lt_mul (Nat.mul_comm L.sectors _ ▸ h)
  refine ⟨Nat.le_add_right _ _, ?_⟩
  have hmul := Nat.mul_le_mul_right w25qSectorSize (Nat.succ_le_of_lt hsector)
  rw [Nat.succ_mul] at hmul
  rw [RingLog.sectorAddr, RingLog.regionSize]
  omega

theorem ringStep_confined {L : RingLog} {op : RingOp} {r : RingState}
    (h : r.head < L.totalRecords) :
    Confined (ringStep L op r d).2.mem d.mem L.base L.regionSize := by
  have hbounds := sectorAddr_bounds h
  refine NorFlash.confined_of_agree fun b k hd => ringStep_agree fun _ _ => ?_
  generalize w25qSectorSize = sector at hbounds ⊢
  omega

theorem bootConfigStore_confined {c : BootConfig} :
    Confined (bootConfigStore c d).chip.mem d.mem bootConfigSlotA (2 * w25qSectorSize) := by
  refine NorFlash.confined_of_agree fun b k hd => ?_
  rw [bootConfigStore_chip]
  exact pingpongStore_agree slotPair_bootConfig (outsideSlots_of_apart rfl hd)

theorem calibrationStore_confined {c : Calibration} :
    Confined (calibrationStore c d).chip.mem d.mem calibrationSlotA (2 * w25qSectorSize) :=
  NorFlash.confined_of_agree fun _ _ hd =>
    packedStore_agree slotPair_calibration (outsideSlots_of_apart rfl hd)

theorem bootConfigLoad_confined :
    Confined (bootConfigLoad d).chip.mem d.mem bootConfigSlotA (2 * w25qSectorSize) := by
  rcases bootConfigRead_cases d.mem with hfound | ⟨hnone, _⟩
  · rw [bootConfigLoad_of_read hfound]
    exact Confined.refl _ _ _
  · rw [(bootConfigLoad_defaults hnone).1]
    exact NorFlash.confined_of_agree fun _ _ hd =>
      pingpongStore_agree slotPair_bootConfig (outsideSlots_of_apart rfl hd)

theorem calibrationLoad_confined {c : CalibrationState} :
    Confined (calibrationLoad c d).chip.mem d.mem calibrationSlotA (2 * w25qSectorSize) := by
  rcases calibrationLoad_cases c d with ⟨_, _, _, _, hload⟩ | ⟨new, _, hchip, _⟩
  · rw [hload]
    exact Confined.refl _ _ _
  · rw [hchip]
    exact calibrationStore_confined

/-- The record that a setter is about to store is of its store. -/
theorem setter_store {call : SetterCall} {τ : SettersState} {r : SetterRecord}
    (h : call.stored τ = some r) :
    (PersistOp.setter call).store =
      some (match r with
        | .config _ => .bootConfig
        | .calibration _ => .calibration) := by
  cases call with
  | advertisedAmps amps =>
    rw [SetterCall.stored] at h
    split at h <;> cases h
    rfl
  | requireRfidAuth enable =>
    rw [SetterCall.stored] at h
    generalize (if enable ≠ 0 then 1 else 0 : UInt8) = v at h
    split at h <;> cases h
    rfl
  | gfciFaultPolicy policy =>
    rw [SetterCall.stored] at h
    split at h <;> cases h
    rfl
  | pendingOta pending size crc =>
    rw [SetterCall.stored] at h
    generalize (if pending ≠ 0 then ⟨1, size, crc⟩ else ⟨0, 0, 0⟩ : PendingOta) = v at h
    split at h <;> cases h
    rfl
  | bl0939 a =>
    rw [SetterCall.stored] at h
    split at h <;> cases h
    rfl
  | cp a =>
    rw [SetterCall.stored] at h
    split at h <;> cases h
    rfl

theorem callSetter_confined {j : SetterInput} {τ : SettersState}
    (h : (PersistOp.setter j.call).store = some s) :
    Confined (callSetter j τ).state.flash τ.flash s.base s.size := by
  have hspec := callSetter_spec j τ
  generalize callSetter j τ = R at hspec ⊢
  cases hspec with
  | kept _ hstate _ =>
    rw [hstate]
    exact Confined.refl _ _ _
  | config new hstored _ _ hR =>
    cases (setter_store hstored).symm.trans h
    rw [hR]
    exact bootConfigStore_confined (d := ⟨τ.flash, j.outcomes⟩)
  | calibration new hstored _ _ _ _ _ _ hflash =>
    cases (setter_store hstored).symm.trans h
    rw [hflash]
    exact calibrationStore_confined (d := ⟨τ.flash, j.outcomes⟩)

theorem crashStep_confined {op : CrashOp} {c : CrashState} :
    Confined (crashStep op c d).chip.mem d.mem crashStateSlotA (2 * w25qSectorSize) := by
  refine NorFlash.confined_of_agree fun b k hd => ?_
  cases op with
  | bootIncrement wasCrash =>
    have hagree : Agree (crashStateBootIncrement wasCrash c d).chip.mem d.mem b k :=
      crashStateBootIncrement_agree (outsideSlots_of_apart rfl hd)
    rw [crashStep]
    generalize crashStateBootIncrement wasCrash c d = st at hagree ⊢
    exact hagree
  | resetAlive =>
    rw [crashStep]
    exact crashStateResetAlive_agree (outsideSlots_of_apart rfl hd)

theorem otaStageStep_confined {op : OtaStageOp} :
    Confined (otaStageStep op d).mem d.mem otaStageRegionBase otaStageRegionSize := by
  refine NorFlash.confined_of_agree fun b k hd => ?_
  cases op with
  | «begin» imageSize =>
    show Agree (otaStageBegin imageSize d).2.mem d.mem b k
    rw [otaStageBegin]
    split
    · exact Agree.refl _ _ _
    split
    · exact Agree.refl _ _ _
    next hmax =>
    -- the sectors of an image of at most a megabyte are in the region
    have hsectors : (imageSize.toNat + (w25qSectorSize - 1)) / w25qSectorSize * w25qSectorSize ≤
        otaStageRegionSize := by
      have hsize : imageSize.toNat ≤ 0x100000 := Nat.not_lt.mp hmax
      show (imageSize.toNat + 4095) / 4096 * 4096 ≤ 0x100000
      omega
    refine eraseSectors_agree rfl (hd.imp_right fun hhi => Nat.le_trans ?_ hhi)
    exact Nat.add_le_add_left hsectors _
  | write offset data =>
    show Agree (otaStageWrite offset data d).2.mem d.mem b k
    by_cases hend : otaStageRegionSize < offset.toNat + data.length
    · rw [otaStageWrite, if_pos hend]
      split
      · exact Agree.refl _ _ _
      · exact Agree.refl _ _ _
    · refine otaStageWrite_agree ?_
      generalize otaStageRegionBase = base at hd ⊢
      generalize otaStageRegionSize = size at hd hend
      omega

theorem callAuthlist_confined {call : AuthlistCall} {r : RfidAuthlist} :
    Confined (callAuthlist call r d).chip.mem d.mem rfidAuthlistSlotA (2 * w25qSectorSize) :=
  NorFlash.confined_of_agree fun _ _ hd => callAuthlist_agree (outsideSlots_of_apart rfl hd)

theorem bootCountIncrement_confined :
    Confined (bootCountIncrement d).2.mem d.mem bootCountSector w25qSectorSize :=
  NorFlash.confined_of_agree fun _ _ hd => bootCountIncrement_agree hd

/-- An operation writes in the region of its store only. -/
theorem persistStep_confined (hheads : HeadsInRange σ) (hs : i.op.store = some s) :
    Confined (persistStep i σ).flash σ.flash s.base s.size := by
  obtain ⟨op, outcomes⟩ := i
  cases op with
  | reset => exact Confined.refl _ _ _
  | bootCountIncrement =>
    cases hs
    rw [persistStep, PersistState.flash_withChip]
    exact bootCountIncrement_confined
  | bootConfigLoad =>
    cases hs
    rw [persistStep, PersistState.flash_withConfig]
    exact bootConfigLoad_confined
  | calibrationLoad =>
    cases hs
    rw [persistStep, PersistState.flash_withCalibration]
    exact calibrationLoad_confined
  | setter call =>
    rw [persistStep, PersistState.flash_withSetters]
    exact callSetter_confined hs
  | authlist call =>
    cases hs
    rw [persistStep, PersistState.flash_withAuthlist]
    exact callAuthlist_confined
  | event op =>
    cases hs
    rw [persistStep, PersistState.flash_withEvent]
    exact ringStep_confined hheads.event
  | session op =>
    cases hs
    rw [persistStep, PersistState.flash_withSession]
    exact ringStep_confined hheads.session
  | crash op =>
    cases hs
    rw [persistStep, PersistState.flash_withCrash]
    exact crashStep_confined
  | ota op =>
    cases hs
    rw [persistStep, PersistState.flash_withChip]
    exact otaStageStep_confined

/-! ## What keeps the stores apart -/

/-- The operation stores no authorisation list, and appends no event in the sectors of
the list. -/
def KeepsApart (i : PersistInput) (σ : PersistState) : Prop :=
  match i.op with
  | .authlist call => ¬ call.Stores σ.authlist σ.flash
  | .event (.append _) => σ.eventRing.head < 128 ∨ 384 ≤ σ.eventRing.head
  | _ => True

/-- The operation writes no cell of a store, however its writes end. -/
def LeavesAlone (i : PersistInput) (σ : PersistState) (s : FlashStore) : Prop :=
  ∀ outcomes, Agree (persistStep ⟨i.op, outcomes⟩ σ).flash σ.flash s.base s.size

/-- The reads of a store return the same on both memories. -/
def SameRecords (s : FlashStore) (m m' : Mem) : Prop :=
  match s with
  | .bootConfig => bootConfigRead m = bootConfigRead m'
  | .calibration => calibrationRead m = calibrationRead m'
  | .eventLog => ∀ n, ringReadNth eventLog n m = ringReadNth eventLog n m'
  | .rfidAuthlist => rfidAuthlistRead m = rfidAuthlistRead m'
  | .sessionLog => ∀ n, ringReadNth sessionLog n m = ringReadNth sessionLog n m'
  | .bootCount => bootCountRead m = bootCountRead m'
  | .crashState => crashStateRead m = crashStateRead m'
  | .otaStage => ∀ n ≤ otaStageRegionSize, stagedBytes n m = stagedBytes n m'

variable {m m' : Mem}

theorem packedRead_of_agree {addrA addrB n : ℕ} (hB : addrB = addrA + w25qSectorSize)
    (hsize : pingpongSizeOk n = true) (h : Agree m m' addrA (2 * w25qSectorSize)) :
    packedRead addrA addrB n m = packedRead addrA addrB n m' := by
  have hn : 12 ≤ n ∧ n ≤ 256 := by simpa [pingpongSizeOk] using hsize
  have hle : n ≤ w25qSectorSize := Nat.le_trans hn.2 (by decide)
  rw [Nat.two_mul] at h
  refine packedRead_congr hsize (h.mono (Nat.le_refl _) ?_) (h.mono ?_ ?_)
  · omega
  · omega
  · omega

theorem ringReadNth_of_agree {L : RingLog} (h : Agree m m' L.base L.regionSize) (n : ℕ) :
    ringReadNth L n m = ringReadNth L n m' := by
  rw [ringReadNth, ringReadNth]
  by_cases hn : L.totalRecords ≤ n
  · rw [if_pos hn, if_pos hn]
  · have hslot := slotToAddr_bounds L n
    have hregion := sectorAddr_bounds (Nat.lt_of_not_le hn)
    have hread : NorFlash.read m (L.slotToAddr n) logRecordSize =
        NorFlash.read m' (L.slotToAddr n) logRecordSize := by
      refine (h.mono (Nat.le_trans hregion.1 hslot.1) ?_).read
      exact Nat.le_trans hslot.2 hregion.2
    rw [if_neg hn, if_neg hn, hread]

/-- A store whose region is the same reads back the same. -/
theorem sameRecords_of_agree (h : Agree m m' s.base s.size) : SameRecords s m m' := by
  cases s with
  | bootConfig => exact bootConfigRead_congr h
  | calibration => exact packedRead_of_agree rfl rfl h
  | eventLog => exact ringReadNth_of_agree h
  | rfidAuthlist => exact packedRead_of_agree rfl rfl h
  | sessionLog => exact ringReadNth_of_agree h
  | bootCount =>
    refine Packed.ext ?_
    exact (h.mono (Nat.le_refl _) (by decide)).read
  | crashState => exact packedRead_of_agree rfl rfl h
  | otaStage => exact fun n hn => (h.mono (Nat.le_refl _) (Nat.add_le_add_left hn _)).read

/-- An append outside the second and third sector leaves them alone. -/
theorem eventAppend_agree {op : RingOp} {r : RingState}
    (h : ∀ rec, op = .append rec → r.head < 128 ∨ 384 ≤ r.head) :
    Agree (ringStep eventLog op r d).2.mem d.mem rfidAuthlistSlotA (2 * w25qSectorSize) := by
  refine ringStep_agree fun rec hop => ?_
  have hhead := h rec hop
  show 0x5000 + 2 * 4096 ≤ 0x4000 + r.head / 128 * 4096 ∨
    0x4000 + r.head / 128 * 4096 + 4096 ≤ 0x5000
  omega

/-- The operations on no store, on the event log and on the authorisation list. -/
theorem PersistOp.of_store (op : PersistOp) :
    (op.store = none → op = .reset) ∧ (op.store = some .eventLog → ∃ r, op = .event r) ∧
      (op.store = some .rfidAuthlist → ∃ call, op = .authlist call) := by
  cases op with
  | reset => exact ⟨fun _ => rfl, nofun, nofun⟩
  | event r => exact ⟨nofun, fun _ => ⟨r, rfl⟩, nofun⟩
  | authlist call => exact ⟨nofun, nofun, fun _ => ⟨call, rfl⟩⟩
  | setter call => cases call <;> exact ⟨nofun, nofun, nofun⟩
  | bootCountIncrement => exact ⟨nofun, nofun, nofun⟩
  | bootConfigLoad => exact ⟨nofun, nofun, nofun⟩
  | calibrationLoad => exact ⟨nofun, nofun, nofun⟩
  | session r => exact ⟨nofun, nofun, nofun⟩
  | crash op => exact ⟨nofun, nofun, nofun⟩
  | ota op => exact ⟨nofun, nofun, nofun⟩

theorem event_agree {op : RingOp} {outcomes : List WriteOutcome}
    (h : ∀ rec, op = .append rec → σ.eventRing.head < 128 ∨ 384 ≤ σ.eventRing.head) :
    Agree (persistStep ⟨.event op, outcomes⟩ σ).flash σ.flash rfidAuthlistSlotA
      (2 * w25qSectorSize) := by
  rw [persistStep, PersistState.flash_withEvent]
  exact eventAppend_agree (d := ⟨σ.flash, outcomes⟩) h

/-- A call that comes to no store leaves the flash as it is. -/
theorem authlist_flash {call : AuthlistCall} {outcomes : List WriteOutcome}
    (h : ¬ call.Stores σ.authlist σ.flash) :
    (persistStep ⟨.authlist call, outcomes⟩ σ).flash = σ.flash := by
  rw [persistStep, PersistState.flash_withAuthlist]
  cases callAuthlist_chip call σ.authlist ⟨σ.flash, outcomes⟩ with
  | inl hsame => rw [hsame]
  | inr hstored => exact absurd hstored.1 h

/-- An operation that keeps the stores apart writes in no region but its own. -/
theorem leavesAlone_of_keepsApart (hheads : HeadsInRange σ) (h : KeepsApart i σ)
    (hs : i.op.store ≠ some s) : LeavesAlone i σ s := by
  intro outcomes
  obtain ⟨op, _⟩ := i
  cases hstore : op.store with
  | none =>
    rw [op.of_store.1 hstore]
    exact Agree.refl _ _ _
  | some t =>
    have hne : t ≠ s := fun heq => hs (heq ▸ hstore)
    by_cases hlist : t = .eventLog ∧ s = .rfidAuthlist
    · obtain ⟨rfl, rfl⟩ := hlist
      obtain ⟨r, rfl⟩ := op.of_store.2.1 hstore
      exact event_agree fun rec hr => by subst hr; exact h
    by_cases hevents : t = .rfidAuthlist ∧ s = .eventLog
    · obtain ⟨rfl, rfl⟩ := hevents
      obtain ⟨call, rfl⟩ := op.of_store.2.2 hstore
      rw [authlist_flash h]
      exact Agree.refl _ _ _
    have hconfined : Confined (persistStep ⟨op, outcomes⟩ σ).flash σ.flash t.base t.size :=
      persistStep_confined hheads hstore
    exact hconfined.agree (FlashStore.apart_iff.mpr ⟨hne, hlist, hevents⟩).symm

/-! ## Runs -/

variable {flash : Mem} {ins : ℕ → PersistInput} {n a b : ℕ}

theorem headsInRange_run (flash : Mem) (ins : ℕ → PersistInput) (n : ℕ) :
    HeadsInRange (persistRun flash ins n) :=
  persistMachine.invariant (headsInRange_powerUp flash) (fun i _ h => h.step i) n

/-- As long as every operation keeps the stores apart, none writes a cell of another
store, and what a store holds reads back the same after any number of operations on
the others. -/
theorem stores_kept_apart (flash : Mem) (ins : ℕ → PersistInput) (n : ℕ)
    (happart : ∀ k < n, KeepsApart (ins k) (persistRun flash ins k)) :
    (∀ k < n, ∀ s, (ins k).op.store ≠ some s → LeavesAlone (ins k) (persistRun flash ins k) s) ∧
      ∀ s a b, a ≤ b → b ≤ n → (∀ k, a ≤ k → k < b → (ins k).op.store ≠ some s) →
        Agree (persistRun flash ins b).flash (persistRun flash ins a).flash s.base s.size ∧
          SameRecords s (persistRun flash ins b).flash (persistRun flash ins a).flash := by
  have hstep : ∀ k < n, ∀ s, (ins k).op.store ≠ some s →
      LeavesAlone (ins k) (persistRun flash ins k) s := fun k hk s hs =>
    leavesAlone_of_keepsApart (headsInRange_run flash ins k) (happart k hk) hs
  refine ⟨hstep, fun s a b hab hbn hother => ?_⟩
  have hagree : Agree (persistRun flash ins b).flash (persistRun flash ins a).flash s.base
      s.size := by
    induction b, hab using Nat.le_induction with
    | base => exact Agree.refl _ _ _
    | succ b hab ih =>
      have hprev := ih (Nat.le_of_succ_le hbn) fun k hak hkb => hother k hak (Nat.lt_succ_of_lt hkb)
      have hlast := hstep b hbn s (hother b hab (Nat.lt_succ_self b)) (ins b).outcomes
      exact hlast.trans hprev
  exact ⟨hagree, sameRecords_of_agree hagree⟩

/-- The session log is found and the current limit is set; the event log stays. -/
theorem stores_kept_apart_limit :
    let ins : ℕ → PersistInput := fun k =>
      ⟨if k = 0 then .session .init else .setter (.advertisedAmps 16), []⟩
    SameRecords .eventLog (persistRun (fun _ => NorFlash.blank) ins 2).flash
      (persistRun (fun _ => NorFlash.blank) ins 0).flash := by
  intro ins
  refine ((stores_kept_apart _ ins 2 ?_).2 .eventLog 0 2 (Nat.zero_le 2) (Nat.le_refl 2) ?_).2
  · intro k _
    cases k with
    | zero => trivial
    | succ k => trivial
  · intro k _ _
    cases k with
    | zero => nofun
    | succ k => nofun

/-- On a blank chip the load of the authorisation list writes its first record over the
event of slot 128: the slot reads as blank before and as corrupt after it. -/
theorem authlist_load_over_event :
    let blank : Mem := fun _ => NorFlash.blank
    let load : PersistInput := ⟨.authlist .load, []⟩
    load.op.store ≠ some .eventLog ∧
      ¬ Agree (persistStep load (persistPowerUp blank)).flash blank
        FlashStore.eventLog.base FlashStore.eventLog.size ∧
      ¬ SameRecords .eventLog (persistStep load (persistPowerUp blank)).flash blank := by
  intro blank load
  have hslot : ringReadNth eventLog 128 (persistStep load (persistPowerUp blank)).flash ≠
      ringReadNth eventLog 128 blank := by
    decide +kernel
  have hsame : ¬ SameRecords .eventLog (persistStep load (persistPowerUp blank)).flash blank :=
    fun h => hslot (h 128)
  exact ⟨nofun, fun h => hsame (sameRecords_of_agree h), hsame⟩

end OpenEVCharger
