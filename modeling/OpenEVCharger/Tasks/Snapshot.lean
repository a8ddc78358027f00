import OpenEVCharger.Comms.StateReport
import OpenEVCharger.Safety.Run
import OpenEVCharger.Tasks.PersistQueue
import OpenEVCharger.Ui.IoTask

/-!
# The published snapshot

What the safety task publishes at the end of a tick, and what the other tasks make of it. A
snapshot of a settled interlock never shows a closed contactor outside of charging, nor a
latched fault outside of FAULT.
-/

namespace OpenEVCharger

/-! ## Codes -/

namespace EvseState

def all : List EvseState := [boot, selfTest, ready, charging, userPaused, coolingDown, fault]

/-- The state of a code; no snapshot carries another code. -/
def ofCode (b : UInt8) : EvseState := (all.find? fun e => e.code == b).getD boot

theorem ofCode_code (e : EvseState) : ofCode e.code = e := by
  cases e <;> rfl

theorem code_inj {e e' : EvseState} : e.code = e'.code ↔ e = e' := by
  constructor
  · intro h
    rw [← ofCode_code e, h, ofCode_code]
  · exact congrArg code

end EvseState

namespace J1772State

def all : List J1772State := [invalid, A, B, C, D, E, F]

def ofCode (b : UInt8) : J1772State := (all.find? fun j => j.code == b).getD invalid

theorem ofCode_code (j : J1772State) : ofCode j.code = j := by
  cases j <;> rfl

end J1772State

/-! ## The snapshot -/

/-- `decode_cc_amps`. -/
def decodeCcAmps (raw : ℕ) : UInt16 :=
  if ccBandOpenMinRaw ≤ raw then 0
  else if ccBand13aLo ≤ raw then 13
  else if ccBand20aLo ≤ raw then 20
  else if ccBand32aLo ≤ raw then 32
  else if ccBand63aLo ≤ raw then 63
  else 0

/-- Tenths of an ampere out of the raw current, whatever the sign of the scale. -/
def activeAmpsX10 (iaNaPerRaw : ℤ) (bl : Bl0939Readings) : UInt16 :=
  if iaNaPerRaw ≠ 0 ∧ bl.valid then
    let v := (bl.iaRms * iaNaPerRaw).natAbs / 100000000
    if 65535 < v then 65535 else UInt16.ofNat v
  else 0

/-- What the snapshot shows besides what the tick works with. -/
structure SnapshotReading where
  cpLowMv : ℤ
  ntc2AdcRaw : ℕ

/-- The snapshot at the end of a tick. -/
def systemState (i : TickInput) (x : SnapshotReading) (s : SafetyTask) : SystemState where
  j1772State := s.cp.committed.code
  evseState := s.evse.code
  advertisedAmps :=
    if i.advertisedAmps ≠ 0 then UInt8.ofNat i.advertisedAmps
    else UInt8.ofNat (effectiveAdvertisedAmps i s)
  contactorCmd := if s.mainCmd then 1 else 0
  cpHighMv := Int16.ofInt i.cpHighMv
  cpLowMv := Int16.ofInt x.cpLowMv
  activeAmpsX10 := activeAmpsX10 i.iaNaPerRaw s.readings
  ntc1DC := 0
  ntc2DC := 0
  ccMaxAmps := decodeCcAmps i.adc.cc
  acPresent := if s.readings.valid ∧ bl0939VRmsAcPresentRaw ≤ s.readings.vRms then 1 else 0
  pad := 0
  faultActiveBits := UInt32.ofBitVec s.faults.activeBits
  firstFaultId := UInt32.ofNat s.faults.firstRaised
  sessionMwh := UInt32.ofNat (sessionMwh s.session.mwsAccum)
  acAdcRaw := UInt16.ofNat i.adc.ac
  ntc1AdcRaw := UInt16.ofNat i.adc.ntc1
  ntc2AdcRaw := UInt16.ofNat x.ntc2AdcRaw
  bl0939VRms := UInt32.ofNat s.readings.vRms
  bl0939IaRms := UInt32.ofNat s.readings.iaRms
  bl0939IbRms := UInt32.ofNat s.readings.ibRms
  bl0939AWatt := Int32.ofInt s.readings.aWatt
  bl0939Valid := if s.readings.valid then 1 else 0
  bl0939Pad := 0
  bl0939FreqHzX10 := UInt16.ofNat s.readings.vFreqHzX10

/-- The snapshot before the first tick, all bytes zero. -/
def systemStatePowerUp : SystemState :=
  ⟨0, 0, 0, 0, 0, 0, 0, 0, 0, 0, 0, 0, 0, 0, 0, 0, 0, 0, 0, 0, 0, 0, 0, 0, 0⟩

/-- What the IO task takes out of a snapshot. -/
def SystemState.io (s : SystemState) : IoSnapshot where
  evse := .ofCode s.evseState
  j1772 := .ofCode s.j1772State
  faultActiveBits := s.faultActiveBits.toBitVec
  advertisedAmps := s.advertisedAmps
  activeAmpsX10 := s.activeAmpsX10

/-! ## What a snapshot says -/

/-- The latched faults that a fault word has. -/
def latchedBits (bits : UInt32) : BitVec 32 := bits.toBitVec &&& latchedMask

/-- A report in which the contactor is closed in charging only, with the pilot in state C, and
a latched fault is shown in FAULT only. -/
structure Consistent (evseState j1772State contactorCmd : UInt8) (bits : UInt32) : Prop where
  closed_iff : contactorCmd = 1 ↔ evseState = EvseState.charging.code
  stateC : contactorCmd = 1 → j1772State = J1772State.C.code
  fault_of_latched : latchedBits bits ≠ 0 → evseState = EvseState.fault.code

/-- A snapshot is consistent when the fields that it shares with the report are. -/
def SystemState.Consistent (s : SystemState) : Prop :=
  OpenEVCharger.Consistent s.evseState s.j1772State s.contactorCmd s.faultActiveBits

theorem consistent_powerUp : systemStatePowerUp.Consistent where
  closed_iff := by decide
  stateC := by decide
  fault_of_latched := by decide

theorem consistent_systemState {s : SafetyTask} (h : (view s).Settled) (i : TickInput)
    (x : SnapshotReading) : (systemState i x s).Consistent := by
  have hcmd : (if s.mainCmd then 1 else 0 : UInt8) = 1 ↔ s.mainCmd = true := by
    cases s.mainCmd <;> decide
  have hclosed : s.mainCmd = true ↔ s.evse = .charging := h.closed_iff
  constructor
  · exact (hcmd.trans hclosed).trans EvseState.code_inj.symm
  · intro hc
    have hC : s.cp.committed = .C := h.stateC (hclosed.mp (hcmd.mp hc))
    exact congrArg J1772State.code hC
  · intro hbits
    have hlatched : faultAnyLatchedActive s.faults = true := bne_iff_ne.mpr hbits
    have hfault : s.evse = .fault := h.fault_of_latched hlatched
    exact congrArg EvseState.code hfault

end OpenEVCharger
