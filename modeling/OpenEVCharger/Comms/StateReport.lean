import OpenEVCharger.Comms.Wire

/-!
# The state report

`struct openevcharger_state`, which the safety task publishes at the end of every tick and
the comms task sends as it lies in memory, and the copy that the FC41D makes of it. Older
firmware sends a shorter struct; the FC41D takes the fields behind its end for zero.
-/

namespace OpenEVCharger

/-! ## The snapshot -/

/-- `struct openevcharger_state`. -/
structure SystemState where
  j1772State : UInt8
  evseState : UInt8
  advertisedAmps : UInt8
  contactorCmd : UInt8
  cpHighMv : Int16
  cpLowMv : Int16
  activeAmpsX10 : UInt16
  ntc1DC : UInt16
  ntc2DC : UInt16
  ccMaxAmps : UInt16
  acPresent : UInt8
  pad : UInt8
  faultActiveBits : UInt32
  firstFaultId : UInt32
  sessionMwh : UInt32
  acAdcRaw : UInt16
  ntc1AdcRaw : UInt16
  ntc2AdcRaw : UInt16
  bl0939VRms : UInt32
  bl0939IaRms : UInt32
  bl0939IbRms : UInt32
  bl0939AWatt : Int32
  bl0939Valid : UInt8
  bl0939Pad : UInt8
  bl0939FreqHzX10 : UInt16
  deriving DecidableEq

namespace SystemState

/-- The fields in the order of the struct. -/
def fields (s : SystemState) : List (List UInt8) :=
  [[s.j1772State], [s.evseState], [s.advertisedAmps], [s.contactorCmd],
    le16Bytes s.cpHighMv.toUInt16, le16Bytes s.cpLowMv.toUInt16, le16Bytes s.activeAmpsX10,
    le16Bytes s.ntc1DC, le16Bytes s.ntc2DC, le16Bytes s.ccMaxAmps, [s.acPresent], [s.pad],
    le32Bytes s.faultActiveBits, le32Bytes s.firstFaultId, le32Bytes s.sessionMwh,
    le16Bytes s.acAdcRaw, le16Bytes s.ntc1AdcRaw, le16Bytes s.ntc2AdcRaw,
    le32Bytes s.bl0939VRms, le32Bytes s.bl0939IaRms, le32Bytes s.bl0939IbRms,
    le32Bytes s.bl0939AWatt.toUInt32, [s.bl0939Valid], [s.bl0939Pad],
    le16Bytes s.bl0939FreqHzX10]

/-- The struct as it lies in memory. -/
def bytes (s : SystemState) : List UInt8 := s.fields.flatten

/-- The report fills a payload. -/
theorem length_bytes (s : SystemState) : s.bytes.length = tlvPayloadMax := rfl

end SystemState

/-! ## The copy on the FC41D -/

/-- `StateReport` of the FC41D. -/
structure StateReport where
  j1772State : UInt8
  evseState : UInt8
  advertisedAmps : UInt8
  contactorCmd : UInt8
  cpHighMv : Int16
  cpLowMv : Int16
  activeAmpsX10 : UInt16
  ntc1DC : UInt16
  ntc2DC : UInt16
  ccMaxAmps : UInt16
  acPresent : UInt8
  pad : UInt8
  faultActiveBits : UInt32
  firstFaultId : UInt32
  sessionMwh : UInt32
  gunNtcAdcRaw : UInt16
  ntc1AdcRaw : UInt16
  ntc2AdcRaw : UInt16
  bl0939VRms : UInt32
  bl0939IaRms : UInt32
  bl0939IbRms : UInt32
  bl0939AWatt : Int32
  bl0939Valid : Bool
  bl0939FreqHzX10 : UInt16
  valid : Bool
  deriving DecidableEq

namespace StateReport

def zero : StateReport :=
  ⟨0, 0, 0, 0, 0, 0, 0, 0, 0, 0, 0, 0, 0, 0, 0, 0, 0, 0, 0, 0, 0, 0, false, 0, false⟩

/-- The metering fields, all or none. -/
def withBl0939 (p : List UInt8) (s : StateReport) : StateReport :=
  if 56 ≤ p.length then
    { s with
      bl0939VRms := le32Load p 36
      bl0939IaRms := le32Load p 40
      bl0939IbRms := le32Load p 44
      bl0939AWatt := (le32Load p 48).toInt32
      bl0939Valid := decide (p.getD 52 0 ≠ 0)
      bl0939FreqHzX10 := le16Load p 54 }
  else
    { s with
      bl0939VRms := 0
      bl0939IaRms := 0
      bl0939IbRms := 0
      bl0939AWatt := 0
      bl0939Valid := false
      bl0939FreqHzX10 := 0 }

/-- The branch of `dispatch_frame_` for a state report: one that is shorter than any firmware
sends is dropped. -/
def received (p : List UInt8) (s : StateReport) : StateReport :=
  if p.length < 30 then s
  else
    withBl0939 p
      { s with
        j1772State := p.getD 0 0
        evseState := p.getD 1 0
        advertisedAmps := p.getD 2 0
        contactorCmd := p.getD 3 0
        cpHighMv := (le16Load p 4).toInt16
        cpLowMv := (le16Load p 6).toInt16
        activeAmpsX10 := le16Load p 8
        ntc1DC := le16Load p 10
        ntc2DC := le16Load p 12
        ccMaxAmps := le16Load p 14
        acPresent := p.getD 16 0
        pad := p.getD 17 0
        faultActiveBits := le32Load p 18
        firstFaultId := le32Load p 22
        sessionMwh := le32Load p 26
        gunNtcAdcRaw := if 32 ≤ p.length then le16Load p 30 else 0
        ntc1AdcRaw := if 34 ≤ p.length then le16Load p 32 else 0
        ntc2AdcRaw := if 36 ≤ p.length then le16Load p 34 else 0
        valid := true }

end StateReport

/-! ## What the FC41D is meant to see -/

/-- The snapshot as firmware with a struct of `n` bytes reports it. -/
def SystemState.seen (n : ℕ) (s : SystemState) : StateReport where
  j1772State := s.j1772State
  evseState := s.evseState
  advertisedAmps := s.advertisedAmps
  contactorCmd := s.contactorCmd
  cpHighMv := s.cpHighMv
  cpLowMv := s.cpLowMv
  activeAmpsX10 := s.activeAmpsX10
  ntc1DC := s.ntc1DC
  ntc2DC := s.ntc2DC
  ccMaxAmps := s.ccMaxAmps
  acPresent := s.acPresent
  pad := s.pad
  faultActiveBits := s.faultActiveBits
  firstFaultId := s.firstFaultId
  sessionMwh := s.sessionMwh
  gunNtcAdcRaw := if 32 ≤ n then s.acAdcRaw else 0
  ntc1AdcRaw := if 34 ≤ n then s.ntc1AdcRaw else 0
  ntc2AdcRaw := if 36 ≤ n then s.ntc2AdcRaw else 0
  bl0939VRms := if 56 ≤ n then s.bl0939VRms else 0
  bl0939IaRms := if 56 ≤ n then s.bl0939IaRms else 0
  bl0939IbRms := if 56 ≤ n then s.bl0939IbRms else 0
  bl0939AWatt := if 56 ≤ n then s.bl0939AWatt else 0
  bl0939Valid := decide (56 ≤ n) && decide (s.bl0939Valid ≠ 0)
  bl0939FreqHzX10 := if 56 ≤ n then s.bl0939FreqHzX10 else 0
  valid := true

variable {s : SystemState} {r : StateReport} {n : ℕ}

/-- The words of the struct are found where the FC41D looks for them. -/
structure FieldsAt (p : List UInt8) (s : SystemState) : Prop where
  j1772State : p.getD 0 0 = s.j1772State
  evseState : p.getD 1 0 = s.evseState
  advertisedAmps : p.getD 2 0 = s.advertisedAmps
  contactorCmd : p.getD 3 0 = s.contactorCmd
  cpHighMv : le16Load p 4 = s.cpHighMv.toUInt16
  cpLowMv : le16Load p 6 = s.cpLowMv.toUInt16
  activeAmpsX10 : le16Load p 8 = s.activeAmpsX10
  ntc1DC : le16Load p 10 = s.ntc1DC
  ntc2DC : le16Load p 12 = s.ntc2DC
  ccMaxAmps : le16Load p 14 = s.ccMaxAmps
  acPresent : p.getD 16 0 = s.acPresent
  pad : p.getD 17 0 = s.pad
  faultActiveBits : le32Load p 18 = s.faultActiveBits
  firstFaultId : le32Load p 22 = s.firstFaultId
  sessionMwh : le32Load p 26 = s.sessionMwh
  acAdcRaw : le16Load p 30 = s.acAdcRaw
  ntc1AdcRaw : le16Load p 32 = s.ntc1AdcRaw
  ntc2AdcRaw : le16Load p 34 = s.ntc2AdcRaw
  bl0939VRms : le32Load p 36 = s.bl0939VRms
  bl0939IaRms : le32Load p 40 = s.bl0939IaRms
  bl0939IbRms : le32Load p 44 = s.bl0939IbRms
  bl0939AWatt : le32Load p 48 = s.bl0939AWatt.toUInt32
  bl0939Valid : p.getD 52 0 = s.bl0939Valid
  bl0939FreqHzX10 : le16Load p 54 = s.bl0939FreqHzX10

theorem fieldsAt_bytes (s : SystemState) : FieldsAt s.bytes s where
  j1772State := getD_field 0 rfl rfl
  evseState := getD_field 1 rfl rfl
  advertisedAmps := getD_field 2 rfl rfl
  contactorCmd := getD_field 3 rfl rfl
  cpHighMv := le16Load_field 4 rfl rfl
  cpLowMv := le16Load_field 5 rfl rfl
  activeAmpsX10 := le16Load_field 6 rfl rfl
  ntc1DC := le16Load_field 7 rfl rfl
  ntc2DC := le16Load_field 8 rfl rfl
  ccMaxAmps := le16Load_field 9 rfl rfl
  acPresent := getD_field 10 rfl rfl
  pad := getD_field 11 rfl rfl
  faultActiveBits := le32Load_field 12 rfl rfl
  firstFaultId := le32Load_field 13 rfl rfl
  sessionMwh := le32Load_field 14 rfl rfl
  acAdcRaw := le16Load_field 15 rfl rfl
  ntc1AdcRaw := le16Load_field 16 rfl rfl
  ntc2AdcRaw := le16Load_field 17 rfl rfl
  bl0939VRms := le32Load_field 18 rfl rfl
  bl0939IaRms := le32Load_field 19 rfl rfl
  bl0939IbRms := le32Load_field 20 rfl rfl
  bl0939AWatt := le32Load_field 21 rfl rfl
  bl0939Valid := getD_field 22 rfl rfl
  bl0939FreqHzX10 := le16Load_field 24 rfl rfl

theorem length_take_bytes (s : SystemState) (n : ℕ) : (s.bytes.take n).length = min n 56 := by
  rw [List.length_take, SystemState.length_bytes]

/-- A bound on the length of a report that is cut short is one on where it is cut. -/
theorem le_length_take {k : ℕ} (hk : k ≤ 56) : k ≤ (s.bytes.take n).length ↔ k ≤ n := by
  rw [length_take_bytes]
  omega

/-- A late field of a report that is cut short. -/
theorem lateField_take {k off : ℕ} {v : UInt16} (hk : k ≤ 56) (hoff : off + 2 ≤ k)
    (hv : le16Load s.bytes off = v) :
    (if k ≤ (s.bytes.take n).length then le16Load (s.bytes.take n) off else 0) =
      if k ≤ n then v else 0 := by
  by_cases hkn : k ≤ n
  · rw [if_pos ((le_length_take hk).mpr hkn), if_pos hkn, le16Load_take (by omega), hv]
  · rw [if_neg (mt (le_length_take hk).mp hkn), if_neg hkn]

/-- The metering fields of a report that is cut short. -/
theorem withBl0939_take (s : SystemState) (n : ℕ) (r : StateReport) :
    StateReport.withBl0939 (s.bytes.take n) r = { r with
      bl0939VRms := if 56 ≤ n then s.bl0939VRms else 0
      bl0939IaRms := if 56 ≤ n then s.bl0939IaRms else 0
      bl0939IbRms := if 56 ≤ n then s.bl0939IbRms else 0
      bl0939AWatt := if 56 ≤ n then s.bl0939AWatt else 0
      bl0939Valid := decide (56 ≤ n) && decide (s.bl0939Valid ≠ 0)
      bl0939FreqHzX10 := if 56 ≤ n then s.bl0939FreqHzX10 else 0 } := by
  have hat := fieldsAt_bytes s
  rw [StateReport.withBl0939]
  by_cases hn : 56 ≤ n
  · rw [if_pos ((le_length_take (Nat.le_refl _)).mpr hn), le32Load_take (by omega),
      le32Load_take (by omega), le32Load_take (by omega), le32Load_take (by omega),
      le16Load_take (by omega), getD_take (by omega), hat.bl0939VRms, hat.bl0939IaRms,
      hat.bl0939IbRms, hat.bl0939AWatt, hat.bl0939Valid, hat.bl0939FreqHzX10]
    simp only [hn, if_true, decide_true, Bool.true_and, Int32.toInt32_toUInt32]
  · rw [if_neg (mt (le_length_take (Nat.le_refl _)).mp hn)]
    simp only [hn, if_false, decide_false, Bool.false_and]

/-- Of a report cut after any number of bytes, as older firmware sends it, the FC41D sees the
fields sent and zero for the others; one without the first thirty bytes changes nothing. -/
theorem received_take (s : SystemState) (r : StateReport) (n : ℕ) :
    StateReport.received (s.bytes.take n) r = if n < 30 then r else s.seen n := by
  have hat := fieldsAt_bytes s
  have hshort : (s.bytes.take n).length < 30 ↔ n < 30 := by
    rw [length_take_bytes]
    omega
  by_cases hn : n < 30
  · rw [StateReport.received, if_pos (hshort.mpr hn), if_pos hn]
  · have hlen : 30 ≤ n := Nat.not_lt.mp hn
    rw [StateReport.received, if_neg (mt hshort.mp hn), if_neg hn, withBl0939_take,
      lateField_take (by decide) (Nat.le_refl _) hat.acAdcRaw,
      lateField_take (by decide) (Nat.le_refl _) hat.ntc1AdcRaw,
      lateField_take (by decide) (Nat.le_refl _) hat.ntc2AdcRaw]
    simp only [le16Load_take (show 4 + 2 ≤ n by omega), le16Load_take (show 6 + 2 ≤ n by omega),
      le16Load_take (show 8 + 2 ≤ n by omega), le16Load_take (show 10 + 2 ≤ n by omega),
      le16Load_take (show 12 + 2 ≤ n by omega), le16Load_take (show 14 + 2 ≤ n by omega),
      le32Load_take (show 18 + 4 ≤ n by omega), le32Load_take (show 22 + 4 ≤ n by omega),
      le32Load_take (show 26 + 4 ≤ n by omega), getD_take (show 0 < n by omega),
      getD_take (show 1 < n by omega), getD_take (show 2 < n by omega),
      getD_take (show 3 < n by omega), getD_take (show 16 < n by omega),
      getD_take (show 17 < n by omega), hat.j1772State, hat.evseState, hat.advertisedAmps,
      hat.contactorCmd, hat.cpHighMv, hat.cpLowMv, hat.activeAmpsX10, hat.ntc1DC, hat.ntc2DC,
      hat.ccMaxAmps, hat.acPresent, hat.pad, hat.faultActiveBits, hat.firstFaultId,
      hat.sessionMwh, Int16.toInt16_toUInt16]
    rfl
end OpenEVCharger
