import OpenEVCharger.Lib.Rounding

/-!
# The charger state of the companion

`charger_state_read` decodes the shared-memory segment and `charger_state_diff` says which
fields differ from the state before, metering readings beyond a tolerance. The floats of the
source are binary32.
-/

namespace OpenEVCharger

/-! ## The shared-memory segment -/

/-- The bytes of the attached segment; what lies behind its end reads as zero. -/
abbrev Shmem := ℕ → UInt8

def shmemU32Le (sm : Shmem) (off : ℕ) : ℕ :=
  (sm off).toNat + 256 * (sm (off + 1)).toNat + 65536 * (sm (off + 2)).toNat +
    16777216 * (sm (off + 3)).toNat

def offBridgeVoltageCv : ℕ := 0x0500
def offBridgeCurrentMa : ℕ := 0x0504
def offBridgePowerW : ℕ := 0x0508
def offUserState : ℕ := 0x0a00
def offRedLed : ℕ := 0x0a01
def offPriState : ℕ := 0x0a07
def offPilotState : ℕ := 0x0a08
def offStm32Fault : ℕ := 0x0a0b
def offPilotDuty : ℕ := 0x0a10
def offRatedAmps : ℕ := 0x0a24
def offAlarmBitmap : ℕ := 0x0a74

/-! ## The decoded state -/

inductive PilotState
  | A | B | C | D | transient | F | unknown
  deriving DecidableEq, Repr

def decodePilot (b : UInt8) : PilotState :=
  match b.toNat with
  | 0 => .A
  | 1 => .B
  | 2 => .C
  | 3 => .D
  | 4 => .transient
  | 5 => .F
  | _ => .unknown

def pilotStateStr : PilotState → String
  | .A => "A"
  | .B => "B"
  | .C => "C"
  | .D => "D"
  | .transient => "transient"
  | .F => "F"
  | .unknown => "unknown"

structure ChargerState where
  voltageV : ℚ
  currentA : ℚ
  powerW : ℚ
  pilotDutyPct : UInt8
  ratedAmps : UInt8
  pilotState : PilotState
  priState : UInt8
  userState : UInt8
  redLed : UInt8
  stm32LinkOk : Bool
  faultBits : ℕ
  deriving DecidableEq

def chargerStateInit : ChargerState where
  voltageV := 0
  currentA := 0
  powerW := 0
  pilotDutyPct := 0
  ratedAmps := 0
  pilotState := .unknown
  priState := 0
  userState := 0
  redLed := 0
  stm32LinkOk := true
  faultBits := 0

def chargerStateRead (sm : Shmem) : ChargerState where
  voltageV := binary32.round (binary32.round (shmemU32Le sm offBridgeVoltageCv) / 100)
  currentA := binary32.round (binary32.round (shmemU32Le sm offBridgeCurrentMa) / 1000)
  powerW := binary32.round (shmemU32Le sm offBridgePowerW)
  pilotDutyPct := sm offPilotDuty
  ratedAmps := sm offRatedAmps
  pilotState := decodePilot (sm offPilotState)
  priState := sm offPriState
  userState := sm offUserState
  redLed := sm offRedLed
  stm32LinkOk := sm offStm32Fault &&& 0x10 = 0
  faultBits := shmemU32Le sm offAlarmBitmap

/-! ## What has changed -/

/-- The fields that are published, each under a topic of its own. -/
inductive StateField
  | voltage | current | power | pilotDuty | ratedAmps | pilotState | priState | userState
  | redLed | stm32LinkOk | activeFaults | authorizeState
  deriving DecidableEq, Repr

def StateField.all : List StateField :=
  [.voltage, .current, .power, .pilotDuty, .ratedAmps, .pilotState, .priState, .userState,
    .redLed, .stm32LinkOk, .activeFaults, .authorizeState]

theorem StateField.mem_all (f : StateField) : f ∈ StateField.all := by
  cases f <;> decide

def floatDiffers (a b eps : ℚ) : Bool := eps < |binary32.round (a - b)|

@[simp] theorem floatDiffers_self {a eps : ℚ} (h : 0 ≤ eps) : floatDiffers a a eps = false := by
  rw [floatDiffers, sub_self, FloatFormat.round_zero, abs_zero]
  exact decide_eq_false (not_lt.mpr h)

/-- The reading of a metered field, with the change below which it is not published again. -/
def metering (cs : ChargerState) : StateField → Option (ℚ × ℚ)
  | .voltage => some (cs.voltageV, binary32.round (5 / 100))
  | .current => some (cs.currentA, binary32.round (5 / 100))
  | .power => some (cs.powerW, 1)
  | _ => none

/-- The bits of `charger_state_diff`, one for each field. -/
def chargerStateDiff (prev cur : ChargerState) : StateField → Bool
  | .voltage => floatDiffers prev.voltageV cur.voltageV (binary32.round (5 / 100))
  | .current => floatDiffers prev.currentA cur.currentA (binary32.round (5 / 100))
  | .power => floatDiffers prev.powerW cur.powerW 1
  | .pilotDuty => prev.pilotDutyPct != cur.pilotDutyPct
  | .ratedAmps => prev.ratedAmps != cur.ratedAmps
  | .pilotState => prev.pilotState != cur.pilotState
  | .priState => prev.priState != cur.priState
  | .userState => prev.userState != cur.userState
  | .authorizeState => decide (1 ≤ prev.userState) != decide (1 ≤ cur.userState)
  | .redLed => prev.redLed != cur.redLed
  | .stm32LinkOk => prev.stm32LinkOk != cur.stm32LinkOk
  | .activeFaults => prev.faultBits != cur.faultBits

/-! ## Fault names -/

def faultNames : List String :=
  ["OVP", "OCP", "Ambient_OTP", "EMGSTOP", "RCD", "WELDING", "UVP", "RA_CPU", "RA_WATCHDOG",
    "RA_CLOCK", "RA_DATA", "RA_FLASH", "RA_RAM", "RA_INTERRUPT", "RA_TIMING", "RA_IO", "RA_ADC",
    "RCDTRIP", "GMI", "PILOTERROR", "INITIAL", "Ambient_NTC_fail", "Plug_OTP", "Plug_NTC_fail",
    "RCDLOCK", "AC_drop", "FW_upgrade_fail", "PILOTERROR_Negative", "Relay_driver_fault",
    "Pri_MCU_Lost", "WiFi_module_fail", "RFID_module_fail"]

/-- The names of the set bits joined by commas, up to the first that does not fit `cap`, and
the number of characters counted. -/
def joinFaults (bits cap : ℕ) : List (ℕ × String) → String → String × ℕ
  | [], out => (out, out.length)
  | (i, name) :: rest, out =>
    if bits.testBit i then
      let piece := (if out.length ≠ 0 then "," else "") ++ name
      if cap - out.length ≤ piece.length then
        -- what fits is written all the same, but not counted
        (out ++ piece.take (cap - out.length - 1), out.length)
      else joinFaults bits cap rest (out ++ piece)
    else joinFaults bits cap rest out

def formatFaults (bits cap : ℕ) : String :=
  let joined := joinFaults bits cap (List.zip (List.range 32) faultNames) ""
  if joined.2 = 0 then "none" else joined.1

end OpenEVCharger
