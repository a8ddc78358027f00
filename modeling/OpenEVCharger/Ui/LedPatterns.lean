import OpenEVCharger.Safety.State

/-!
# LED patterns

`led_render` of `ui/led_patterns.c`: the override first, then a latched fault, then the
pattern of the EVSE state. Every branch sets all pixels, so that a frame does not depend
on the one before.
-/

namespace OpenEVCharger

/-- `OPENEVCHARGER_WS2812_LEDS` of the default board. -/
abbrev ws2812Leds : ℕ := 134

structure Rgb where
  r : UInt8
  g : UInt8
  b : UInt8
  deriving DecidableEq, Repr

abbrev LedFrame := Fin ws2812Leds → Rgb

/-- The static variables. -/
structure LedOverride where
  mode : UInt8
  rgb : Rgb
  deriving DecidableEq, Repr

def ledOverridePowerUp : LedOverride := ⟨0, ⟨0, 0, 0⟩⟩

def ledOverrideSet (mode r g b : UInt8) : LedOverride := ⟨mode, ⟨r, g, b⟩⟩

/-- `struct led_inputs`. -/
structure LedInputs where
  evse : EvseState
  j1772 : J1772State
  faultActiveBits : BitVec 32
  commsDegraded : Bool
  brightnessPct : UInt8
  advertisedAmps : UInt8
  activeAmpsX10 : UInt16
  override : LedOverride

/-! ## Waves -/

def breatheMin : UInt32 := 125

/-- A triangle between `breatheMin` and 255. -/
def breathe (tMs periodMs : UInt32) : UInt8 :=
  if periodMs = 0 then 255
  else
    let phase := (tMs * 2) % (periodMs * 2)
    let phase := if periodMs * 2 ≤ phase then 0 else phase
    let pos := if phase < periodMs then phase else periodMs * 2 - phase
    (breatheMin + pos * (255 - breatheMin) / periodMs).toUInt8

/-- A square wave, on for the first half. -/
def flash (tMs periodMs : UInt32) : UInt8 :=
  if periodMs = 0 then 255 else if tMs % periodMs < periodMs / 2 then 255 else 0

def scaledGamma (v pct : UInt8) : UInt8 :=
  let g := v.toUInt32 * v.toUInt32 / 255
  (g * pct.toUInt32 / 100).toUInt8

/-! ## Frames -/

def fillAll (r g b pct : UInt8) : LedFrame :=
  fun _ => ⟨scaledGamma r pct, scaledGamma g pct, scaledGamma b pct⟩

def cometTailLen : UInt32 := 18
def cometBrightLen : UInt32 := 8
def cometMinPps : UInt32 := 30
def cometMaxPps : UInt32 := 200
def cometBgPct : UInt32 := 6

/-- How bright the comet is `d` sub-pixels behind its head, in percent. -/
def cometPct (d : UInt32) : UInt32 :=
  let leds := ws2812Leds.toUInt32 * 256
  let tail := cometTailLen * 256
  let bright := cometBrightLen * 256
  if d < bright then 100
  else if d < tail then
    let fadePos := d - bright
    let fadeLen := tail - bright
    cometBgPct + (100 - cometBgPct) * (fadeLen - fadePos) / fadeLen
  else if leds - 256 ≤ d then
    let lead := leds - d
    cometBgPct + (100 - cometBgPct) * (256 - lead) / 256
  else cometBgPct

def renderComet (tMs : UInt32) (ratioPct r g b brightnessPct : UInt8) : LedFrame :=
  let pps := cometMinPps + (cometMaxPps - cometMinPps) * ratioPct.toUInt32 / 100
  let leds := ws2812Leds.toUInt32 * 256
  let period := 1000 * ws2812Leds.toUInt32 / pps
  let period := if period = 0 then 1 else period
  let head := tMs % period * leds / period
  let gr := r.toUInt32 * r.toUInt32 / 255
  let gg := g.toUInt32 * g.toUInt32 / 255
  let gb := b.toUInt32 * b.toUInt32 / 255
  fun i =>
    let d := (leds + head - i.val.toUInt32 * 256) % leds
    let combined := cometPct d * brightnessPct.toUInt32 / 100
    ⟨(gr * combined / 100).toUInt8, (gg * combined / 100).toUInt8, (gb * combined / 100).toUInt8⟩

/-- Every n-th pixel magenta. -/
def applyCommsOverlay (everyN : ℕ) (f : LedFrame) : LedFrame :=
  fun i => if i.val % everyN = 0 then ⟨64, 0, 64⟩ else f i

/-- The draw rate of the vehicle in percent of what is advertised, all of it when there is
no reading. -/
def drawRatioPct (advertisedAmps : UInt8) (activeAmpsX10 : UInt16) : UInt8 :=
  if 0 < advertisedAmps ∧ 0 < activeAmpsX10 then
    let active := activeAmpsX10.toUInt32 / 10
    let active := if advertisedAmps.toUInt32 < active then advertisedAmps.toUInt32 else active
    (active * 100 / advertisedAmps.toUInt32).toUInt8
  else 100

/-- The frame of an EVSE state. -/
def evseFrame (x : LedInputs) (tMs : UInt32) : LedFrame :=
  match x.evse with
  | .boot | .selfTest =>
    let pos := tMs / (1000 / ws2812Leds.toUInt32) % ws2812Leds.toUInt32
    let v := scaledGamma 255 x.brightnessPct
    fun i => if i.val = pos.toNat then ⟨v, v, v⟩ else ⟨0, 0, 0⟩
  | .ready =>
    if x.j1772 = .B then fillAll 0 0 255 x.brightnessPct else fillAll 0 64 0 x.brightnessPct
  | .charging =>
    renderComet tMs (drawRatioPct x.advertisedAmps x.activeAmpsX10) 0 255 255 x.brightnessPct
  | .userPaused =>
    let v := breathe tMs 2000
    fillAll v v 0 x.brightnessPct
  | .coolingDown =>
    let v := breathe tMs 1000
    fillAll v (v / 2) 0 x.brightnessPct
  | .fault => fillAll 255 0 0 x.brightnessPct

/-! ## The selection -/

/-- The active faults that alert, `FAULT_LATCHED_MASK` of them. -/
def alertingBits (faultActiveBits : BitVec 32) : BitVec 32 := faultActiveBits &&& latchedMask

def gfciAlerting (faultActiveBits : BitVec 32) : Bool :=
  (alertingBits faultActiveBits).getLsbD FaultId.gfci.code

/-- Which of its patterns `led_render` draws. -/
inductive LedPattern where
  | override (rgb : Rgb)
  | fault (gfci : Bool)
  | evse
  deriving DecidableEq, Repr

def ledPattern (x : LedInputs) : LedPattern :=
  if x.override.mode = 1 then .override x.override.rgb
  else if alertingBits x.faultActiveBits ≠ 0 then .fault (gfciAlerting x.faultActiveBits)
  else .evse

def ledRender (x : LedInputs) (tMs : UInt32) : LedFrame :=
  match ledPattern x with
  | .override rgb => fillAll rgb.r rgb.g rgb.b x.brightnessPct
  | .fault gfci => fillAll (flash tMs (if gfci then 200 else 500)) 0 0 x.brightnessPct
  | .evse =>
    if x.commsDegraded then applyCommsOverlay 3 (evseFrame x tMs) else evseFrame x tMs

variable {x : LedInputs}

/-- A latched fault is drawn unless the override is on. -/
theorem ledPattern_fault (h : alertingBits x.faultActiveBits ≠ 0) :
    ledPattern x = .fault (gfciAlerting x.faultActiveBits) ↔ x.override.mode ≠ 1 := by
  rw [ledPattern]
  constructor
  · intro hfault hmode
    rw [if_pos hmode] at hfault
    cases hfault
  · intro hmode
    rw [if_neg hmode, if_pos h]

/-- A frame of the fault pattern has no green and no blue in it. -/
theorem ledRender_fault {gfci : Bool} {tMs : UInt32} (h : ledPattern x = .fault gfci)
    (i : Fin ws2812Leds) : (ledRender x tMs i).g = 0 ∧ (ledRender x tMs i).b = 0 := by
  have hzero : ∀ pct : UInt8, scaledGamma 0 pct = 0 := by
    intro pct
    rw [scaledGamma]
    show (0 * pct.toUInt32 / 100).toUInt8 = 0
    rw [UInt32.zero_mul]
    rfl
  rw [ledRender, h]
  exact ⟨hzero _, hzero _⟩

end OpenEVCharger
