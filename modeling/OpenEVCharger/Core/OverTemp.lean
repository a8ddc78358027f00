import Mathlib.Data.Nat.Notation

/-!
# Over-temperature detector

The pure detector of `core/over_temp.h`. Counts fall as a thermistor heats up;
a count at or below `otGuardLo` or at or above `otGuardHi` is taken for an input
without a thermistor.
-/

namespace OpenEVCharger

abbrev otTripRaw : Nat := 396
abbrev otClearRaw : Nat := 525
abbrev otGuardLo : Nat := 300
abbrev otGuardHi : Nat := 3990
abbrev otPersistTicks : Nat := 5

/-- `over_temp_ctx_t`. -/
structure OverTempCtx where
  tripStreak : Nat
  faultActive : Bool
  deriving DecidableEq, Repr

/-- `over_temp_action_t`. -/
structure OverTempAction where
  trip : Bool
  clear : Bool
  deriving DecidableEq, Repr

def overTempPopulated (raw : Nat) : Bool :=
  decide (otGuardLo < raw) && decide (raw < otGuardHi)

/-- The smallest count among the populated channels, `0xFFFF` when there is
none. -/
def hottestRaw (p1 p2 : Bool) (ntc1Raw ntc2Raw : Nat) : Nat :=
  let hottest := 0xFFFF
  let hottest := if p1 && decide (ntc1Raw < hottest) then ntc1Raw else hottest
  if p2 && decide (ntc2Raw < hottest) then ntc2Raw else hottest

def overTempStep (ctx : OverTempCtx) (ntc1Raw ntc2Raw : Nat) (ntc1Present ntc2Present : Bool) :
    OverTempAction × OverTempCtx :=
  let p1 := ntc1Present && overTempPopulated ntc1Raw
  let p2 := ntc2Present && overTempPopulated ntc2Raw
  if !p1 && !p2 then
    -- no thermistor reachable: an existing fault is kept
    (⟨false, false⟩, { ctx with tripStreak := 0 })
  else
    let hottest := hottestRaw p1 p2 ntc1Raw ntc2Raw
    if !ctx.faultActive && decide (hottest ≤ otTripRaw) then
      let streak := if ctx.tripStreak < otPersistTicks then ctx.tripStreak + 1 else ctx.tripStreak
      if otPersistTicks ≤ streak then
        (⟨true, false⟩, { tripStreak := streak, faultActive := true })
      else (⟨false, false⟩, { ctx with tripStreak := streak })
    else if ctx.faultActive && decide (otClearRaw ≤ hottest) then
      (⟨false, true⟩, { tripStreak := 0, faultActive := false })
    else (⟨false, false⟩, { ctx with tripStreak := 0 })

/-! ## What a step can do -/

/-- A step trips a context that was not tripped, clears one that was, or leaves
the tripped flag alone. -/
theorem overTempStep_cases (ctx : OverTempCtx) (r1 r2 : Nat) (m1 m2 : Bool) :
    ((overTempStep ctx r1 r2 m1 m2).1 = ⟨true, false⟩ ∧ ctx.faultActive = false ∧
        (overTempStep ctx r1 r2 m1 m2).2.faultActive = true) ∨
    ((overTempStep ctx r1 r2 m1 m2).1 = ⟨false, true⟩ ∧ ctx.faultActive = true ∧
        (overTempStep ctx r1 r2 m1 m2).2.faultActive = false) ∨
    ((overTempStep ctx r1 r2 m1 m2).1 = ⟨false, false⟩ ∧
        (overTempStep ctx r1 r2 m1 m2).2.faultActive = ctx.faultActive) := by
  unfold overTempStep
  cases hf : ctx.faultActive <;> grind

theorem hottestRaw_le_left {p1 p2 : Bool} {r1 r2 : Nat} (h1 : p1 = true) :
    hottestRaw p1 p2 r1 r2 ≤ r1 ∨ 0xFFFF ≤ r1 := by
  unfold hottestRaw
  grind

theorem hottestRaw_le_right {p1 p2 : Bool} {r1 r2 : Nat} (h2 : p2 = true) :
    hottestRaw p1 p2 r1 r2 ≤ r2 ∨ 0xFFFF ≤ r2 := by
  unfold hottestRaw
  grind

/-- The clear edge needs a populated channel, and every populated channel at or
above the clear count. -/
theorem overTempStep_clear {ctx : OverTempCtx} {r1 r2 : Nat} {m1 m2 : Bool}
    (h : (overTempStep ctx r1 r2 m1 m2).1.clear = true) :
    ctx.faultActive = true ∧
      ((m1 = true ∧ overTempPopulated r1 = true) ∨ (m2 = true ∧ overTempPopulated r2 = true)) ∧
      (m1 = true → overTempPopulated r1 = true → otClearRaw ≤ r1) ∧
      (m2 = true → overTempPopulated r2 = true → otClearRaw ≤ r2) := by
  have hl := @hottestRaw_le_left (m1 && overTempPopulated r1) (m2 && overTempPopulated r2) r1 r2
  have hr := @hottestRaw_le_right (m1 && overTempPopulated r1) (m2 && overTempPopulated r2) r1 r2
  unfold overTempStep at h
  grind

end OpenEVCharger
