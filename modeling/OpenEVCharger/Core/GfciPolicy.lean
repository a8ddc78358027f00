import Mathlib.Data.Nat.Notation

/-!
# GFCI policy

The decision of `core/gfci_policy.h`: debounce of the module's fault line, the
once-per-episode latch of the WARN policy, and the fail-safe rule that any
other policy byte counts as FAULT.
-/

namespace OpenEVCharger

def gfciPersistTicks : Nat := 3

/-- `GFCI_POL_WARN`. -/
def gfciPolWarn : Nat := 1

/-- `gfci_policy_ctx_t`. -/
structure GfciPolicyCtx where
  tripStreak : Nat
  warned : Bool
  faultActive : Bool
  deriving DecidableEq, Repr

/-- `gfci_policy_action_t`. -/
inductive GfciPolicyAction where
  | none
  | warnEmit
  | raiseFault
  deriving DecidableEq, Repr

def gfciPolicyStep (ctx : GfciPolicyCtx) (pe2Low : Bool) (policy : Nat) :
    GfciPolicyAction × GfciPolicyCtx :=
  let ctx :=
    if pe2Low then
      { ctx with tripStreak :=
          if ctx.tripStreak < gfciPersistTicks then ctx.tripStreak + 1 else ctx.tripStreak }
    else
      { ctx with tripStreak := 0, warned := false }
  if ctx.tripStreak < gfciPersistTicks then (.none, ctx)
  else if policy = gfciPolWarn then
    if ctx.warned then (.none, ctx) else (.warnEmit, { ctx with warned := true })
  else if ctx.faultActive then (.none, ctx)
  else (.raiseFault, { ctx with faultActive := true })

end OpenEVCharger
