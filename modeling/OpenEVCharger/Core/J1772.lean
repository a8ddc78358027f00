import Mathlib.Data.Nat.Notation

/-!
# J1772 classifier

The control-pilot classifier of `core/j1772.c`: a millivolt reading is put into
one of the six bands, and a band is committed once it has been read
`debounceN` times in a row.
-/

namespace OpenEVCharger

/-- `j1772_state_t`. -/
inductive J1772State where
  | invalid
  | A
  | B
  | C
  | D
  | E
  | F
  deriving DecidableEq, Repr

/-- `j1772_ctx_t`. -/
structure J1772Ctx where
  committed : J1772State
  candidate : J1772State
  streak : Nat
  deriving DecidableEq, Repr

def classifyStrict (cpMv : Int) : J1772State :=
  if 10500 ≤ cpMv then .A
  else if 7500 ≤ cpMv then .B
  else if 4500 ≤ cpMv then .C
  else if 1500 ≤ cpMv then .D
  else if -1500 ≤ cpMv then .E
  else .F

def j1772Init : J1772Ctx := ⟨.invalid, .invalid, 0⟩

/-- `j1772_step`; the committed state of the result is the C return value. -/
def j1772Step (c : J1772Ctx) (cpMv : Int) (debounceN : Nat) : J1772Ctx :=
  let s := classifyStrict cpMv
  let c :=
    if s = c.candidate then
      { c with streak := if c.streak < 0xFF then c.streak + 1 else c.streak }
    else
      { c with candidate := s, streak := 1 }
  if debounceN ≤ c.streak ∧ c.committed ≠ c.candidate then
    { c with committed := c.candidate }
  else c

/-- A freshly initialised classifier commits nothing on its first reading when
the debounce count is above one. -/
theorem j1772Step_init_committed (cpMv : Int) {n : Nat} (hn : 1 < n) :
    (j1772Step j1772Init cpMv n).committed = .invalid := by
  have hne : classifyStrict cpMv ≠ J1772State.invalid := by
    unfold classifyStrict
    repeat' split
    all_goals decide
  have h1 : ¬ n ≤ 1 := by omega
  simp [j1772Step, j1772Init, hne, h1]

end OpenEVCharger
