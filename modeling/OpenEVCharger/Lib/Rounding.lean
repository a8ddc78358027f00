import Mathlib.Data.Rat.Floor
import Mathlib.Algebra.Order.Field.Basic
import Mathlib.Tactic.Linarith
import Mathlib.Tactic.FieldSimp

/-!
# Rounding to binary and to decimal

Floating-point numbers are taken as the rationals they stand for. A format rounds a
rational to its precision, to nearest with ties to even and with gradual underflow;
values beyond the largest finite one are not cut off. `decimal` is the rounding of
fixed-point printing.
-/

/-- The integer nearest to `q`, of two the even one. -/
def roundHalfEven (q : ℚ) : ℤ :=
  let below := ⌊q⌋
  let rest := q - below
  if rest < 1 / 2 then below
  else if 1 / 2 < rest then below + 1
  else if below % 2 = 0 then below
  else below + 1

variable {q : ℚ}

theorem roundHalfEven_near (q : ℚ) : |(roundHalfEven q : ℚ) - q| ≤ 1 / 2 := by
  have hlo : (⌊q⌋ : ℚ) ≤ q := Int.floor_le q
  have hhi : q < ⌊q⌋ + 1 := Int.lt_floor_add_one q
  rw [abs_le, roundHalfEven]
  split
  · constructor <;> linarith
  next hup =>
  split
  · push_cast
    constructor <;> linarith
  split
  · constructor <;> linarith
  · push_cast
    constructor <;> linarith

@[simp] theorem roundHalfEven_intCast (n : ℤ) : roundHalfEven n = n := by
  rw [roundHalfEven, Int.floor_intCast, sub_self, if_pos (by norm_num)]

@[simp] theorem roundHalfEven_zero : roundHalfEven 0 = 0 := by
  simpa using roundHalfEven_intCast 0

theorem roundHalfEven_nonneg (h : 0 ≤ q) : 0 ≤ roundHalfEven q := by
  have hnear := (abs_le.mp (roundHalfEven_near q)).1
  have hgt : ((-1 : ℤ) : ℚ) < roundHalfEven q := by
    push_cast
    linarith
  have := Int.cast_lt.mp hgt
  omega

/-! ## Binary formats -/

/-- The power of two with exponent `e`. -/
def pow2 (e : ℤ) : ℚ := if 0 ≤ e then (2 ^ e.toNat : ℕ) else 1 / (2 ^ (-e).toNat : ℕ)

/-- A binary format: the bits of a significand and the exponent of the smallest step. -/
structure FloatFormat where
  precision : ℕ
  smallest : ℤ

def binary32 : FloatFormat := ⟨24, -149⟩

def binary64 : FloatFormat := ⟨53, -1074⟩

namespace FloatFormat

variable (F : FloatFormat)

/-- The largest `e` for which `pow2 e` does not exceed the magnitude of `q`. -/
def exponent (q : ℚ) : ℤ :=
  let e := (q.num.natAbs.log2 : ℤ) - q.den.log2
  if pow2 e ≤ |q| then e else e - 1

/-- The step between neighbours of `q`. -/
def ulp (q : ℚ) : ℚ := pow2 (max (exponent q + 1 - F.precision) F.smallest)

/-- The number of the format nearest to `q`. -/
def round (q : ℚ) : ℚ := roundHalfEven (q / F.ulp q) * F.ulp q

@[simp] theorem round_zero : F.round 0 = 0 := by
  rw [round, zero_div, roundHalfEven_zero, Int.cast_zero, zero_mul]

end FloatFormat

/-! ## Decimals -/

/-- `q` as it is printed with `digits` digits behind the point. -/
def decimal (digits : ℕ) (q : ℚ) : ℚ := roundHalfEven (q * 10 ^ digits) / 10 ^ digits

theorem decimal_near (digits : ℕ) (q : ℚ) :
    |decimal digits q - q| ≤ 1 / 2 / 10 ^ digits := by
  have hpos : (0 : ℚ) < 10 ^ digits := by positivity
  have heq : decimal digits q - q =
      ((roundHalfEven (q * 10 ^ digits) : ℚ) - q * 10 ^ digits) / 10 ^ digits := by
    rw [decimal]
    field_simp
  rw [heq, abs_div, abs_of_pos hpos]
  exact div_le_div_of_nonneg_right (roundHalfEven_near _) hpos.le
