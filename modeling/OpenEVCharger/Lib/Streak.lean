import Mathlib.Data.Nat.Init
import Mathlib.Data.Nat.Notation

/-!
# Streaks

How long a property has held without a break, over a sequence of samples, and the
counters that keep it: one that stops at a cap still tells every length up to the cap.
-/

namespace Streak

variable {p : ℕ → Prop} [DecidablePred p] {m n k : ℕ}

/-- The number of samples before `n` since the property last failed. -/
def length (p : ℕ → Prop) [DecidablePred p] : ℕ → ℕ
  | 0 => 0
  | n + 1 => if p n then length p n + 1 else 0

theorem length_succ_of (h : p n) : length p (n + 1) = length p n + 1 := if_pos h

theorem length_succ_of_not (h : ¬ p n) : length p (n + 1) = 0 := if_neg h

theorem length_le (p : ℕ → Prop) [DecidablePred p] (n : ℕ) : length p n ≤ n := by
  induction n with
  | zero => exact Nat.le_refl 0
  | succ n ih =>
    by_cases h : p n
    · rw [length_succ_of h]
      exact Nat.succ_le_succ ih
    · rw [length_succ_of_not h]
      exact Nat.zero_le _

/-- The streak has the length `m` at least when the last `m` samples have the property. -/
theorem le_length_iff : m ≤ length p n ↔ m ≤ n ∧ ∀ k, n ≤ k + m → k < n → p k := by
  induction n generalizing m with
  | zero =>
    constructor
    · exact fun h => ⟨h, fun k _ hk => absurd hk (Nat.not_lt_zero k)⟩
    · exact fun h => h.1
  | succ n ih =>
    cases m with
    | zero => exact ⟨fun _ => ⟨Nat.zero_le _, fun k h1 h2 => by omega⟩, fun _ => Nat.zero_le _⟩
    | succ m =>
      by_cases h : p n
      · rw [length_succ_of h, Nat.succ_le_succ_iff, Nat.succ_le_succ_iff, ih]
        refine and_congr_right fun _ => ⟨fun hall k hk hlt => ?_, fun hall k hk hlt => ?_⟩
        · rcases Nat.lt_succ_iff_lt_or_eq.mp hlt with hlt | rfl
          · exact hall k (by omega) hlt
          · exact h
        · exact hall k (by omega) (Nat.lt_succ_of_lt hlt)
      · rw [length_succ_of_not h]
        refine iff_of_false (Nat.not_succ_le_zero m) fun hall => h ?_
        exact hall.2 n (by omega) (Nat.lt_succ_self n)

/-- The samples of the streak have the property. -/
theorem of_length (hlen : n ≤ k + length p n) (hk : k < n) : p k :=
  (le_length_iff.mp (Nat.le_refl _)).2 k hlen hk

/-- A counter that a sample with the property raises up to the cap and any other resets. -/
theorem capped {c : ℕ → ℕ} (cap : ℕ) (hzero : c 0 = 0)
    (hsucc : ∀ n, c (n + 1) = if p n then (if c n < cap then c n + 1 else c n) else 0) (n : ℕ) :
    c n = min cap (length p n) := by
  induction n with
  | zero => rw [hzero, length, Nat.min_zero]
  | succ n ih =>
    rw [hsucc]
    by_cases h : p n
    · rw [if_pos h, length_succ_of h, ih]
      split <;> omega
    · rw [if_neg h, length_succ_of_not h, Nat.min_zero]

/-- Up to its cap a capped counter is as good as the streak. -/
theorem le_capped_iff {c cap : ℕ} (hc : c = min cap (length p n)) (hm : m ≤ cap) :
    m ≤ c ↔ m ≤ length p n := by
  rw [hc]
  exact ⟨fun h => Nat.le_trans h (Nat.min_le_right _ _), fun h => Nat.le_min.mpr ⟨hm, h⟩⟩

end Streak
