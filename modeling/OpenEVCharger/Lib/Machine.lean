import Mathlib.Data.Nat.Notation
import Mathlib.Data.List.Basic
import Mathlib.Data.List.Induction
import Mathlib.Data.Nat.Init

/-!
# Machines driven by a stream of inputs

A machine is booted once and then takes one step per input, for ever. The rules
here turn what one step does into what a whole run does: a property kept from
some step on, a flag that remembers when it was set, and a counter that
remembers what happened on the last steps.

`foldTrace` is the finite companion for the inner loops of a step: the states a
fold passes through, each with the item it is about to consume.
-/

/-- A machine with boot reading `β`, inputs `ι` and states `σ`. -/
structure Machine (β ι σ : Type*) where
  boot : β → σ
  step : ι → σ → σ

namespace Machine

variable {β ι σ : Type*} (m : Machine β ι σ) (b : β) (ins : ℕ → ι)

/-- The state after the first `n` inputs of `ins`. -/
def run : ℕ → σ
  | 0 => m.boot b
  | n + 1 => m.step (ins n) (run n)

@[simp] theorem run_zero : m.run b ins 0 = m.boot b := rfl

@[simp] theorem run_succ (n : ℕ) : m.run b ins (n + 1) = m.step (ins n) (m.run b ins n) := rfl

/-- A run goes on from the state it has reached. -/
theorem run_add (n k : ℕ) :
    m.run b ins (n + k) = Machine.run ⟨id, m.step⟩ (m.run b ins n) (fun j => ins (n + j)) k := by
  induction k with
  | zero => rfl
  | succ k ih => exact congrArg (m.step (ins (n + k))) ih

/-- What an observer of the first `n` steps has recorded. -/
def history {α : Type*} (next : ι → σ → α → α) (init : α) : ℕ → α
  | 0 => init
  | n + 1 => next (ins n) (m.run b ins n) (history next init n)

theorem history_succ {α : Type*} (next : ι → σ → α → α) (init : α) (n : ℕ) :
    m.history b ins next init (n + 1) =
      next (ins n) (m.run b ins n) (m.history b ins next init n) := rfl

variable {m b ins}

/-! ## Invariants -/

/-- What every step preserves, from the boot state on, holds of every run. -/
theorem invariant {P : σ → Prop} (hboot : P (m.boot b))
    (hstep : ∀ i s, P s → P (m.step i s)) (n : ℕ) : P (m.run b ins n) := by
  induction n with
  | zero => exact hboot
  | succ n ih => exact hstep (ins n) _ ih

/-- What every step preserves between a state and what has been recorded of the run
to it holds all along. -/
theorem history_invariant {α : Type*} {next : ι → σ → α → α} {init : α} {P : σ → α → Prop}
    (hboot : P (m.boot b) init) (hstep : ∀ i s h, P s h → P (m.step i s) (next i s h)) (n : ℕ) :
    P (m.run b ins n) (m.history b ins next init n) := by
  induction n with
  | zero => exact hboot
  | succ n ih => exact hstep (ins n) _ _ ih

/-- A property that the steps from state `a` to state `n` keep survives from `a`
to `n`. -/
theorem kept_between {P : σ → Prop} {a n : ℕ} (han : a ≤ n)
    (hstep : ∀ k, a ≤ k → k < n → P (m.run b ins k) → P (m.run b ins (k + 1)))
    (ha : P (m.run b ins a)) : P (m.run b ins n) := by
  induction n, han using Nat.le_induction with
  | base => exact ha
  | succ n han ih =>
    have hn : P (m.run b ins n) := ih (fun k hak hkn => hstep k hak (Nat.lt_succ_of_lt hkn))
    exact hstep n han (Nat.lt_succ_self n) hn

/-! ## Flags -/

/-- A flag that is clear at boot, and that a step leaves set only by setting it or
by keeping it under `keep`, was set at some step and kept ever since. -/
theorem set_since (flag : σ → Prop) (sets : ι → σ → Prop) (keep : σ → Prop) {n : ℕ}
    (hboot : ¬ flag (m.boot b))
    (hstep : ∀ k < n, flag (m.run b ins (k + 1)) →
      sets (ins k) (m.run b ins k) ∨ (flag (m.run b ins k) ∧ keep (m.run b ins (k + 1))))
    (hflag : flag (m.run b ins n)) :
    ∃ j < n, sets (ins j) (m.run b ins j) ∧ ∀ k, j < k → k < n → keep (m.run b ins (k + 1)) := by
  induction n with
  | zero => exact absurd hflag hboot
  | succ n ih =>
    rcases hstep n (Nat.lt_succ_self n) hflag with hset | ⟨hprev, hkeep⟩
    · refine ⟨n, Nat.lt_succ_self n, hset, ?_⟩
      intro k hnk hkn
      omega
    · obtain ⟨j, hjn, hset, hkept⟩ := ih (fun k hk => hstep k (Nat.lt_succ_of_lt hk)) hprev
      refine ⟨j, Nat.lt_succ_of_lt hjn, hset, ?_⟩
      intro k hjk hkn
      rcases Nat.lt_succ_iff_lt_or_eq.mp hkn with hlt | rfl
      · exact hkept k hjk hlt
      · exact hkeep

/-- A property that a step brings about only by setting it, and that no step that clears it
leaves, goes back to the boot or to a step that set it, and has not been cleared since. -/
theorem held_since (flag : σ → Prop) (sets clears : ι → σ → Prop) {n : ℕ}
    (hstep : ∀ k < n, flag (m.run b ins (k + 1)) → sets (ins k) (m.run b ins k) ∨
      (flag (m.run b ins k) ∧ ¬ clears (ins k) (m.run b ins k)))
    (hflag : flag (m.run b ins n)) :
    (flag (m.boot b) ∧ ∀ k < n, ¬ clears (ins k) (m.run b ins k)) ∨
      ∃ j < n, sets (ins j) (m.run b ins j) ∧
        ∀ k, j < k → k < n → ¬ clears (ins k) (m.run b ins k) := by
  induction n with
  | zero => exact .inl ⟨hflag, fun k hk => absurd hk (Nat.not_lt_zero k)⟩
  | succ n ih =>
    rcases hstep n (Nat.lt_succ_self n) hflag with hset | ⟨hprev, hkeep⟩
    · refine .inr ⟨n, Nat.lt_succ_self n, hset, fun k hnk hkn => ?_⟩
      omega
    · have hlast : ∀ k, k < n + 1 → ¬ k < n → ¬ clears (ins k) (m.run b ins k) := by
        intro k hk hkn
        obtain rfl : k = n := by omega
        exact hkeep
      rcases ih (fun k hk => hstep k (Nat.lt_succ_of_lt hk)) hprev with ⟨hboot, hkept⟩ | hset
      · refine .inl ⟨hboot, fun k hk => ?_⟩
        by_cases hkn : k < n
        · exact hkept k hkn
        · exact hlast k hk hkn
      · obtain ⟨j, hjn, hset, hkept⟩ := hset
        refine .inr ⟨j, Nat.lt_succ_of_lt hjn, hset, fun k hjk hk => ?_⟩
        by_cases hkn : k < n
        · exact hkept k hjk hkn
        · exact hlast k hk hkn

/-! ## Counters -/

/-- A counter that is zero at boot, and that a step either resets or raises by at
most one while `good` holds of the state it reaches, has seen that many good
states in a row. -/
theorem counted (count : σ → ℕ) (good : σ → Prop) {n : ℕ}
    (hboot : count (m.boot b) = 0)
    (hstep : ∀ k < n, count (m.run b ins (k + 1)) = 0 ∨
      (count (m.run b ins (k + 1)) ≤ count (m.run b ins k) + 1 ∧ good (m.run b ins (k + 1)))) :
    count (m.run b ins n) ≤ n ∧
      ∀ k, n < k + count (m.run b ins n) → k ≤ n → good (m.run b ins k) := by
  induction n with
  | zero =>
    have h0 : count (m.run b ins 0) = 0 := hboot
    refine ⟨by omega, ?_⟩
    intro k hk hk0
    omega
  | succ n ih =>
    obtain ⟨hle, hgood⟩ := ih (fun k hk => hstep k (Nat.lt_succ_of_lt hk))
    rcases hstep n (Nat.lt_succ_self n) with hzero | ⟨hbump, hnow⟩
    · refine ⟨by omega, ?_⟩
      intro k hk hkn
      omega
    · refine ⟨by omega, ?_⟩
      intro k hk hkn
      rcases Nat.lt_or_ge n k with hnk | hkn'
      · have : k = n + 1 := by omega
        subst this
        exact hnow
      · exact hgood k (by omega) hkn'

/-! ## Progress -/

/-- What every step from step `a` on either finds or comes closer to is found. -/
theorem reaches (μ : σ → ℕ) (goal : ι → σ → Prop) {a : ℕ}
    (hstep : ∀ k, a ≤ k →
      goal (ins k) (m.run b ins k) ∨ μ (m.run b ins (k + 1)) < μ (m.run b ins k)) :
    ∃ k, a ≤ k ∧ goal (ins k) (m.run b ins k) := by
  obtain ⟨bound, hbound⟩ : ∃ bound, μ (m.run b ins a) ≤ bound := ⟨_, Nat.le_refl _⟩
  induction bound generalizing a with
  | zero =>
    rcases hstep a (Nat.le_refl a) with hgoal | hless
    · exact ⟨a, Nat.le_refl a, hgoal⟩
    · omega
  | succ bound ih =>
    rcases hstep a (Nat.le_refl a) with hgoal | hless
    · exact ⟨a, Nat.le_refl a, hgoal⟩
    · obtain ⟨k, hk, hgoal⟩ := ih (a := a + 1) (fun k hk => hstep k (by omega)) (by omega)
      exact ⟨k, by omega, hgoal⟩

end Machine

/-! ## Folds -/

section FoldTrace

variable {ι σ : Type*} (f : ι → σ → σ)

/-- The items of a fold, each with the state it is applied in. -/
def foldTrace : σ → List ι → List (σ × ι)
  | _, [] => []
  | s, i :: is => (s, i) :: foldTrace (f i s) is

variable {f}

/-- A property kept by every application a fold makes holds of its result. -/
theorem foldTrace_kept {P : σ → Prop} (is : List ι) :
    ∀ s, (∀ p ∈ foldTrace f s is, P p.1 → P (f p.2 p.1)) → P s →
      P (is.foldl (fun s i => f i s) s) := by
  induction is with
  | nil => intro s _ hs; exact hs
  | cons i is ih =>
    intro s hstep hs
    have hhead : P (f i s) := hstep (s, i) (List.mem_cons_self ..) hs
    exact ih (f i s) (fun p hp => hstep p (List.mem_cons_of_mem _ hp)) hhead

theorem foldTrace_mem {s : σ} {is : List ι} {p : σ × ι} (h : p ∈ foldTrace f s is) : p.2 ∈ is := by
  induction is generalizing s with
  | nil => exact absurd h List.not_mem_nil
  | cons i is ih =>
    rcases List.mem_cons.mp h with rfl | hrest
    · exact List.mem_cons_self ..
    · exact List.mem_cons_of_mem _ (ih hrest)

theorem foldTrace_append (s : σ) (is js : List ι) :
    foldTrace f s (is ++ js) =
      foldTrace f s is ++ foldTrace f (is.foldl (fun s i => f i s) s) js := by
  induction is generalizing s with
  | nil => rfl
  | cons i is ih => exact congrArg (List.cons (s, i)) (ih (f i s))

end FoldTrace

/-! ## Since the last time -/

section Since

variable {α : Type*} {p q : α → Prop} {l : List α} {x : α}

/-- Something with `p` has come behind the last `q`. -/
def Since (p q : α → Prop) (l : List α) : Prop :=
  ∃ a x c, l = a ++ x :: c ∧ p x ∧ ∀ y ∈ c, ¬ q y

theorem not_since_nil : ¬ Since p q [] := by
  rintro ⟨a, x, c, h, -⟩
  exact absurd h.symm (List.append_ne_nil_of_right_ne_nil a (List.cons_ne_nil x c))

theorem since_concat : Since p q (l ++ [x]) ↔ p x ∨ Since p q l ∧ ¬ q x := by
  constructor
  · rintro ⟨a, y, c, heq, hp, hq⟩
    induction c using List.reverseRecOn with
    | nil =>
      obtain ⟨-, hxy⟩ := List.append_inj' heq rfl
      rw [List.cons.injEq] at hxy
      exact .inl (hxy.1 ▸ hp)
    | append_singleton c z _ =>
      have hsplit : l ++ [x] = (a ++ y :: c) ++ [z] := by rw [heq, List.append_assoc]; rfl
      obtain ⟨hl, hxz⟩ := List.append_inj' hsplit rfl
      rw [List.cons.injEq] at hxz
      refine .inr ⟨⟨a, y, c, hl, hp, fun w hw => hq w (List.mem_append_left _ hw)⟩, ?_⟩
      rw [hxz.1]
      exact hq z (List.mem_append_right _ (List.mem_singleton_self z))
  · rintro (hp | ⟨⟨a, y, c, rfl, hp, hq⟩, hx⟩)
    · exact ⟨l, x, [], rfl, hp, fun _ h => absurd h List.not_mem_nil⟩
    · refine ⟨a, y, c ++ [x], by rw [List.append_assoc]; rfl, hp, fun w hw => ?_⟩
      rcases List.mem_append.mp hw with hw | hw
      · exact hq w hw
      · rw [List.mem_singleton.mp hw]
        exact hx

end Since
