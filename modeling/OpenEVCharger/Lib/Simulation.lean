import Mathlib.Data.Nat.Find
import OpenEVCharger.Lib.Machine

/-!
# A machine within a machine

Some steps of a machine are steps of another one, which is a part of it; the others leave the
part alone, up to what an observer has logged since. Every run of the whole is then a run of
the part, over inputs that are read off the whole.
-/

universe u v w u' v' w' t

namespace Machine

variable {β : Type u} {ι : Type v} {σ : Type w} {β' : Type u'} {ι' : Type v'} {σ' : Type w'}
  {m : Machine β ι σ} {a : Machine β' ι' σ'}

/-- The states of `a` stand for the states of `m` and what has been logged of the run. A step
of `m` that has a label is the step of `a` for that input. -/
structure Simulation (m : Machine β ι σ) (a : Machine β' ι' σ') (α : Type t) where
  bootOf : β → β'
  init : α
  next : ι → σ → α → α
  label : ι → σ → α → Option ι'
  rel : σ → α → σ' → Prop
  rel_boot : ∀ b, rel (m.boot b) init (a.boot (bootOf b))
  rel_step : ∀ i s l r, rel s l r →
    rel (m.step i s) (next i s l) ((label i s l).elim r fun j => a.step j r)

/-- The state behind finitely many inputs. -/
def after (a : Machine β' ι' σ') (b : β') (js : List ι') : σ' :=
  js.foldl (fun s j => a.step j s) (a.boot b)

theorem after_concat (b : β') (js : List ι') (j : ι') :
    a.after b (js ++ [j]) = a.step j (a.after b js) := List.foldl_append

/-- A stream of inputs that starts with a list gets as far as the list does. -/
theorem run_of_starts {b : β'} {js : ℕ → ι'} {l : List ι'}
    (h : ∀ k (hk : k < l.length), js k = l[k]) : a.run b js l.length = a.after b l := by
  induction l using List.reverseRecOn with
  | nil => rfl
  | append_singleton l j ih =>
    have hlast : js l.length = j := by
      rw [h l.length (by rw [List.length_append]; exact Nat.lt_succ_self _)]
      exact List.getElem_concat_length rfl _
    have hinit : ∀ k (hk : k < l.length), js k = l[k] := by
      intro k hk
      rw [h k (by rw [List.length_append]; exact Nat.lt_succ_of_lt hk)]
      exact List.getElem_append_left hk
    rw [List.length_append, List.length_singleton, run_succ, ih hinit, hlast, after_concat]

namespace Simulation

variable {α : Type t} (S : Simulation m a α) (b : β) (ins : ℕ → ι)

/-- What has been logged in the first `n` steps. -/
def log (n : ℕ) : α := m.history b ins S.next S.init n

/-- The inputs that the part has been given in the first `n` steps. -/
def labels : ℕ → List ι'
  | 0 => []
  | n + 1 => labels n ++ (S.label (ins n) (m.run b ins n) (S.log b ins n)).toList

/-- How many steps the part has taken in the first `n` steps. -/
def count (n : ℕ) : ℕ := (S.labels b ins n).length

theorem related (n : ℕ) :
    S.rel (m.run b ins n) (S.log b ins n) (a.after (S.bootOf b) (S.labels b ins n)) := by
  induction n with
  | zero => exact S.rel_boot b
  | succ n ih =>
    have hstep := S.rel_step (ins n) _ _ _ ih
    rw [labels]
    cases hlabel : S.label (ins n) (m.run b ins n) (S.log b ins n) with
    | none =>
      rw [hlabel] at hstep
      rw [Option.toList_none, List.append_nil]
      exact hstep
    | some j =>
      rw [hlabel] at hstep
      rw [Option.toList_some, after_concat]
      exact hstep

theorem labels_mono {k n : ℕ} (hkn : k ≤ n) : S.labels b ins k <+: S.labels b ins n := by
  induction n, hkn using Nat.le_induction with
  | base => exact List.prefix_rfl
  | succ n _ ih => exact ih.trans (List.prefix_append _ _)

theorem count_succ (n : ℕ) :
    S.count b ins (n + 1) = S.count b ins n +
      if (S.label (ins n) (m.run b ins n) (S.log b ins n)).isSome then 1 else 0 := by
  rw [count, labels, List.length_append]
  cases S.label (ins n) (m.run b ins n) (S.log b ins n) with
  | none => rfl
  | some j => rfl

variable [Inhabited ι']

open Classical in
/-- The inputs that the part is given in the whole run. -/
noncomputable def inputs (k : ℕ) : ι' :=
  if h : ∃ n, k < S.count b ins n then (S.labels b ins (Nat.find h)).getD k default else default

theorem inputs_of_lt {k n : ℕ} (hk : k < (S.labels b ins n).length) :
    S.inputs b ins k = (S.labels b ins n)[k] := by
  have hex : ∃ n, k < S.count b ins n := ⟨n, hk⟩
  have hfirst : k < (S.labels b ins (Nat.find hex)).length := Nat.find_spec hex
  have hgrows : S.labels b ins (Nat.find hex) <+: S.labels b ins n :=
    S.labels_mono b ins (Nat.find_min' hex hk)
  rw [inputs, dif_pos hex, ← List.getElem_eq_getD]
  exact hgrows.getElem hfirst

/-- Every run of the whole is a run of the part. -/
theorem related_run (n : ℕ) :
    S.rel (m.run b ins n) (S.log b ins n)
      (a.run (S.bootOf b) (S.inputs b ins) (S.count b ins n)) := by
  rw [count, run_of_starts fun k hk => S.inputs_of_lt b ins hk]
  exact S.related b ins n

/-- A step with a label gives the part its next input. -/
theorem inputs_of_label {n : ℕ} {j : ι'}
    (h : S.label (ins n) (m.run b ins n) (S.log b ins n) = some j) :
    S.inputs b ins (S.count b ins n) = j := by
  have hlabels : S.labels b ins (n + 1) = S.labels b ins n ++ [j] := by
    rw [labels, h, Option.toList_some]
  have hlen : S.count b ins n < (S.labels b ins (n + 1)).length := by
    rw [hlabels, List.length_append]
    exact Nat.lt_succ_self _
  rw [S.inputs_of_lt b ins hlen]
  simp only [hlabels]
  exact List.getElem_concat_length rfl _

end Simulation

end Machine
