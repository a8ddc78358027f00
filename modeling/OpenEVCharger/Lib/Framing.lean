import Mathlib.Data.List.Basic
import Mathlib.Data.Nat.Notation

/-!
# Framing

A receiver that peels items off the front of a buffer: it takes some bytes, with an item
or none, or needs more, or fails. When what it decides on a buffer it also decides on every
longer one, draining the buffer does not depend on how the stream arrived in it.
-/

universe u v

/-- What a look at the front of the buffer decides. -/
inductive Peeled (β : Type v) where
  | more
  | take (n : ℕ) (out : Option β)
  | fail
  deriving DecidableEq, Repr

/-- A parser of the front of a buffer that does not change its mind. -/
structure Framing (α : Type u) (β : Type v) where
  peel : List α → Peeled β
  take_bounds : ∀ {l n out}, peel l = .take n out → 0 < n ∧ n ≤ l.length
  take_append : ∀ {l n out} (l'), peel l = .take n out → peel (l ++ l') = .take n out
  fail_append : ∀ {l} (l'), peel l = .fail → peel (l ++ l') = .fail

/-- What a drained buffer has given, and what is left of it. -/
structure Drained (α : Type u) (β : Type v) where
  out : List β
  rest : List α
  failed : Bool
  deriving DecidableEq, Repr

namespace Framing

variable {α : Type u} {β : Type v} (F : Framing α β)

/-- The items peeled off in the first `fuel` looks. -/
def drainFor : ℕ → List α → Drained α β
  | 0, l => ⟨[], l, false⟩
  | fuel + 1, l =>
    match F.peel l with
    | .more => ⟨[], l, false⟩
    | .fail => ⟨[], l, true⟩
    | .take n out =>
      let d := drainFor fuel (l.drop n)
      ⟨out.toList ++ d.out, d.rest, d.failed⟩

/-- Every look but the last takes something, so that there are no more than this. -/
def drain (l : List α) : Drained α β := F.drainFor (l.length + 1) l

variable {F} {l l' : List α} {n : ℕ} {out : Option β} {fuel fuel' : ℕ}

theorem drainFor_take (h : F.peel l = .take n out) :
    F.drainFor (fuel + 1) l =
      ⟨out.toList ++ (F.drainFor fuel (l.drop n)).out, (F.drainFor fuel (l.drop n)).rest,
        (F.drainFor fuel (l.drop n)).failed⟩ := by
  rw [drainFor, h]

theorem length_drop_lt (h : F.peel l = .take n out) : (l.drop n).length < l.length := by
  have hbounds := F.take_bounds h
  rw [List.length_drop]
  omega

/-- More looks than the buffer is long change nothing. -/
theorem drainFor_eq (hfuel : l.length < fuel) (hfuel' : l.length < fuel') :
    F.drainFor fuel l = F.drainFor fuel' l := by
  induction fuel generalizing l fuel' with
  | zero => exact absurd hfuel (Nat.not_lt_zero _)
  | succ fuel ih =>
    obtain ⟨k, rfl⟩ : ∃ k, fuel' = k + 1 := ⟨fuel' - 1, by omega⟩
    cases h : F.peel l with
    | more => rw [drainFor, drainFor, h]
    | fail => rw [drainFor, drainFor, h]
    | take n out =>
      have hlt := length_drop_lt h
      rw [drainFor_take h, drainFor_take h, ih (by omega) (show (l.drop n).length < k by omega)]

theorem drain_more (h : F.peel l = .more) : F.drain l = ⟨[], l, false⟩ := by
  rw [drain, drainFor, h]

theorem drain_fail (h : F.peel l = .fail) : F.drain l = ⟨[], l, true⟩ := by
  rw [drain, drainFor, h]

theorem drain_take (h : F.peel l = .take n out) :
    F.drain l = ⟨out.toList ++ (F.drain (l.drop n)).out, (F.drain (l.drop n)).rest,
      (F.drain (l.drop n)).failed⟩ := by
  have hlt := length_drop_lt h
  rw [drain, drainFor_take h, drain, drainFor_eq hlt (Nat.lt_succ_self _)]

/-- An induction over the items of a buffer. -/
theorem drain_induction {P : List α → Prop} (hmore : ∀ l, F.peel l = .more → P l)
    (hfail : ∀ l, F.peel l = .fail → P l)
    (htake : ∀ l n out, F.peel l = .take n out → P (l.drop n) → P l) (l : List α) : P l := by
  induction hlen : l.length using Nat.strongRecOn generalizing l with
  | ind k ih =>
    cases h : F.peel l with
    | more => exact hmore l h
    | fail => exact hfail l h
    | take n out =>
      have hlt := length_drop_lt h
      exact htake l n out h (ih _ (hlen ▸ hlt) (l.drop n) rfl)

/-- The drain ends where more bytes are needed, or fails. -/
theorem peel_rest (l : List α) :
    F.peel (F.drain l).rest = if (F.drain l).failed then .fail else .more := by
  induction l using drain_induction (F := F) with
  | hmore l h =>
    rw [drain_more h]
    exact h
  | hfail l h =>
    rw [drain_fail h]
    exact h
  | htake l n out h ih =>
    rw [drain_take h]
    exact ih

/-- What is taken off the front stays taken when more has arrived behind it. -/
theorem drain_append (h : (F.drain l).failed = false) :
    F.drain (l ++ l') = ⟨(F.drain l).out ++ (F.drain ((F.drain l).rest ++ l')).out,
      (F.drain ((F.drain l).rest ++ l')).rest, (F.drain ((F.drain l).rest ++ l')).failed⟩ := by
  induction l using drain_induction (F := F) with
  | hmore l hl =>
    rw [drain_more hl]
    rfl
  | hfail l hl =>
    rw [drain_fail hl] at h
    cases h
  | htake l n out hl ih =>
    have hle := (F.take_bounds hl).2
    rw [drain_take hl] at h ⊢
    rw [drain_take (F.take_append l' hl), List.drop_append_of_le_length hle, ih h]
    simp only [List.append_assoc]

theorem drain_failed_append (h : (F.drain l).failed = true) :
    (F.drain (l ++ l')).failed = true ∧ (F.drain (l ++ l')).out = (F.drain l).out := by
  induction l using drain_induction (F := F) with
  | hmore l hl =>
    rw [drain_more hl] at h
    cases h
  | hfail l hl =>
    rw [drain_fail hl, drain_fail (F.fail_append l' hl)]
    exact ⟨rfl, rfl⟩
  | htake l n out hl ih =>
    have hle := (F.take_bounds hl).2
    rw [drain_take hl] at h ⊢
    rw [drain_take (F.take_append l' hl), List.drop_append_of_le_length hle]
    exact ⟨(ih h).1, congrArg (out.toList ++ ·) (ih h).2⟩

/-- A drain leaves an end of the buffer. -/
theorem rest_suffix (l : List α) : ∃ taken, l = taken ++ (F.drain l).rest := by
  induction l using drain_induction (F := F) with
  | hmore l h => exact ⟨[], by rw [drain_more h]; rfl⟩
  | hfail l h => exact ⟨[], by rw [drain_fail h]; rfl⟩
  | htake l n out h ih =>
    obtain ⟨taken, htaken⟩ := ih
    refine ⟨l.take n ++ taken, ?_⟩
    rw [drain_take h, List.append_assoc, ← htaken, List.take_append_drop]

/-! ## A stream in chunks -/

variable (F)

/-- One read: the chunk goes behind what is left, and the buffer is drained. -/
def feed (d : Drained α β) (chunk : List α) : Drained α β :=
  let d' := F.drain (d.rest ++ chunk)
  ⟨d.out ++ d'.out, d'.rest, d'.failed⟩

variable {F}

/-- A stream drained up to a point goes on from what is left there. -/
theorem feed_drain (h : (F.drain l).failed = false) :
    F.feed (F.drain l) l' = F.drain (l ++ l') := by
  rw [drain_append h, feed]

end Framing
