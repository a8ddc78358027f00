import Mathlib.Algebra.BigOperators.Group.Finset.Basic
import Mathlib.Algebra.BigOperators.Intervals
import OpenEVCharger.Lib.Machine

/-!
# Mailboxes of fixed depth

A queue between the parts of a machine. A post to a full queue is dropped, and a step may take
some of the oldest entries. Whatever the machine does besides, the entries taken are those
accepted, in their order, and an entry that is accepted has been taken once as many have been
asked for as the queue is deep.
-/

universe u v w

namespace Mailbox

variable {α : Type u} {depth : ℕ} {q posts : List α} {a : α}

/-- A post without waiting. -/
def post (depth : ℕ) (q : List α) (a : α) : List α :=
  if q.length < depth then q ++ [a] else q

theorem post_of_room (h : q.length < depth) : post depth q a = q ++ [a] := if_pos h

theorem post_of_full (h : depth ≤ q.length) : post depth q a = q := if_neg (Nat.not_lt.mpr h)

theorem foldl_post_of_full (h : depth ≤ q.length) : posts.foldl (post depth) q = q := by
  induction posts with
  | nil => rfl
  | cons a posts ih => rw [List.foldl_cons, post_of_full h, ih]

/-- Of some posts in a row the first ones are accepted, as many as there is room for. -/
theorem foldl_post : posts.foldl (post depth) q = q ++ posts.take (depth - q.length) := by
  induction posts generalizing q with
  | nil => rw [List.foldl_nil, List.take_nil, List.append_nil]
  | cons a posts ih =>
    rcases Nat.lt_or_ge q.length depth with hroom | hfull
    · obtain ⟨room, hroom'⟩ : ∃ room, depth - q.length = room + 1 :=
        ⟨depth - q.length - 1, by omega⟩
      have hlen : depth - (q ++ [a]).length = room := by
        rw [List.length_append, List.length_singleton]
        omega
      rw [List.foldl_cons, post_of_room hroom, ih, hlen, hroom', List.take_succ_cons,
        List.append_assoc, List.singleton_append]
    · rw [foldl_post_of_full hfull, Nat.sub_eq_zero_of_le hfull, List.take_zero, List.append_nil]

theorem length_foldl_post (h : q.length ≤ depth) :
    (posts.foldl (post depth) q).length ≤ depth := by
  rw [foldl_post, List.length_append, List.length_take]
  omega

theorem mem_of_mem_foldl_post {x : α} (h : x ∈ posts.foldl (post depth) q) :
    x ∈ q ∨ x ∈ posts := by
  rw [foldl_post, List.mem_append] at h
  exact h.imp_right List.mem_of_mem_take

theorem prefix_foldl_post : q <+: posts.foldl (post depth) q := by
  rw [foldl_post]
  exact List.prefix_append _ _

end Mailbox

/-! ## In a machine -/

/-- A queue that a machine keeps: what a step posts to it, and how many entries the step takes
at most. They are taken before the posts of the step. -/
structure Mailbox {β : Type u} {ι : Type v} {σ : Type w} (m : Machine β ι σ) (α : Type*)
    (depth : ℕ) where
  queue : σ → List α
  posts : ι → σ → List α
  serves : ι → σ → ℕ
  step_queue : ∀ i s, queue (m.step i s) =
    (posts i s).foldl (Mailbox.post depth) ((queue s).drop (serves i s))

namespace Mailbox

variable {β : Type u} {ι : Type v} {σ : Type w} {m : Machine β ι σ} {α : Type*} {depth : ℕ}
  (M : Mailbox m α depth) (b : β) (ins : ℕ → ι)

/-- The entries that a step takes. -/
def takes (i : ι) (s : σ) : List α := (M.queue s).take (M.serves i s)

/-- The queue that the posts of a step go to. -/
def before (i : ι) (s : σ) : List α := (M.queue s).drop (M.serves i s)

/-- The posts of a step that are accepted. -/
def admits (i : ι) (s : σ) : List α := (M.posts i s).take (depth - (M.before i s).length)

/-- The entries accepted in the first `n` steps. -/
def accepted (n : ℕ) : List α := m.history b ins (fun i s l => l ++ M.admits i s) [] n

/-- The entries taken in the first `n` steps. -/
def taken (n : ℕ) : List α := m.history b ins (fun i s l => l ++ M.takes i s) [] n

/-- How many entries the first `n` steps have asked for. -/
def served (n : ℕ) : ℕ := ∑ k ∈ Finset.range n, M.serves (ins k) (m.run b ins k)

variable {M} {k n : ℕ} {x : α}

theorem queue_step (i : ι) (s : σ) : M.queue (m.step i s) = M.before i s ++ M.admits i s := by
  rw [M.step_queue, foldl_post]
  rfl

theorem takes_append_before (i : ι) (s : σ) : M.takes i s ++ M.before i s = M.queue s :=
  List.take_append_drop _ _

variable (M) in
theorem accepted_succ (n : ℕ) :
    M.accepted b ins (n + 1) = M.accepted b ins n ++ M.admits (ins n) (m.run b ins n) := rfl

variable (M) in
theorem taken_succ (n : ℕ) :
    M.taken b ins (n + 1) = M.taken b ins n ++ M.takes (ins n) (m.run b ins n) := rfl

variable (M) in
/-- What has been accepted has been taken, in the order it was accepted in, or waits. -/
theorem conserved (n : ℕ) :
    M.queue (m.boot b) ++ M.accepted b ins n = M.taken b ins n ++ M.queue (m.run b ins n) := by
  induction n with
  | zero => rw [accepted, taken, Machine.history, List.append_nil]; rfl
  | succ n ih =>
    rw [accepted_succ, ← List.append_assoc, ih, taken_succ, Machine.run_succ, queue_step,
      ← takes_append_before (M := M) (ins n) (m.run b ins n)]
    simp only [List.append_assoc]

variable {b} in
theorem length_queue (hboot : (M.queue (m.boot b)).length ≤ depth) (n : ℕ) :
    (M.queue (m.run b ins n)).length ≤ depth := by
  refine Machine.invariant (P := fun s => (M.queue s).length ≤ depth) hboot (fun i s h => ?_) n
  rw [M.step_queue]
  refine length_foldl_post ?_
  rw [List.length_drop]
  exact Nat.le_trans (Nat.sub_le _ _) h

variable (M) in
theorem accepted_mono (hkn : k ≤ n) : M.accepted b ins k <+: M.accepted b ins n := by
  induction n, hkn using Nat.le_induction with
  | base => exact List.prefix_rfl
  | succ n _ ih => exact ih.trans (List.prefix_append _ _)

variable (M) in
theorem taken_mono (hkn : k ≤ n) : M.taken b ins k <+: M.taken b ins n := by
  induction n, hkn using Nat.le_induction with
  | base => exact List.prefix_rfl
  | succ n _ ih => exact ih.trans (List.prefix_append _ _)

variable (M) in
/-- A step takes as many entries as it asks for as long as some of those accepted by step `k`
wait behind them. -/
theorem length_taken_succ (hkn : k ≤ n) :
    (M.queue (m.boot b) ++ M.accepted b ins k).length ≤ (M.taken b ins (n + 1)).length ∨
      (M.taken b ins (n + 1)).length =
        (M.taken b ins n).length + M.serves (ins n) (m.run b ins n) := by
  have hall := congrArg List.length (M.conserved b ins n)
  have hgrows := (M.accepted_mono b ins hkn).length_le
  rw [List.length_append, List.length_append] at hall
  rw [taken_succ, List.length_append, List.length_append, takes, List.length_take]
  omega

variable (M) in
/-- As many steps later, what they have asked for has been taken, or all that was accepted by
step `k`. -/
theorem length_taken (hkn : k ≤ n) :
    (M.queue (m.boot b) ++ M.accepted b ins k).length ≤ (M.taken b ins n).length ∨
      (M.taken b ins k).length + M.served b ins n =
        (M.taken b ins n).length + M.served b ins k := by
  induction n, hkn using Nat.le_induction with
  | base => exact .inr rfl
  | succ n hkn ih =>
    have hmore : (M.taken b ins n).length ≤ (M.taken b ins (n + 1)).length :=
      (M.taken_mono b ins (Nat.le_succ n)).length_le
    have hserved : M.served b ins (n + 1) =
        M.served b ins n + M.serves (ins n) (m.run b ins n) := Finset.sum_range_succ _ n
    rcases ih with hdone | hless
    · exact .inl (Nat.le_trans hdone hmore)
    rcases M.length_taken_succ b ins hkn with hdone | htakes
    · exact .inl hdone
    · right
      omega

variable {b ins} in
/-- Once as many entries have been asked for as the queue is deep, everything that was accepted
before has been taken. -/
theorem taken_within (hboot : (M.queue (m.boot b)).length ≤ depth) (hkn : k ≤ n)
    (hserved : M.served b ins k + depth ≤ M.served b ins n) :
    M.queue (m.boot b) ++ M.accepted b ins k <+: M.taken b ins n := by
  have hk := M.conserved b ins k
  have hn := M.conserved b ins n
  have hroom := length_queue ins hboot k
  have hlen : (M.queue (m.boot b) ++ M.accepted b ins k).length ≤ (M.taken b ins n).length := by
    rcases M.length_taken b ins hkn with hdone | hless
    · exact hdone
    · rw [hk, List.length_append]
      omega
  have hgrows : M.queue (m.boot b) ++ M.accepted b ins k <+:
      M.taken b ins n ++ M.queue (m.run b ins n) := by
    rw [← hn]
    exact List.prefix_append_right_inj _ |>.mpr (M.accepted_mono b ins hkn)
  exact List.prefix_of_prefix_length_le hgrows (List.prefix_append _ _) hlen

/-! ### Where an entry comes from -/

/-- What waits after a step has waited before it or was posted by it. -/
theorem mem_queue_step {i : ι} {s : σ} (h : x ∈ M.queue (m.step i s)) :
    x ∈ M.queue s ∨ x ∈ M.posts i s := by
  rw [queue_step, List.mem_append] at h
  exact h.imp List.mem_of_mem_drop List.mem_of_mem_take

variable {b ins} in
theorem mem_queue (h : x ∈ M.queue (m.run b ins n)) :
    x ∈ M.queue (m.boot b) ∨ ∃ k < n, x ∈ M.posts (ins k) (m.run b ins k) := by
  induction n with
  | zero => exact .inl h
  | succ n ih =>
    rcases mem_queue_step h with hwaits | hposted
    · exact (ih hwaits).imp_right fun ⟨k, hk, hx⟩ => ⟨k, Nat.lt_succ_of_lt hk, hx⟩
    · exact .inr ⟨n, Nat.lt_succ_self n, hposted⟩

end Mailbox
