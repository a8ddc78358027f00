import Mathlib.Data.List.Basic
import Mathlib.Data.Nat.ModEq
import Mathlib.Data.Nat.Notation

/-!
# Ring buffers

A queue in an array: it begins at the tail and ends before the head, modulo the size. One cell
stays free, so that equal indexes mean the empty queue and nothing else.
-/

/-- The cells from `tail` up to `head`, modulo the size, hold the queue `l`. -/
structure RingBuffer {α : Type*} (cells : List α) (tail head : ℕ) (l : List α) : Prop where
  tail_lt : tail < cells.length
  length_lt : l.length < cells.length
  head_eq : head = (tail + l.length) % cells.length
  cell : ∀ i < l.length, cells[(tail + i) % cells.length]? = l[i]?

namespace RingBuffer

variable {α : Type*} {cells l : List α} {tail head : ℕ} {x : α}

/-! ## Indexes -/

/-- The cells of a queue that does not fill the array are different cells. -/
theorem index_inj {size i j : ℕ} (h : (tail + i) % size = (tail + j) % size) (hi : i < size)
    (hj : j < size) : i = j := by
  have hmod : i ≡ j [MOD size] := Nat.ModEq.add_left_cancel' tail h
  exact Nat.ModEq.eq_of_lt_of_lt hmod hi hj

theorem head_lt (h : RingBuffer cells tail head l) : head < cells.length := by
  rw [h.head_eq]
  exact Nat.mod_lt _ (Nat.zero_lt_of_lt h.tail_lt)

theorem tail_mod (h : RingBuffer cells tail head l) : (tail + 0) % cells.length = tail :=
  Nat.mod_eq_of_lt h.tail_lt

/-- Equal indexes mean the empty queue. -/
theorem empty_iff (h : RingBuffer cells tail head l) : head = tail ↔ l = [] := by
  rw [← List.length_eq_zero_iff]
  constructor
  · intro heq
    have hsame := h.head_eq.symm.trans (heq.trans h.tail_mod.symm)
    exact index_inj hsame h.length_lt (Nat.zero_lt_of_lt h.tail_lt)
  · intro hzero
    rw [h.head_eq, hzero, h.tail_mod]

/-- The head is right before the tail when one cell is free, and only then. -/
theorem full_iff (h : RingBuffer cells tail head l) :
    (head + 1) % cells.length = tail ↔ l.length + 1 = cells.length := by
  have hnext : (head + 1) % cells.length = (tail + (l.length + 1)) % cells.length := by
    rw [h.head_eq, Nat.mod_add_mod, Nat.add_assoc]
  have hlt := h.length_lt
  constructor
  · intro heq
    by_contra hroom
    have hsame := hnext.symm.trans (heq.trans h.tail_mod.symm)
    have hzero := index_inj hsame (by omega) (Nat.zero_lt_of_lt h.tail_lt)
    omega
  · intro hfull
    rw [hnext, hfull, Nat.add_mod_right, Nat.mod_eq_of_lt h.tail_lt]

/-- The length of the queue, from the indexes. -/
theorem length_eq (h : RingBuffer cells tail head l) :
    (head + cells.length - tail) % cells.length = l.length := by
  have htail := h.tail_lt
  have hlen := h.length_lt
  rw [h.head_eq]
  rcases Nat.lt_or_ge (tail + l.length) cells.length with hplain | hwrap
  · rw [Nat.mod_eq_of_lt hplain, show tail + l.length + cells.length - tail
      = l.length + cells.length by omega, Nat.add_mod_right, Nat.mod_eq_of_lt hlen]
  · have hhead : (tail + l.length) % cells.length = tail + l.length - cells.length := by
      rw [Nat.mod_eq_sub_mod hwrap, Nat.mod_eq_of_lt (by omega)]
    rw [hhead, show tail + l.length - cells.length + cells.length - tail = l.length by omega,
      Nat.mod_eq_of_lt hlen]

/-! ## Operations -/

theorem nil (h : tail < cells.length) : RingBuffer cells tail tail [] where
  tail_lt := h
  length_lt := Nat.zero_lt_of_lt h
  head_eq := (Nat.mod_eq_of_lt h).symm
  cell := by
    intro i hi
    nomatch hi

/-- An item goes into the cell at the head, which the queue does not use. -/
theorem push (h : RingBuffer cells tail head l) (hroom : l.length + 1 < cells.length) (x : α) :
    RingBuffer (cells.set head x) tail ((head + 1) % cells.length) (l ++ [x]) where
  tail_lt := by
    rw [List.length_set]
    exact h.tail_lt
  length_lt := by
    rw [List.length_set, List.length_append]
    exact hroom
  head_eq := by
    rw [List.length_set, List.length_append, h.head_eq, Nat.mod_add_mod, Nat.add_assoc]
    rfl
  cell := by
    intro i hi
    rw [List.length_append, List.length_singleton] at hi
    rw [List.length_set]
    rcases Nat.lt_succ_iff_lt_or_eq.mp hi with hold | rfl
    · have hother : head ≠ (tail + i) % cells.length := by
        intro heq
        have hlt := h.length_lt
        have hsame := index_inj (h.head_eq.symm.trans heq) hlt (by omega)
        omega
      rw [List.getElem?_set_ne hother, h.cell i hold, List.getElem?_append_left hold]
    · rw [← h.head_eq, List.getElem?_set_self h.head_lt, List.getElem?_concat_length]

/-- The first item is in the cell at the tail. -/
theorem front (h : RingBuffer cells tail head (x :: l)) : cells[tail]? = some x := by
  have hcell := h.cell 0 (Nat.succ_pos _)
  rw [h.tail_mod] at hcell
  exact hcell

theorem pop (h : RingBuffer cells tail head (x :: l)) :
    RingBuffer cells ((tail + 1) % cells.length) head l where
  tail_lt := Nat.mod_lt _ (Nat.zero_lt_of_lt h.tail_lt)
  length_lt := Nat.lt_trans (Nat.lt_succ_self _) h.length_lt
  head_eq := by
    rw [h.head_eq, List.length_cons, Nat.mod_add_mod, Nat.add_assoc, Nat.add_comm 1]
  cell := by
    intro i hi
    rw [Nat.mod_add_mod, Nat.add_assoc, Nat.add_comm 1, h.cell (i + 1) (Nat.succ_lt_succ hi)]
    rfl

end RingBuffer
