import Mathlib.Data.Nat.Notation
import Mathlib.Data.List.Basic

/-!
# NOR flash

A byte-addressed memory whose erase sets a range to `0xFF` and whose program can
only clear bits. The rules here say what a read sees after an erase or a program
of a range, the same one or a disjoint one, and when programming erased cells
leaves exactly the data.
-/

namespace NorFlash

abbrev Mem := ℕ → UInt8

/-- The bytes of an erased cell. -/
def blank : UInt8 := 0xFF

def read (m : Mem) : ℕ → ℕ → List UInt8
  | _, 0 => []
  | a, n + 1 => m a :: read m (a + 1) n

/-- `m` with the cells `touched` replaced by those of `new`. -/
def patch (touched : ℕ → Bool) (new m : Mem) : Mem := fun x => if touched x then new x else m x

/-- The cells of a range. -/
def within (a n : ℕ) (x : ℕ) : Bool := decide (a ≤ x) && decide (x < a + n)

def erase (a n : ℕ) (m : Mem) : Mem := patch (within a n) (fun _ => blank) m

def program (a : ℕ) (data : List UInt8) (m : Mem) : Mem :=
  patch (within a data.length) (fun x => m x &&& data.getD (x - a) blank) m

/-- Two memories agree on a range. -/
def Agree (m m' : Mem) (a n : ℕ) : Prop := ∀ x, a ≤ x → x < a + n → m x = m' x

/-- Two memories differ in a range at most. -/
def Confined (m m' : Mem) (a n : ℕ) : Prop := ∀ x, x < a ∨ a + n ≤ x → m x = m' x

/-- Every cell of a range is erased. -/
def Erased (m : Mem) (a n : ℕ) : Prop := ∀ x, a ≤ x → x < a + n → m x = blank

variable {m m' m'' : Mem} {a b n k : ℕ}

/-! ## Reads -/

@[simp] theorem length_read (m : Mem) (a n : ℕ) : (read m a n).length = n := by
  induction n generalizing a with
  | zero => rfl
  | succ n ih => simp [read, ih]

@[simp] theorem read_zero (m : Mem) (a : ℕ) : read m a 0 = [] := rfl

theorem getElem_read {i : ℕ} (h : i < (read m a n).length) : (read m a n)[i] = m (a + i) := by
  induction n generalizing a i with
  | zero => simp at h
  | succ n ih =>
    cases i with
    | zero => rfl
    | succ i =>
      have := ih (a := a + 1) (i := i) (by simpa using h)
      simpa [read, Nat.add_assoc, Nat.add_comm 1] using this

theorem read_add (m : Mem) (a n k : ℕ) : read m a (n + k) = read m a n ++ read m (a + n) k := by
  induction n generalizing a with
  | zero => simp
  | succ n ih =>
    rw [Nat.succ_add]
    simp only [read, List.cons_append, ih]
    rw [Nat.succ_add_eq_add_succ a n]

theorem read_eq_iff {l : List UInt8} :
    read m a n = l ↔ l.length = n ∧ ∀ i (h : i < l.length), m (a + i) = l[i] := by
  constructor
  · rintro rfl
    exact ⟨length_read m a n, fun i h => (getElem_read h).symm⟩
  · rintro ⟨hn, hl⟩
    refine List.ext_getElem ((length_read m a n).trans hn.symm) fun i h1 h2 => ?_
    rw [getElem_read, hl i h2]

theorem Agree.read (h : Agree m m' a n) : read m a n = NorFlash.read m' a n := by
  refine List.ext_getElem (by simp) fun i h1 h2 => ?_
  rw [getElem_read, getElem_read]
  rw [length_read] at h1
  exact h _ (by omega) (by omega)

theorem Agree.refl (m : Mem) (a n : ℕ) : Agree m m a n := fun _ _ _ => rfl

theorem Agree.trans (h : Agree m m' a n) (h' : Agree m' m'' a n) : Agree m m'' a n :=
  fun x h1 h2 => (h x h1 h2).trans (h' x h1 h2)

theorem Agree.symm (h : Agree m m' a n) : Agree m' m a n := fun x h1 h2 => (h x h1 h2).symm

theorem Agree.mono (h : Agree m m' a n) (hab : a ≤ b) (hk : b + k ≤ a + n) : Agree m m' b k :=
  fun x h1 h2 => h x (Nat.le_trans hab h1) (Nat.lt_of_lt_of_le h2 hk)

theorem Confined.refl (m : Mem) (a n : ℕ) : Confined m m a n := fun _ _ => rfl

theorem Confined.mono (h : Confined m m' b k) (hab : a ≤ b) (hk : b + k ≤ a + n) :
    Confined m m' a n := fun x hx => h x (by omega)

/-- Memories that differ in a range agree on the others. -/
theorem Confined.agree (h : Confined m m' a n) (hd : b + k ≤ a ∨ a + n ≤ b) : Agree m m' b k :=
  fun x h1 h2 => h x (by omega)

theorem confined_of_agree (h : ∀ b k, b + k ≤ a ∨ a + n ≤ b → Agree m m' b k) :
    Confined m m' a n := fun x hx => h x 1 (by omega) x (Nat.le_refl x) (Nat.lt_succ_self x)

/-! ## Writes -/

theorem within_iff {x : ℕ} : within a n x = true ↔ a ≤ x ∧ x < a + n := by simp [within]

theorem patch_of_touched {touched : ℕ → Bool} {new : Mem} {x : ℕ} (h : touched x = true) :
    patch touched new m x = new x := if_pos h

theorem patch_self (touched : ℕ → Bool) (m : Mem) : patch touched m m = m :=
  funext fun _ => ite_self _

theorem patch_of_not_touched {touched : ℕ → Bool} {new : Mem} {x : ℕ} (h : touched x = false) :
    patch touched new m x = m x := if_neg (by simp [h])

/-- A write leaves the ranges it does not touch alone. -/
theorem agree_patch {touched : ℕ → Bool} {new : Mem}
    (h : ∀ x, a ≤ x → x < a + n → touched x = false) : Agree (patch touched new m) m a n :=
  fun x h1 h2 => patch_of_not_touched (h x h1 h2)

theorem not_within_of_disjoint (h : a + n ≤ b ∨ b + k ≤ a) :
    ∀ x, a ≤ x → x < a + n → within b k x = false := by
  intro x h1 h2
  refine Bool.eq_false_iff.mpr fun hx => ?_
  rw [within_iff] at hx
  omega

theorem erased_erase (a n : ℕ) (m : Mem) : Erased (erase a n m) a n :=
  fun _ h1 h2 => patch_of_touched (within_iff.mpr ⟨h1, h2⟩)

theorem Erased.mono (h : Erased m a n) (hab : a ≤ b) (hk : b + k ≤ a + n) : Erased m b k :=
  fun x h1 h2 => h x (Nat.le_trans hab h1) (Nat.lt_of_lt_of_le h2 hk)

theorem Erased.congr (h : Erased m a n) (h' : Agree m' m a n) : Erased m' a n :=
  fun x h1 h2 => (h' x h1 h2).trans (h x h1 h2)

theorem Erased.read (h : Erased m a n) : NorFlash.read m a n = List.replicate n blank := by
  rw [read_eq_iff]
  refine ⟨List.length_replicate .., fun i hi => ?_⟩
  rw [List.getElem_replicate]
  rw [List.length_replicate] at hi
  exact h _ (by omega) (by omega)

theorem erased_of_read (h : NorFlash.read m a n = List.replicate n blank) : Erased m a n := by
  intro x h1 h2
  have hx := (read_eq_iff.mp h).2 (x - a) (by rw [List.length_replicate]; omega)
  rw [List.getElem_replicate, Nat.add_sub_cancel' h1] at hx
  exact hx

theorem blank_and (x : UInt8) : blank &&& x = x := by
  unfold blank
  rw [← UInt8.toBitVec_inj]
  simp only [UInt8.toBitVec_and]
  exact BitVec.allOnes_and

/-- Programming clears bits. -/
theorem read_program_and {data : List UInt8} :
    NorFlash.read (program a data m) a data.length =
      List.zipWith (· &&& ·) (NorFlash.read m a data.length) data := by
  rw [read_eq_iff]
  refine ⟨by simp, fun i hi => ?_⟩
  have hi' : i < data.length := by simpa using hi
  rw [List.getElem_zipWith, getElem_read, program,
    patch_of_touched (within_iff.mpr ⟨by omega, by omega⟩), Nat.add_sub_cancel_left]
  simp [List.getD, hi']

/-- Programming erased cells leaves the data. -/
theorem read_program {data : List UInt8} (h : Erased m a data.length) :
    NorFlash.read (program a data m) a data.length = data := by
  rw [read_eq_iff]
  refine ⟨rfl, fun i hi => ?_⟩
  unfold program
  rw [patch_of_touched (within_iff.mpr ⟨by omega, by omega⟩), h _ (by omega) (by omega), blank_and,
    Nat.add_sub_cancel_left]
  simp [List.getD, hi]

/-! ## Power loss -/

/-- One write: the cells it touches and what it makes of them. -/
structure Write where
  touched : ℕ → Bool
  result : Mem → Mem

def Write.run (w : Write) (m : Mem) : Mem := patch w.touched (w.result m) m

def runWrites (ws : List Write) (m : Mem) : Mem := ws.foldl (fun m w => w.run m) m

/-- What a sequence of writes leaves when power is lost at any point of it. The
write that is cut off touches its own cells only, and leaves there what `torn`
allows beside what it found and what it would have left. -/
inductive Interrupted (torn : Mem → Mem → Mem → Prop) : List Write → Mem → Mem → Prop where
  | before (ws : List Write) (m : Mem) : Interrupted torn ws m m
  | within {w : Write} (ws : List Write) {m m' : Mem}
      (hout : ∀ x, w.touched x = false → m' x = m x) (htorn : torn m (w.run m) m') :
      Interrupted torn (w :: ws) m m'
  | later {w : Write} {ws : List Write} {m m' : Mem} (h : Interrupted torn ws (w.run m) m') :
      Interrupted torn (w :: ws) m m'

theorem Interrupted.of_runWrites {torn : Mem → Mem → Mem → Prop} (ws : List Write) (m : Mem) :
    Interrupted torn ws m (runWrites ws m) := by
  induction ws generalizing m with
  | nil => exact .before [] m
  | cons w ws ih => exact .later (ih (w.run m))

theorem Write.agree_run {w : Write} (h : ∀ x, a ≤ x → x < a + n → w.touched x = false) :
    Agree (w.run m) m a n := agree_patch h

/-- What the writes do not touch survives a power loss. -/
theorem Interrupted.agree {torn : Mem → Mem → Mem → Prop} {ws : List Write}
    (hi : Interrupted torn ws m m')
    (h : ∀ w ∈ ws, ∀ x, a ≤ x → x < a + n → w.touched x = false) : Agree m' m a n := by
  induction hi with
  | before ws m => exact Agree.refl m a n
  | within ws hout _ =>
    intro x h1 h2
    exact hout x (h _ (List.mem_cons_self ..) x h1 h2)
  | later _ ih =>
    refine (ih fun w hw => h w (List.mem_cons_of_mem _ hw)).trans ?_
    exact Write.agree_run (h _ (List.mem_cons_self ..))

end NorFlash
