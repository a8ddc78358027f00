import OpenEVCharger.Lib.NorFlash

/-!
# The W25Q chip

`drivers/w25q.c` over the chip it drives: a read, the erase of a 4 KB sector and
the program of up to a page. A write ends when the chip reports idle, or with a
timeout, and then the cells it was to write hold anything. The outcomes of the
writes to come are part of the state, so that a run quantifies over them.
-/

namespace OpenEVCharger

open NorFlash (Mem)

abbrev w25qPageSize : ℕ := 256
abbrev w25qSectorSize : ℕ := 4096

/-- How a write ends: in time, or not, with the cells it touches left as given. -/
inductive WriteOutcome where
  | done
  | timeout (left : Mem)

/-- The chip: its cells, and how its next writes end. Once the list is used up
every write ends in time. -/
structure W25q where
  mem : Mem
  outcomes : List WriteOutcome

def w25qRead (addr len : ℕ) (d : W25q) : List UInt8 := NorFlash.read d.mem addr len

/-- A write of the cells `touched` that would make the chip `result`. -/
def w25qWrite (touched : ℕ → Bool) (result : Mem) (d : W25q) : Int × W25q :=
  match d.outcomes with
  | [] => (0, { d with mem := result })
  | .done :: rest => (0, ⟨result, rest⟩)
  | .timeout left :: rest => (-1, ⟨NorFlash.patch touched left d.mem, rest⟩)

/-- The first address of the sector of `addr`. -/
def sectorBase (addr : ℕ) : ℕ := addr / w25qSectorSize * w25qSectorSize

def w25qEraseSector (addr : ℕ) (d : W25q) : Int × W25q :=
  w25qWrite (NorFlash.within (sectorBase addr) w25qSectorSize)
    (NorFlash.erase (sectorBase addr) w25qSectorSize d.mem) d

/-- The index of the byte a page program at `addr` sends to cell `x` of the same
page: the chip wraps at the end of the page. -/
def pageIndex (addr x : ℕ) : ℕ := (x % w25qPageSize + w25qPageSize - addr % w25qPageSize) %
  w25qPageSize

/-- The cells a page program of `len` bytes at `addr` writes. -/
def pageTouched (addr len x : ℕ) : Bool :=
  decide (x / w25qPageSize = addr / w25qPageSize) && decide (pageIndex addr x < len)

def w25qProgram (addr : ℕ) (buf : List UInt8) (d : W25q) : Int × W25q :=
  if buf.length = 0 ∨ w25qPageSize < buf.length then (-1, d)
  else
    w25qWrite (pageTouched addr buf.length)
      (NorFlash.patch (pageTouched addr buf.length)
        (fun x => d.mem x &&& buf.getD (pageIndex addr x) NorFlash.blank) d.mem) d

/-! ## What a write does -/

variable {touched : ℕ → Bool} {result : Mem} {d : W25q} {addr a n : ℕ} {buf : List UInt8}

/-- A write returns zero or a negative code. -/
theorem w25qWrite_rc (h : ¬ (w25qWrite touched result d).1 < 0) :
    (w25qWrite touched result d).1 = 0 := by
  unfold w25qWrite at h ⊢
  split at h
  · rfl
  · rfl
  · exact absurd h (by simp)

/-- A write that reports success made the chip what it should. -/
theorem w25qWrite_ok (h : (w25qWrite touched result d).1 = 0) :
    (w25qWrite touched result d).2.mem = result := by
  unfold w25qWrite at h ⊢
  split at h
  · rfl
  · rfl
  · exact absurd h (by simp)

/-- A write leaves the ranges it does not touch alone, however it ends. -/
theorem w25qWrite_agree (hresult : NorFlash.Agree result d.mem a n)
    (h : ∀ x, a ≤ x → x < a + n → touched x = false) :
    NorFlash.Agree (w25qWrite touched result d).2.mem d.mem a n := by
  unfold w25qWrite
  split
  · exact hresult
  · exact hresult
  · exact NorFlash.agree_patch h

/-- No write to come times out. -/
def AllDone (outcomes : List WriteOutcome) : Prop := ∀ o ∈ outcomes, o = .done

/-- A write that does not time out does what it should. -/
theorem w25qWrite_done (h : AllDone d.outcomes) :
    (w25qWrite touched result d).1 = 0 ∧ (w25qWrite touched result d).2.mem = result ∧
      AllDone (w25qWrite touched result d).2.outcomes := by
  obtain ⟨mem, outcomes⟩ := d
  cases outcomes with
  | nil => exact ⟨rfl, rfl, h⟩
  | cons o rest =>
    have ho : o = .done := h o (List.mem_cons_self ..)
    subst ho
    exact ⟨rfl, rfl, fun o' hmem => h o' (List.mem_cons_of_mem _ hmem)⟩

theorem w25qEraseSector_rc (h : ¬ (w25qEraseSector addr d).1 < 0) :
    (w25qEraseSector addr d).1 = 0 := w25qWrite_rc h

theorem w25qEraseSector_ok (h : (w25qEraseSector addr d).1 = 0) :
    NorFlash.Erased (w25qEraseSector addr d).2.mem (sectorBase addr) w25qSectorSize := by
  unfold w25qEraseSector at h ⊢
  rw [w25qWrite_ok h]
  exact NorFlash.erased_erase _ _ _

/-- An erase leaves the other sectors alone. -/
theorem w25qEraseSector_agree
    (h : a + n ≤ sectorBase addr ∨ sectorBase addr + w25qSectorSize ≤ a) :
    NorFlash.Agree (w25qEraseSector addr d).2.mem d.mem a n := by
  have hout := NorFlash.not_within_of_disjoint h
  exact w25qWrite_agree (NorFlash.agree_patch hout) hout

theorem pageTouched_iff {len x : ℕ} :
    pageTouched addr len x = true ↔
      x / w25qPageSize = addr / w25qPageSize ∧ pageIndex addr x < len := by
  simp [pageTouched]

theorem pageTouched_bounds {len x : ℕ} (h : pageTouched addr len x = true)
    (hpage : addr % w25qPageSize + len ≤ w25qPageSize) : addr ≤ x ∧ x < addr + len := by
  rw [pageTouched_iff] at h
  simp only [pageIndex, w25qPageSize] at h hpage
  omega

/-- A program that stays in its page leaves the cells outside its range alone. -/
theorem w25qProgram_agree (hpage : addr % w25qPageSize + buf.length ≤ w25qPageSize)
    (h : a + n ≤ addr ∨ addr + buf.length ≤ a) :
    NorFlash.Agree (w25qProgram addr buf d).2.mem d.mem a n := by
  have hout : ∀ x, a ≤ x → x < a + n → pageTouched addr buf.length x = false := by
    intro x h1 h2
    refine Bool.eq_false_iff.mpr fun hx => ?_
    have := pageTouched_bounds hx hpage
    omega
  unfold w25qProgram
  split
  · exact NorFlash.Agree.refl _ _ _
  · exact w25qWrite_agree (NorFlash.agree_patch hout) hout

/-- A program that stays in its page is a program of its range. -/
theorem w25qProgram_eq (hpage : addr % w25qPageSize + buf.length ≤ w25qPageSize) :
    NorFlash.patch (pageTouched addr buf.length)
        (fun x => d.mem x &&& buf.getD (pageIndex addr x) NorFlash.blank) d.mem =
      NorFlash.program addr buf d.mem := by
  funext x
  unfold NorFlash.program
  by_cases hx : pageTouched addr buf.length x = true
  · have hb := pageTouched_bounds hx hpage
    have hi : pageIndex addr x = x - addr := by
      have hsame := (pageTouched_iff.mp hx).1
      simp only [pageIndex, w25qPageSize] at hsame hpage ⊢
      omega
    rw [NorFlash.patch_of_touched hx, NorFlash.patch_of_touched (NorFlash.within_iff.mpr hb), hi]
  · have hw : NorFlash.within addr buf.length x = false := by
      refine Bool.eq_false_iff.mpr fun hin => hx ?_
      rw [NorFlash.within_iff] at hin
      rw [pageTouched_iff]
      simp only [pageIndex, w25qPageSize] at hpage ⊢
      omega
    rw [NorFlash.patch_of_not_touched (Bool.eq_false_iff.mpr hx),
      NorFlash.patch_of_not_touched hw]

theorem w25qProgram_rc (h : ¬ (w25qProgram addr buf d).1 < 0) :
    (w25qProgram addr buf d).1 = 0 := by
  unfold w25qProgram at h ⊢
  split at h
  · exact absurd h (by simp)
  · next hlen =>
    rw [if_neg hlen]
    exact w25qWrite_rc h

theorem w25qProgram_ok (hpage : addr % w25qPageSize + buf.length ≤ w25qPageSize)
    (h : (w25qProgram addr buf d).1 = 0) :
    (w25qProgram addr buf d).2.mem = NorFlash.program addr buf d.mem := by
  unfold w25qProgram at h ⊢
  split at h
  · exact absurd h (by simp)
  · next hlen =>
    rw [if_neg hlen, w25qWrite_ok h]
    exact w25qProgram_eq hpage

end OpenEVCharger
