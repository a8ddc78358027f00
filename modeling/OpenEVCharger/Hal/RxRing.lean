import Mathlib.Data.List.Infix
import OpenEVCharger.Lib.Machine
import OpenEVCharger.Lib.RingBuffer

/-!
# The receive rings

The interrupt of a UART puts bytes into a ring and a task takes them out, without a lock. The
interrupt runs to its end before the task goes on; the task can be interrupted between any two
accesses to the shared indexes and cells, so that each of them is a step of its own.
-/

namespace OpenEVCharger

/-- The two rings, of `uart5.c` and `rfid.c`. -/
inductive RxRing
  | uart5
  | rfid
  deriving DecidableEq, Repr

/-- `UART5_RX_RING_LEN` and `RFID_RX_RING_LEN`. -/
def RxRing.len : RxRing → ℕ
  | .uart5 => 256
  | .rfid => 64

/-- `UART5_RX_RING_MASK` and `RFID_RX_RING_MASK`. -/
def RxRing.mask : RxRing → UInt16
  | .uart5 => 0xFF
  | .rfid => 0x3F

/-! ## The interrupt -/

def usartStat0Rbne : UInt32 := 0x20

/-- ORERR, NERR, FERR and PERR. -/
def usartStat0Errs : UInt32 := 0x0F

/-- What the interrupt makes of the registers: a byte that has arrived cleanly. -/
def cleanByte (stat data : UInt32) : Option UInt8 :=
  if stat &&& (usartStat0Rbne ||| usartStat0Errs) ≠ 0 then
    if stat &&& usartStat0Rbne ≠ 0 ∧ stat &&& usartStat0Errs = 0 then some data.toUInt8 else none
  else none

/-! ## The task -/

/-- Where the task is in `uart5_rx_pop` or `rfid_rx_pop`, with the locals that it still needs:
the capacity, what is in `out`, and the indexes it has read. -/
inductive PopPc
  | idle
  | top (cap : ℕ) (out : List UInt8)
  | headRead (cap : ℕ) (out : List UInt8) (h : UInt16)
  | tailRead (cap : ℕ) (out : List UInt8) (h t : UInt16)
  | copied (cap : ℕ) (out : List UInt8) (t : UInt16)
  deriving DecidableEq, Repr

/-- What a call has copied to `out` so far. -/
def PopPc.out : PopPc → List UInt8
  | .idle => []
  | .top _ out | .headRead _ out _ | .tailRead _ out _ _ | .copied _ out _ => out

/-- The ring with its indexes, the task, and what its calls have returned. -/
structure RxState where
  ring : List UInt8
  head : UInt16
  tail : UInt16
  pc : PopPc
  returned : List UInt8
  deriving DecidableEq, Repr

namespace RxRing

def boot (r : RxRing) : RxState := ⟨List.replicate r.len 0, 0, 0, .idle, []⟩

/-- The interrupt handler, with the registers it finds. -/
def irq (r : RxRing) (stat data : UInt32) (s : RxState) : RxState :=
  match cleanByte stat data with
  | none => s
  | some c =>
    let h := s.head
    let next := (h + 1) &&& r.mask
    if next ≠ s.tail then { s with ring := s.ring.set (h &&& r.mask).toNat c, head := next }
    else s

/-- The task goes on to its next access; an idle task calls with the capacity `cap`. -/
def pop (r : RxRing) (cap : ℕ) (s : RxState) : RxState :=
  match s.pc with
  | .idle => { s with pc := .top cap [] }
  | .top cap out =>
    if out.length < cap then { s with pc := .headRead cap out s.head }
    else { s with pc := .idle, returned := s.returned ++ out }
  | .headRead cap out h => { s with pc := .tailRead cap out h s.tail }
  | .tailRead cap out h t =>
    if h = t then { s with pc := .idle, returned := s.returned ++ out }
    else { s with pc := .copied cap (out ++ [s.ring.getD (t &&& r.mask).toNat 0]) t }
  | .copied cap out t => { s with pc := .top cap out, tail := (t + 1) &&& r.mask }

end RxRing

/-- What happens next: an interrupt, or an access of the task. -/
inductive RxInput
  | irq (stat data : UInt32)
  | pop (cap : ℕ)
  deriving DecidableEq, Repr

def rxMachine (r : RxRing) : Machine Unit RxInput RxState where
  boot _ := r.boot
  step
    | .irq stat data => r.irq stat data
    | .pop cap => r.pop cap

/-- Every byte that the task has taken, in its order. -/
def RxState.popped (s : RxState) : List UInt8 := s.returned ++ s.pc.out

/-- A byte that the task has copied is still in the ring. -/
def RxState.inFlight (s : RxState) : ℕ :=
  match s.pc with
  | .copied .. => 1
  | _ => 0

/-! ## What arrives and what is kept -/

/-- The bytes that have arrived, each with the number of bytes the ring held then, and how many
the task has freed. -/
structure RxLedger where
  arrived : List (UInt8 × ℕ)
  freed : ℕ
  deriving DecidableEq, Repr

namespace RxLedger

/-- The bytes that have arrived, without those that found a full ring. -/
def kept (r : RxRing) (g : RxLedger) : List UInt8 :=
  (g.arrived.filter fun a => a.2 ≠ r.len - 1).map Prod.fst

/-- How many bytes the ring holds: those that have been kept and not been freed. -/
def held (r : RxRing) (g : RxLedger) : ℕ := (g.kept r).length - g.freed

def next (r : RxRing) (i : RxInput) (s : RxState) (g : RxLedger) : RxLedger :=
  match i with
  | .irq stat data =>
    match cleanByte stat data with
    | none => g
    | some c => { g with arrived := g.arrived ++ [(c, g.held r)] }
  | .pop _ => { g with freed := g.freed + s.inFlight }

end RxLedger

variable {r : RxRing} {s : RxState} {g : RxLedger}

/-! ## Indexes -/

theorem RxRing.and_mask (r : RxRing) (x : UInt16) : (x &&& r.mask).toNat = x.toNat % r.len := by
  rw [UInt16.toNat_and]
  cases r with
  | uart5 => exact Nat.and_two_pow_sub_one_eq_mod x.toNat 8
  | rfid => exact Nat.and_two_pow_sub_one_eq_mod x.toNat 6

/-- The size divides the range of the indexes, so that nothing goes wrong where they overflow. -/
theorem RxRing.advance (r : RxRing) (x : UInt16) :
    ((x + 1) &&& r.mask).toNat = (x.toNat + 1) % r.len := by
  rw [r.and_mask, UInt16.toNat_add]
  apply Nat.mod_mod_of_dvd
  cases r <;> decide

/-! ## What every step keeps -/

/-- What the ring holds, from the ledger. -/
def RxLedger.queue (r : RxRing) (g : RxLedger) : List UInt8 := (g.kept r).drop g.freed

theorem RxLedger.length_queue (r : RxRing) (g : RxLedger) : (g.queue r).length = g.held r :=
  List.length_drop

/-- What the task knows from the indexes it has read. The head may have moved on since, the tail
is its own. -/
def PopPc.Knows (pc : PopPc) (tail : UInt16) (queue : List UInt8) : Prop :=
  match pc with
  | .idle | .top .. => True
  | .headRead _ _ h => h ≠ tail → queue ≠ []
  | .tailRead _ _ h t => t = tail ∧ (h ≠ t → queue ≠ [])
  | .copied _ _ t => t = tail ∧ queue ≠ []

structure RxInv (r : RxRing) (s : RxState) (g : RxLedger) : Prop where
  size : s.ring.length = r.len
  ring : RingBuffer s.ring s.tail.toNat s.head.toNat (g.queue r)
  freed_le : g.freed ≤ (g.kept r).length
  popped : s.popped = (g.kept r).take (g.freed + s.inFlight)
  knows : s.pc.Knows s.tail (g.queue r)

theorem RxInv.boot (r : RxRing) : RxInv r r.boot ⟨[], 0⟩ where
  size := List.length_replicate
  ring := by
    apply RingBuffer.nil
    rw [RxRing.boot, List.length_replicate]
    cases r <;> decide
  freed_le := Nat.zero_le _
  popped := rfl
  knows := trivial

/-- A byte that the task has copied is one that the ring still holds. -/
theorem RxInv.inFlight_le (h : RxInv r s g) : g.freed + s.inFlight ≤ (g.kept r).length := by
  have hfreed := h.freed_le
  have hknows := h.knows
  rw [RxState.inFlight]
  split
  · next hpc =>
    rw [hpc] at hknows
    have hpos := List.length_pos_iff.mpr hknows.2
    rw [RxLedger.length_queue, RxLedger.held] at hpos
    omega
  · exact hfreed

/-- The interrupt finds the head right before the tail when the ring is full. -/
theorem RxInv.full_iff (h : RxInv r s g) :
    (s.head + 1) &&& r.mask = s.tail ↔ g.held r = r.len - 1 := by
  have hlt := h.ring.length_lt
  rw [← UInt16.toNat_inj, r.advance, ← h.size, h.ring.full_iff, ← RxLedger.length_queue]
  omega

/-! ### The interrupt -/

theorem PopPc.Knows.push {pc : PopPc} {tail : UInt16} {queue : List UInt8}
    (h : pc.Knows tail queue) (c : UInt8) : pc.Knows tail (queue ++ [c]) := by
  have hsome : queue ++ [c] ≠ [] := by simp
  cases pc with
  | idle | top => trivial
  | headRead => exact fun _ => hsome
  | tailRead => exact ⟨h.1, fun _ => hsome⟩
  | copied => exact ⟨h.1, hsome⟩

theorem RxLedger.kept_full (hfull : g.held r = r.len - 1) (c : UInt8) :
    RxLedger.kept r { g with arrived := g.arrived ++ [(c, g.held r)] } = g.kept r := by
  rw [kept, List.filter_append, List.filter_cons_of_neg (by simpa using hfull), List.filter_nil,
    List.append_nil]
  rfl

theorem RxLedger.kept_room (hroom : g.held r ≠ r.len - 1) (c : UInt8) :
    RxLedger.kept r { g with arrived := g.arrived ++ [(c, g.held r)] } = g.kept r ++ [c] := by
  rw [kept, List.filter_append, List.filter_cons_of_pos (by simpa using hroom), List.filter_nil,
    List.map_append]
  rfl

/-- A byte that finds room goes behind what the ring holds, and one that finds none is lost. -/
theorem RxInv.irq (h : RxInv r s g) (stat data : UInt32) :
    RxInv r (r.irq stat data s) (g.next r (.irq stat data) s) := by
  rw [RxRing.irq, RxLedger.next]
  cases cleanByte stat data with
  | none => exact h
  | some c =>
    dsimp only
    by_cases hfull : g.held r = r.len - 1
    · rw [if_neg (not_not.mpr (h.full_iff.mpr hfull))]
      have hkept := RxLedger.kept_full hfull c
      have hqueue : RxLedger.queue r { g with arrived := g.arrived ++ [(c, g.held r)] } =
          g.queue r := by
        rw [RxLedger.queue, hkept, RxLedger.queue]
      exact ⟨h.size, hqueue ▸ h.ring, hkept ▸ h.freed_le, hkept ▸ h.popped, hqueue ▸ h.knows⟩
    · rw [if_pos (mt h.full_iff.mp hfull)]
      have hkept := RxLedger.kept_room hfull c
      have hqueue : RxLedger.queue r { g with arrived := g.arrived ++ [(c, g.held r)] } =
          g.queue r ++ [c] := by
        rw [RxLedger.queue, hkept, List.drop_append_of_le_length h.freed_le, RxLedger.queue]
      have hroom : (g.queue r).length + 1 < s.ring.length := by
        have hlt := h.ring.length_lt
        rw [RxLedger.length_queue] at hlt ⊢
        rw [h.size] at hlt ⊢
        omega
      have hhead : (s.head &&& r.mask).toNat = s.head.toNat := by
        rw [r.and_mask, ← h.size, Nat.mod_eq_of_lt h.ring.head_lt]
      refine ⟨?_, ?_, ?_, ?_, ?_⟩
      · rw [List.length_set]
        exact h.size
      · rw [hqueue, hhead, r.advance, ← h.size]
        exact h.ring.push hroom c
      · rw [hkept, List.length_append]
        exact Nat.le_add_right_of_le h.freed_le
      · rw [hkept]
        exact h.popped.trans (List.take_append_of_le_length h.inFlight_le).symm
      · rw [hqueue]
        exact h.knows.push c

/-! ### The task -/

/-- Between its accesses the task changes nothing but where it is. -/
theorem RxInv.move (h : RxInv r s g) {pc : PopPc} {returned : List UInt8}
    (hpopped : returned ++ pc.out = s.popped)
    (hflight : RxState.inFlight { s with pc := pc } = 0) (hfree : s.inFlight = 0)
    (hknows : pc.Knows s.tail (g.queue r)) :
    RxInv r { s with pc := pc, returned := returned } g where
  size := h.size
  ring := h.ring
  freed_le := h.freed_le
  popped := by
    have hsame : RxState.inFlight { s with pc := pc, returned := returned } = 0 := hflight
    rw [hsame, ← hfree, ← h.popped]
    exact hpopped
  knows := hknows

/-- Each access of the task: what it takes is the first of what the ring holds. -/
theorem RxInv.pop (h : RxInv r s g) (cap : ℕ) :
    RxInv r (r.pop cap s) (g.next r (.pop cap) s) := by
  obtain ⟨ring, head, tail, pc, returned⟩ := s
  cases pc with
  | idle => exact h.move rfl rfl rfl trivial
  | top cap out =>
    rw [RxRing.pop]
    dsimp only
    split
    · refine h.move rfl rfl rfl ?_
      -- a head that differs from the tail when it is read shows a byte that no one else takes
      intro hne hnil
      exact hne (UInt16.toNat_inj.mp (h.ring.empty_iff.mpr hnil))
    · exact h.move (List.append_nil _) rfl rfl trivial
  | headRead cap out head' => exact h.move rfl rfl rfl ⟨rfl, h.knows⟩
  | tailRead cap out head' tail' =>
    obtain ⟨htail, hsome⟩ := h.knows
    dsimp only at htail hsome
    subst htail
    rw [RxRing.pop]
    dsimp only
    by_cases hempty : head' = tail'
    · rw [if_pos hempty]
      exact h.move (List.append_nil _) rfl rfl trivial
    · rw [if_neg hempty]
      obtain ⟨x, rest, hqueue⟩ := List.exists_cons_of_ne_nil (hsome hempty)
      have hring := h.ring
      rw [hqueue] at hring
      have hcell : ring.getD (tail' &&& r.mask).toNat 0 = x := by
        rw [r.and_mask, ← h.size, Nat.mod_eq_of_lt hring.tail_lt, List.getD_eq_getElem?_getD,
          hring.front]
        rfl
      have htaken : returned ++ out = (g.kept r).take g.freed := h.popped
      refine ⟨h.size, h.ring, h.freed_le, ?_, rfl, hsome hempty⟩
      change returned ++ (out ++ [_]) = (g.kept r).take (g.freed + 1)
      rw [hcell, List.take_add, ← RxLedger.queue, hqueue, ← List.append_assoc, htaken]
      rfl
  | copied cap out tail' =>
    obtain ⟨htail, hsome⟩ := h.knows
    dsimp only at htail hsome
    subst htail
    obtain ⟨x, rest, hqueue⟩ := List.exists_cons_of_ne_nil hsome
    have hnext : (g.kept r).drop (g.freed + 1) = rest := by
      rw [← List.drop_drop, ← RxLedger.queue, hqueue]
      rfl
    refine ⟨h.size, ?_, h.inFlight_le, h.popped, trivial⟩
    change RingBuffer ring ((tail' + 1) &&& r.mask).toNat head.toNat ((g.kept r).drop (g.freed + 1))
    have hring := h.ring
    rw [hqueue] at hring
    rw [hnext, r.advance, ← h.size]
    exact hring.pop

/-! ## Every interleaving -/

theorem rx_inv (r : RxRing) (ins : ℕ → RxInput) (n : ℕ) :
    RxInv r ((rxMachine r).run () ins n)
      ((rxMachine r).history () ins (RxLedger.next r) ⟨[], 0⟩ n) := by
  apply Machine.history_invariant
  · exact RxInv.boot r
  · intro i s g h
    cases i with
    | irq stat data => exact h.irq stat data
    | pop cap => exact h.pop cap

/-- How many bytes are in the ring, from its indexes. -/
def RxState.occupied (r : RxRing) (s : RxState) : ℕ :=
  (s.head.toNat + r.len - s.tail.toNat) % r.len

/-- In whatever order the interrupts and the accesses of the task come, the task has taken the
bytes that have arrived, without those that found the ring one short of its size, in their order
and each once; what it has not taken is still in the ring. -/
theorem rx_ring_fifo (r : RxRing) (ins : ℕ → RxInput) (n : ℕ) :
    let s := (rxMachine r).run () ins n
    let g := (rxMachine r).history () ins (RxLedger.next r) ⟨[], 0⟩ n
    (∃ waiting, s.popped ++ waiting = g.kept r ∧ waiting.length + s.inFlight = s.occupied r) ∧
      g.held r = s.occupied r := by
  intro s g
  have h : RxInv r s g := rx_inv r ins n
  have hoccupied : s.occupied r = g.held r := by
    rw [RxState.occupied, ← h.size, h.ring.length_eq, RxLedger.length_queue]
  refine ⟨⟨(g.kept r).drop (g.freed + s.inFlight), ?_, ?_⟩, hoccupied.symm⟩
  · rw [h.popped, List.take_append_drop]
  · have hle := h.inFlight_le
    rw [List.length_drop, hoccupied, RxLedger.held]
    omega

end OpenEVCharger
