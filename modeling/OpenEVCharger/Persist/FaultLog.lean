import Mathlib.Data.List.Iterate
import Mathlib.Data.List.Nodup
import Mathlib.Data.List.Range
import OpenEVCharger.Persist.RingHead

/-!
# The fault-log request

`handle_get_fault_log` of `tasks/persist_task.c`: the newest records of the event log,
found by walking the ring backwards from its head, one frame a record, and an end
marker with their number.
-/

namespace OpenEVCharger

open NorFlash (Mem)

abbrev evtFaultLogEntry : UInt8 := 0x88
abbrev evtFaultLogEnd : UInt8 := 0x89

/-- An event handed to `comms_publish_event_seq`. -/
structure SeqEvent where
  cmd : UInt8
  seq : UInt8
  payload : List UInt8
  deriving DecidableEq, Repr

/-- The bounds of the request: at least one record, and 32 at most. -/
def faultLogMax (maxCount : UInt8) : UInt8 :=
  let maxCount := if maxCount = 0 then 1 else maxCount
  if 32 < maxCount then 32 else maxCount

/-- The loop: `i` slots have been passed and `emitted` records sent. The rest of the ring
is the fuel. -/
def faultLogLoop (m : Mem) (head : ℕ) (maxCount seq : UInt8) :
    ℕ → ℕ → ℕ → List SeqEvent × ℕ
  | 0, _, emitted => ([], emitted)
  | fuel + 1, i, emitted =>
    if emitted < maxCount.toNat then
      let slot := (head + eventLog.totalRecords - 1 - i) % eventLog.totalRecords
      let r := ringReadNth eventLog slot m
      if r.1 ≠ 0 then faultLogLoop m head maxCount seq fuel (i + 1) emitted
      else
        let rest := faultLogLoop m head maxCount seq fuel (i + 1) (emitted + 1)
        (⟨evtFaultLogEntry, seq, r.2.getD []⟩ :: rest.1, rest.2)
    else ([], emitted)

def handleGetFaultLog (maxCount seq : UInt8) (s : RingState) (m : Mem) : List SeqEvent :=
  let maxCount := faultLogMax maxCount
  let r := faultLogLoop m s.head maxCount seq eventLog.totalRecords 0 0
  r.1 ++ [⟨evtFaultLogEnd, seq, [UInt8.ofNat r.2, maxCount]⟩]

/-! ## The walk -/

/-- The slot before a slot, cyclically. -/
def slotBefore (slot : ℕ) : ℕ := if slot = 0 then eventLog.totalRecords - 1 else slot - 1

/-- All slots, walked backwards from the one before the head. -/
def backwardWalk (head : ℕ) : List ℕ :=
  List.iterate slotBefore (slotBefore head) eventLog.totalRecords

/-- The slots of the walk that hold a record. -/
def validWalk (m : Mem) (head : ℕ) : List ℕ :=
  (backwardWalk head).filter fun slot => decide (classifyRecord (slotBytes eventLog m slot) = 1)

theorem validWalk_eq (m : Mem) (head : ℕ) :
    validWalk m head = (List.iterate slotBefore (slotBefore head) eventLog.totalRecords).filter
      fun slot => decide (classifyRecord (slotBytes eventLog m slot) = 1) := rfl

/-- How many slots of the ring hold a record. -/
def validCount (m : Mem) : ℕ :=
  ((List.range eventLog.totalRecords).filter fun slot =>
    decide (classifyRecord (slotBytes eventLog m slot) = 1)).length

variable {m : Mem} {head i : ℕ} {maxCount seq : UInt8}

theorem totalRecords_eventLog : eventLog.totalRecords = 8192 := rfl

/-- The slot that the loop looks at. -/
theorem slotBefore_slot (hhead : head < eventLog.totalRecords) (hi : i < eventLog.totalRecords) :
    slotBefore ((head + eventLog.totalRecords - 1 - i) % eventLog.totalRecords) =
      (head + eventLog.totalRecords - 1 - (i + 1)) % eventLog.totalRecords ∨
      i + 1 = eventLog.totalRecords := by
  rw [totalRecords_eventLog] at hhead hi ⊢
  rw [slotBefore, totalRecords_eventLog]
  split <;> omega

theorem slotBefore_head (hhead : head < eventLog.totalRecords) :
    slotBefore head = (head + eventLog.totalRecords - 1 - 0) % eventLog.totalRecords := by
  rw [totalRecords_eventLog] at hhead ⊢
  rw [slotBefore, totalRecords_eventLog]
  split <;> omega

/-- The slots that the loop has still to look at are those of the walk. -/
theorem iterate_slotBefore (hhead : head < eventLog.totalRecords) {fuel : ℕ}
    (hfuel : fuel + i = eventLog.totalRecords) :
    List.iterate slotBefore ((head + eventLog.totalRecords - 1 - i) % eventLog.totalRecords) fuel =
      (List.range' i fuel).map fun i =>
        (head + eventLog.totalRecords - 1 - i) % eventLog.totalRecords := by
  induction fuel generalizing i with
  | zero => rfl
  | succ fuel ih =>
    rw [List.iterate, List.range'_succ, List.map_cons]
    rcases slotBefore_slot hhead (show i < eventLog.totalRecords by omega) with hnext | hlast
    · rw [hnext, ih (by omega)]
    · have hzero : fuel = 0 := by omega
      subst hzero
      rfl

theorem backwardWalk_eq (hhead : head < eventLog.totalRecords) :
    backwardWalk head = (List.range' 0 eventLog.totalRecords).map fun i =>
      (head + eventLog.totalRecords - 1 - i) % eventLog.totalRecords := by
  rw [backwardWalk, slotBefore_head hhead]
  exact iterate_slotBefore hhead (Nat.add_zero _)

/-- The walk meets each slot once. -/
theorem backwardWalk_perm (hhead : head < eventLog.totalRecords) :
    (backwardWalk head).Perm (List.range eventLog.totalRecords) := by
  rw [backwardWalk_eq hhead, totalRecords_eventLog] at *
  rw [List.perm_ext_iff_of_nodup ?_ List.nodup_range]
  · intro slot
    rw [List.mem_map, List.mem_range]
    constructor
    · rintro ⟨i, -, rfl⟩
      omega
    · intro hslot
      refine ⟨(head + 8192 - 1 - slot) % 8192, ?_, ?_⟩
      · rw [List.mem_range'_1]
        omega
      · omega
  · refine List.Nodup.map_on ?_ List.nodup_range'
    intro i hi j hj heq
    rw [List.mem_range'_1] at hi hj
    omega

theorem length_validWalk (m : Mem) (hhead : head < eventLog.totalRecords) :
    (validWalk m head).length = validCount m :=
  ((backwardWalk_perm hhead).filter _).length_eq

/-! ## The frames -/

/-- The frame of a slot. -/
def entryOf (m : Mem) (seq : UInt8) (slot : ℕ) : SeqEvent :=
  ⟨evtFaultLogEntry, seq, slotBytes eventLog m slot⟩

theorem ringReadNth_eventLog {slot : ℕ} (h : slot < eventLog.totalRecords) :
    ringReadNth eventLog slot m =
      (if classifyRecord (slotBytes eventLog m slot) = 1 then 0 else 1,
        some (slotBytes eventLog m slot)) := by
  rw [ringReadNth, if_neg (Nat.not_le.mpr h)]
  rfl

/-- The loop sends the records it meets until it has sent enough. -/
theorem faultLogLoop_eq (hhead : head < eventLog.totalRecords) {fuel emitted : ℕ}
    (hfuel : fuel + i = eventLog.totalRecords) :
    let slots := ((List.iterate slotBefore
      ((head + eventLog.totalRecords - 1 - i) % eventLog.totalRecords) fuel).filter fun slot =>
        decide (classifyRecord (slotBytes eventLog m slot) = 1)).take (maxCount.toNat - emitted)
    faultLogLoop m head maxCount seq fuel i emitted =
      (slots.map (entryOf m seq), emitted + slots.length) := by
  induction fuel generalizing i emitted with
  | zero => rw [faultLogLoop, List.iterate, List.filter_nil, List.take_nil]; rfl
  | succ fuel ih =>
    have hslot : (head + eventLog.totalRecords - 1 - i) % eventLog.totalRecords <
        eventLog.totalRecords := Nat.mod_lt _ (by decide)
    -- what is left of the walk
    have hrest : List.iterate slotBefore (slotBefore
        ((head + eventLog.totalRecords - 1 - i) % eventLog.totalRecords)) fuel =
        List.iterate slotBefore
          ((head + eventLog.totalRecords - 1 - (i + 1)) % eventLog.totalRecords) fuel := by
      rcases slotBefore_slot hhead (show i < eventLog.totalRecords by omega) with hnext | hlast
      · rw [hnext]
      · have hzero : fuel = 0 := by omega
        subst hzero
        rfl
    have hread := @ringReadNth_eventLog m _ hslot
    rw [faultLogLoop, List.iterate, hrest]
    dsimp only
    rw [hread]
    generalize (head + eventLog.totalRecords - 1 - i) % eventLog.totalRecords = slot
    dsimp only
    by_cases hmore : emitted < maxCount.toNat
    · rw [if_pos hmore]
      by_cases hvalid : classifyRecord (slotBytes eventLog m slot) = 1
      · rw [if_pos hvalid, if_neg (not_not.mpr rfl), ih (by omega),
          List.filter_cons_of_pos (by exact decide_eq_true hvalid),
          show maxCount.toNat - emitted = maxCount.toNat - (emitted + 1) + 1 by omega,
          List.take_succ_cons, List.map_cons, List.length_cons, Nat.add_assoc, Nat.add_comm 1]
        rfl
      · rw [if_neg hvalid, if_pos (by decide), ih (by omega),
          List.filter_cons_of_neg (by rw [decide_eq_true_iff]; exact hvalid)]
    · rw [if_neg hmore, show maxCount.toNat - emitted = 0 by omega, List.take_zero]
      rfl

end OpenEVCharger
