import OpenEVCharger.Persist.Packed

/-!
# RFID authorisation list

`persist/rfid_authlist.c`: up to 28 card numbers in a 128-byte ping-pong record with a
copy in RAM. An addition that is not stored is taken back by lowering the count.
-/

namespace OpenEVCharger

open NorFlash (Mem Agree)

def rfidAuthlistSlotA : ℕ := 0x005000
def rfidAuthlistSlotB : ℕ := 0x006000
def rfidAuthlistVersion : UInt8 := 1
/-- `RFID_AUTHLIST_MAX`, as the byte the count is compared with. -/
def rfidAuthlistMaxByte : UInt8 := 28

/-- `struct rfid_authlist_record`. -/
abbrev RfidAuthlist := Packed 128

namespace RfidAuthlist

abbrev versionOff : ℕ := 0
abbrev countOff : ℕ := 8
abbrev uidsOff : ℕ := 12

def count (r : RfidAuthlist) : UInt8 := r.byteAt countOff
def uid (i : ℕ) (r : RfidAuthlist) : UInt32 := r.word (uidsOff + 4 * i)

def setVersion (r : RfidAuthlist) : RfidAuthlist := r.setByte versionOff rfidAuthlistVersion
def setCount (n : UInt8) (r : RfidAuthlist) : RfidAuthlist := r.setByte countOff n
def setUid (i : ℕ) (v : UInt32) (r : RfidAuthlist) : RfidAuthlist := r.setWord (uidsOff + 4 * i) v

/-- The count lowered to what the list can hold. -/
def clampCount (r : RfidAuthlist) : RfidAuthlist :=
  if rfidAuthlistMaxByte < r.count then r.setCount rfidAuthlistMaxByte else r

/-- The places behind the count set to zero. -/
def zeroUnused (r : RfidAuthlist) : RfidAuthlist :=
  (List.range' r.count.toNat (rfidAuthlistMaxByte.toNat - r.count.toNat)).foldl
    (fun r i => r.setUid i 0) r

/-- The first place that holds a card. -/
def find (uid : UInt32) (r : RfidAuthlist) : Option ℕ :=
  (List.range r.count.toNat).find? fun i => decide (r.uid i = uid)

/-- The cards behind a place moved up by one. -/
def closeGap (found : ℕ) (r : RfidAuthlist) : RfidAuthlist :=
  (List.range' (found + 1) (r.count.toNat - (found + 1))).foldl
    (fun r i => r.setUid (i - 1) (r.uid i)) r

end RfidAuthlist

/-- What a load or a change of the list returns: the return code, the copy and the chip. -/
structure RfidAuthlistResult where
  rc : Int
  list : RfidAuthlist
  chip : W25q

def rfidAuthlistRead (m : Mem) : Int × RfidAuthlist :=
  packedRead rfidAuthlistSlotA rfidAuthlistSlotB 128 m

/-- `store`, the end of every change. -/
def rfidAuthlistStore (r : RfidAuthlist) (d : W25q) : RfidAuthlistResult :=
  let st := packedStore rfidAuthlistSlotA rfidAuthlistSlotB
    (RfidAuthlist.zeroUnused r.setVersion.clampCount) d
  ⟨if st.rc < 0 then st.rc else 0, st.record, st.chip⟩

def rfidAuthlistLoad (r : RfidAuthlist) (d : W25q) : RfidAuthlistResult :=
  let x := rfidAuthlistRead d.mem
  if x.1 < 0 then ⟨x.1, r, d⟩
  else if x.1 = 1 then
    rfidAuthlistStore ((RfidAuthlist.setVersion (.zero 128)).setCount 0) d
  else ⟨0, x.2.clampCount, d⟩

/-- Card number zero is never in the list. -/
def rfidAuthlistContains (uid : UInt32) (r : RfidAuthlist) : Bool :=
  decide (uid ≠ 0) && (r.find uid).isSome

def rfidAuthlistAdd (uid : UInt32) (r : RfidAuthlist) (d : W25q) : RfidAuthlistResult :=
  if uid = 0 then ⟨-3, r, d⟩
  else if rfidAuthlistContains uid r then ⟨0, r, d⟩
  else if rfidAuthlistMaxByte ≤ r.count then ⟨-1, r, d⟩
  else
    let st := rfidAuthlistStore ((r.setUid r.count.toNat uid).setCount (r.count + 1)) d
    if st.rc < 0 then ⟨-2, st.list.setCount (st.list.count - 1), st.chip⟩
    else ⟨1, st.list, st.chip⟩

def rfidAuthlistRemove (uid : UInt32) (r : RfidAuthlist) (d : W25q) : RfidAuthlistResult :=
  if uid = 0 then ⟨0, r, d⟩
  else
    match r.find uid with
    | none => ⟨0, r, d⟩
    | some found =>
      let st := rfidAuthlistStore ((r.closeGap found).setCount (r.count - 1)) d
      ⟨if st.rc < 0 then st.rc else 1, st.list, st.chip⟩

def rfidAuthlistClear (r : RfidAuthlist) (d : W25q) : RfidAuthlistResult :=
  if r.count = 0 then ⟨0, r, d⟩ else rfidAuthlistStore (r.setCount 0) d

/-! ## Calls -/

inductive AuthlistCall where
  | load
  | add (uid : UInt32)
  | remove (uid : UInt32)
  | clear
  deriving DecidableEq

def callAuthlist (call : AuthlistCall) (r : RfidAuthlist) (d : W25q) : RfidAuthlistResult :=
  match call with
  | .load => rfidAuthlistLoad r d
  | .add uid => rfidAuthlistAdd uid r d
  | .remove uid => rfidAuthlistRemove uid r d
  | .clear => rfidAuthlistClear r d

/-- The call comes to its store: there is nothing to load, the card is to be added or
removed, or the list is to be emptied. -/
def AuthlistCall.Stores (call : AuthlistCall) (r : RfidAuthlist) (m : Mem) : Prop :=
  match call with
  | .load => (rfidAuthlistRead m).1 = 1
  | .add uid => uid ≠ 0 ∧ rfidAuthlistContains uid r = false ∧ r.count < rfidAuthlistMaxByte
  | .remove uid => uid ≠ 0 ∧ (r.find uid).isSome = true
  | .clear => r.count ≠ 0

/-! ## Where they write -/

variable {call : AuthlistCall} {r : RfidAuthlist} {d : W25q} {a n : ℕ}

theorem slotPair_rfidAuthlist : SlotPair rfidAuthlistSlotA rfidAuthlistSlotB := ⟨rfl, rfl, nofun⟩

theorem rfidAuthlistStore_agree (h : OutsideSlots rfidAuthlistSlotA rfidAuthlistSlotB a n) :
    Agree (rfidAuthlistStore r d).chip.mem d.mem a n := by
  rw [rfidAuthlistStore]
  generalize RfidAuthlist.zeroUnused r.setVersion.clampCount = packed
  have hagree := packedStore_agree (r := packed) (d := d) slotPair_rfidAuthlist h
  -- the store is opaque from here on, or its slots would be compared byte by byte
  generalize packedStore rfidAuthlistSlotA rfidAuthlistSlotB packed d = st at hagree ⊢
  exact hagree

/-- A call writes nothing, or stores a list. -/
theorem callAuthlist_chip (call : AuthlistCall) (r : RfidAuthlist) (d : W25q) :
    (callAuthlist call r d).chip = d ∨
      call.Stores r d.mem ∧ ∃ r', (callAuthlist call r d).chip = (rfidAuthlistStore r' d).chip := by
  cases call with
  | load =>
    show (rfidAuthlistLoad r d).chip = d ∨ (rfidAuthlistRead d.mem).1 = 1 ∧ _
    rw [callAuthlist, rfidAuthlistLoad]
    generalize rfidAuthlistRead d.mem = x
    split
    · exact .inl rfl
    split
    · next hnone =>
      refine .inr ⟨hnone, (RfidAuthlist.setVersion (.zero 128)).setCount 0, ?_⟩
      generalize rfidAuthlistStore _ d = st
      rfl
    · exact .inl rfl
  | add uid =>
    show (rfidAuthlistAdd uid r d).chip = d ∨
      (uid ≠ 0 ∧ rfidAuthlistContains uid r = false ∧ r.count < rfidAuthlistMaxByte) ∧ _
    rw [callAuthlist, rfidAuthlistAdd]
    split
    · exact .inl rfl
    next hzero =>
    split
    · exact .inl rfl
    next hnew =>
    split
    · exact .inl rfl
    next hroom =>
    refine .inr ⟨⟨hzero, Bool.eq_false_iff.mpr hnew, UInt8.not_le.mp hroom⟩,
      (r.setUid r.count.toNat uid).setCount (r.count + 1), ?_⟩
    generalize rfidAuthlistStore _ d = st
    dsimp only
    split
    · rfl
    · rfl
  | remove uid =>
    show (rfidAuthlistRemove uid r d).chip = d ∨ (uid ≠ 0 ∧ (r.find uid).isSome = true) ∧ _
    rw [callAuthlist, rfidAuthlistRemove]
    split
    · exact .inl rfl
    next hzero =>
    cases hfind : r.find uid with
    | none => exact .inl rfl
    | some found =>
      dsimp only
      refine .inr ⟨⟨hzero, rfl⟩, (r.closeGap found).setCount (r.count - 1), ?_⟩
      generalize rfidAuthlistStore _ d = st
      rfl
  | clear =>
    show (rfidAuthlistClear r d).chip = d ∨ r.count ≠ 0 ∧ _
    rw [callAuthlist, rfidAuthlistClear]
    split
    · exact .inl rfl
    · next hcount =>
      refine .inr ⟨hcount, r.setCount 0, ?_⟩
      generalize rfidAuthlistStore _ d = st
      rfl

theorem callAuthlist_agree (h : OutsideSlots rfidAuthlistSlotA rfidAuthlistSlotB a n) :
    Agree (callAuthlist call r d).chip.mem d.mem a n := by
  cases callAuthlist_chip call r d with
  | inl hsame =>
    rw [hsame]
    exact Agree.refl _ _ _
  | inr hstored =>
    obtain ⟨r', hstore⟩ := hstored.2
    rw [hstore]
    exact rfidAuthlistStore_agree h

end OpenEVCharger
