import Mathlib.Data.List.Nodup
import Mathlib.Data.List.Range
import OpenEVCharger.Lib.Machine
import OpenEVCharger.Persist.Interrupted
import OpenEVCharger.Persist.RfidAuthlist

/-!
# Changes of the authorisation list

The record of `persist/rfid_authlist.c` as the list of its cards: what the loops over the
record do to that list, and what additions, removals and the clearing leave of it and of
the list in the flash when their store fails. Only the addition takes back its edit.
-/

namespace OpenEVCharger

open NorFlash (Mem Write)

/-! ## The list in a record -/

namespace RfidAuthlist

/-- The cards of a record, in order. -/
def cards (r : RfidAuthlist) : List UInt32 := (List.range r.count.toNat).map fun i => r.uid i

variable {r r' : RfidAuthlist} {i j : ℕ} {uid : UInt32}

theorem length_cards (r : RfidAuthlist) : r.cards.length = r.count.toNat := by
  rw [cards, List.length_map, List.length_range]

theorem getElem_cards (h : i < r.cards.length) : r.cards[i] = r.uid i := by
  simp only [cards, List.getElem_map, List.getElem_range]

theorem mem_cards : uid ∈ r.cards ↔ ∃ i < r.count.toNat, r.uid i = uid := by
  simp only [cards, List.mem_map, List.mem_range]

/-- The list is in the count and in the places below it. -/
theorem cards_congr (hcount : r'.count = r.count)
    (huid : ∀ i < r.count.toNat, r'.uid i = r.uid i) : r'.cards = r.cards := by
  rw [cards, cards, hcount]
  exact List.map_congr_left fun i hi => huid i (List.mem_range.mp hi)

/-! ### Writes -/

theorem uid_setUid (hi : i < 28) (v : UInt32) (r : RfidAuthlist) : (r.setUid i v).uid i = v :=
  Packed.word_setWord (by unfold uidsOff; omega) r

theorem uid_setUid_other (h : j ≠ i) (v : UInt32) (r : RfidAuthlist) :
    (r.setUid i v).uid j = r.uid j :=
  Packed.word_setWord_other (by omega) r

@[simp] theorem count_setUid (i : ℕ) (v : UInt32) (r : RfidAuthlist) :
    (r.setUid i v).count = r.count :=
  Packed.byteAt_setWord_other (.inl (by unfold countOff uidsOff; omega)) r

@[simp] theorem count_setCount (n : UInt8) (r : RfidAuthlist) : (r.setCount n).count = n :=
  Packed.byteAt_setByte (by decide) r

@[simp] theorem uid_setCount (n : UInt8) (i : ℕ) (r : RfidAuthlist) :
    (r.setCount n).uid i = r.uid i :=
  Packed.word_set_other (.inr (by
    show countOff + 1 ≤ uidsOff + 4 * i
    unfold countOff uidsOff
    omega)) r

@[simp] theorem count_setVersion (r : RfidAuthlist) : r.setVersion.count = r.count :=
  Packed.byteAt_set_other (.inr (by decide)) r

@[simp] theorem uid_setVersion (i : ℕ) (r : RfidAuthlist) : r.setVersion.uid i = r.uid i :=
  Packed.word_set_other (.inr (by
    show versionOff + 1 ≤ uidsOff + 4 * i
    unfold versionOff uidsOff
    omega)) r

theorem clampCount_of_le (h : r.count ≤ rfidAuthlistMaxByte) : r.clampCount = r :=
  if_neg (UInt8.not_lt.mpr h)

/-! ### Loops -/

/-- Places set to zero leave the count and the other places alone. -/
theorem foldl_setUid (places : List ℕ) (r : RfidAuthlist) :
    let r' := places.foldl (fun r i => r.setUid i 0) r
    r'.count = r.count ∧ ∀ j ∉ places, r'.uid j = r.uid j := by
  induction places generalizing r with
  | nil => exact ⟨rfl, fun j _ => rfl⟩
  | cons i places ih =>
    obtain ⟨hcount, huid⟩ := ih (r.setUid i 0)
    refine ⟨hcount.trans (count_setUid i 0 r), fun j hj => ?_⟩
    rw [List.mem_cons, not_or] at hj
    exact (huid j hj.2).trans (uid_setUid_other hj.1 0 r)

/-- The places behind the list are not in it. -/
theorem cards_zeroUnused (r : RfidAuthlist) : r.zeroUnused.cards = r.cards := by
  obtain ⟨hcount, huid⟩ := foldl_setUid
    (List.range' r.count.toNat (rfidAuthlistMaxByte.toNat - r.count.toNat)) r
  refine cards_congr hcount fun i hi => huid i fun hmem => ?_
  rw [List.mem_range'_1] at hmem
  omega

theorem count_zeroUnused (r : RfidAuthlist) : r.zeroUnused.count = r.count :=
  (foldl_setUid _ r).1

/-- Places moved up by one, from `start` on. -/
theorem foldl_moveUp (n start : ℕ) (r : RfidAuthlist) (hstart : 0 < start)
    (hfits : start + n ≤ 28) :
    let r' := (List.range' start n).foldl (fun r i => r.setUid (i - 1) (r.uid i)) r
    r'.count = r.count ∧ ∀ j, r'.uid j =
      if start ≤ j + 1 ∧ j + 1 < start + n then r.uid (j + 1) else r.uid j := by
  induction n generalizing start r with
  | zero => exact ⟨rfl, fun j => (if_neg (by omega)).symm⟩
  | succ n ih =>
    rw [List.range'_succ, List.foldl_cons]
    obtain ⟨hcount, huid⟩ := ih (start + 1) (r.setUid (start - 1) (r.uid start))
      (Nat.succ_pos start) (by omega)
    refine ⟨hcount.trans (count_setUid _ _ r), fun j => ?_⟩
    rw [huid]
    by_cases hj : j + 1 = start
    · -- the place written first, which the rest of the loop leaves alone
      subst hj
      rw [if_neg (by omega), if_pos (by omega), Nat.add_sub_cancel,
        uid_setUid (by omega)]
    · rw [uid_setUid_other (show j ≠ start - 1 by omega)]
      by_cases hin : start + 1 ≤ j + 1 ∧ j + 1 < start + 1 + n
      · rw [if_pos hin, if_pos (by omega), uid_setUid_other (by omega)]
      · rw [if_neg hin, if_neg (by omega)]

/-- The gap closed, the card of the place is gone and the others keep their order. -/
theorem cards_closeGap {found : ℕ} (hfound : found < r.count.toNat)
    (hmax : r.count ≤ rfidAuthlistMaxByte) :
    ((r.closeGap found).setCount (r.count - 1)).cards = r.cards.eraseIdx found := by
  have hmax' : r.count.toNat ≤ 28 := UInt8.le_iff_toNat_le.mp hmax
  obtain ⟨-, huid⟩ := foldl_moveUp (r.count.toNat - (found + 1)) (found + 1) r
    (Nat.succ_pos found) (by omega)
  have hcount : (r.count - 1).toNat = r.count.toNat - 1 :=
    UInt8.toNat_sub_of_le _ _ (UInt8.le_iff_toNat_le.mpr (Nat.succ_le_of_lt (by omega)))
  refine List.ext_getElem ?_ fun i hi hi' => ?_
  · rw [length_cards, count_setCount, List.length_eraseIdx_of_lt (by rw [length_cards]; exact hfound),
      length_cards, hcount]
  · rw [length_cards, count_setCount, hcount] at hi
    rw [getElem_cards, uid_setCount, closeGap, huid, List.getElem_eraseIdx]
    split
    · next hin => rw [dif_neg (by omega), getElem_cards]
    · next hout => rw [dif_pos (by omega), getElem_cards]

/-- A card put behind the list. -/
theorem cards_append (uid : UInt32) (hroom : r.count < rfidAuthlistMaxByte) :
    ((r.setUid r.count.toNat uid).setCount (r.count + 1)).cards = r.cards ++ [uid] := by
  have hlt : r.count.toNat < 28 := UInt8.lt_iff_toNat_lt.mp hroom
  have hcount : (r.count + 1).toNat = r.count.toNat + 1 := by
    rw [UInt8.toNat_add, UInt8.toNat_one]
    exact Nat.mod_eq_of_lt (Nat.lt_of_lt_of_le (Nat.succ_lt_succ hlt) (by decide))
  have hbelow : (List.range r.count.toNat).map
      (fun i => ((r.setUid r.count.toNat uid).setCount (r.count + 1)).uid i) = r.cards :=
    List.map_congr_left fun i hi => by
      rw [uid_setCount, uid_setUid_other (Nat.ne_of_lt (List.mem_range.mp hi))]
  rw [cards, count_setCount, hcount, List.range_succ, List.map_append, List.map_singleton,
    hbelow, uid_setCount, uid_setUid hlt]

/-- The count lowered by one. -/
theorem cards_dropLast (h : 0 < r.count.toNat) :
    (r.setCount (r.count - 1)).cards = r.cards.dropLast := by
  have hcount : (r.count - 1).toNat = r.count.toNat - 1 :=
    UInt8.toNat_sub_of_le _ _ (UInt8.le_iff_toNat_le.mpr (Nat.succ_le_of_lt h))
  refine List.ext_getElem ?_ fun i hi hi' => ?_
  · rw [List.length_dropLast, length_cards, length_cards, count_setCount, hcount]
  · rw [List.getElem_dropLast, getElem_cards, getElem_cards, uid_setCount]

theorem cards_setCount_zero (r : RfidAuthlist) : (r.setCount 0).cards = [] := by
  rw [cards, count_setCount]
  rfl

theorem cards_eq_nil : r.cards = [] ↔ r.count = 0 := by
  rw [← List.length_eq_zero_iff, length_cards]
  exact UInt8.toNat_inj (b := 0)

/-! ### The search -/

theorem find_eq_none : r.find uid = none ↔ uid ∉ r.cards := by
  rw [find, List.find?_eq_none, mem_cards]
  simp only [List.mem_range, decide_eq_true_eq, not_exists, not_and]

/-- The place found is the first with the card. -/
theorem eraseIdx_find {found : ℕ} (h : r.find uid = some found) :
    found < r.count.toNat ∧ r.cards.eraseIdx found = r.cards.erase uid := by
  rw [find, List.find?_range_eq_some] at h
  obtain ⟨heq, hmem, hfirst⟩ := h
  have hlt := List.mem_range.mp hmem
  refine ⟨hlt, (List.erase_eq_eraseIdx_of_idxOf ?_).symm⟩
  refine (List.findIdx_eq (by rw [length_cards]; exact hlt)).mpr ⟨?_, fun j hj => ?_⟩
  · rw [getElem_cards]
    exact beq_iff_eq.mpr (of_decide_eq_true heq)
  · rw [getElem_cards]
    refine beq_eq_false_iff_ne.mpr fun hj' => ?_
    have := hfirst j hj
    rw [decide_eq_true hj'] at this
    exact absurd this nofun

end RfidAuthlist

theorem rfidAuthlistContains_iff {uid : UInt32} {r : RfidAuthlist} (h : uid ≠ 0) :
    rfidAuthlistContains uid r = true ↔ uid ∈ r.cards := by
  rw [rfidAuthlistContains, decide_eq_true h, Bool.true_and, Option.isSome_iff_ne_none, Ne,
    RfidAuthlist.find_eq_none, not_not]

/-! ## The store -/

/-- The list that a load of the flash would find. -/
def persistedCards (m : Mem) : List UInt32 := (rfidAuthlistRead m).2.clampCount.cards

/-- The record that `store` writes. -/
def storedAuthlist (r : RfidAuthlist) : RfidAuthlist :=
  RfidAuthlist.zeroUnused r.setVersion.clampCount

/-- The writes of `store`. -/
def authlistWrites (r : RfidAuthlist) (m : Mem) : List Write :=
  storeWrites rfidAuthlistSlotA rfidAuthlistSlotB (storedAuthlist r).bytes m

variable {r : RfidAuthlist} {d : W25q} {m : Mem}

theorem storedAuthlist_cards (h : r.count ≤ rfidAuthlistMaxByte) :
    (storedAuthlist r).cards = r.cards ∧ (storedAuthlist r).count = r.count := by
  have hclamp : r.setVersion.clampCount = r.setVersion :=
    RfidAuthlist.clampCount_of_le (by rw [RfidAuthlist.count_setVersion]; exact h)
  rw [storedAuthlist, RfidAuthlist.cards_zeroUnused, RfidAuthlist.count_zeroUnused, hclamp]
  exact ⟨RfidAuthlist.cards_congr (RfidAuthlist.count_setVersion r)
    fun i _ => RfidAuthlist.uid_setVersion i r, RfidAuthlist.count_setVersion r⟩

/-- Records with one payload hold one list. -/
theorem payload_cards {r r' : RfidAuthlist}
    (h : ∀ k, 8 ≤ k → k < 124 → r'.bytes.getD k 0 = r.bytes.getD k 0) :
    r'.count = r.count ∧ ∀ i < 28, r'.uid i = r.uid i := by
  refine ⟨h 8 (Nat.le_refl 8) (by decide), fun i hi => le32Load_congr fun k hlo hhi => ?_⟩
  unfold RfidAuthlist.uidsOff at hlo hhi
  exact h k (by omega) (by omega)

theorem rfidAuthlistStore_list (r : RfidAuthlist) (d : W25q) :
    (rfidAuthlistStore r d).list.count = (storedAuthlist r).count ∧
      ∀ i < 28, (rfidAuthlistStore r d).list.uid i = (storedAuthlist r).uid i := by
  rw [rfidAuthlistStore, ← storedAuthlist]
  exact payload_cards fun k hlo hhi => getD_packedStore (.inr hlo) hhi

/-- The store leaves the list as it is. -/
theorem rfidAuthlistStore_cards (h : r.count ≤ rfidAuthlistMaxByte) :
    (rfidAuthlistStore r d).list.cards = r.cards ∧
      (rfidAuthlistStore r d).list.count = r.count := by
  obtain ⟨hcards, hcount⟩ := storedAuthlist_cards h
  obtain ⟨hcount', huid⟩ := rfidAuthlistStore_list r d
  have hmax : r.count.toNat ≤ 28 := UInt8.le_iff_toNat_le.mp h
  rw [← hcards, ← hcount]
  refine ⟨RfidAuthlist.cards_congr hcount' fun i hi => huid i ?_, hcount'⟩
  rw [hcount] at hi
  exact Nat.lt_of_lt_of_le hi hmax

/-- The return code of a store is that of the ping-pong store. -/
theorem rc_of_stored {rc : Int} {done : Prop} (h : rc = 0 ∨ rc < 0) (hiff : rc = 0 ↔ done) :
    (if rc < 0 then rc else 0) = 0 ∧ done ∨ (if rc < 0 then rc else 0) < 0 ∧ ¬ done := by
  rcases h with hzero | hneg
  · rw [hzero]
    exact .inl ⟨rfl, hiff.mp hzero⟩
  · rw [if_pos hneg]
    refine .inr ⟨hneg, fun hdone => ?_⟩
    have hzero := hiff.mpr hdone
    omega

/-- The store succeeds when none of its writes times out. -/
theorem rfidAuthlistStore_rc (r : RfidAuthlist) (d : W25q) :
    (rfidAuthlistStore r d).rc = 0 ∧ WritesDone (authlistWrites r d.mem) d.outcomes d.mem ∨
      (rfidAuthlistStore r d).rc < 0 ∧
        ¬ WritesDone (authlistWrites r d.mem) d.outcomes d.mem := by
  rw [rfidAuthlistStore, ← storedAuthlist, authlistWrites]
  generalize storedAuthlist r = stored
  exact rc_of_stored packedStore_rc
    (pingpongStore_rc_iff slotPair_rfidAuthlist (by rw [stored.size]; rfl))

/-! ## The changes -/

inductive CardChange where
  | add (uid : UInt32)
  | remove (uid : UInt32)
  | clear
  deriving DecidableEq, Repr

namespace CardChange

def call : CardChange → AuthlistCall
  | add uid => .add uid
  | remove uid => .remove uid
  | clear => .clear

/-- What a change is to make of the list. -/
def apply (cards : List UInt32) : CardChange → List UInt32
  | add uid => if uid ∈ cards then cards else cards ++ [uid]
  | remove uid => cards.erase uid
  | clear => []

/-- What a change makes of the list when its store fails: only an addition is taken back. -/
def failed (cards : List UInt32) : CardChange → List UInt32
  | add _ => cards
  | remove uid => cards.erase uid
  | clear => []

/-- The record that a change stores. -/
def record (r : RfidAuthlist) : CardChange → RfidAuthlist
  | add uid => (r.setUid r.count.toNat uid).setCount (r.count + 1)
  | remove uid => (r.closeGap ((r.find uid).getD 0)).setCount (r.count - 1)
  | clear => r.setCount 0

end CardChange

/-- A list without the number zero and without duplicates, within the capacity. -/
structure CardsOk (cards : List UInt32) : Prop where
  nonzero : 0 ∉ cards
  nodup : cards.Nodup
  capacity : cards.length ≤ rfidAuthlistMaxByte.toNat

/-- What a change can do: it comes to no store and leaves everything as it is, or to one
that succeeds or fails. -/
inductive ChangeSpec (c : CardChange) (r : RfidAuthlist) (d : W25q) (R : RfidAuthlistResult) :
    Prop where
  | refused (stores : ¬ c.call.Stores r d.mem) (list : R.list = r) (chip : R.chip = d)
      (success : 0 ≤ R.rc → c.apply r.cards = r.cards)
  | stored (stores : c.call.Stores r d.mem)
      (chip : R.chip = (rfidAuthlistStore (c.record r) d).chip)
      (success : (rfidAuthlistStore (c.record r) d).rc = 0 →
        0 ≤ R.rc ∧ R.list.cards = c.apply r.cards)
      (failure : (rfidAuthlistStore (c.record r) d).rc < 0 →
        R.rc < 0 ∧ R.list.cards = c.failed r.cards)

variable {c : CardChange}

theorem CardsOk.count_le (h : CardsOk r.cards) : r.count ≤ rfidAuthlistMaxByte := by
  have := h.capacity
  rw [RfidAuthlist.length_cards] at this
  exact UInt8.le_iff_toNat_le.mpr this

theorem rfidAuthlistAdd_spec (uid : UInt32) (r : RfidAuthlist) (d : W25q) :
    ChangeSpec (.add uid) r d (rfidAuthlistAdd uid r d) := by
  rw [rfidAuthlistAdd]
  split
  · next hzero =>
    exact .refused (fun hs => hs.1 hzero) rfl rfl
      fun hrc => absurd hrc (show ¬ (0 : ℤ) ≤ -3 by decide)
  next hzero =>
  split
  · next hin =>
    refine .refused (fun hs => ?_) rfl rfl fun _ => ?_
    · rw [hs.2.1] at hin
      exact absurd hin Bool.false_ne_true
    · exact if_pos ((rfidAuthlistContains_iff hzero).mp hin)
  next hnew =>
  split
  · next hfull =>
    exact .refused (fun hs => UInt8.not_le.mpr hs.2.2 hfull) rfl rfl
      fun hrc => absurd hrc (show ¬ (0 : ℤ) ≤ -1 by decide)
  next hfull =>
  have hroom := UInt8.not_le.mp hfull
  have hnotin : uid ∉ r.cards := fun hmem => hnew ((rfidAuthlistContains_iff hzero).mpr hmem)
  have happend := RfidAuthlist.cards_append uid hroom
  have hmax : ((r.setUid r.count.toNat uid).setCount (r.count + 1)).count ≤
      rfidAuthlistMaxByte := by
    have hlt : r.count.toNat < 28 := UInt8.lt_iff_toNat_lt.mp hroom
    rw [UInt8.le_iff_toNat_le, ← RfidAuthlist.length_cards, happend, List.length_append,
      RfidAuthlist.length_cards]
    exact hlt
  obtain ⟨hcards, hcount⟩ := rfidAuthlistStore_cards (d := d) hmax
  rw [happend] at hcards
  refine .stored ⟨hzero, Bool.eq_false_iff.mpr hnew, hroom⟩ ?_ (fun hrc => ?_) fun hrc => ?_
  · show _ = (rfidAuthlistStore ((r.setUid r.count.toNat uid).setCount (r.count + 1)) d).chip
    generalize rfidAuthlistStore _ d = st
    dsimp only
    split
    · rfl
    · rfl
  · replace hrc : (rfidAuthlistStore ((r.setUid r.count.toNat uid).setCount (r.count + 1)) d).rc =
      0 := hrc
    generalize rfidAuthlistStore _ d = st at hrc hcards ⊢
    dsimp only
    rw [hrc, if_neg (Int.lt_irrefl 0)]
    exact ⟨Int.one_nonneg, hcards.trans (if_neg hnotin).symm⟩
  · replace hrc : (rfidAuthlistStore ((r.setUid r.count.toNat uid).setCount (r.count + 1)) d).rc <
      0 := hrc
    generalize rfidAuthlistStore _ d = st at hrc hcards ⊢
    dsimp only
    rw [if_pos hrc]
    refine ⟨Int.negSucc_lt_zero 1, ?_⟩
    have hlen : 0 < st.list.count.toNat := by
      rw [← RfidAuthlist.length_cards, hcards, List.length_append]
      exact Nat.succ_pos _
    rw [RfidAuthlist.cards_dropLast hlen, hcards, List.dropLast_concat]
    rfl

theorem rfidAuthlistRemove_spec (uid : UInt32) (h : CardsOk r.cards) (d : W25q) :
    ChangeSpec (.remove uid) r d (rfidAuthlistRemove uid r d) := by
  rw [rfidAuthlistRemove]
  split
  · next hzero =>
    refine .refused (fun hs => hs.1 hzero) rfl rfl fun _ => ?_
    rw [hzero]
    exact List.erase_of_not_mem h.nonzero
  next hzero =>
  cases hfind : r.find uid with
  | none =>
    refine .refused (fun hs => ?_) rfl rfl fun _ => ?_
    · have hsome := hs.2
      rw [hfind] at hsome
      cases hsome
    · exact List.erase_of_not_mem (RfidAuthlist.find_eq_none.mp hfind)
  | some found =>
    obtain ⟨hfound, herase⟩ := RfidAuthlist.eraseIdx_find hfind
    have hgap := RfidAuthlist.cards_closeGap hfound h.count_le
    have hmax : ((r.closeGap found).setCount (r.count - 1)).count ≤ rfidAuthlistMaxByte := by
      have := h.capacity
      rw [UInt8.le_iff_toNat_le, ← RfidAuthlist.length_cards, hgap]
      exact Nat.le_trans (List.length_eraseIdx_le _ _) this
    obtain ⟨hcards, -⟩ := rfidAuthlistStore_cards (d := d) hmax
    have hrecord : (CardChange.remove uid).record r =
        (r.closeGap found).setCount (r.count - 1) := by
      rw [CardChange.record, hfind]
      rfl
    rw [hgap, herase] at hcards
    dsimp only
    rw [← hrecord] at hcards ⊢
    generalize hst : rfidAuthlistStore ((CardChange.remove uid).record r) d = st at hcards ⊢
    refine .stored ⟨hzero, Option.isSome_iff_exists.mpr ⟨found, hfind⟩⟩ (by rw [hst])
      (fun hrc => ?_) fun hrc => ?_
    all_goals rw [hst] at hrc
    · rw [hrc, if_neg (Int.lt_irrefl 0)]
      exact ⟨Int.one_nonneg, hcards⟩
    · rw [if_pos hrc]
      exact ⟨hrc, hcards⟩

theorem rfidAuthlistClear_spec (r : RfidAuthlist) (d : W25q) :
    ChangeSpec .clear r d (rfidAuthlistClear r d) := by
  rw [rfidAuthlistClear]
  split
  · next hzero =>
    refine .refused (fun hs => hs hzero) rfl rfl fun _ => ?_
    exact (RfidAuthlist.cards_eq_nil.mpr hzero).symm
  next hcount =>
  have hmax : (r.setCount 0).count ≤ rfidAuthlistMaxByte := by
    rw [RfidAuthlist.count_setCount]
    decide
  obtain ⟨hcards, -⟩ := rfidAuthlistStore_cards (d := d) hmax
  rw [RfidAuthlist.cards_setCount_zero] at hcards
  exact .stored hcount rfl (fun hrc => ⟨Int.le_of_eq hrc.symm, hcards⟩) fun hrc => ⟨hrc, hcards⟩

theorem callAuthlist_changeSpec (c : CardChange) (h : CardsOk r.cards) (d : W25q) :
    ChangeSpec c r d (callAuthlist c.call r d) := by
  cases c with
  | add uid => exact rfidAuthlistAdd_spec uid r d
  | remove uid => exact rfidAuthlistRemove_spec uid h d
  | clear => exact rfidAuthlistClear_spec r d

/-! ## What a change leaves -/

theorem CardsOk.apply (h : CardsOk r.cards) (hstores : c.call.Stores r m) :
    CardsOk (c.apply r.cards) := by
  cases c with
  | add uid =>
    obtain ⟨hzero, hnew, hroom⟩ := hstores
    have hnotin : uid ∉ r.cards := fun hmem => by
      rw [(rfidAuthlistContains_iff hzero).mpr hmem] at hnew
      exact absurd hnew nofun
    rw [CardChange.apply, if_neg hnotin]
    refine ⟨fun hmem => ?_, ?_, ?_⟩
    · rcases List.mem_append.mp hmem with hmem | hmem
      · exact h.nonzero hmem
      · exact hzero (List.mem_singleton.mp hmem).symm
    · exact List.nodup_append.mpr ⟨h.nodup, List.nodup_singleton uid, fun a ha b hb heq =>
        hnotin (by rwa [← List.mem_singleton.mp hb, ← heq])⟩
    · rw [List.length_append, RfidAuthlist.length_cards]
      exact UInt8.lt_iff_toNat_lt.mp hroom
  | remove uid =>
    exact ⟨fun hmem => h.nonzero (List.mem_of_mem_erase hmem), h.nodup.erase uid,
      Nat.le_trans List.length_erase_le h.capacity⟩
  | clear => exact ⟨List.not_mem_nil, List.nodup_nil, Nat.zero_le _⟩

theorem CardsOk.failed (h : CardsOk r.cards) (hstores : c.call.Stores r m) :
    CardsOk (c.failed r.cards) := by
  cases c with
  | add uid => exact h
  | remove uid => exact h.apply hstores
  | clear => exact h.apply hstores

/-- A list that is well formed stays so, however the change ends. -/
theorem ChangeSpec.cardsOk {R : RfidAuthlistResult} (hspec : ChangeSpec c r d R)
    (h : CardsOk r.cards) : CardsOk R.list.cards := by
  cases hspec with
  | refused _ hlist _ _ =>
    rw [hlist]
    exact h
  | stored hstores _ hsuccess hfailure =>
    rcases rfidAuthlistStore_rc (c.record r) d with ⟨hrc, -⟩ | ⟨hrc, -⟩
    · rw [(hsuccess hrc).2]
      exact h.apply hstores
    · rw [(hfailure hrc).2]
      exact h.failed hstores

/-- A removal or a clearing that comes to its store has changed the list by then. -/
theorem CardChange.failed_eq_iff (hstores : c.call.Stores r m) :
    c.failed r.cards = r.cards ↔ ∃ uid, c = .add uid := by
  cases c with
  | add uid => exact iff_of_true rfl ⟨uid, rfl⟩
  | remove uid =>
    refine iff_of_false (fun heq => ?_) nofun
    have hmem : uid ∈ r.cards := Classical.not_not.mp fun hnotin => by
      have hnone := RfidAuthlist.find_eq_none.mpr hnotin
      have hsome := hstores.2
      rw [hnone] at hsome
      exact absurd hsome nofun
    have hlen := List.length_erase_of_mem hmem
    have hpos := List.length_pos_of_mem hmem
    have hsame : (r.cards.erase uid).length = r.cards.length := congrArg List.length heq
    omega
  | clear =>
    exact iff_of_false (fun heq => hstores (RfidAuthlist.cards_eq_nil.mp heq.symm)) nofun

/-- A store that fails leaves the flash as its write that times out does. -/
theorem rfidAuthlistStore_failed_iff (P : Mem → Prop) (hrc : (rfidAuthlistStore r d).rc < 0) :
    WritesTorn (fun _ _ left => P left) (authlistWrites r d.mem) d.outcomes d.mem ↔
      P (rfidAuthlistStore r d).chip.mem := by
  rw [rfidAuthlistStore, ← storedAuthlist] at hrc ⊢
  rw [authlistWrites]
  generalize storedAuthlist r = stored at hrc ⊢
  refine pingpongStore_failed_iff slotPair_rfidAuthlist (by rw [stored.size]; rfl) P fun hzero => ?_
  replace hzero : (packedStore rfidAuthlistSlotA rfidAuthlistSlotB stored d).rc = 0 := hzero
  dsimp only at hrc
  rw [hzero] at hrc
  exact absurd hrc (Int.lt_irrefl 0)

/-! ## Runs -/

/-- The copy in RAM and the flash. -/
structure AuthlistUnit where
  list : RfidAuthlist
  flash : Mem

/-- A change, and how the writes it does to the chip end. -/
structure AuthlistInput where
  change : CardChange
  outcomes : List WriteOutcome

structure AuthlistPowerUp where
  flash : Mem
  outcomes : List WriteOutcome

def changeAuthlist (i : AuthlistInput) (σ : AuthlistUnit) : RfidAuthlistResult :=
  callAuthlist i.change.call σ.list ⟨σ.flash, i.outcomes⟩

def RfidAuthlistResult.unit (R : RfidAuthlistResult) : AuthlistUnit := ⟨R.list, R.chip.mem⟩

def authlistMachine : Machine AuthlistPowerUp AuthlistInput AuthlistUnit where
  boot b := (rfidAuthlistLoad (.zero 128) ⟨b.flash, b.outcomes⟩).unit
  step i σ := (changeAuthlist i σ).unit

def authlistRun (b : AuthlistPowerUp) (ins : ℕ → AuthlistInput) (n : ℕ) : AuthlistUnit :=
  authlistMachine.run b ins n

/-- The change comes to no store; or to one whose writes all end in time; or it is an
addition, and the write that times out leaves a flash in which the list is found as it
was. -/
def FailureUndone (i : AuthlistInput) (σ : AuthlistUnit) : Prop :=
  i.change.call.Stores σ.list σ.flash →
    WritesDone (authlistWrites (i.change.record σ.list) σ.flash) i.outcomes σ.flash ∨
      (∃ uid, i.change = .add uid) ∧
        WritesTorn (fun _ _ left => persistedCards left = persistedCards σ.flash)
          (authlistWrites (i.change.record σ.list) σ.flash) i.outcomes σ.flash

variable {i : AuthlistInput} {σ : AuthlistUnit}

/-- The boot finds the list of the flash. -/
theorem rfidAuthlistLoad_cards (r : RfidAuthlist) (d : W25q) :
    (rfidAuthlistLoad r d).list.cards = persistedCards d.mem := by
  rw [rfidAuthlistLoad, persistedCards]
  have hcases : (rfidAuthlistRead d.mem).1 = 0 ∨ rfidAuthlistRead d.mem = (1, .zero 128) :=
    packedRead_cases rfl d.mem
  rcases hcases with hfound | hnone
  · generalize rfidAuthlistRead d.mem = x at hfound ⊢
    rw [if_neg (by rw [hfound]; exact Int.lt_irrefl 0), if_neg (by rw [hfound]; decide)]
  · rw [hnone]
    have hempty : ((RfidAuthlist.setVersion (.zero 128)).setCount 0).count ≤
        rfidAuthlistMaxByte := by decide
    have hcards := (rfidAuthlistStore_cards (d := d) hempty).1
    rw [RfidAuthlist.cards_setCount_zero] at hcards
    refine hcards.trans ?_
    decide

theorem ChangeSpec.kept_iff {R : RfidAuthlistResult}
    (hspec : ChangeSpec i.change σ.list ⟨σ.flash, i.outcomes⟩ R) :
    (R.rc < 0 → R.list.cards = σ.list.cards ∧
      persistedCards R.chip.mem = persistedCards σ.flash) ↔ FailureUndone i σ := by
  cases hspec with
  | refused hstores hlist hchip _ =>
    refine iff_of_true (fun _ => ?_) fun hs => absurd hs hstores
    rw [hlist, hchip]
    exact ⟨rfl, rfl⟩
  | stored hstores hchip hsuccess hfailure =>
    rw [FailureUndone]
    rcases rfidAuthlistStore_rc (i.change.record σ.list) ⟨σ.flash, i.outcomes⟩ with
      ⟨hrc, hdone⟩ | ⟨hrc, hnot⟩
    · refine iff_of_true (fun hneg => ?_) fun _ => .inl hdone
      exact absurd (hsuccess hrc).1 (Int.not_le.mpr hneg)
    · obtain ⟨hneg, hcards⟩ := hfailure hrc
      have htorn := rfidAuthlistStore_failed_iff
        (fun left => persistedCards left = persistedCards σ.flash) hrc
      rw [← hchip] at htorn
      rw [hcards, CardChange.failed_eq_iff hstores, ← htorn]
      exact ⟨fun h _ => .inr (h hneg), fun h _ => (h hstores).resolve_left hnot⟩

theorem authlistRun_zero (b : AuthlistPowerUp) (ins : ℕ → AuthlistInput) :
    authlistRun b ins 0 = (rfidAuthlistLoad (.zero 128) ⟨b.flash, b.outcomes⟩).unit := rfl

theorem authlistRun_succ (b : AuthlistPowerUp) (ins : ℕ → AuthlistInput) (n : ℕ) :
    authlistRun b ins (n + 1) = (changeAuthlist (ins n) (authlistRun b ins n)).unit := rfl

theorem unit_cards (R : RfidAuthlistResult) : R.unit.list.cards = R.list.cards := rfl

theorem cardsOk_authlistRun {b : AuthlistPowerUp} (ins : ℕ → AuthlistInput) (n : ℕ)
    (hboot : CardsOk (persistedCards b.flash)) : CardsOk (authlistRun b ins n).list.cards := by
  induction n with
  | zero =>
    rw [authlistRun_zero, unit_cards, rfidAuthlistLoad_cards]
    exact hboot
  | succ n ih =>
    rw [authlistRun_succ, unit_cards]
    exact (callAuthlist_changeSpec (ins n).change ih _).cardsOk ih

/-- In every run from a flash with a well-formed list: the list has no zero and no
duplicate and keeps its capacity; a change that succeeds appends its card, drops it or
empties the list, and keeps the order of the others; and a change that returns an error
leaves the list in memory and the list in the flash as they were exactly when its store
does not fail, or it is an addition and the failed store leaves the old list to be
found. -/
theorem authlist_failures_kept_iff (b : AuthlistPowerUp) (ins : ℕ → AuthlistInput) (n : ℕ)
    (hboot : CardsOk (persistedCards b.flash)) :
    let σ := authlistRun b ins n
    let R := changeAuthlist (ins n) σ
    CardsOk σ.list.cards ∧ (0 ≤ R.rc → R.list.cards = (ins n).change.apply σ.list.cards) ∧
      ((R.rc < 0 → R.list.cards = σ.list.cards ∧
        persistedCards R.chip.mem = persistedCards σ.flash) ↔ FailureUndone (ins n) σ) := by
  intro σ R
  have hok : CardsOk σ.list.cards := cardsOk_authlistRun ins n hboot
  have hspec : ChangeSpec (ins n).change σ.list ⟨σ.flash, (ins n).outcomes⟩ R :=
    callAuthlist_changeSpec _ hok _
  refine ⟨hok, fun hrc => ?_, hspec.kept_iff⟩
  cases hspec with
  | refused _ hlist _ hsuccess => rw [hlist, hsuccess hrc]
  | stored _ _ hsuccess hfailure =>
    rcases rfidAuthlistStore_rc ((ins n).change.record σ.list) ⟨σ.flash, (ins n).outcomes⟩ with
      ⟨hzero, -⟩ | ⟨hneg, -⟩
    · exact (hsuccess hzero).2
    · exact absurd (hfailure hneg).1 (Int.not_lt.mpr hrc)

/-- A blank unit: a card is added, and its removal runs into an erase that times out. -/
def blankAuthlist : AuthlistPowerUp := ⟨fun _ => NorFlash.blank, []⟩

def failedRemoval (k : ℕ) : AuthlistInput :=
  if k = 0 then ⟨.add 7, []⟩ else ⟨.remove 7, [.timeout fun _ => NorFlash.blank]⟩

theorem persistedCards_blank : persistedCards blankAuthlist.flash = [] := by decide +kernel

theorem authlist_failures_kept_iff_blank :
    let σ := authlistRun blankAuthlist failedRemoval 1
    CardsOk σ.list.cards := by
  refine (authlist_failures_kept_iff blankAuthlist failedRemoval 1 ?_).1
  rw [persistedCards_blank]
  exact ⟨List.not_mem_nil, List.nodup_nil, Nat.zero_le _⟩

/-- The removal returns an error: the card is gone from the list in memory, and the next
boot finds it again. -/
theorem failed_removal_undone_by_boot :
    let σ := authlistRun blankAuthlist failedRemoval 1
    let R := changeAuthlist (failedRemoval 1) σ
    R.rc = -2 ∧ σ.list.cards = [7] ∧ R.list.cards = [] ∧ persistedCards R.chip.mem = [7] := by
  decide +kernel

end OpenEVCharger
