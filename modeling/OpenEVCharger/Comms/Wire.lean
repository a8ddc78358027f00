import OpenEVCharger.Comms.Tlv
import OpenEVCharger.Persist.Packed

/-!
# Fields of a payload

Both sides of the link put the words of a payload together byte by byte, low byte first. A
field that one side writes is the field that the other side reads, whatever stands before
and behind it.
-/

namespace OpenEVCharger

/-- A stored half word is loaded back. -/
theorem le16Load_append (p q : List UInt8) (v : UInt16) :
    le16Load (p ++ le16Bytes v ++ q) p.length = v := by
  have hv := v.toNat_lt
  have hget : ∀ k < 2, (p ++ le16Bytes v ++ q).getD (p.length + k) 0 = (le16Bytes v).getD k 0 := by
    intro k hk
    rw [List.append_assoc]
    simp only [List.getD, List.getElem?_append_right (Nat.le_add_right _ _),
      Nat.add_sub_cancel_left]
    rw [List.getElem?_append_left (by rw [length_le16Bytes]; exact hk)]
  have h0 := hget 0 (by decide)
  rw [Nat.add_zero] at h0
  rw [le16Load, h0, hget 1 (by decide), ← UInt16.toNat_inj]
  simp only [le16Bytes, List.getD_cons_zero, List.getD_cons_succ, UInt16.toNat_toUInt8,
    UInt16.toNat_shiftRight, UInt16.reduceToNat, Nat.reduceMod, Nat.shiftRight_eq_div_pow,
    UInt16.toNat_ofNat']
  omega

/-! ## Packed fields -/

variable {fields rest : List (List UInt8)} {off : ℕ}

/-- The fields before the `k`-th one and those behind it. -/
theorem flatten_split {f : List UInt8} (k : ℕ) (hdrop : fields.drop k = f :: rest) :
    fields.flatten = (fields.take k).flatten ++ f ++ rest.flatten := by
  rw [List.append_assoc, ← List.flatten_cons, ← hdrop, ← List.flatten_append, List.take_append_drop]

/-- The `k`-th field of a packed struct, at its offset. -/
theorem le16Load_field {v : UInt16} (k : ℕ) (hdrop : fields.drop k = le16Bytes v :: rest)
    (hoff : (fields.take k).flatten.length = off) : le16Load fields.flatten off = v := by
  rw [flatten_split k hdrop, ← hoff]
  exact le16Load_append _ _ v

theorem le32Load_field {v : UInt32} (k : ℕ) (hdrop : fields.drop k = le32Bytes v :: rest)
    (hoff : (fields.take k).flatten.length = off) : le32Load fields.flatten off = v := by
  rw [flatten_split k hdrop, ← hoff]
  exact le32Load_append _ _ v

theorem getD_field {b : UInt8} (k : ℕ) (hdrop : fields.drop k = [b] :: rest)
    (hoff : (fields.take k).flatten.length = off) : fields.flatten.getD off 0 = b := by
  rw [flatten_split k hdrop, ← hoff, List.append_assoc, List.getD_eq_getElem?_getD,
    List.getElem?_append_right (Nat.le_refl _), Nat.sub_self]
  rfl

/-! ## Payloads cut short -/

theorem getD_take {n k : ℕ} (h : k < n) (p : List UInt8) : (p.take n).getD k 0 = p.getD k 0 := by
  rw [List.getD_eq_getElem?_getD, List.getElem?_take_of_lt h, ← List.getD_eq_getElem?_getD]

/-- A field that lies in the bytes received is the one that was sent. -/
theorem le16Load_take {n off : ℕ} (h : off + 2 ≤ n) (p : List UInt8) :
    le16Load (p.take n) off = le16Load p off :=
  le16Load_congr fun _ _ hhi => getD_take (Nat.lt_of_lt_of_le hhi h) p

theorem le32Load_take {n off : ℕ} (h : off + 4 ≤ n) (p : List UInt8) :
    le32Load (p.take n) off = le32Load p off :=
  le32Load_congr fun _ _ hhi => getD_take (Nat.lt_of_lt_of_le hhi h) p

end OpenEVCharger
