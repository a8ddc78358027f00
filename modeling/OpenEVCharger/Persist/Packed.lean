import OpenEVCharger.Persist.Pingpong

/-!
# Packed records

A packed struct as its bytes, with the fields read and written at their offsets. A
write of one field is seen in that field and in no other. Most of them are kept as
ping-pong records, with the counter at byte 4 and the checksum in the last word.
-/

namespace OpenEVCharger

open NorFlash (Mem Agree)

/-! ## Half words -/

def le16Load (p : List UInt8) (off : ℕ) : UInt16 :=
  UInt16.ofNat ((p.getD off 0).toNat + (p.getD (off + 1) 0).toNat * 2 ^ 8)

def le16Bytes (v : UInt16) : List UInt8 := [v.toUInt8, (v >>> 8).toUInt8]

@[simp] theorem length_le16Bytes (v : UInt16) : (le16Bytes v).length = 2 := rfl

theorem le16Load_congr {p q : List UInt8} {off : ℕ}
    (h : ∀ k, off ≤ k → k < off + 2 → p.getD k 0 = q.getD k 0) :
    le16Load p off = le16Load q off := by
  rw [le16Load, le16Load, h off (by omega) (by omega), h (off + 1) (by omega) (by omega)]

/-! ## Records -/

@[ext] structure Packed (n : ℕ) where
  bytes : List UInt8
  size : bytes.length = n
  deriving DecidableEq

namespace Packed

variable {n : ℕ}

/-- All bytes zero, as after a `memset`. -/
def zero (n : ℕ) : Packed n := ⟨List.replicate n 0, List.length_replicate⟩

def byteAt (off : ℕ) (r : Packed n) : UInt8 := r.bytes.getD off 0
def half (off : ℕ) (r : Packed n) : UInt16 := le16Load r.bytes off
def word (off : ℕ) (r : Packed n) : UInt32 := le32Load r.bytes off

/-- The bytes from `off` on replaced; nothing when they do not fit. -/
def set (off : ℕ) (v : List UInt8) (r : Packed n) : Packed n :=
  if h : off + v.length ≤ n then
    ⟨setBytes off v r.bytes, (length_setBytes (r.size.symm ▸ h)).trans r.size⟩
  else r

def setByte (off : ℕ) (v : UInt8) (r : Packed n) : Packed n := r.set off [v]
def setHalf (off : ℕ) (v : UInt16) (r : Packed n) : Packed n := r.set off (le16Bytes v)
def setWord (off : ℕ) (v : UInt32) (r : Packed n) : Packed n := r.set off (le32Bytes v)

/-! ## Reading what was written -/

theorem getD_set {off : ℕ} {v : List UInt8} (h : off + v.length ≤ n) (r : Packed n) (k : ℕ) :
    (r.set off v).bytes.getD k 0 =
      if off ≤ k ∧ k < off + v.length then v.getD (k - off) 0 else r.bytes.getD k 0 := by
  rw [set, dif_pos h]
  exact getD_setBytes (r.size.symm ▸ h) k

/-- The bytes outside the ones written stay. -/
theorem getD_set_other {off k : ℕ} {v : List UInt8} (hk : k < off ∨ off + v.length ≤ k)
    (r : Packed n) : (r.set off v).bytes.getD k 0 = r.bytes.getD k 0 := by
  by_cases h : off + v.length ≤ n
  · rw [getD_set h, if_neg (by omega)]
  · rw [set, dif_neg h]

theorem byteAt_setByte {off : ℕ} {v : UInt8} (h : off + 1 ≤ n) (r : Packed n) :
    (r.setByte off v).byteAt off = v := by
  rw [byteAt, setByte, getD_set h, if_pos (by rw [List.length_singleton]; omega), Nat.sub_self]
  rfl

theorem half_setHalf {off : ℕ} {v : UInt16} (h : off + 2 ≤ n) (r : Packed n) :
    (r.setHalf off v).half off = v := by
  have hv := v.toNat_lt
  rw [half, setHalf, le16Load, getD_set h, getD_set h, if_pos (by rw [length_le16Bytes]; omega),
    if_pos (by rw [length_le16Bytes]; omega), Nat.sub_self, Nat.add_sub_cancel_left,
    ← UInt16.toNat_inj]
  simp only [le16Bytes, List.getD_cons_zero, List.getD_cons_succ, UInt16.toNat_toUInt8,
    UInt16.toNat_shiftRight, UInt16.reduceToNat, Nat.reduceMod, Nat.shiftRight_eq_div_pow,
    UInt16.toNat_ofNat']
  omega

theorem word_setWord {off : ℕ} {v : UInt32} (h : off + 4 ≤ n) (r : Packed n) :
    (r.setWord off v).word off = v := by
  have hfits : off + (le32Bytes v).length ≤ n := h
  rw [word, setWord, set, dif_pos hfits]
  exact le32Load_setBytes (r.size.symm ▸ h)

theorem byteAt_set_other {off k : ℕ} {v : List UInt8} (hk : k < off ∨ off + v.length ≤ k)
    (r : Packed n) : (r.set off v).byteAt k = r.byteAt k := getD_set_other hk r

theorem half_set_other {off k : ℕ} {v : List UInt8} (hk : k + 2 ≤ off ∨ off + v.length ≤ k)
    (r : Packed n) : (r.set off v).half k = r.half k :=
  le16Load_congr fun i hlo hhi => getD_set_other (by omega) r

theorem word_set_other {off k : ℕ} {v : List UInt8} (hk : k + 4 ≤ off ∨ off + v.length ≤ k)
    (r : Packed n) : (r.set off v).word k = r.word k :=
  le32Load_congr fun i hlo hhi => getD_set_other (by omega) r

theorem half_setHalf_other {off k : ℕ} {v : UInt16} (hk : k + 2 ≤ off ∨ off + 2 ≤ k)
    (r : Packed n) : (r.setHalf off v).half k = r.half k := half_set_other hk r

theorem half_setWord_other {off k : ℕ} {v : UInt32} (hk : k + 2 ≤ off ∨ off + 4 ≤ k)
    (r : Packed n) : (r.setWord off v).half k = r.half k := half_set_other hk r

theorem word_setWord_other {off k : ℕ} {v : UInt32} (hk : k + 4 ≤ off ∨ off + 4 ≤ k)
    (r : Packed n) : (r.setWord off v).word k = r.word k := word_set_other hk r

theorem byteAt_setHalf_other {off k : ℕ} {v : UInt16} (hk : k < off ∨ off + 2 ≤ k)
    (r : Packed n) : (r.setHalf off v).byteAt k = r.byteAt k := byteAt_set_other hk r

theorem byteAt_setWord_other {off k : ℕ} {v : UInt32} (hk : k < off ∨ off + 4 ≤ k)
    (r : Packed n) : (r.setWord off v).byteAt k = r.byteAt k := byteAt_set_other hk r

/-- The bytes before the ones written stay. -/
theorem take_set {off k : ℕ} {v : List UInt8} (hk : k ≤ off) (r : Packed n) :
    (r.set off v).bytes.take k = r.bytes.take k := by
  by_cases h : off + v.length ≤ n
  · rw [set, dif_pos h]
    have hoff : (r.bytes.take off).length = off := by
      rw [List.length_take, r.size]
      omega
    show (r.bytes.take off ++ v ++ _).take k = _
    rw [List.append_assoc, List.take_append_of_le_length (by omega), List.take_take,
      Nat.min_eq_left hk]
  · rw [set, dif_neg h]

end Packed

/-! ## Packed records in ping-pong slots -/

/-- What a store returns: the return code, the caller's record, stamped, and the chip. -/
structure PackedStored (n : ℕ) where
  rc : Int
  record : Packed n
  chip : W25q

def packedStore {n : ℕ} (addrA addrB : ℕ) (r : Packed n) (d : W25q) : PackedStored n :=
  let st := pingpongStore addrA addrB r.bytes d
  ⟨st.rc, ⟨st.record, length_pingpongStore_record.trans r.size⟩, st.chip⟩

/-- What a load finds: the return code and the record. -/
def packedRead (addrA addrB n : ℕ) (m : Mem) : Int × Packed n :=
  let x := pingpongLoad addrA addrB n m
  if h : x.2.1.length = n then (x.1, ⟨x.2.1, h⟩) else (x.1, .zero n)

variable {addrA addrB n : ℕ} {r : Packed n} {d : W25q} {m : Mem}

theorem packedRead_rc : (packedRead addrA addrB n m).1 = (pingpongLoad addrA addrB n m).1 := by
  rw [packedRead]
  split
  · rfl
  · rfl

theorem packedRead_bytes (hsize : pingpongSizeOk n = true) :
    (packedRead addrA addrB n m).2.bytes = (pingpongLoad addrA addrB n m).2.1 := by
  rw [packedRead, dif_pos (length_pingpongLoad hsize)]

/-- A load finds a record, or returns one and zeroes. -/
theorem packedRead_cases (hsize : pingpongSizeOk n = true) (m : Mem) :
    (packedRead addrA addrB n m).1 = 0 ∨ packedRead addrA addrB n m = (1, .zero n) := by
  have hbytes := @packedRead_bytes addrA addrB n m hsize
  have hrc := @packedRead_rc addrA addrB n m
  rw [pingpongLoad_eq hsize] at hbytes hrc
  rcases loadCurrent_cases n (readAndValidate addrA n m) (readAndValidate addrB n m) with
    hfound | ⟨hnone, hzero⟩
  · exact .inl (hrc.trans hfound)
  · exact .inr (Prod.ext (hrc.trans hnone) (Packed.ext (hbytes.trans hzero)))

/-- A read sees the two slots only. -/
theorem packedRead_congr {m' : Mem} (hsize : pingpongSizeOk n = true) (hA : Agree m' m addrA n)
    (hB : Agree m' m addrB n) : packedRead addrA addrB n m' = packedRead addrA addrB n m := by
  have hload := @pingpongLoad_congr addrA addrB m m' n .A hA.read hB.read
  refine Prod.ext ?_ (Packed.ext ?_)
  · rw [packedRead_rc, packedRead_rc, hload]
  · rw [packedRead_bytes hsize, packedRead_bytes hsize, hload]

/-- A store writes nothing outside the two slots, however it ends. -/
theorem packedStore_agree (h : SlotPair addrA addrB) {a k : ℕ}
    (hout : OutsideSlots addrA addrB a k) :
    Agree (packedStore addrA addrB r d).chip.mem d.mem a k := pingpongStore_agree h hout

theorem packedStore_rc :
    (packedStore addrA addrB r d).rc = 0 ∨ (packedStore addrA addrB r d).rc < 0 :=
  pingpongStore_rc

/-- After a store that succeeds the load finds the record stored. -/
theorem packedRead_store (h : SlotPair addrA addrB) (hsize : pingpongSizeOk n = true)
    (hrc : (packedStore addrA addrB r d).rc = 0) :
    packedRead addrA addrB n (packedStore addrA addrB r d).chip.mem =
      (0, (packedStore addrA addrB r d).record) := by
  have hblank : recordValid (List.replicate r.bytes.length NorFlash.blank) = false := by
    rw [r.size]
    exact not_recordValid_erased hsize
  obtain ⟨counter, slot, hrec, hload⟩ := pingpongStore_load h hblank hrc
  rw [r.size] at hload
  refine Prod.ext ?_ (Packed.ext ?_)
  · rw [packedRead_rc]
    exact congrArg (fun x => x.1) hload
  · rw [packedRead_bytes hsize]
    exact (congrArg (fun x => x.2.1) hload).trans hrec.symm

/-- A store leaves the caller's payload alone. -/
theorem getD_packedStore {k : ℕ} (hlo : k < 4 ∨ 8 ≤ k) (hhi : k < n - 4) :
    (packedStore addrA addrB r d).record.bytes.getD k 0 = r.bytes.getD k 0 := by
  show (pingpongStore addrA addrB r.bytes d).record.getD k 0 = _
  rcases pingpongStore_record addrA addrB r.bytes d with hrec | ⟨hsize, counter, hrec⟩
  · rw [hrec]
  · rw [hrec]
    exact getD_stampRecord hsize hlo (by rw [r.size]; exact hhi)

end OpenEVCharger
