import OpenEVCharger.Persist.Pingpong

/-!
# Boot configuration

`persist/boot_config.c`: a 32-byte ping-pong record and its copy in RAM. Every
setter compares with the copy, changes the copy and then stores it, so that a
store that fails leaves the copy ahead of the flash.
-/

namespace OpenEVCharger

open NorFlash (Mem Agree)

def bootConfigSlotA : ℕ := 0x000000
def bootConfigSlotB : ℕ := 0x001000
def bootConfigVersion : UInt8 := 1
abbrev bootConfigSize : ℕ := 32

/-- `struct boot_config`, as the packed bytes the ping-pong layer sees. -/
@[ext] structure BootConfig where
  bytes : List UInt8
  size : bytes.length = bootConfigSize
  deriving DecidableEq

namespace BootConfig

/-! ## Fields -/

abbrev versionOff : ℕ := 0
abbrev fc41dAdvertisedAmpsOff : ℕ := 8
abbrev requireRfidAuthOff : ℕ := 9
abbrev pendingOtaFlagOff : ℕ := 10
abbrev stagedImageSizeOff : ℕ := 12
abbrev stagedImageCrc32Off : ℕ := 16
abbrev gfciFaultPolicyOff : ℕ := 20

def byteAt (off : ℕ) (c : BootConfig) : UInt8 := c.bytes.getD off 0

def fc41dAdvertisedAmps (c : BootConfig) : UInt8 := c.byteAt fc41dAdvertisedAmpsOff
def requireRfidAuth (c : BootConfig) : UInt8 := c.byteAt requireRfidAuthOff
def pendingOtaFlag (c : BootConfig) : UInt8 := c.byteAt pendingOtaFlagOff
def stagedImageSize (c : BootConfig) : UInt32 := le32Load c.bytes stagedImageSizeOff
def stagedImageCrc32 (c : BootConfig) : UInt32 := le32Load c.bytes stagedImageCrc32Off
def gfciFaultPolicy (c : BootConfig) : UInt8 := c.byteAt gfciFaultPolicyOff

def setByte (off : ℕ) (v : UInt8) (h : off + 1 ≤ bootConfigSize) (c : BootConfig) : BootConfig :=
  ⟨setBytes off [v] c.bytes, (length_setBytes (c.size.symm ▸ h)).trans c.size⟩

def setWord (off : ℕ) (v : UInt32) (h : off + 4 ≤ bootConfigSize) (c : BootConfig) : BootConfig :=
  ⟨setBytes off (le32Bytes v) c.bytes, (length_setBytes (c.size.symm ▸ h)).trans c.size⟩

/-- All bytes zero, as after a `memset`. -/
def zero : BootConfig := ⟨List.replicate bootConfigSize 0, List.length_replicate⟩

def setVersion (c : BootConfig) : BootConfig :=
  c.setByte versionOff bootConfigVersion (by decide)

end BootConfig

/-- The three fields of a staged image. -/
structure PendingOta where
  flag : UInt8
  imageSize : UInt32
  imageCrc32 : UInt32
  deriving DecidableEq, Repr

namespace BootConfig

def pendingOta (c : BootConfig) : PendingOta :=
  ⟨c.pendingOtaFlag, c.stagedImageSize, c.stagedImageCrc32⟩

def setPendingOta (p : PendingOta) (c : BootConfig) : BootConfig :=
  ((c.setByte pendingOtaFlagOff p.flag (by decide)).setWord stagedImageSizeOff p.imageSize
    (by decide)).setWord stagedImageCrc32Off p.imageCrc32 (by decide)

end BootConfig

/-! ## Load and store -/

/-- What a load or a setter returns: the return code, the copy in RAM and the chip. -/
structure BootConfigResult where
  rc : Int
  cfg : BootConfig
  chip : W25q

def bootConfigPingpongStore (c : BootConfig) (d : W25q) : BootConfigResult :=
  let st := pingpongStore bootConfigSlotA bootConfigSlotB c.bytes d
  ⟨st.rc, ⟨st.record, length_pingpongStore_record.trans c.size⟩, st.chip⟩

/-- `store`, the end of every setter. -/
def bootConfigStore (c : BootConfig) (d : W25q) : BootConfigResult :=
  let st := bootConfigPingpongStore c.setVersion d
  if st.rc < 0 then st else { st with rc := 0 }

/-- The return code and the record of a ping-pong load of the right length. -/
def bootConfigReadResult (x : Int × List UInt8 × Option (Slot × UInt32))
    (h : x.2.1.length = bootConfigSize) : Int × BootConfig :=
  (x.1, ⟨x.2.1, h⟩)

theorem bootConfigReadResult_rc {x : Int × List UInt8 × Option (Slot × UInt32)}
    (h : x.2.1.length = bootConfigSize) : (bootConfigReadResult x h).1 = x.1 := rfl

theorem bootConfigReadResult_bytes {x : Int × List UInt8 × Option (Slot × UInt32)}
    (h : x.2.1.length = bootConfigSize) : (bootConfigReadResult x h).2.bytes = x.2.1 := rfl

theorem length_bootConfigLoad (m : Mem) :
    (pingpongLoad bootConfigSlotA bootConfigSlotB bootConfigSize m).2.1.length =
      bootConfigSize :=
  length_pingpongLoad (by decide)

/-- The record a load finds in the flash: its return code and its bytes. -/
def bootConfigRead (m : Mem) : Int × BootConfig :=
  bootConfigReadResult (pingpongLoad bootConfigSlotA bootConfigSlotB bootConfigSize m)
    (length_bootConfigLoad m)

theorem bootConfigRead_rc (m : Mem) :
    (bootConfigRead m).1 = (pingpongLoad bootConfigSlotA bootConfigSlotB bootConfigSize m).1 :=
  bootConfigReadResult_rc (length_bootConfigLoad m)

theorem bootConfigRead_bytes (m : Mem) :
    (bootConfigRead m).2.bytes =
      (pingpongLoad bootConfigSlotA bootConfigSlotB bootConfigSize m).2.1 :=
  bootConfigReadResult_bytes (length_bootConfigLoad m)

/-- The load at boot, which writes a record of defaults when there is none. -/
def bootConfigLoad (d : W25q) : BootConfigResult :=
  let r := bootConfigRead d.mem
  if r.1 < 0 then ⟨r.1, r.2, d⟩
  else if r.1 = 1 then
    let st := bootConfigPingpongStore BootConfig.zero.setVersion d
    if st.rc < 0 then st else { st with rc := 0 }
  else ⟨0, r.2, d⟩

/-! ## Setters -/

/-- The shape of every setter: nothing when the copy holds the value already, and
else the changed copy stored. -/
def bootConfigUpdate (unchanged : Bool) (new c : BootConfig) (d : W25q) : BootConfigResult :=
  if unchanged then ⟨0, c, d⟩ else bootConfigStore new d

theorem fc41dAdvertisedAmpsOff_le : BootConfig.fc41dAdvertisedAmpsOff + 1 ≤ bootConfigSize := by
  decide

theorem requireRfidAuthOff_le : BootConfig.requireRfidAuthOff + 1 ≤ bootConfigSize := by decide

theorem gfciFaultPolicyOff_le : BootConfig.gfciFaultPolicyOff + 1 ≤ bootConfigSize := by decide

def bootConfigSetAdvertisedAmps (amps : UInt8) (c : BootConfig) (d : W25q) : BootConfigResult :=
  bootConfigUpdate (decide (c.fc41dAdvertisedAmps = amps))
    (c.setByte BootConfig.fc41dAdvertisedAmpsOff amps fc41dAdvertisedAmpsOff_le) c d

def bootConfigSetRequireRfidAuth (enable : UInt8) (c : BootConfig) (d : W25q) :
    BootConfigResult :=
  let enable : UInt8 := if enable ≠ 0 then 1 else 0
  bootConfigUpdate (decide (c.requireRfidAuth = enable))
    (c.setByte BootConfig.requireRfidAuthOff enable requireRfidAuthOff_le) c d

/-- A policy above `GFCI_POLICY_WARN` is refused. -/
def bootConfigSetGfciFaultPolicy (policy : UInt8) (c : BootConfig) (d : W25q) :
    BootConfigResult :=
  if 1 < policy then ⟨-1, c, d⟩
  else
    bootConfigUpdate (decide (c.gfciFaultPolicy = policy))
      (c.setByte BootConfig.gfciFaultPolicyOff policy gfciFaultPolicyOff_le) c d

def bootConfigSetPendingOta (pending : UInt8) (imageSize imageCrc32 : UInt32) (c : BootConfig)
    (d : W25q) : BootConfigResult :=
  let p : PendingOta := if pending ≠ 0 then ⟨1, imageSize, imageCrc32⟩ else ⟨0, 0, 0⟩
  bootConfigUpdate (decide (c.pendingOta = p)) (c.setPendingOta p) c d

/-! ## The pending fields through a store -/

theorem slotPair_bootConfig : SlotPair bootConfigSlotA bootConfigSlotB :=
  ⟨by decide, by decide, by decide⟩

/-- An erased slot is not a valid record. -/
theorem not_recordValid_blank :
    recordValid (List.replicate bootConfigSize NorFlash.blank) = false := by decide +kernel

namespace BootConfig

/-- The fields one by one. -/
theorem fields_of_pendingOta {c : BootConfig} {p : PendingOta} (h : c.pendingOta = p) :
    c.pendingOtaFlag = p.flag ∧ c.stagedImageSize = p.imageSize ∧
      c.stagedImageCrc32 = p.imageCrc32 := by
  subst h
  exact ⟨rfl, rfl, rfl⟩

theorem pendingOta_congr {c c' : BootConfig}
    (h : ∀ k, 10 ≤ k → k < 20 → c.bytes.getD k 0 = c'.bytes.getD k 0) :
    c.pendingOta = c'.pendingOta := by
  have hflag : c.pendingOtaFlag = c'.pendingOtaFlag := h 10 (by decide) (by decide)
  have hsize : c.stagedImageSize = c'.stagedImageSize :=
    le32Load_congr fun k hlo hhi => h k (by unfold stagedImageSizeOff at hlo; omega)
      (by unfold stagedImageSizeOff at hhi; omega)
  have hcrc : c.stagedImageCrc32 = c'.stagedImageCrc32 :=
    le32Load_congr fun k hlo hhi => h k (by unfold stagedImageCrc32Off at hlo; omega)
      (by unfold stagedImageCrc32Off at hhi; omega)
  rw [pendingOta, pendingOta, hflag, hsize, hcrc]

/-- Setting a byte outside the pending fields leaves them alone. -/
theorem pendingOta_setByte {off : ℕ} {v : UInt8} (h : off + 1 ≤ bootConfigSize)
    (hout : off < 10 ∨ 20 ≤ off) (c : BootConfig) :
    (c.setByte off v h).pendingOta = c.pendingOta := by
  refine pendingOta_congr fun k hlo hhi => ?_
  have hlen : off + [v].length ≤ c.bytes.length := c.size.symm ▸ h
  have hget := getD_setBytes hlen k
  rw [if_neg (by rw [List.length_singleton]; omega)] at hget
  exact hget

theorem byteAt_setByte_self {off : ℕ} {v : UInt8} (h : off + 1 ≤ bootConfigSize)
    (c : BootConfig) : (c.setByte off v h).byteAt off = v := by
  have hlen : off + [v].length ≤ c.bytes.length := c.size.symm ▸ h
  have hget := getD_setBytes hlen off
  rw [if_pos (by rw [List.length_singleton]; omega), Nat.sub_self] at hget
  exact hget

/-- Setting a word leaves the bytes before it alone. -/
theorem getD_setWord_before {off k : ℕ} {v : UInt32} (h : off + 4 ≤ bootConfigSize)
    (hk : k < off) (c : BootConfig) :
    (c.setWord off v h).bytes.getD k 0 = c.bytes.getD k 0 := by
  have hlen : off + (le32Bytes v).length ≤ c.bytes.length := c.size.symm ▸ h
  have hget := getD_setBytes hlen k
  rw [if_neg (by omega)] at hget
  exact hget

theorem le32Load_setWord_self {off : ℕ} {v : UInt32} (h : off + 4 ≤ bootConfigSize)
    (c : BootConfig) : le32Load (c.setWord off v h).bytes off = v :=
  le32Load_setBytes (c.size.symm ▸ h)

@[simp] theorem pendingOta_setPendingOta (p : PendingOta) (c : BootConfig) :
    (c.setPendingOta p).pendingOta = p := by
  have hcrc : (c.setPendingOta p).stagedImageCrc32 = p.imageCrc32 := le32Load_setWord_self _ _
  have hsize : (c.setPendingOta p).stagedImageSize = p.imageSize :=
    (le32Load_congr fun k _ hhi => getD_setWord_before (by decide) hhi _).trans
      (le32Load_setWord_self (by decide) _)
  have hflag : (c.setPendingOta p).pendingOtaFlag = p.flag :=
    (getD_setWord_before (by decide) (by decide) _).trans
      ((getD_setWord_before (by decide) (by decide) _).trans (byteAt_setByte_self (by decide) _))
  rw [pendingOta, hflag, hsize, hcrc]

theorem pendingOta_setVersion (c : BootConfig) : c.setVersion.pendingOta = c.pendingOta :=
  pendingOta_setByte (by decide) (.inl (by decide)) c

end BootConfig

/-! ## Stores -/

variable {c : BootConfig} {d : W25q} {m : Mem}

theorem bootConfigPingpongStore_chip (c : BootConfig) (d : W25q) :
    (bootConfigPingpongStore c d).chip =
      (pingpongStore bootConfigSlotA bootConfigSlotB c.bytes d).chip := rfl

theorem bootConfigPingpongStore_bytes (c : BootConfig) (d : W25q) :
    (bootConfigPingpongStore c d).cfg.bytes =
      (pingpongStore bootConfigSlotA bootConfigSlotB c.bytes d).record := rfl

/-- The record of the caller keeps its pending fields in a store, however it ends. -/
theorem pendingOta_pingpongStore (c : BootConfig) (d : W25q) :
    (bootConfigPingpongStore c d).cfg.pendingOta = c.pendingOta := by
  refine BootConfig.pendingOta_congr fun k hlo hhi => ?_
  rw [bootConfigPingpongStore_bytes]
  rcases pingpongStore_record bootConfigSlotA bootConfigSlotB c.bytes d with
    hrec | ⟨hsize, counter, hrec⟩
  · rw [hrec]
  · rw [hrec]
    have hlen : c.bytes.length = 32 := c.size
    exact getD_stampRecord hsize (.inr (by omega)) (by omega)

/-- A store writes nothing outside the two slots. -/
theorem bootConfigStore_agree {a n : ℕ} (h : 0x2000 ≤ a) :
    Agree (bootConfigStore c d).chip.mem d.mem a n := by
  have hagree : Agree (bootConfigPingpongStore c.setVersion d).chip.mem d.mem a n := by
    refine pingpongStore_agree slotPair_bootConfig fun slot => .inr ?_
    cases slot
    · exact Nat.le_trans (by decide) h
    · exact Nat.le_trans (by decide) h
  unfold bootConfigStore
  dsimp only
  split
  · exact hagree
  · exact hagree

theorem bootConfigUpdate_agree {unchanged : Bool} {new : BootConfig} {a n : ℕ} (h : 0x2000 ≤ a) :
    Agree (bootConfigUpdate unchanged new c d).chip.mem d.mem a n := by
  rw [bootConfigUpdate]
  cases unchanged with
  | false => exact bootConfigStore_agree h
  | true => exact Agree.refl _ _ _

theorem bootConfigStore_chip (c : BootConfig) (d : W25q) :
    (bootConfigStore c d).chip = (bootConfigPingpongStore c.setVersion d).chip := by
  rw [bootConfigStore]
  split
  · rfl
  · rfl

theorem bootConfigStore_cfg (c : BootConfig) (d : W25q) :
    (bootConfigStore c d).cfg = (bootConfigPingpongStore c.setVersion d).cfg := by
  rw [bootConfigStore]
  split
  · rfl
  · rfl

theorem bootConfigStore_rc (c : BootConfig) (d : W25q) :
    (bootConfigStore c d).rc = (bootConfigPingpongStore c.setVersion d).rc := by
  rw [bootConfigStore]
  split
  · rfl
  · next hneg => exact (pingpongStore_rc.resolve_right hneg).symm

theorem bootConfigStore_ok (hrc : (bootConfigStore c d).rc = 0) :
    (bootConfigPingpongStore c.setVersion d).rc = 0 ∧
      (bootConfigStore c d).chip = (bootConfigPingpongStore c.setVersion d).chip := by
  unfold bootConfigStore at hrc ⊢
  dsimp only at hrc ⊢
  split at hrc
  · next hneg => exact absurd hrc (Int.ne_of_lt hneg)
  · next hneg =>
    rw [if_neg hneg]
    exact ⟨pingpongStore_rc.resolve_right hneg, rfl⟩

/-- After a store that succeeds the load finds the record stored. -/
theorem bootConfigRead_pingpongStore (hrc : (bootConfigPingpongStore c d).rc = 0) :
    bootConfigRead (bootConfigPingpongStore c d).chip.mem =
      (0, (bootConfigPingpongStore c d).cfg) := by
  have hblank : recordValid (List.replicate c.bytes.length NorFlash.blank) = false := by
    rw [c.size]
    exact not_recordValid_blank
  obtain ⟨counter, slot, hrec, hload⟩ := pingpongStore_load slotPair_bootConfig hblank hrc
  rw [c.size] at hload
  rw [← bootConfigPingpongStore_bytes] at hrec
  rw [← bootConfigPingpongStore_chip] at hload
  have hrc' : (bootConfigRead (bootConfigPingpongStore c d).chip.mem).1 = 0 := by
    rw [bootConfigRead_rc, hload]
  have hcfg : (bootConfigRead (bootConfigPingpongStore c d).chip.mem).2.bytes =
      (bootConfigPingpongStore c d).cfg.bytes := by
    rw [bootConfigRead_bytes, hload, hrec]
  exact Prod.ext hrc' (BootConfig.ext hcfg)

/-- After a store that succeeds the load finds the pending fields of the copy. -/
theorem bootConfigStore_read (hrc : (bootConfigStore c d).rc = 0) :
    (bootConfigRead (bootConfigStore c d).chip.mem).1 = 0 ∧
      (bootConfigRead (bootConfigStore c d).chip.mem).2.pendingOta = c.pendingOta := by
  obtain ⟨hst, hchip⟩ := bootConfigStore_ok hrc
  rw [hchip, bootConfigRead_pingpongStore hst]
  refine ⟨rfl, ?_⟩
  rw [pendingOta_pingpongStore, BootConfig.pendingOta_setVersion]

/-! ## Loads -/

theorem bootConfigRead_of_load {flash flash' : Mem}
    (h : pingpongLoad bootConfigSlotA bootConfigSlotB bootConfigSize flash' =
      pingpongLoad bootConfigSlotA bootConfigSlotB bootConfigSize flash) :
    bootConfigRead flash' = bootConfigRead flash := by
  refine Prod.ext ?_ (BootConfig.ext ?_)
  · rw [bootConfigRead_rc, bootConfigRead_rc, h]
  · rw [bootConfigRead_bytes, bootConfigRead_bytes, h]

/-- The record is that of the first two sectors. -/
theorem bootConfigRead_congr {flash flash' : Mem} (h : Agree flash' flash 0 0x2000) :
    bootConfigRead flash' = bootConfigRead flash := by
  refine bootConfigRead_of_load (pingpongLoad_congr .A ?_ ?_)
  · exact (h.mono (Nat.zero_le _) (by decide)).read
  · exact (h.mono (Nat.zero_le _) (by decide)).read

theorem bootConfigRead_cases (m : Mem) :
    (bootConfigRead m).1 = 0 ∨ (bootConfigRead m).1 = 1 ∧ (bootConfigRead m).2 = .zero := by
  have hload := bootConfigRead_bytes m
  rw [bootConfigRead_rc]
  rw [pingpongLoad_eq (by decide)] at hload ⊢
  rcases loadCurrent_cases bootConfigSize (readAndValidate bootConfigSlotA bootConfigSize m)
    (readAndValidate bootConfigSlotB bootConfigSize m) with hrc | ⟨hrc, hzero⟩
  · exact .inl hrc
  · exact .inr ⟨hrc, BootConfig.ext (hload.trans hzero)⟩

/-- A load that finds a record writes nothing. -/
theorem bootConfigLoad_of_read (h : (bootConfigRead d.mem).1 = 0) :
    bootConfigLoad d = ⟨0, (bootConfigRead d.mem).2, d⟩ := by
  rw [bootConfigLoad]
  generalize bootConfigRead d.mem = r at h
  obtain ⟨rc, cfg⟩ := r
  subst h
  rfl

/-- A load that finds no record stores the defaults. -/
theorem bootConfigLoad_defaults (h : (bootConfigRead d.mem).1 = 1) :
    (bootConfigLoad d).chip = (bootConfigPingpongStore BootConfig.zero.setVersion d).chip ∧
      (bootConfigLoad d).cfg = (bootConfigPingpongStore BootConfig.zero.setVersion d).cfg := by
  rw [bootConfigLoad, h, if_neg nofun, if_pos rfl]
  dsimp only
  split
  · exact ⟨rfl, rfl⟩
  · exact ⟨rfl, rfl⟩

theorem bootConfigLoad_of_found (h : bootConfigRead d.mem = (0, c)) :
    bootConfigLoad d = ⟨0, c, d⟩ := by
  rw [bootConfigLoad, h]
  rfl

theorem pendingOta_zero : BootConfig.zero.pendingOta = ⟨0, 0, 0⟩ := by decide

/-- The load finds the pending fields of the record in the flash, and none when it
writes the defaults. -/
theorem pendingOta_bootConfigLoad (d : W25q) :
    (bootConfigLoad d).cfg.pendingOta = (bootConfigRead d.mem).2.pendingOta := by
  rcases bootConfigRead_cases d.mem with hrc | ⟨hrc, hzero⟩
  · rw [bootConfigLoad_of_read hrc]
  · have hst : (bootConfigPingpongStore BootConfig.zero.setVersion d).cfg.pendingOta =
        BootConfig.zero.pendingOta := by
      rw [pendingOta_pingpongStore, BootConfig.pendingOta_setVersion]
    rw [hzero, bootConfigLoad, hrc, ← hst]
    generalize bootConfigPingpongStore BootConfig.zero.setVersion d = st
    rw [if_neg (by decide), if_pos rfl]
    dsimp only
    split
    · rfl
    · rfl

end OpenEVCharger
