import OpenEVCharger.Companion.Commands

/-!
# What the meter publishes

A full cycle of readings goes to shared memory four times: as compact fields for the stock
daemons, raw, as text, and cooked for the web. The compact fields divide by the gain of the
voltage and keep the low sixteen bits.
-/

namespace OpenEVCharger

/-! ## Readings and gains -/

/-- `struct meter_readings`. -/
structure MeterReadings where
  vrmsRaw : UInt32
  irmsRaw : UInt32
  powerRaw : UInt32
  energyRaw : UInt32
  valid : Bool
  deriving DecidableEq

/-- `struct meter_cal`. -/
structure MeterCal where
  vgain : ℤ
  igain : ℤ
  wgain : ℤ
  vScale : ℚ

/-- The text behind the first occurrence of a key. -/
def behindKey (key : List Char) : List Char → Option (List Char)
  | [] => if key = [] then some [] else none
  | c :: rest => if key <+: c :: rest then some ((c :: rest).drop key.length) else behindKey key rest

/-- A gain of the file, 1 if it is missing or not positive. -/
def loadGain (key : String) (buf : List Char) : ℤ :=
  match behindKey key.toList buf with
  | none => 1
  | some text => if atoi text ≤ 0 then 1 else atoi text

/-- `meter_load_cal`, with the voltage scale that is set after it; no file leaves the gains 1. -/
def meterLoadCal (file : Option (List Char)) (vScale : ℚ) : MeterCal :=
  let buf := cString ((file.getD []).take 255)
  { vgain := loadGain "Vgain:" buf
    igain := loadGain "Igain:" buf
    wgain := loadGain "Wgain:" buf
    vScale := if 0 < vScale then vScale else 60 }

/-- A gain as it is divided by. -/
def gainOf (gain : ℤ) : UInt32 := if 0 < gain then UInt32.ofNat gain.toNat else 1

/-! ## Publishing -/

def shmemWriteU16Le (off : ℕ) (v : UInt16) (sm : ShmemSegment) : Option ShmemSegment :=
  (writablePtr sm off 2).map fun base =>
    let base := Function.update base off v.toUInt8
    { sm with base := some (Function.update base (off + 1) (v >>> 8).toUInt8) }

/-- A write whose result is not looked at. -/
def tryWrite (write : ShmemSegment → Option ShmemSegment) (sm : ShmemSegment) : ShmemSegment :=
  (write sm).getD sm

def publishCompact (r : MeterReadings) (cal : MeterCal) (sm : ShmemSegment) : ShmemSegment :=
  let vgain := gainOf cal.vgain
  let sm := tryWrite (shmemWriteU16Le 0x0000 (r.vrmsRaw / vgain).toUInt16) sm
  let sm := tryWrite (shmemWriteU16Le 0x0004 (r.vrmsRaw / vgain / 10).toUInt16) sm
  tryWrite (shmemWriteU32Le 0x000c (r.powerRaw / 100)) sm

def publishTelemetryBlock (r : MeterReadings) (sm : ShmemSegment) : ShmemSegment :=
  let sm := tryWrite (shmemWriteU32Le 0x015b r.vrmsRaw) sm
  let sm := tryWrite (shmemWriteU32Le 0x015f r.irmsRaw) sm
  let sm := tryWrite (shmemWriteU32Le 0x0163 r.powerRaw) sm
  tryWrite (shmemWriteU32Le 0x0167 r.energyRaw) sm

/-- Bytes one behind the other. -/
def writeBytes (off : ℕ) : List UInt8 → ShmemSegment → ShmemSegment
  | [], sm => sm
  | b :: bs, sm => writeBytes (off + 1) bs (tryWrite (shmemWriteU8 off b) sm)

def publishKwhAscii (r : MeterReadings) (cal : MeterCal) (sm : ShmemSegment) : ShmemSegment :=
  let kwh := binary64.round (binary64.round (r.energyRaw.toNat / (gainOf cal.wgain).toNat) / 100)
  let text := (printFixed 2 kwh).take 30
  writeBytes 0x05c0 (text.map (fun c => UInt8.ofNat c.toNat) ++ [0]) sm

/-- `(uint32_t)(q * scale + 0.5)` behind its check. -/
def cookedOf (q below scale : ℚ) : UInt32 :=
  if 0 < q ∧ q < below then
    UInt32.ofNat ⌊binary64.round (binary64.round (q * scale) + 1 / 2)⌋.toNat
  else 0

def publishCookedForWeb (r : MeterReadings) (cal : MeterCal) (sm : ShmemSegment) : ShmemSegment :=
  let vgain : ℚ := (gainOf cal.vgain).toNat
  let wgain : ℚ := (gainOf cal.wgain).toNat
  let vScale := if 0 < cal.vScale then cal.vScale else 60
  let voltageV := binary64.round (binary64.round (r.vrmsRaw.toNat / vgain) / vScale)
  let powerW := binary64.round (r.powerRaw.toNat / wgain)
  let currentA := if 1 < voltageV then binary64.round (powerW / voltageV) else 0
  let energyWh := binary64.round (binary64.round (r.energyRaw.toNat / wgain) * 10)
  let sm := tryWrite (shmemWriteU32Le 0x0500 (cookedOf voltageV 42949672 100)) sm
  let sm := tryWrite (shmemWriteU32Le 0x0504 (cookedOf currentA 4294967 1000)) sm
  let sm := tryWrite (shmemWriteU32Le 0x0508 (cookedOf powerW 4290000000 1)) sm
  tryWrite (shmemWriteU32Le 0x050c (cookedOf energyWh 4290000000 1)) sm

def meterPublishShmem (r : MeterReadings) (cal : MeterCal) (sm : ShmemSegment) : ShmemSegment :=
  if sm.writable = false || r.valid = false then sm
  else
    publishCookedForWeb r cal (publishKwhAscii r cal (publishTelemetryBlock r (publishCompact r cal sm)))

/-! ## The segment -/

/-- What `shmem_attach_rw` attaches. -/
def attachedRw (base : Shmem) : ShmemSegment := ⟨some base, 0x40000, true⟩

def shmemU16Le (sm : Shmem) (off : ℕ) : ℕ := (sm off).toNat + 256 * (sm (off + 1)).toNat

/-- The fields hold what their definitions say, and the raw block the readings they are from. -/
structure CompactFields (r : MeterReadings) (vgain : ℕ) (sm : Shmem) : Prop where
  vrms : shmemU16Le sm 0x0000 = r.vrmsRaw.toNat / vgain
  deci : shmemU16Le sm 0x0004 = shmemU16Le sm 0x0000 / 10
  power : shmemU32Le sm 0x000c = r.powerRaw.toNat / 100
  rawVrms : shmemU32Le sm 0x015b = r.vrmsRaw.toNat
  rawIrms : shmemU32Le sm 0x015f = r.irmsRaw.toNat
  rawPower : shmemU32Le sm 0x0163 = r.powerRaw.toNat
  rawEnergy : shmemU32Le sm 0x0167 = r.energyRaw.toNat

variable {base : Shmem} {off : ℕ} {r : MeterReadings} {cal : MeterCal}

theorem tryWrite_u8 (v : UInt8) (h : off < 0x40000) :
    tryWrite (shmemWriteU8 off v) (attachedRw base) = attachedRw (Function.update base off v) := by
  have hfits : ¬ 0x40000 < off + 1 := by omega
  simp [tryWrite, shmemWriteU8, writablePtr, attachedRw, hfits]

theorem tryWrite_u16 (v : UInt16) (h : off + 2 ≤ 0x40000) :
    tryWrite (shmemWriteU16Le off v) (attachedRw base) =
      attachedRw (Function.update (Function.update base off v.toUInt8) (off + 1)
        (v >>> 8).toUInt8) := by
  have hfits : ¬ 0x40000 < off + 2 := by omega
  simp [tryWrite, shmemWriteU16Le, writablePtr, attachedRw, hfits]

theorem tryWrite_u32 (v : UInt32) (h : off + 4 ≤ 0x40000) :
    tryWrite (shmemWriteU32Le off v) (attachedRw base) =
      attachedRw (Function.update (Function.update (Function.update (Function.update base off
        v.toUInt8) (off + 1) (v >>> 8).toUInt8) (off + 2) (v >>> 16).toUInt8) (off + 3)
          (v >>> 24).toUInt8) := by
  have hfits : ¬ 0x40000 < off + 4 := by omega
  simp [tryWrite, shmemWriteU32Le, writablePtr, attachedRw, hfits]

/-- A step that writes only from `lo` on, below `hi`. -/
def WritesWithin (lo hi : ℕ) (step : ShmemSegment → ShmemSegment) : Prop :=
  ∀ base, ∃ base', step (attachedRw base) = attachedRw base' ∧
    ∀ off, off < lo ∨ hi ≤ off → base' off = base off

theorem writesWithin_u8 (v : UInt8) {lo hi : ℕ} (hlo : lo ≤ off) (hhi : off < hi)
    (h : off < 0x40000) : WritesWithin lo hi (tryWrite (shmemWriteU8 off v)) := by
  intro base
  refine ⟨_, tryWrite_u8 v h, fun off' hoff => Function.update_of_ne (by omega) _ _⟩

theorem writesWithin_u32 (v : UInt32) {lo hi : ℕ} (hlo : lo ≤ off) (hhi : off + 4 ≤ hi)
    (h : off + 4 ≤ 0x40000) : WritesWithin lo hi (tryWrite (shmemWriteU32Le off v)) := by
  intro base
  refine ⟨_, tryWrite_u32 v h, fun off' hoff => ?_⟩
  rw [Function.update_of_ne (by omega), Function.update_of_ne (by omega),
    Function.update_of_ne (by omega), Function.update_of_ne (by omega)]

theorem WritesWithin.comp {lo hi : ℕ} {f g : ShmemSegment → ShmemSegment}
    (hf : WritesWithin lo hi f) (hg : WritesWithin lo hi g) : WritesWithin lo hi (g ∘ f) := by
  intro base
  obtain ⟨base', hfbase, hkept⟩ := hf base
  obtain ⟨base'', hgbase, hkept'⟩ := hg base'
  exact ⟨base'', by rw [Function.comp, hfbase, hgbase],
    fun off hoff => (hkept' off hoff).trans (hkept off hoff)⟩

theorem writesWithin_writeBytes (bs : List UInt8) {lo hi : ℕ} (hlo : lo ≤ off)
    (hhi : off + bs.length ≤ hi) (h : hi ≤ 0x40000) : WritesWithin lo hi (writeBytes off bs) := by
  induction bs generalizing off with
  | nil => exact fun base => ⟨base, rfl, fun _ _ => rfl⟩
  | cons b bs ih =>
    rw [List.length_cons] at hhi
    exact (writesWithin_u8 b hlo (by omega) (by omega)).comp (ih (by omega) (by omega))

theorem publishKwhAscii_within (r : MeterReadings) (cal : MeterCal) :
    WritesWithin 0x05c0 0x05e0 (publishKwhAscii r cal) := by
  refine writesWithin_writeBytes _ (Nat.le_refl _) ?_ (by decide)
  rw [List.length_append, List.length_map, List.length_take, List.length_singleton]
  omega

theorem publishCookedForWeb_within (r : MeterReadings) (cal : MeterCal) :
    WritesWithin 0x0500 0x0510 (publishCookedForWeb r cal) :=
  (((writesWithin_u32 _ (by decide) (by decide) (by decide)).comp
    (writesWithin_u32 _ (by decide) (by decide) (by decide))).comp
      (writesWithin_u32 _ (by decide) (by decide) (by decide))).comp
        (writesWithin_u32 _ (by decide) (by decide) (by decide))

/-! ### The fields -/

theorem u16_bytes (v : UInt16) : v.toUInt8.toNat + 256 * (v >>> 8).toUInt8.toNat = v.toNat := by
  have hv := v.toNat_lt
  have hhigh : (v >>> 8).toUInt8.toNat = v.toNat / 256 := by
    rw [UInt16.toNat_toUInt8, UInt16.toNat_shiftRight, Nat.shiftRight_eq_div_pow]
    show v.toNat / 2 ^ 8 % 2 ^ 8 = v.toNat / 256
    omega
  rw [hhigh, UInt16.toNat_toUInt8]
  omega

theorem u32_bytes (v : UInt32) :
    v.toUInt8.toNat + 256 * (v >>> 8).toUInt8.toNat + 65536 * (v >>> 16).toUInt8.toNat +
      16777216 * (v >>> 24).toUInt8.toNat = v.toNat := by
  have hv := v.toNat_lt
  have hbyte : ∀ k : UInt32, k.toNat < 32 →
      (v >>> k).toUInt8.toNat = v.toNat / 2 ^ k.toNat % 256 := by
    intro k hk
    rw [UInt32.toNat_toUInt8, UInt32.toNat_shiftRight, Nat.shiftRight_eq_div_pow,
      Nat.mod_eq_of_lt hk]
  rw [hbyte 8 (by decide), hbyte 16 (by decide), hbyte 24 (by decide), UInt32.toNat_toUInt8]
  show v.toNat % 2 ^ 8 + 256 * (v.toNat / 2 ^ 8 % 256) + 65536 * (v.toNat / 2 ^ 16 % 256) +
    16777216 * (v.toNat / 2 ^ 24 % 256) = v.toNat
  omega

theorem publishCompact_spec (r : MeterReadings) (cal : MeterCal) (base : Shmem) :
    ∃ base', publishCompact r cal (attachedRw base) = attachedRw base' ∧
      shmemU16Le base' 0x0000 = (r.vrmsRaw / gainOf cal.vgain).toUInt16.toNat ∧
      shmemU16Le base' 0x0004 = (r.vrmsRaw / gainOf cal.vgain / 10).toUInt16.toNat ∧
      shmemU32Le base' 0x000c = (r.powerRaw / 100).toNat := by
  rw [publishCompact, tryWrite_u16 _ (by decide), tryWrite_u16 _ (by decide), tryWrite_u32 _ (by decide)]
  refine ⟨_, rfl, ?_, ?_, ?_⟩
  · rw [← u16_bytes]
    simp [shmemU16Le]
  · rw [← u16_bytes]
    simp [shmemU16Le]
  · rw [← u32_bytes]
    simp [shmemU32Le]

theorem publishTelemetryBlock_spec (r : MeterReadings) (base : Shmem) :
    ∃ base', publishTelemetryBlock r (attachedRw base) = attachedRw base' ∧
      (∀ off < 0x015b, base' off = base off) ∧
      shmemU32Le base' 0x015b = r.vrmsRaw.toNat ∧ shmemU32Le base' 0x015f = r.irmsRaw.toNat ∧
      shmemU32Le base' 0x0163 = r.powerRaw.toNat ∧ shmemU32Le base' 0x0167 = r.energyRaw.toNat := by
  have hwithin : WritesWithin 0x015b 0x016b (publishTelemetryBlock r) :=
    (((writesWithin_u32 _ (by decide) (by decide) (by decide)).comp
      (writesWithin_u32 _ (by decide) (by decide) (by decide))).comp
        (writesWithin_u32 _ (by decide) (by decide) (by decide))).comp
          (writesWithin_u32 _ (by decide) (by decide) (by decide))
  obtain ⟨base', hbase, hkept⟩ := hwithin base
  refine ⟨base', hbase, fun off hoff => hkept off (.inl hoff), ?_⟩
  rw [publishTelemetryBlock, tryWrite_u32 _ (by decide), tryWrite_u32 _ (by decide),
    tryWrite_u32 _ (by decide),
    tryWrite_u32 _ (by decide), attachedRw, attachedRw] at hbase
  cases hbase
  refine ⟨?_, ?_, ?_, ?_⟩
  · rw [← u32_bytes r.vrmsRaw]
    simp [shmemU32Le]
  · rw [← u32_bytes r.irmsRaw]
    simp [shmemU32Le]
  · rw [← u32_bytes r.powerRaw]
    simp [shmemU32Le]
  · rw [← u32_bytes r.energyRaw]
    simp [shmemU32Le]

theorem shmemU16Le_congr {sm sm' : Shmem} {off hi : ℕ} (h : ∀ x < hi, sm x = sm' x)
    (hoff : off + 2 ≤ hi) : shmemU16Le sm off = shmemU16Le sm' off := by
  rw [shmemU16Le, shmemU16Le, h off (by omega), h (off + 1) (by omega)]

theorem shmemU32Le_congr {sm sm' : Shmem} {off hi : ℕ} (h : ∀ x < hi, sm x = sm' x)
    (hoff : off + 4 ≤ hi) : shmemU32Le sm off = shmemU32Le sm' off := by
  rw [shmemU32Le, shmemU32Le, h off (by omega), h (off + 1) (by omega), h (off + 2) (by omega),
    h (off + 3) (by omega)]

/-! ### The gains -/

theorem loadGain_bounds (key : String) (buf : List Char) :
    0 < loadGain key buf ∧ loadGain key buf < 2 ^ 31 := by
  rw [loadGain]
  split
  · decide
  · next text _ =>
    have hhi := (atoi_bounds text).2
    split
    · decide
    · omega

theorem gainOf_toNat {gain : ℤ} (hpos : 0 < gain) (hlt : gain < 2 ^ 31) :
    (gainOf gain).toNat = gain.toNat := by
  rw [gainOf, if_pos hpos, UInt32.toNat_ofNat_of_lt' (show gain.toNat < 2 ^ 32 by omega)]

/-! ## The law -/

/-- A full cycle leaves the compact fields as they are defined exactly if the voltage, divided by
its gain, fits sixteen bits. -/
theorem compact_fields_iff (base : Shmem) (file : Option (List Char)) (vScale : ℚ)
    (hvalid : r.valid = true) :
    ∃ base', meterPublishShmem r (meterLoadCal file vScale) (attachedRw base) = attachedRw base' ∧
      (CompactFields r (meterLoadCal file vScale).vgain.toNat base' ↔
        r.vrmsRaw.toNat / (meterLoadCal file vScale).vgain.toNat < 65536) := by
  generalize hcal : meterLoadCal file vScale = cal
  have hgain : (gainOf cal.vgain).toNat = cal.vgain.toNat := by
    obtain ⟨hpos, hlt⟩ := loadGain_bounds "Vgain:" (cString ((file.getD []).take 255))
    rw [← hcal]
    exact gainOf_toNat hpos hlt
  obtain ⟨b₁, hb₁, hvrms, hdeci, hpower⟩ := publishCompact_spec r cal base
  obtain ⟨b₂, hb₂, hkept₂, hraw⟩ := publishTelemetryBlock_spec r b₁
  obtain ⟨b₃, hb₃, hkept₃⟩ := publishKwhAscii_within r cal b₂
  obtain ⟨b₄, hb₄, hkept₄⟩ := publishCookedForWeb_within r cal b₃
  have hkept : ∀ off < 0x0500, b₄ off = b₂ off := fun off hoff =>
    (hkept₄ off (.inl (by omega))).trans (hkept₃ off (.inl (by omega)))
  refine ⟨b₄, ?_, ?_⟩
  · rw [meterPublishShmem, if_neg (by rw [hvalid]; simp [attachedRw]), hb₁, hb₂, hb₃, hb₄]
  have hlow : ∀ off < 0x015b, b₄ off = b₁ off := fun off hoff =>
    (hkept off (by omega)).trans (hkept₂ off hoff)
  obtain ⟨hrawVrms, hrawIrms, hrawPower, hrawEnergy⟩ := hraw
  rw [← shmemU16Le_congr hlow (by decide), UInt32.toNat_toUInt16, UInt32.toNat_div, hgain] at hvrms
  rw [← shmemU16Le_congr hlow (by decide), UInt32.toNat_toUInt16, UInt32.toNat_div, UInt32.toNat_div,
    hgain] at hdeci
  rw [← shmemU32Le_congr hlow (by decide), UInt32.toNat_div] at hpower
  rw [← shmemU32Le_congr hkept (by decide)] at hrawVrms hrawIrms hrawPower hrawEnergy
  constructor
  · intro hfields
    have heq := hfields.vrms
    rw [hvrms] at heq
    rw [← heq]
    exact Nat.mod_lt _ (by decide)
  · intro hfits
    rw [Nat.mod_eq_of_lt hfits] at hvrms
    have hdeci' : shmemU16Le b₄ 0x0004 = r.vrmsRaw.toNat / cal.vgain.toNat / 10 := by
      rw [hdeci]
      exact Nat.mod_eq_of_lt (lt_of_le_of_lt (Nat.div_le_self _ _) hfits)
    exact ⟨hvrms, by rw [hdeci', hvrms], hpower, hrawVrms, hrawIrms, hrawPower, hrawEnergy⟩

/-- 120 V on the bench, with the gains of its file. -/
def benchReadings : MeterReadings := ⟨2460000, 0, 0, 0, true⟩

def benchGain : List Char := "Vgain:342\nIgain:557\nWgain:3199\n\n".toList

theorem compact_fields_iff_bench :
    ∃ base', meterPublishShmem benchReadings (meterLoadCal (some benchGain) 60)
        (attachedRw fun _ => 0) = attachedRw base' ∧
      (CompactFields benchReadings (meterLoadCal (some benchGain) 60).vgain.toNat base' ↔
        benchReadings.vrmsRaw.toNat / (meterLoadCal (some benchGain) 60).vgain.toNat < 65536) :=
  compact_fields_iff (fun _ => 0) (some benchGain) 60 rfl

/-- The chip near the top of its scale, and no gain file. -/
def fullScaleReadings : MeterReadings := ⟨0xF00000, 0, 0, 0, true⟩

/-- Without a gain file the voltage field wraps. -/
theorem compact_voltage_wraps :
    ¬ ∀ (base : Shmem) (file : Option (List Char)) (vScale : ℚ) (r : MeterReadings),
      r.vrmsRaw.toNat < 2 ^ 24 → r.irmsRaw.toNat < 2 ^ 24 → r.valid = true →
        ∃ base', meterPublishShmem r (meterLoadCal file vScale) (attachedRw base) =
          attachedRw base' ∧ CompactFields r (meterLoadCal file vScale).vgain.toNat base' := by
  intro hall
  obtain ⟨b, hb, hfields⟩ :=
    hall (fun _ => 0) none 60 fullScaleReadings (by decide) (by decide) rfl
  have hvrms := hfields.vrms
  have hgain : (meterLoadCal none 60).vgain.toNat = 1 := by decide
  have hlt : shmemU16Le b 0x0000 < 65536 := by
    have h₀ := (b 0x0000).toNat_lt
    have h₁ := (b (0x0000 + 1)).toNat_lt
    rw [shmemU16Le]
    omega
  rw [hvrms, hgain] at hlt
  revert hlt
  decide

end OpenEVCharger
