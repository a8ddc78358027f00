import OpenEVCharger.Tasks.Origins

/-!
# The settings

What the persist task makes of the settings: each field is the one asked for last, whatever
becomes of its store. The tasks read the copies in RAM, so a store that fails shows at the next
boot only.
-/

namespace OpenEVCharger

/-! ## The abstract settings -/

/-- The settings that a request can change. -/
@[ext] structure Settings where
  amps : UInt8
  requireRfidAuth : UInt8
  gfciFaultPolicy : UInt8
  cp : CpCalibration
  bl0939 : Bl0939Calibration
  deriving DecidableEq

/-- What a request is to make of the settings. -/
def Settings.apply (r : PersistReq) (s : Settings) : Settings :=
  match r with
  | .bootConfigAmps amps => { s with amps := amps }
  | .requireRfidAuth enable => { s with requireRfidAuth := if enable ≠ 0 then 1 else 0 }
  | .gfciPolicy policy => if 1 < policy then s else { s with gfciFaultPolicy := policy }
  | .calibration a => if a.slopeDen = 0 then s else { s with cp := a }
  | .bl0939Cal a => { s with bl0939 := a }
  | _ => s

def settingsOf (c : BootConfig) (k : Calibration) : Settings :=
  ⟨c.fc41dAdvertisedAmps, c.requireRfidAuth, c.gfciFaultPolicy, k.cp, k.bl0939⟩

/-- The settings in RAM. -/
def PersistState.settings (σ : PersistState) : Settings := settingsOf σ.cfg σ.cal.cal

/-! ## Setters of the boot configuration -/

section Config

variable {c new : BootConfig} {d : W25q} {off k : ℕ} {v : UInt8}

theorem byteAt_setByte (h : off + 1 ≤ bootConfigSize) (c : BootConfig) (k : ℕ) :
    (c.setByte off v h).byteAt k = if k = off then v else c.byteAt k := by
  by_cases hk : k = off
  · subst hk
    rw [if_pos rfl]
    exact BootConfig.byteAt_setByte_self h c
  · have hlen : off + [v].length ≤ c.bytes.length := c.size.symm ▸ h
    have hget := getD_setBytes hlen k
    rw [if_neg (by rw [List.length_singleton]; omega)] at hget
    rw [if_neg hk]
    exact hget

/-- The fields of a staged image are bytes 10 to 19. -/
theorem byteAt_setPendingOta (p : PendingOta) (hk : k < 10 ∨ 20 ≤ k) (c : BootConfig) :
    (c.setPendingOta p).byteAt k = c.byteAt k := by
  have hword : ∀ (off : ℕ) (w : UInt32) (h : off + 4 ≤ bootConfigSize) (c : BootConfig),
      12 ≤ off → off + 4 ≤ 20 → (c.setWord off w h).byteAt k = c.byteAt k := by
    intro off w h c hlo hhi
    have hlen : off + (le32Bytes w).length ≤ c.bytes.length := c.size.symm ▸ h
    have hfour : (le32Bytes w).length = 4 := rfl
    have hget := getD_setBytes hlen k
    rw [if_neg (by omega)] at hget
    exact hget
  rw [BootConfig.setPendingOta, hword _ _ _ _ (by decide) (by decide),
    hword _ _ _ _ (by decide) (by decide), byteAt_setByte,
    if_neg (show ¬ k = 10 by omega)]

/-- A setter leaves the payload that it set, whether it has stored it or not. -/
theorem byteAt_update {unchanged : Prop} [Decidable unchanged]
    (hsame : unchanged → new.byteAt k = c.byteAt k) (hlo : 8 ≤ k) (hhi : k < 28) :
    (bootConfigUpdate (decide unchanged) new c d).cfg.byteAt k = new.byteAt k := by
  by_cases h : unchanged
  · rw [decide_eq_true h, bootConfigUpdate, if_pos rfl]
    exact (hsame h).symm
  · rw [decide_eq_false h, bootConfigUpdate, if_neg Bool.false_ne_true]
    exact payload_bootConfigStore new d hlo hhi

/-- A setter of one byte changes that one. -/
theorem byteAt_updateByte (h : off + 1 ≤ bootConfigSize) (hlo : 8 ≤ k) (hhi : k < 28) :
    (bootConfigUpdate (decide (c.byteAt off = v)) (c.setByte off v h) c d).cfg.byteAt k =
      if k = off then v else c.byteAt k := by
  rw [byteAt_update (fun hv => ?_) hlo hhi, byteAt_setByte]
  rw [byteAt_setByte]
  split
  · next hk => rw [hk, hv]
  · rfl

/-- A mark for an update leaves the settings alone. -/
theorem settings_setPendingOta (pending : UInt8) (imageSize imageCrc32 : UInt32) (c : BootConfig)
    (d : W25q) (k : Calibration) :
    settingsOf (bootConfigSetPendingOta pending imageSize imageCrc32 c d).cfg k =
      settingsOf c k := by
  have hbyte : ∀ i, 8 ≤ i → i < 28 → (i < 10 ∨ 20 ≤ i) →
      (bootConfigSetPendingOta pending imageSize imageCrc32 c d).cfg.byteAt i = c.byteAt i := by
    intro i hlo hhi hout
    rw [bootConfigSetPendingOta, byteAt_update (fun _ => byteAt_setPendingOta _ hout c) hlo hhi,
      byteAt_setPendingOta _ hout c]
  have hamps := hbyte 8 (by decide) (by decide) (.inl (by decide))
  have hrequire := hbyte 9 (by decide) (by decide) (.inl (by decide))
  have hpolicy := hbyte 20 (by decide) (by decide) (.inr (by decide))
  exact Settings.ext hamps hrequire hpolicy rfl rfl

end Config

/-! ## Setters of the calibration -/

section Calibration

variable {c : Calibration} {s : CalibrationState} {d : W25q}

theorem bl0939_congr {c c' : Calibration}
    (hhalf : ∀ off, 14 ≤ off → c.half off = c'.half off)
    (hword : c.word Calibration.bl0939FreqConstOff = c'.word Calibration.bl0939FreqConstOff) :
    c.bl0939 = c'.bl0939 := by
  rw [Calibration.bl0939, Calibration.bl0939, Calibration.bl0939IaNaPerRaw,
    Calibration.bl0939IaNaPerRaw, hword, hhalf 14 (by decide), hhalf 16 (by decide),
    hhalf 18 (by decide), hhalf 20 (by decide)]

theorem bl0939_setVersion (v : UInt8) (c : Calibration) :
    (c.setVersion v).bl0939 = c.bl0939 :=
  bl0939_congr (fun _ h => Packed.half_set_other (.inr (Nat.le_trans (Nat.le_of_ble_eq_true rfl) h)) c)
    (Packed.word_set_other (.inr (Nat.le_of_ble_eq_true rfl)) c)

theorem bl0939_setCp (a : CpCalibration) (c : Calibration) : (c.setCp a).bl0939 = c.bl0939 := by
  have hhalf : ∀ off, 14 ≤ off → (c.setCp a).half off = c.half off := by
    intro off h
    rw [Calibration.setCp, Packed.half_setHalf_other (.inr h),
      Packed.half_setHalf_other (.inr (Nat.le_trans (by decide) h)),
      Packed.half_setHalf_other (.inr (Nat.le_trans (by decide) h))]
  refine bl0939_congr hhalf ?_
  rw [Calibration.setCp]
  exact (Packed.word_set_other (.inr (Nat.le_of_ble_eq_true rfl)) _).trans
    ((Packed.word_set_other (.inr (Nat.le_of_ble_eq_true rfl)) _).trans
      (Packed.word_set_other (.inr (Nat.le_of_ble_eq_true rfl)) _))

theorem fields_setBl0939 (a : Bl0939Calibration) (s : CalibrationState) (d : W25q) :
    (calibrationSetBl0939 a s d).state.cal.cp = s.cal.cp ∧
      (calibrationSetBl0939 a s d).state.cal.bl0939 = a := by
  rw [calibrationSetBl0939]
  split
  · next hsame => exact ⟨rfl, hsame⟩
  · obtain ⟨-, hcp, hbl⟩ := fields_calibrationStore
      ((s.cal.setVersion calibrationVersion).setBl0939 a) d
    rw [Calibration.cp_setBl0939, Calibration.cp_setVersion] at hcp
    rw [Calibration.bl0939_setBl0939] at hbl
    dsimp only
    split
    · exact ⟨hcp, hbl⟩
    · exact ⟨hcp, hbl⟩

theorem fields_setCp {a : CpCalibration} (hden : a.slopeDen ≠ 0) (s : CalibrationState)
    (d : W25q) :
    (calibrationSetCp a s d).state.cal.cp = a ∧
      (calibrationSetCp a s d).state.cal.bl0939 = s.cal.bl0939 := by
  rw [calibrationSetCp, if_neg hden]
  split
  · next hsame => exact ⟨hsame, rfl⟩
  · obtain ⟨-, hcp, hbl⟩ := fields_calibrationStore
      ((s.cal.setVersion calibrationVersion).setCp a) d
    rw [Calibration.cp_setCp] at hcp
    rw [bl0939_setCp, bl0939_setVersion] at hbl
    dsimp only
    split
    · exact ⟨hcp, hbl⟩
    · exact ⟨hcp, hbl⟩

end Calibration

/-! ## A turn of the persist task -/

theorem settings_handleOta (r : OtaRequest) (s : OtaSession) (c : BootConfig) (d : W25q)
    (k : Calibration) : settingsOf (handleOta r s c d).cfg k = settingsOf c k := by
  have hsame : (handleOta r s c d).cfg = c → settingsOf (handleOta r s c d).cfg k =
      settingsOf c k := congrArg fun c => settingsOf c k
  cases r with
  | «begin» a =>
    refine hsame ?_
    rcases handleOtaBegin_spec a s c d with ⟨_, _, hc, _⟩ | ⟨_, _, hc, _⟩ | ⟨_, _, _, hc, _⟩
    · exact hc
    · exact hc
    · exact hc
  | chunk a =>
    refine hsame ?_
    rcases handleOtaChunk_spec a s c d with ⟨_, _, _, hc, _⟩ | ⟨_, _, _, hc, _⟩ | ⟨_, _, _, _, hc, _⟩
    · exact hc
    · exact hc
    · exact hc
  | commit a =>
    rcases handleOtaCommit_spec a s c d with ⟨_, _, hc, _⟩ | ⟨_, _, _, hc, _⟩
    · exact hsame hc
    · rw [show (handleOta (.commit a) s c d).cfg = _ from hc]
      exact settings_setPendingOta 1 s.expectedSize s.expectedCrc32 c d k
  | abort a => exact hsame rfl

/-- A turn of the persist task does to the settings what its request is to do, however its
writes end. -/
theorem settings_persistServe (r : PersistReq) (outcomes : List WriteOutcome) (t : PersistTask) :
    (persistServe r outcomes t).task.store.settings = t.store.settings.apply r := by
  have hbyte : ∀ (off : ℕ) (v : UInt8) (h : off + 1 ≤ bootConfigSize) (k : ℕ), 8 ≤ k → k < 28 →
      (bootConfigUpdate (decide (t.store.cfg.byteAt off = v)) (t.store.cfg.setByte off v h)
        t.store.cfg ⟨t.store.flash, outcomes⟩).cfg.byteAt k =
          if k = off then v else t.store.cfg.byteAt k :=
    fun off v h k hlo hhi => byteAt_updateByte h hlo hhi
  cases r with
  | bootConfigAmps amps =>
    have h := hbyte 8 amps fc41dAdvertisedAmpsOff_le
    exact Settings.ext (h 8 (by decide) (by decide)) (h 9 (by decide) (by decide))
      (h 20 (by decide) (by decide)) rfl rfl
  | requireRfidAuth enable =>
    have h := hbyte 9 (if enable ≠ 0 then 1 else 0) requireRfidAuthOff_le
    exact Settings.ext (h 8 (by decide) (by decide)) (h 9 (by decide) (by decide))
      (h 20 (by decide) (by decide)) rfl rfl
  | gfciPolicy policy =>
    have hset : (persistServe (.gfciPolicy policy) outcomes t).task.store.cfg =
        (bootConfigSetGfciFaultPolicy policy t.store.cfg ⟨t.store.flash, outcomes⟩).cfg := rfl
    have hsettings : (persistServe (.gfciPolicy policy) outcomes t).task.store.settings =
        settingsOf (bootConfigSetGfciFaultPolicy policy t.store.cfg ⟨t.store.flash, outcomes⟩).cfg
          t.store.cal.cal := congrArg (fun c => settingsOf c t.store.cal.cal) hset
    rw [hsettings, bootConfigSetGfciFaultPolicy, Settings.apply]
    by_cases hpolicy : 1 < policy
    · rw [if_pos hpolicy, if_pos hpolicy]
      rfl
    · rw [if_neg hpolicy, if_neg hpolicy]
      have h := hbyte 20 policy gfciFaultPolicyOff_le
      exact Settings.ext (h 8 (by decide) (by decide)) (h 9 (by decide) (by decide))
        (h 20 (by decide) (by decide)) rfl rfl
  | calibration a =>
    have hsettings : (persistServe (.calibration a) outcomes t).task.store.settings =
        settingsOf t.store.cfg
          (calibrationSetCp a t.store.cal ⟨t.store.flash, outcomes⟩).state.cal := rfl
    rw [hsettings, Settings.apply]
    by_cases hden : a.slopeDen = 0
    · rw [if_pos hden, calibrationSetCp, if_pos hden]
      rfl
    · obtain ⟨hcp, hbl⟩ := fields_setCp hden t.store.cal ⟨t.store.flash, outcomes⟩
      rw [if_neg hden]
      exact Settings.ext rfl rfl rfl hcp hbl
  | bl0939Cal a =>
    obtain ⟨hcp, hbl⟩ := fields_setBl0939 a t.store.cal ⟨t.store.flash, outcomes⟩
    exact Settings.ext rfl rfl rfl hcp hbl
  | ota r => exact settings_handleOta r t.ota t.store.cfg ⟨t.store.flash, outcomes⟩ _
  | _ => rfl

/-! ## In every run -/

/-- Each setting is the one found at boot, or one that the handlers let through. -/
structure Settings.Within (boot s : Settings) : Prop where
  amps : s.amps = boot.amps ∨ s.amps ≤ commsHwAmpsMax
  requireRfidAuth : s.requireRfidAuth = boot.requireRfidAuth ∨ s.requireRfidAuth ≤ 1
  gfciFaultPolicy : s.gfciFaultPolicy = boot.gfciFaultPolicy ∨ s.gfciFaultPolicy ≤ 1
  cp : s.cp = boot.cp ∨ 0 ≤ s.cp.anchorRaw ∧ s.cp.anchorRaw ≤ 4095 ∧ s.cp.slopeDen ≠ 0

theorem Settings.Within.apply {boot s : Settings} {r : PersistReq} (h : Within boot s)
    (hok : r.Ok) : Within boot (s.apply r) := by
  cases r with
  | bootConfigAmps amps => exact ⟨.inr hok, h.requireRfidAuth, h.gfciFaultPolicy, h.cp⟩
  | requireRfidAuth enable =>
    refine ⟨h.amps, .inr ?_, h.gfciFaultPolicy, h.cp⟩
    show (if enable ≠ 0 then 1 else 0 : UInt8) ≤ 1
    split
    · decide
    · decide
  | gfciPolicy policy =>
    rw [Settings.apply]
    split
    · exact h
    · next hpolicy => exact ⟨h.amps, h.requireRfidAuth, .inr (UInt8.not_lt.mp hpolicy), h.cp⟩
  | calibration a =>
    rw [Settings.apply]
    split
    · exact h
    · exact ⟨h.amps, h.requireRfidAuth, h.gfciFaultPolicy, .inr hok⟩
  | bl0939Cal a => exact ⟨h.amps, h.requireRfidAuth, h.gfciFaultPolicy, h.cp⟩
  | _ => exact h

section Runs

open Charger

variable {B : ChargerBuild} {b : ChargerBoot} {ins : ℕ → ChargerInput}

/-- The settings in RAM are what the requests carried out make of those found at boot. -/
theorem settings_run (n : ℕ) :
    (chargerRun B b ins n).persist.store.settings =
      ((carried B b ins n).map Prod.fst).foldl (fun s r => s.apply r) b.stores.settings := by
  have hfold : ∀ (l : List (PersistReq × List WriteOutcome)) (t : PersistTask),
      (l.foldl (fun t p => (persistServe p.1 p.2 t).task) t).store.settings =
        (l.map Prod.fst).foldl (fun s r => s.apply r) t.store.settings := by
    intro l
    induction l with
    | nil => exact fun _ => rfl
    | cons p l ih =>
      intro t
      rw [List.foldl_cons, ih, settings_persistServe]
      rfl
  rw [persist_run, hfold]
  rfl

theorem settings_within (n : ℕ) :
    b.stores.settings.Within (chargerRun B b ins n).persist.store.settings := by
  have hfold : ∀ (l : List PersistReq) (s : Settings), (∀ r ∈ l, r.Ok) →
      b.stores.settings.Within s →
        b.stores.settings.Within (l.foldl (fun s r => s.apply r) s) := by
    intro l
    induction l with
    | nil => exact fun _ _ hs => hs
    | cons r l ih =>
      intro s hl hs
      exact ih _ (fun r' hr => hl r' (List.mem_cons_of_mem _ hr)) (hs.apply (hl r List.mem_cons_self))
  rw [settings_run]
  refine hfold _ _ (fun r hr => ?_) ⟨.inl rfl, .inl rfl, .inl rfl, .inl rfl⟩
  obtain ⟨p, hp, rfl⟩ := List.mem_map.mp hr
  obtain ⟨k, _, hqueued⟩ := queued_of_carried hp
  exact ok_of_queued hqueued

end Runs

end OpenEVCharger
