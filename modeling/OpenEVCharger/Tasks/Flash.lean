import OpenEVCharger.Lib.Simulation
import OpenEVCharger.Tasks.Origins

/-!
# Who writes the flash

The persist task is the only writer of the external flash once the tasks are started, and a
request writes in the region of its store alone. What lies at an address is therefore what the
requests on the stores of that address have made of it.
-/

namespace OpenEVCharger

open NorFlash (Mem Confined)

/-! ## A request -/

/-- An address in the region of a store. -/
def FlashStore.Holds (s : FlashStore) (a : ℕ) : Prop := s.base ≤ a ∧ a < s.base + s.size

instance (s : FlashStore) (a : ℕ) : Decidable (s.Holds a) := inferInstanceAs (Decidable (_ ∧ _))

theorem eq_of_confined {m m' : Mem} {s : FlashStore} {a : ℕ}
    (h : Confined m m' s.base s.size) (ha : ¬ s.Holds a) : m a = m' a := by
  refine h a ?_
  rw [FlashStore.Holds] at ha
  omega

/-- The store that a request is on. A COMMIT marks the staged image in the boot configuration. -/
def PersistReq.store : PersistReq → Option FlashStore
  | .event _ => some .eventLog
  | .session _ => some .sessionLog
  | .crashStateReset => some .crashState
  | .bootConfigAmps _ | .requireRfidAuth _ | .gfciPolicy _ => some .bootConfig
  | .calibration _ | .bl0939Cal _ => some .calibration
  | .rfidAuthlistAdd _ | .rfidAuthlistRemove _ | .rfidAuthlistClear => some .rfidAuthlist
  | .ota (.begin _) | .ota (.chunk _) => some .otaStage
  | .ota (.commit _) => some .bootConfig
  | .ota (.abort _) => none
  | .getFaultLog .. | .getLifetimeKwh _ | .rfidAuthlistGetList _ => none

/-- A turn leaves the stores alone, or it is an operation on the store of its request. -/
inductive ServedSpec (r : PersistReq) (outcomes : List WriteOutcome) (σ σ' : PersistState) :
    Prop where
  | same (h : σ' = σ)
  | operated (op : PersistOp) (hop : op.store.isSome ∧ op.store = r.store)
      (h : σ' = persistStep ⟨op, outcomes⟩ σ)

theorem handleOta_spec (r : OtaRequest) (outcomes : List WriteOutcome) (t : PersistTask) :
    ServedSpec (.ota r) outcomes t.store (t.updated (t.handleOta r outcomes)).store := by
  have hsame : ∀ h : OtaHandled, h.cfg = t.store.cfg → h.chip = ⟨t.store.flash, outcomes⟩ →
      ServedSpec (.ota r) outcomes t.store (t.updated h).store := by
    intro h hc hd
    refine .same ?_
    rw [PersistTask.updated, hc, hd]
  cases r with
  | «begin» a =>
    have hbegun : ∀ h : OtaHandled, h.cfg = t.store.cfg →
        h.chip = (otaStageBegin a.imageSize ⟨t.store.flash, outcomes⟩).2 →
          ServedSpec (.ota (.begin a)) outcomes t.store (t.updated h).store := by
      intro h hc hd
      refine .operated (.ota (.begin a.imageSize)) ⟨rfl, rfl⟩ ?_
      rw [PersistTask.updated, hc, hd]
      rfl
    rcases handleOtaBegin_spec a t.ota t.store.cfg ⟨t.store.flash, outcomes⟩ with
      ⟨_, _, hc, hd⟩ | ⟨_, _, hc, hd⟩ | ⟨_, _, _, hc, hd⟩
    · exact hsame _ hc hd
    · exact hbegun _ hc hd
    · exact hbegun _ hc hd
  | chunk k =>
    have hwritten : ∀ h : OtaHandled, h.cfg = t.store.cfg →
        h.chip = (otaStageWrite k.offset k.data ⟨t.store.flash, outcomes⟩).2 →
          ServedSpec (.ota (.chunk k)) outcomes t.store (t.updated h).store := by
      intro h hc hd
      refine .operated (.ota (.write k.offset k.data)) ⟨rfl, rfl⟩ ?_
      rw [PersistTask.updated, hc, hd]
      rfl
    rcases handleOtaChunk_spec k t.ota t.store.cfg ⟨t.store.flash, outcomes⟩ with
      ⟨_, _, _, hc, hd⟩ | ⟨_, _, _, hc, hd⟩ | ⟨_, _, _, _, hc, hd⟩
    · exact hsame _ hc hd
    · exact hwritten _ hc hd
    · exact hwritten _ hc hd
  | commit a =>
    rcases handleOtaCommit_spec a t.ota t.store.cfg ⟨t.store.flash, outcomes⟩ with
      ⟨_, _, hc, hd⟩ | ⟨_, _, _, hc, hd⟩
    · exact hsame _ hc hd
    · refine .operated (.setter (.pendingOta 1 t.ota.expectedSize t.ota.expectedCrc32))
        ⟨rfl, rfl⟩ ?_
      have hcfg : (t.handleOta (.commit a) outcomes).cfg = _ := hc
      have hchip : (t.handleOta (.commit a) outcomes).chip = _ := hd
      rw [PersistTask.updated, hcfg, hchip]
      rfl
  | abort a => exact hsame _ rfl rfl

theorem persistServe_spec (r : PersistReq) (outcomes : List WriteOutcome) (t : PersistTask) :
    ServedSpec r outcomes t.store (persistServe r outcomes t).task.store := by
  cases r with
  | event r => exact .operated (.event (.append r)) ⟨rfl, rfl⟩ rfl
  | session r => exact .operated (.session (.append r)) ⟨rfl, rfl⟩ rfl
  | crashStateReset => exact .operated (.crash .resetAlive) ⟨rfl, rfl⟩ rfl
  | bootConfigAmps amps => exact .operated (.setter (.advertisedAmps amps)) ⟨rfl, rfl⟩ rfl
  | calibration a => exact .operated (.setter (.cp a)) ⟨rfl, rfl⟩ rfl
  | bl0939Cal a => exact .operated (.setter (.bl0939 a)) ⟨rfl, rfl⟩ rfl
  | getFaultLog maxCount seq => exact .same rfl
  | getLifetimeKwh seq => exact .same rfl
  | rfidAuthlistAdd uid => exact .operated (.authlist (.add uid)) ⟨rfl, rfl⟩ rfl
  | rfidAuthlistRemove uid => exact .operated (.authlist (.remove uid)) ⟨rfl, rfl⟩ rfl
  | rfidAuthlistClear => exact .operated (.authlist .clear) ⟨rfl, rfl⟩ rfl
  | rfidAuthlistGetList seq => exact .same rfl
  | requireRfidAuth enable => exact .operated (.setter (.requireRfidAuth enable)) ⟨rfl, rfl⟩ rfl
  | gfciPolicy policy => exact .operated (.setter (.gfciFaultPolicy policy)) ⟨rfl, rfl⟩ rfl
  | ota r => exact handleOta_spec r outcomes t

/-! ## The boot -/

/-- States of the stores that some operations lead to from power-up. -/
def Stored (flash : Mem) (σ : PersistState) : Prop := ∃ js, σ = persistMachine.after flash js

namespace Stored

variable {flash : Mem} {σ : PersistState}

theorem powerUp (flash : Mem) : Stored flash (persistPowerUp flash) := ⟨[], rfl⟩

theorem step (h : Stored flash σ) (i : PersistInput) : Stored flash (persistStep i σ) := by
  obtain ⟨js, rfl⟩ := h
  exact ⟨js ++ [i], (Machine.after_concat (a := persistMachine) flash js i).symm⟩

theorem served {r : PersistReq} {outcomes : List WriteOutcome} {σ' : PersistState}
    (h : Stored flash σ) (hserved : ServedSpec r outcomes σ σ') : Stored flash σ' := by
  cases hserved with
  | same heq => rwa [heq]
  | operated op _ heq =>
    rw [heq]
    exact h.step ⟨op, outcomes⟩

/-- The record as it is, or with the mark of a pending update taken off. -/
theorem returned {outcomes : List WriteOutcome} {cfg : BootConfig} {chip : W25q}
    (h : Stored flash σ)
    (hreturned : (cfg = σ.cfg ∧ chip = ⟨σ.flash, outcomes⟩) ∨
      (cfg = (otaStageClearPending σ.cfg ⟨σ.flash, outcomes⟩).cfg ∧
        chip = (otaStageClearPending σ.cfg ⟨σ.flash, outcomes⟩).chip)) :
    Stored flash { σ with cfg := cfg, flash := chip.mem } := by
  rcases hreturned with ⟨rfl, rfl⟩ | ⟨rfl, rfl⟩
  · exact h
  · exact h.step ⟨.setter (.pendingOta 0 0 0), outcomes⟩

theorem headsInRange (h : Stored flash σ) : HeadsInRange σ := by
  obtain ⟨js, rfl⟩ := h
  induction js using List.reverseRecOn with
  | nil => exact headsInRange_powerUp flash
  | append_singleton js i ih =>
    rw [Machine.after_concat]
    exact ih.step i

/-- No operation writes at an address that is of no store. -/
theorem outside {a : ℕ} (h : Stored flash σ) (ha : ∀ s : FlashStore, ¬ s.Holds a) :
    σ.flash a = flash a := by
  obtain ⟨js, rfl⟩ := h
  induction js using List.reverseRecOn with
  | nil => rfl
  | append_singleton js i ih =>
    have hheads : HeadsInRange (persistMachine.after flash js) :=
      Stored.headsInRange ⟨js, rfl⟩
    rw [Machine.after_concat, ← ih]
    show (persistStep i (persistMachine.after flash js)).flash a = _
    cases hstore : i.op.store with
    | none =>
      rw [persistStep, i.op.of_store.1 hstore]
      rfl
    | some s => exact eq_of_confined (persistStep_confined hheads hstore) (ha s)

end Stored

namespace MainBoot

variable {b : MainBoot}

theorem stored_loads (b : MainBoot) : Stored b.flash b.loads := by
  have hcount := (Stored.powerUp b.flash).step ⟨.bootCountIncrement, b.outcomes 0⟩
  have hconfig := hcount.step ⟨.bootConfigLoad, b.outcomes 1⟩
  have hcal := hconfig.step ⟨.calibrationLoad, b.outcomes 2⟩
  exact hcal.step ⟨.authlist .load, b.outcomes 3⟩

theorem stored_logs {σ : PersistState} (h : Stored b.flash σ) : Stored b.flash (b.logs σ) := by
  have hevents := h.step ⟨.event .init, []⟩
  have hstamped := hevents.step ⟨.event (.setBootCount b.bootCount.toUInt16), []⟩
  have hsessions := hstamped.step ⟨.session .init, []⟩
  have hboth := hsessions.step ⟨.session (.setBootCount b.bootCount.toUInt16), []⟩
  exact hboth.step ⟨.crash (.bootIncrement b.wasCrash), b.outcomes 5⟩

/-- The check for a pending update comes back with the record as it is, or cleared. -/
theorem pendingOta_returned {rc : ℤ} {cfg : BootConfig} {chip : W25q}
    (h : b.pendingOta = .returned rc cfg chip) :
    (cfg = b.loads.cfg ∧ chip = ⟨b.loads.flash, b.outcomes 4⟩) ∨
      (cfg = (otaStageClearPending b.loads.cfg ⟨b.loads.flash, b.outcomes 4⟩).cfg ∧
        chip = (otaStageClearPending b.loads.cfg ⟨b.loads.flash, b.outcomes 4⟩).chip) := by
  have hcleared : ∀ rc', returnCleared rc' b.loads.cfg ⟨b.loads.flash, b.outcomes 4⟩ =
      .returned rc cfg chip → _ := fun rc' heq =>
    (ApplyOutcome.returned.inj heq).2
  rw [pendingOta] at h
  split at h
  · obtain ⟨_, hc, hd⟩ := ApplyOutcome.returned.inj h
    exact .inl ⟨hc.symm, hd.symm⟩
  split at h
  · rw [flashApplyPendingOtaImage] at h
    split at h
    · obtain ⟨_, hc, hd⟩ := ApplyOutcome.returned.inj h
      exact .inl ⟨hc.symm, hd.symm⟩
    split at h
    · exact .inr ((hcleared _ h).imp Eq.symm Eq.symm)
    split at h
    · exact .inr ((hcleared _ h).imp Eq.symm Eq.symm)
    split at h
    · exact .inr ((hcleared _ h).imp Eq.symm Eq.symm)
    dsimp only at h
    split at h
    · exact .inr ((hcleared _ h).imp Eq.symm Eq.symm)
    · cases h
  · exact .inr ((hcleared _ h).imp Eq.symm Eq.symm)

/-- The stores that the tasks find are those of the chip, operated on in `main`. -/
theorem stored_stores {σ : PersistState} (h : b.stores = some σ) : Stored b.flash σ := by
  rw [stores] at h
  split at h
  · rw [← Option.some.inj h]
    exact .powerUp b.flash
  cases hpending : b.pendingOta with
  | overwrite buf =>
    rw [hpending] at h
    cases h
  | returned rc cfg chip =>
    rw [hpending] at h
    rw [← Option.some.inj h]
    exact stored_logs ((stored_loads b).returned (pendingOta_returned hpending))

end MainBoot

/-! ## In every run -/

section Runs

open Charger

variable {B : ChargerBuild} {b : ChargerBoot} {ins : ℕ → ChargerInput}

theorem store_step (i : ChargerInput) (σ : Charger) :
    (σ.step B i).persist.store = σ.persist.store ∨
      ∃ r outcomes, Carries r i σ ∧
        ServedSpec r outcomes σ.persist.store (σ.step B i).persist.store := by
  rw [persist_step i σ]
  rcases carries_cases i σ with hnone | ⟨⟨r, outcomes⟩, hone⟩
  · rw [hnone]
    exact .inl rfl
  · refine .inr ⟨r, outcomes, carries_of_eq hone, ?_⟩
    rw [hone]
    exact persistServe_spec r outcomes σ.persist

theorem stored_run (n : ℕ) : Stored b.main.flash (chargerRun B b ins n).persist.store := by
  induction n with
  | zero => exact MainBoot.stored_stores b.main_stores
  | succ n ih =>
    rw [chargerRun_succ]
    rcases store_step (B := B) (ins n) (chargerRun B b ins n) with hsame | ⟨r, outcomes, _, hserved⟩
    · rwa [hsame]
    · exact ih.served hserved

/-- A byte that a step changes is one of the store of the request carried out. -/
theorem changed_step {σ : Charger} {i : ChargerInput} {a : ℕ}
    (hheads : HeadsInRange σ.persist.store)
    (hne : (σ.step B i).persist.store.flash a ≠ σ.persist.store.flash a) :
    ∃ r s, Carries r i σ ∧ r.store = some s ∧ s.Holds a := by
  rcases store_step (B := B) i σ with hsame | ⟨r, outcomes, hcarries, hserved⟩
  · exact absurd (by rw [hsame]) hne
  cases hserved with
  | same heq => exact absurd (by rw [heq]) hne
  | operated op hop heq =>
    obtain ⟨s, hs⟩ := Option.isSome_iff_exists.mp hop.1
    have hconfined := persistStep_confined (i := ⟨op, outcomes⟩) hheads hs
    refine ⟨r, s, hcarries, hop.2 ▸ hs, ?_⟩
    by_contra hout
    rw [heq] at hne
    exact hne (eq_of_confined hconfined hout)

variable (B b ins) in
/-- In every run the external flash keeps, outside the regions of the stores, what it held before
the boot; a byte that changes once the tasks are started is changed by a turn of the persist task
that carries out a request on a store of that address; and a store reads back the same for as
long as no request on a store that overlaps it is carried out. -/
theorem flash_written_by_requests (n : ℕ) :
    (∀ a, (∀ s : FlashStore, ¬ s.Holds a) →
        (chargerRun B b ins n).persist.store.flash a = b.main.flash a) ∧
      ∀ k ≤ n,
        (∀ a, (chargerRun B b ins n).persist.store.flash a ≠
            (chargerRun B b ins k).persist.store.flash a →
          ∃ j, k ≤ j ∧ j < n ∧ ∃ r s, Carries r (ins j) (chargerRun B b ins j) ∧
            r.store = some s ∧ s.Holds a) ∧
        ∀ s, (∀ j, k ≤ j → j < n → ∀ r t, Carries r (ins j) (chargerRun B b ins j) →
            r.store = some t → t.Apart s) →
          SameRecords s (chargerRun B b ins n).persist.store.flash
            (chargerRun B b ins k).persist.store.flash := by
  refine ⟨fun a ha => (stored_run n).outside ha, fun k hkn => ?_⟩
  have hchanged : ∀ a, (chargerRun B b ins n).persist.store.flash a ≠
      (chargerRun B b ins k).persist.store.flash a →
        ∃ j, k ≤ j ∧ j < n ∧ ∃ r s, Carries r (ins j) (chargerRun B b ins j) ∧
          r.store = some s ∧ s.Holds a := by
    intro a hne
    induction n, hkn using Nat.le_induction with
    | base => exact absurd rfl hne
    | succ n hkn ih =>
      by_cases hlast : (chargerRun B b ins (n + 1)).persist.store.flash a =
          (chargerRun B b ins n).persist.store.flash a
      · rw [hlast] at hne
        obtain ⟨j, hkj, hjn, hj⟩ := ih hne
        exact ⟨j, hkj, Nat.lt_succ_of_lt hjn, hj⟩
      · obtain ⟨r, s, hj⟩ := changed_step (B := B) (stored_run n).headsInRange hlast
        exact ⟨n, hkn, Nat.lt_succ_self n, r, s, hj⟩
  refine ⟨hchanged, fun s hapart => sameRecords_of_agree fun a hlo hhi => ?_⟩
  by_contra hne
  obtain ⟨j, hkj, hjn, r, t, hcarries, hstore, hholds⟩ := hchanged a hne
  have hdisjoint := hapart j hkj hjn r t hcarries hstore
  rw [FlashStore.Apart] at hdisjoint
  rw [FlashStore.Holds] at hholds
  omega

end Runs

end OpenEVCharger
