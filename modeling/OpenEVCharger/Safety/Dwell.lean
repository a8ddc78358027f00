import OpenEVCharger.Safety.Contactor

/-!
# The dwell before a closing

The contactor closes only after `evseCDwellTicks` readings of state C in a row.
The counter of those readings runs on while the unit charges, so what has to be
shown is that it starts afresh whenever the contactor is opened.
-/

namespace OpenEVCharger

/-! ## The counter in an EVSE update -/

/-- The dwell counts in READY and CHARGING, and any other state resets it. -/
theorem update_dwell (c : Interlock) (d : Nat) (g : Bool) :
    (c.update d g).dwell =
      if (c.evse = .ready ∨ c.evse = .charging) ∧ c.cp.committed = .C then bump d c.dwell
      else 0 := by
  have hcharge : ∀ c' : Interlock, (c'.charge d g).dwell = c'.dwell := by
    intro c'
    unfold Interlock.charge
    repeat' split
    all_goals simp
  unfold Interlock.update
  cases he : c.evse
  case userPaused =>
    simp only [reduceCtorEq, or_self, if_false, if_true, false_and]
    split <;> simp
  case ready | charging =>
    simp only [reduceCtorEq, or_self, if_false, or_true, true_or, true_and, hcharge]
    rfl
  all_goals simp

/-- The unit charges after the update when it may start or goes on charging. -/
theorem update_charging {c : Interlock} {d : Nat} {g : Bool}
    (hC : c.cp.committed = .C)
    (h : c.evse = .charging ∨ (c.evse = .ready ∧ d ≤ c.dwell ∧ (g || c.authorized) = true)) :
    (c.update d g).evse = .charging := by
  have hne : c.cp.committed ≠ .A := by
    rw [hC]
    decide
  unfold Interlock.update Interlock.charge Interlock.move
  simp only [Interlock.mayCharge, Interlock.countDwell, Interlock.dropAuth, bump]
  grind

/-! ## The counter while charging -/

/-- A charging unit has its dwell full. -/
def DwellFull (c : Interlock) : Prop := c.evse = .charging → evseCDwellTicks ≤ c.dwell

theorem DwellFull.mono {c c' : Interlock} (h : DwellFull c)
    (hev : c'.evse = .charging → c.evse = .charging) (hd : c'.dwell = c.dwell) :
    DwellFull c' := by
  intro he
  rw [hd]
  exact h (hev he)

theorem le_bump {d n : Nat} (h : d ≤ n) : d ≤ bump d n := by
  unfold bump
  split <;> omega

theorem DwellFull.update {c : Interlock} (h : DwellFull c) (g : Bool) :
    DwellFull (c.update evseCDwellTicks g) := by
  intro he
  have hC : c.cp.committed = .C := by
    have hC' := Interlock.update_charging_stateC (by decide) he
    rw [(Interlock.update_frame _ _ _).cp] at hC'
    exact hC'
  rw [update_dwell]
  by_cases hbefore : c.evse = .charging
  · rw [if_pos ⟨.inr hbefore, hC⟩]
    exact le_bump (h hbefore)
  · obtain ⟨hr, _, hfull, _⟩ := Interlock.update_starts (by decide) hbefore he
    rw [if_pos ⟨.inl hr, hC⟩]
    exact hfull

theorem stable_dwellFull : Stable DwellFull where
  serviceWindow c h :=
    h.mono (Interlock.serviceWindow_requestFrame c).charging
      (Interlock.serviceWindow_requestFrame c).dwell
  samplePilot _ _ h := h
  detected _ _ hd h := by
    rcases hd.frame.tripped_or_same with hf | rfl
    · exact fun he => absurd (hf.symm.trans he) (by decide)
    · exact h
  outputs _ h := h
  authorize _ _ h := h
  overTemp c c' ho h := by
    refine h.mono (fun he => ?_) ho.frame.dwell
    rcases ho.frame.moves with hs | hs | ⟨_, hs⟩
    · exact hs.symm.trans he
    · exact absurd (hs.symm.trans he) (by decide)
    · exact absurd (hs.symm.trans he) (by decide)
  update _ _ h := h.update _

theorem dwellFull_run (fl : BuildFlags) (b : BootInput) (ins : ℕ → TickInput) (n : ℕ) :
    DwellFull (view (safetyRun fl b ins n).task) := by
  refine Machine.invariant (P := fun σ : System => DwellFull (view σ.task)) ?_
    (fun i σ h => stable_dwellFull.step (fun p _ hp =>
      hp.mono (request_processRequest i p.2 p.1).frame.charging
        (request_processRequest i p.2 p.1).frame.dwell) h) n
  intro he
  rcases (booted_bootTask fl b).idle with hr | hf
  · exact absurd (hr.symm.trans he) (by decide)
  · exact absurd (hf.symm.trans he) (by decide)

/-! ## Leaving FAULT -/

/-- A tick that starts in FAULT is in FAULT at its EVSE update or has just started
the pilot afresh, so that it does not read state C. -/
theorem not_stateC_of_fault (fl : BuildFlags) (i : TickInput) {σ : System}
    (hf : σ.task.evse = .fault) :
    (beforeUpdate fl i σ).evse = .fault ∨ (beforeUpdate fl i σ).cp.committed ≠ .C := by
  have hdrain : (view (drainInbox i σ).task).evse = .fault ∨
      (view (drainInbox i σ).task).cp = j1772Init := by
    refine view_drain_kept (P := fun c => c.evse = .fault ∨ c.cp = j1772Init) ?_ (.inl hf)
    intro p _ h
    have hreq := request_processRequest i p.2 p.1
    rcases h with hfault | hinit
    · exact (hreq.of_fault hfault).imp id fun h => h.2.2
    · rcases hreq.frame.cp with hcp | hcp
      · exact .inr (hcp.trans hinit)
      · exact .inr hcp
  rcases hdrain with hfault | hinit
  · exact .inl (stable_fault.beforeUpdate hfault)
  · right
    have hwindow : (view (drainInbox i σ).task).serviceWindow.cp = j1772Init := by
      rcases (Interlock.serviceWindow_requestFrame (view (drainInbox i σ).task)).cp with hcp | hcp
      · exact hcp.trans hinit
      · exact hcp
    have hcp : (view (beforeUpdate fl i σ)).cp = j1772Step j1772Init i.cpHighMv j1772DebounceN := by
      rw [(overTemp_beforeUpdate fl i σ).frame.cp, (detected_beforeOverTemp fl i σ).frame.cp,
        view_beforeDetectors, Interlock.samplePilot_cp, hwindow]
    have hinvalid : (view (beforeUpdate fl i σ)).cp.committed = .invalid := by
      rw [hcp]
      exact j1772Step_init_committed _ (by decide)
    intro hC
    exact absurd (hinvalid.symm.trans hC) (by decide)

/-! ## Open ticks in a row -/

/-- The update finds READY in state C with the contactor still commanded closed,
and may not go on charging for want of a card. -/
def GatedClosed (i : TickInput) (s : SafetyTask) : Prop :=
  s.evse = .ready ∧ s.mainCmd = true ∧ s.cp.committed = .C ∧ sessionMayStart i s = false

instance (i : TickInput) (s : SafetyTask) : Decidable (GatedClosed i s) := by
  unfold GatedClosed
  infer_instance

/-- The dwell of an open contactor, outside FAULT. -/
def openDwell (c : Interlock) : Nat := if c.closed = false ∧ c.evse ≠ .fault then c.dwell else 0

/-- The interlock at the end of a tick that does not end in FAULT. -/
theorem view_tick_of_not_fault {fl : BuildFlags} {i : TickInput} {σ : System}
    (hf : (tick fl i σ).task.evse ≠ .fault) :
    view (tick fl i σ).task = (view (afterUpdate fl i σ)).outputs.authorize
      (swipeAuthorized i (beforeRfid fl i σ).task) := by
  have hrest := view_tick fl i σ
  have hne : (view (beforeRfid fl i σ).task).evse ≠ .fault := by
    intro he
    rw [← Interlock.authorize_evse, ← hrest] at he
    exact hf he
  rcases (detected_beforeRfid fl i σ).frame.tripped_or_same with hfault | hsame
  · exact absurd hfault hne
  · rw [hrest, hsame]

/-- A contactor found closed in state C stays closed unless it is gated: a charging
unit goes on, and one that was paused and resumed meanwhile starts again at once. -/
theorem charging_goes_on {fl : BuildFlags} {i : TickInput} {σ : System}
    (hset : (view σ.task).Settled) (hfull : DwellFull (view σ.task))
    (hgate : ¬ GatedClosed i (beforeUpdate fl i σ)) (hcl : σ.task.mainCmd = true)
    (hup : (beforeUpdate fl i σ).evse = .ready ∨ (beforeUpdate fl i σ).evse = .charging)
    (hC : (beforeUpdate fl i σ).cp.committed = .C) :
    (view (afterUpdate fl i σ)).evse = .charging := by
  have hframe := beforeUpdate_frame fl i σ
  have hnotFault : (view (beforeUpdate fl i σ)).evse ≠ .fault := by
    intro hf
    rcases hup with he | he
    · exact absurd (he.symm.trans hf) (by decide)
    · exact absurd (he.symm.trans hf) (by decide)
  rw [view_afterUpdate]
  rcases hup with hr | hch
  · have hcl' : (beforeUpdate fl i σ).mainCmd = true :=
      (hframe.closed.resolve_left hnotFault).trans hcl
    have hd : evseCDwellTicks ≤ (view (beforeUpdate fl i σ)).dwell := by
      rw [hframe.dwell]
      exact hfull (hset.closed_iff.mp hcl)
    have hmay : sessionMayStart i (beforeUpdate fl i σ) = true := by
      by_contra hno
      exact hgate ⟨hr, hcl', hC, Bool.eq_false_iff.mpr hno⟩
    exact update_charging hC (.inr ⟨hr, hd, hmay⟩)
  · exact update_charging hC (.inl hch)

/-- A tick that ends with an open contactor and a dwell counted one more found the
contactor open already. -/
theorem openDwell_tick {fl : BuildFlags} {i : TickInput} {σ : System}
    (hset : (view σ.task).Settled) (hfull : DwellFull (view σ.task))
    (hgate : ¬ GatedClosed i (beforeUpdate fl i σ)) :
    openDwell (view (tick fl i σ).task) = 0 ∨
      (openDwell (view (tick fl i σ).task) ≤ openDwell (view σ.task) + 1 ∧
        (tick fl i σ).task.cp.committed = .C ∧ (tick fl i σ).task.mainCmd = false) := by
  by_cases hopen : (view (tick fl i σ).task).closed = false ∧
      (view (tick fl i σ).task).evse ≠ .fault
  swap
  · exact .inl (if_neg hopen)
  have hend := view_tick_of_not_fault hopen.2
  have hset' := settled_tick fl i hset.toSafe
  have hdwell : (view (tick fl i σ).task).dwell = (view (afterUpdate fl i σ)).dwell := by
    rw [hend]
    rfl
  have hev : (view (tick fl i σ).task).evse = (view (afterUpdate fl i σ)).evse := by
    rw [hend]
    rfl
  have hupd := update_dwell (view (beforeUpdate fl i σ)) evseCDwellTicks (!i.requireRfidAuth)
  rw [← view_afterUpdate] at hupd
  rw [openDwell, if_pos hopen, hdwell, hupd]
  by_cases hcount : ((view (beforeUpdate fl i σ)).evse = .ready ∨
      (view (beforeUpdate fl i σ)).evse = .charging) ∧
      (view (beforeUpdate fl i σ)).cp.committed = .C
  swap
  · exact .inl (if_neg hcount)
  obtain ⟨hup, hC⟩ := hcount
  rw [if_pos ⟨hup, hC⟩]
  have hframe := beforeUpdate_frame fl i σ
  have hnotFault : (view (beforeUpdate fl i σ)).evse ≠ .fault := by
    rcases hup with he | he
    · simp [he]
    · simp [he]
  have hfault : (view σ.task).evse ≠ .fault := by
    intro hf
    rcases not_stateC_of_fault fl i hf with he | hne
    · exact hnotFault he
    · exact hne hC
  -- the tick does not end charging, so a contactor found closed was gated
  have hidle : (view (afterUpdate fl i σ)).evse ≠ .charging := by
    intro he
    have hcl := hset'.closed_iff.mpr (hev.trans he)
    rw [hopen.1] at hcl
    exact absurd hcl (by decide)
  have hclosed : (view σ.task).closed = false :=
    Bool.eq_false_iff.mpr fun hcl => hidle (charging_goes_on hset hfull hgate hcl hup hC)
  right
  refine ⟨?_, (committed_tick fl i σ).trans hC, hopen.1⟩
  rw [openDwell, if_pos ⟨hclosed, hfault⟩, hframe.dwell]
  exact bump_le _ _

/-- In a run in which no EVSE update finds the contactor closed in READY for want
of a card, the contactor closes only on a tick that reads state C after 49 more
that read it and left the contactor open; so any two closings are a dwell apart. -/
theorem contactor_closes_after_dwell (fl : BuildFlags) (b : BootInput) (ins : ℕ → TickInput)
    (n : ℕ)
    (hgate : ∀ k < n, ¬ GatedClosed (ins k) (beforeUpdate fl (ins k) (safetyRun fl b ins k)))
    (hopen : (safetyRun fl b ins n).task.mainCmd = false)
    (hclose : (safetyRun fl b ins (n + 1)).task.mainCmd = true) :
    (safetyRun fl b ins (n + 1)).task.cp.committed = .C ∧
      49 ≤ n ∧
      (∀ k, n < k + 49 → k ≤ n → (safetyRun fl b ins k).task.cp.committed = .C ∧
        (safetyRun fl b ins k).task.mainCmd = false) ∧
      ∀ m < n, (safetyRun fl b ins m).task.mainCmd = false →
        (safetyRun fl b ins (m + 1)).task.mainCmd = true → m + evseCDwellTicks ≤ n := by
  have hset := settled_run fl b ins
  have hstart : chargingStarts fl (ins n) (safetyRun fl b ins n) := by
    refine chargingStarts_of_ends (fun he => ?_) ((hset (n + 1)).closed_iff.mp hclose)
    exact absurd (hopen.symm.trans ((hset n).closed_iff.mpr he)) (by decide)
  have hcond := startConditions_of_chargingStarts hstart
  have hC : (safetyRun fl b ins (n + 1)).task.cp.committed = .C :=
    (committed_tick fl (ins n) _).trans hcond.stateC
  have hfault : (view (safetyRun fl b ins n).task).evse ≠ .fault := by
    intro hf
    rcases not_stateC_of_fault fl (ins n) hf with he | hne
    · exact absurd (he.symm.trans hcond.ready) (by decide)
    · exact hne hcond.stateC
  have hdwell : 49 ≤ openDwell (view (safetyRun fl b ins n).task) := by
    rw [openDwell, if_pos ⟨hopen, hfault⟩, ← (beforeUpdate_frame fl (ins n) _).dwell]
    exact Nat.le_of_succ_le_succ hcond.dwell
  have hstep : ∀ k < n,
      openDwell (view (safetyRun fl b ins (k + 1)).task) = 0 ∨
        (openDwell (view (safetyRun fl b ins (k + 1)).task) ≤
            openDwell (view (safetyRun fl b ins k).task) + 1 ∧
          (safetyRun fl b ins (k + 1)).task.cp.committed = .C ∧
          (safetyRun fl b ins (k + 1)).task.mainCmd = false) :=
    fun k hk => openDwell_tick (hset k) (dwellFull_run fl b ins k) (hgate k hk)
  have hboot : openDwell (view ((safetyMachine fl).boot b).task) = 0 := by
    have hz : (view ((safetyMachine fl).boot b).task).dwell = 0 := (booted_bootTask fl b).dwell_zero
    unfold openDwell
    rw [hz, ite_self]
  obtain ⟨hle, hgood⟩ := Machine.counted (m := safetyMachine fl) (b := b)
    (fun σ => openDwell (view σ.task))
    (fun σ => σ.task.cp.committed = .C ∧ σ.task.mainCmd = false) hboot hstep
  have hlast : ∀ k, n < k + 49 → k ≤ n → (safetyRun fl b ins k).task.cp.committed = .C ∧
      (safetyRun fl b ins k).task.mainCmd = false :=
    fun k hk hkn => hgood k (Nat.lt_of_lt_of_le hk (Nat.add_le_add_left hdwell k)) hkn
  refine ⟨hC, Nat.le_trans hdwell hle, hlast, fun m hmn _ hcl => ?_⟩
  have hd : evseCDwellTicks = 50 := rfl
  by_contra hlt
  have hm := (hlast (m + 1) (by omega) hmn).2
  exact absurd (hm.symm.trans hcl) (by decide)

/-- A quiet car in state C charges after 49 ticks. -/
def chargeRun (_ : ℕ) : TickInput := quietTick 6000 2000 []

set_option maxRecDepth 4000 in
theorem contactor_closes_after_dwell_quiet :
    (safetyRun defaultFlags (quietBoot 6000) chargeRun (49 + 1)).task.cp.committed = .C ∧
      (safetyRun defaultFlags (quietBoot 6000) chargeRun 1).task.cp.committed = .C := by
  have hgate : ∀ k < 49, ¬ GatedClosed (chargeRun k) (beforeUpdate defaultFlags (chargeRun k)
      (safetyRun defaultFlags (quietBoot 6000) chargeRun k)) := by decide +kernel
  have hopen : (safetyRun defaultFlags (quietBoot 6000) chargeRun 49).task.mainCmd = false := by
    decide +kernel
  have hclose : (safetyRun defaultFlags (quietBoot 6000) chargeRun 50).task.mainCmd = true := by
    decide +kernel
  obtain ⟨hnow, _, hlast, _⟩ := contactor_closes_after_dwell defaultFlags (quietBoot 6000)
    chargeRun 49 hgate hopen hclose
  exact ⟨hnow, (hlast 1 (by decide) (by decide)).1⟩

/-- A unit charges without a card; then the authorisation is switched on and the
session paused and resumed in one drain of the inbox, just before its card is
swiped. -/
def gatedRun (k : ℕ) : TickInput :=
  if k < 50 then quietTick 6000 2000 []
  else if k = 50 then cardTick 6000 2000 [.userPause 0, .userResume] cardFrame
  else cardTick 6000 2000 [] []

set_option maxRecDepth 4000 in
/-- The contactor opens for a single tick and closes on the old dwell. -/
theorem contactor_reclosed_at_once :
    (safetyRun defaultFlags (quietBoot 6000) gatedRun 50).task.mainCmd = true ∧
      (safetyRun defaultFlags (quietBoot 6000) gatedRun 51).task.mainCmd = false ∧
      (safetyRun defaultFlags (quietBoot 6000) gatedRun 52).task.mainCmd = true := by
  decide +kernel

end OpenEVCharger
