import OpenEVCharger.Safety.Contactor

/-!
# Authorised sessions

`s_session_authorized` is set by the swipe of an authorised card and dropped by
the EVSE update once the pilot is in state A. The update leaves it alone in FAULT
and COOLING_DOWN, so the drop is missed when the cable is pulled there.
-/

namespace OpenEVCharger

/-! ## The EVSE is up -/

/-- The boot path is over. -/
def Running (c : Interlock) : Prop := c.evse ≠ .boot ∧ c.evse ≠ .selfTest

theorem running_move {c : Interlock} {next : EvseState} (hb : next ≠ .boot)
    (ht : next ≠ .selfTest) : Running (c.move next) := by
  unfold Running
  rw [Interlock.move_evse]
  exact ⟨hb, ht⟩

theorem Running.resume {c : Interlock} (h : Running c) : Running c.resume := by
  unfold Interlock.resume
  split
  · exact running_move (by decide) (by decide)
  · exact h

theorem Running.request {c c' : Interlock} {ticks : Nat} {r : SafetyReq} (h : Running c)
    (hr : Interlock.Request ticks c r c') : Running c' := by
  cases hr with
  | clear fid latched _ _ =>
    unfold Interlock.clear
    dsimp only
    split
    · exact running_move (by decide) (by decide)
    · exact h
  | userPause _ =>
    unfold Interlock.pause
    split
    · exact running_move (by decide) (by decide)
    · exact h
  | userResume => exact h.resume
  | simulateReplug =>
    unfold Interlock.replug
    split
    · exact running_move (by decide) (by decide)
    · exact h
  | _ => exact h

theorem Running.update {c : Interlock} (h : Running c) (d : Nat) (g : Bool) :
    Running (c.update d g) := by
  have hc : Running (c.dropAuth.countDwell d) := h
  unfold Interlock.update
  split
  · exact h
  · split
    · split
      · exact running_move (by decide) (by decide)
      · exact h
    · unfold Interlock.charge
      repeat' split
      · exact running_move (by decide) (by decide)
      · exact running_move (by decide) (by decide)
      · exact hc

theorem stable_running : Stable Running where
  serviceWindow c h := by
    unfold Interlock.serviceWindow
    repeat' split
    · exact h
    · exact h.resume
    · exact h
  samplePilot _ _ h := h
  detected _ _ hd h := by
    rcases hd.frame.tripped_or_same with hf | rfl
    · simp [Running, hf]
    · exact h
  overTemp _ _ ho h := by
    unfold Running
    rcases ho.frame.moves with he | he | ⟨_, he⟩
    · rw [he]
      exact h
    · simp [he]
    · simp [he]
  update _ _ h := h.update _ _
  outputs _ h := h
  authorize _ _ h := h

theorem running_drain (fl : BuildFlags) (b : BootInput) (ins : ℕ → TickInput) (n : ℕ) :
    Running (view (drainInbox (ins n) (safetyRun fl b ins n)).task) := by
  have hreq : ∀ i r s, Running (view s) → Running (view (processRequest i r s)) :=
    fun i r s h => h.request (request_processRequest i r s)
  refine view_drain_kept (fun p _ h => hreq _ p.2 p.1 h) ?_
  refine Machine.invariant (P := fun σ : System => Running (view σ.task)) ?_
    (fun i σ h => stable_running.step (fun p _ hp => hreq i p.2 p.1 hp) h) n
  rcases (booted_bootTask fl b).idle with hr | hf
  · exact ⟨fun he => absurd (hr.symm.trans he) (by decide),
      fun he => absurd (hr.symm.trans he) (by decide)⟩
  · exact ⟨fun he => absurd (hf.symm.trans he) (by decide),
      fun he => absurd (hf.symm.trans he) (by decide)⟩

/-! ## The session flag through a tick -/

/-- The EVSE update keeps an authorisation only with a cable in, or in a state it
leaves alone. -/
theorem update_authorized {c : Interlock} {d : Nat} {g : Bool} (hrun : Running c)
    (ha : (c.update d g).authorized = true) :
    c.authorized = true ∧
      (c.cp.committed ≠ .A ∨ c.evse = .fault ∨ c.evse = .coolingDown) := by
  have hdrop : c.dropAuth.authorized = true → c.authorized = true ∧ c.cp.committed ≠ .A := by
    simp only [Interlock.dropAuth, Bool.and_eq_true, decide_eq_true_eq]
    exact id
  unfold Interlock.update at ha
  split at ha
  · next he =>
    refine ⟨ha, .inr ?_⟩
    rcases he with hf | hb | ht | hc
    · exact .inl hf
    · exact absurd hb hrun.1
    · exact absurd ht hrun.2
    · exact .inr hc
  · have hkept : c.dropAuth.authorized = true := by
      split at ha
      · split at ha
        · rw [Interlock.move_authorized] at ha
          exact ha
        · exact ha
      · unfold Interlock.charge at ha
        split at ha
        · rw [Interlock.move_authorized] at ha
          exact ha
        · split at ha
          · rw [Interlock.move_authorized] at ha
            exact ha
          · exact ha
    exact ⟨(hdrop hkept).1, .inl (hdrop hkept).2⟩

/-- An authorisation a tick ends with was granted by its swipe, or held before and
kept by its EVSE update. -/
theorem authorized_tick {fl : BuildFlags} {i : TickInput} {σ : System}
    (ha : (tick fl i σ).task.sessionAuthorized = true) :
    swipeAuthorized i (beforeRfid fl i σ).task = true ∨
      (afterUpdate fl i σ).sessionAuthorized = true := by
  have hview : (view (tick fl i σ).task).authorized = true := ha
  rw [view_tick, Interlock.authorize_authorized, Bool.or_eq_true,
    (detected_beforeRfid fl i σ).frame.authorized] at hview
  exact hview.symm

/-! ## No charging without a fresh swipe -/

/-- The update would have to drop the authorisation of an unplugged car, in a state
it leaves alone. -/
def StaleAuthorization (s : SafetyTask) : Prop :=
  s.cp.committed = .A ∧ s.sessionAuthorized = true ∧ (s.evse = .fault ∨ s.evse = .coolingDown)

instance (s : SafetyTask) : Decidable (StaleAuthorization s) := by
  unfold StaleAuthorization
  infer_instance

theorem authorized_step {fl : BuildFlags} {b : BootInput} {ins : ℕ → TickInput} {k : ℕ}
    (hstale : ¬ StaleAuthorization (beforeUpdate fl (ins k) (safetyRun fl b ins k)))
    (ha : (safetyRun fl b ins (k + 1)).task.sessionAuthorized = true) :
    swipeAuthorized (ins k) (beforeRfid fl (ins k) (safetyRun fl b ins k)).task = true ∨
      ((safetyRun fl b ins k).task.sessionAuthorized = true ∧
        (safetyRun fl b ins (k + 1)).task.cp.committed ≠ .A) := by
  rcases authorized_tick ha with hswipe | hkept
  · exact .inl hswipe
  · right
    have hrun : Running (view (beforeUpdate fl (ins k) (safetyRun fl b ins k))) :=
      stable_running.beforeUpdate (running_drain fl b ins k)
    have hview : (view (afterUpdate fl (ins k) (safetyRun fl b ins k))).authorized = true := hkept
    rw [view_afterUpdate] at hview
    obtain ⟨hbefore, hplug⟩ := update_authorized hrun hview
    refine ⟨(beforeUpdate_frame fl (ins k) _).authorized.symm.trans hbefore, ?_⟩
    intro hA
    have hA' : (beforeUpdate fl (ins k) (safetyRun fl b ins k)).cp.committed = .A :=
      (committed_tick fl (ins k) (safetyRun fl b ins k)).symm.trans hA
    rcases hplug with hne | hheld
    · exact hne hA'
    · exact hstale ⟨hA', hbefore, hheld⟩

/-- With authorisation required, a run in which no EVSE update misses the drop of
an authorisation starts charging only after the swipe of an authorised card that
no later pilot reading of state A separates from it. -/
theorem charging_follows_swipe (fl : BuildFlags) (b : BootInput) (ins : ℕ → TickInput) (n : ℕ)
    (hauth : ∀ k ≤ n, (ins k).requireRfidAuth = true)
    (hstale : ∀ k ≤ n, ¬ StaleAuthorization (beforeUpdate fl (ins k) (safetyRun fl b ins k))) :
    ((safetyRun fl b ins n).task.evse ≠ .charging →
      (safetyRun fl b ins (n + 1)).task.evse = .charging →
        chargingStarts fl (ins n) (safetyRun fl b ins n)) ∧
    (chargingStarts fl (ins n) (safetyRun fl b ins n) →
      ∃ j < n, swipeAuthorized (ins j) (beforeRfid fl (ins j) (safetyRun fl b ins j)).task = true ∧
        ∀ k, j < k → k ≤ n → (safetyRun fl b ins (k + 1)).task.cp.committed ≠ .A) := by
  refine ⟨fun hb ha => chargingStarts_of_ends hb ha, fun hstart => ?_⟩
  have hcond := startConditions_of_chargingStarts hstart
  have hflag : (safetyRun fl b ins n).task.sessionAuthorized = true := by
    have hmay := hcond.mayStart
    rw [sessionMayStart, hauth n (Nat.le_refl n), Bool.not_true, Bool.false_or] at hmay
    exact (beforeUpdate_frame fl (ins n) _).authorized.symm.trans hmay
  have hboot : ¬ ((safetyMachine fl).boot b).task.sessionAuthorized = true :=
    Bool.eq_false_iff.mp (booted_bootTask fl b).not_authorized
  have hstep : ∀ k < n, (safetyRun fl b ins (k + 1)).task.sessionAuthorized = true →
      swipeAuthorized (ins k) (beforeRfid fl (ins k) (safetyRun fl b ins k)).task = true ∨
        ((safetyRun fl b ins k).task.sessionAuthorized = true ∧
          (safetyRun fl b ins (k + 1)).task.cp.committed ≠ .A) :=
    fun k hk ha => authorized_step (hstale k (Nat.le_of_lt hk)) ha
  obtain ⟨j, hjn, hswipe, hkept⟩ := Machine.set_since (m := safetyMachine fl) (b := b)
    (fun σ => σ.task.sessionAuthorized = true)
    (fun i σ => swipeAuthorized i (beforeRfid fl i σ).task = true)
    (fun σ => σ.task.cp.committed ≠ .A)
    hboot hstep hflag
  refine ⟨j, hjn, hswipe, fun k hjk hkn => ?_⟩
  rcases Nat.lt_or_eq_of_le hkn with hlt | rfl
  · exact hkept k hjk hlt
  · -- the tick that starts charging reads state C
    have hC : (safetyRun fl b ins (k + 1)).task.cp.committed = .C :=
      (committed_tick fl (ins k) (safetyRun fl b ins k)).trans hcond.stateC
    rw [hC]
    decide

/-- A swipe in the first tick of a car that asks for current. -/
def swipeFirstRun (k : ℕ) : TickInput := cardTick 6000 2000 [] (if k = 0 then cardFrame else [])

set_option maxRecDepth 4000 in
/-- The dwell after that swipe is over at tick 49. -/
theorem charging_follows_swipe_first :
    ∃ j < 49, swipeAuthorized (swipeFirstRun j)
      (beforeRfid defaultFlags (swipeFirstRun j)
        (safetyRun defaultFlags (quietBoot 6000) swipeFirstRun j)).task = true := by
  have hstale : ∀ k ≤ 49, ¬ StaleAuthorization (beforeUpdate defaultFlags (swipeFirstRun k)
      (safetyRun defaultFlags (quietBoot 6000) swipeFirstRun k)) := by decide +kernel
  have hstart : chargingStarts defaultFlags (swipeFirstRun 49)
      (safetyRun defaultFlags (quietBoot 6000) swipeFirstRun 49) := by decide +kernel
  obtain ⟨j, hj, hswipe, _⟩ := (charging_follows_swipe defaultFlags (quietBoot 6000) swipeFirstRun
    49 (fun _ _ => rfl) hstale).2 hstart
  exact ⟨j, hj, hswipe⟩

theorem not_swipeAuthorized_of_quiet {i : TickInput} {s : SafetyTask} (h : i.rfidRx = []) :
    swipeAuthorized i s = false := by
  simp [swipeAuthorized, h]

/-- The card is swiped in the first tick, the plug runs hot, the cable is pulled
during the cool-down and put back, and then the plug cools. -/
def carriedOverRun (k : ℕ) : TickInput :=
  if k = 0 then cardTick 9000 350 [] cardFrame
  else if k < 5 then cardTick 9000 350 [] []
  else if k < 8 then cardTick 12000 450 [] []
  else if k < 11 then cardTick 6000 450 [] []
  else cardTick 6000 2000 [] []

set_option maxRecDepth 4000 in
/-- The second car charges on the swipe of the first. -/
theorem authorization_carries_over :
    (∀ k, (carriedOverRun k).requireRfidAuth = true) ∧
      (safetyRun defaultFlags (quietBoot 9000) carriedOverRun 60).task.evse ≠ .charging ∧
      (safetyRun defaultFlags (quietBoot 9000) carriedOverRun 61).task.evse = .charging ∧
      ¬ ∃ j ≤ 60, swipeAuthorized (carriedOverRun j) (beforeRfid defaultFlags (carriedOverRun j)
          (safetyRun defaultFlags (quietBoot 9000) carriedOverRun j)).task = true ∧
        ∀ k, j < k → k ≤ 60 →
          (safetyRun defaultFlags (quietBoot 9000) carriedOverRun (k + 1)).task.cp.committed
            ≠ .A := by
  have hA : (safetyRun defaultFlags (quietBoot 9000) carriedOverRun 8).task.cp.committed = .A := by
    decide +kernel
  refine ⟨fun k => ?_, by decide +kernel, by decide +kernel, ?_⟩
  · unfold carriedOverRun
    repeat' split
    all_goals rfl
  · rintro ⟨j, _, hswipe, hnotA⟩
    have hj : j = 0 := by
      by_contra hne
      have hquiet : (carriedOverRun j).rfidRx = [] := by
        unfold carriedOverRun
        rw [if_neg hne]
        repeat' split
        all_goals rfl
      rw [not_swipeAuthorized_of_quiet hquiet] at hswipe
      exact absurd hswipe (by decide)
    subst hj
    exact hnotA 7 (by decide) (by decide) hA

end OpenEVCharger
