import OpenEVCharger.Safety.Sessions

/-!
# Charging without mains

`check_ac_absent` raises a fault that clears itself and does not enter FAULT. Nothing on
the way to the contactor asks for it, so the mains may be reported absent while a session
starts.
-/

namespace OpenEVCharger

namespace Interlock

variable {c c' : Interlock} {ticks : Nat} {r : SafetyReq}

/-! ## Operations that energise nothing -/

/-- The contactor is not closed and CHARGING is not entered. -/
structure Quiets (c c' : Interlock) : Prop where
  closed : c'.closed = true → c.closed = true
  charging : c'.evse = .charging → c.evse = .charging

theorem Quiets.of_eq (h : c' = c) : Quiets c c' := h ▸ ⟨id, id⟩

theorem RequestFrame.quiets (h : RequestFrame c c') : Quiets c c' where
  closed hc := h.closed.symm.trans hc
  charging := h.charging

theorem Detected.quiets (h : Detected c c') : Quiets c c' := by
  cases h with
  | quiet => exact .of_eq rfl
  | trip latched gfci _ =>
    refine ⟨fun hclosed => ?_, fun hevse => absurd ((trip_evse latched gfci).symm.trans hevse) ?_⟩
    · rw [Interlock.trip, move] at hclosed
      split at hclosed
      · exact hclosed
      · rw [if_pos rfl] at hclosed
        cases hclosed
    · decide

theorem OverTemp.quiets (h : OverTemp c c') : Quiets c c' where
  closed hc := h.frame.closed.symm.trans hc
  charging he := by
    rcases h.frame.moves with hsame | hcool | ⟨-, hready⟩
    · exact hsame.symm.trans he
    · exact absurd (hcool.symm.trans he) nofun
    · exact absurd (hready.symm.trans he) nofun

/-- From READY with state C, a full dwell and a session allowed to start, the update
enters CHARGING. -/
theorem update_of_ready {dwellTicks : Nat} {gateOpen : Bool} (hready : c.evse = .ready)
    (hC : c.cp.committed = .C) (hdwell : dwellTicks ≤ bump dwellTicks c.dwell)
    (hgate : (gateOpen || c.authorized) = true) :
    (c.update dwellTicks gateOpen).evse = .charging := by
  have hmay : (c.dropAuth.countDwell dwellTicks).mayCharge dwellTicks gateOpen = true := by
    simp [mayCharge, countDwell, dropAuth, hready, hC, hdwell, hgate]
  rw [update, if_neg (by simp [hready]), if_neg (by simp [hready]), charge, if_pos hmay, move_evse]

end Interlock

open Interlock (Quiets)

variable {fl : BuildFlags} {i : TickInput} {σ : System} {s : SafetyTask}

/-! ## The operations of a tick -/

/-- The operations before the update of the EVSE. -/
def frontOps (fl : BuildFlags) (i : TickInput) (σ : System) : List (SafetyTask → SafetyTask) :=
  let js := (beforeDetectors i σ).cp.committed
  let cpMv := i.cpHighMv
  [fun s => { s with tickCount := i.tickCount }] ++
  (received i σ).map (processRequest i) ++
  [serviceReplugWindow, readPilot i, checkSafeFail i.crashSafeFail js cpMv,
    checkRelayFeedback fl js cpMv, checkGfci i js cpMv, checkPeContinuity fl i js cpMv,
    checkAdcRuntime i js cpMv, checkCcOutOfRange fl i js cpMv, checkCpE js cpMv,
    checkOverTemp fl i]

theorem controlOps_eq (fl : BuildFlags) (i : TickInput) (σ : System) :
    controlOps fl i σ = frontOps fl i σ ++
      [updateEvseFromJ1772 i (beforeUpdate fl i σ).cp.committed,
        applyOutputs i (afterUpdate fl i σ).cp.committed i.cpHighMv] := by
  rw [controlOps, frontOps, List.append_assoc _ _ [updateEvseFromJ1772 _ _, _]]
  rfl

theorem foldl_frontOps (fl : BuildFlags) (i : TickInput) (σ : System) :
    (frontOps fl i σ).foldl (fun s f => f s) σ.task = beforeUpdate fl i σ := by
  rw [frontOps, List.foldl_append, List.foldl_append, List.foldl_map]
  have hdrain := drainInbox_task i σ
  rw [System.atTick] at hdrain
  simp only [List.foldl_cons, List.foldl_nil]
  rw [← hdrain]
  rfl

theorem quiets_frontOps (fl : BuildFlags) (i : TickInput) (σ : System) :
    ∀ f ∈ frontOps fl i σ, ∀ s, Quiets (view s) (view (f s)) := by
  intro f hf s
  rw [frontOps] at hf
  simp only [List.mem_append, List.mem_map, List.mem_cons, List.not_mem_nil, or_false] at hf
  rcases hf with (rfl | ⟨r, -, rfl⟩) | rfl | rfl | rfl | rfl | rfl | rfl | rfl | rfl | rfl | rfl
  · exact .of_eq rfl
  · exact (request_processRequest i r s).frame.quiets
  · rw [view_serviceReplugWindow]
    exact (Interlock.serviceWindow_requestFrame _).quiets
  · rw [view_readPilot]
    exact ⟨id, id⟩
  · exact (detected_checkSafeFail ..).quiets
  · exact (detected_checkRelayFeedback ..).quiets
  · exact (detected_checkGfci ..).quiets
  · exact (detected_checkPeContinuity ..).quiets
  · exact (detected_checkAdcRuntime ..).quiets
  · exact (detected_checkCcOutOfRange ..).quiets
  · exact (detected_checkCpE ..).quiets
  · exact (overTemp_checkOverTemp ..).quiets

theorem quiets_meteringOps (i : TickInput) (js : J1772State) (s : SafetyTask) :
    ∀ op ∈ meteringOps i js s, ∀ u, Quiets (view u) (view (op.run u)) := by
  intro op hop u
  rw [meteringOps] at hop
  split at hop
  · rw [plainOps, List.map_singleton, List.mem_singleton] at hop
    rw [hop]
    exact .of_eq rfl
  rcases List.mem_append.mp hop with hpoll | hintegrate
  · obtain ⟨f, hf, rfl⟩ := List.mem_map.mp hpoll
    simp only [pollOps, List.mem_cons, List.not_mem_nil, or_false] at hf
    rcases hf with rfl | rfl | rfl | rfl | rfl | rfl
    · exact .of_eq rfl
    · exact .of_eq (view_checkAcAbsent ..)
    · exact (detected_checkRelayWeldBl0939 ..).quiets
    · exact (detected_checkRelayStuckOpenBl0939 ..).quiets
    · exact (detected_checkHardOverCurrent ..).quiets
    · exact .of_eq (view_checkSoftOverCurrent ..)
  · rw [List.mem_singleton.mp hintegrate]
    exact .of_eq (view_integrateEnergy ..)

theorem bump_full {cap n : ℕ} (h : cap ≤ n + 1) : cap ≤ bump cap n := by
  unfold bump
  split <;> omega

theorem chargingStarts_iff (fl : BuildFlags) (i : TickInput) (σ : System) :
    chargingStarts fl i σ ↔ StartConditions i (beforeUpdate fl i σ) := by
  refine ⟨startConditions_of_chargingStarts, fun h => ⟨?_, ?_⟩⟩
  · rw [h.ready]
    decide
  · have hstarts := Interlock.update_of_ready (c := view (beforeUpdate fl i σ)) h.ready h.stateC
      (bump_full h.dwell) h.mayStart
    rw [← view_afterUpdate] at hstarts
    exact hstarts

/-! ## Steps that energise -/

/-- The step commands the contactor closed, or enters CHARGING. -/
def TaskStep.Energises (st : TaskStep) : Prop :=
  (st.before.mainCmd = false ∧ st.after.mainCmd = true) ∨
    (st.before.evse ≠ .charging ∧ st.after.evse = .charging)

theorem Interlock.Quiets.not_energises {st : TaskStep}
    (h : Quiets (view st.before) (view st.after)) : ¬ st.Energises := by
  rintro (⟨hopen, hclosed⟩ | ⟨hout, hin⟩)
  · exact absurd ((h.closed hclosed).symm.trans hopen) nofun
  · exact hout (h.charging hin)

theorem faults_updateEvseFromJ1772 (i : TickInput) (js : J1772State) (s : SafetyTask) :
    (updateEvseFromJ1772 i js s).faults = s.faults := by
  have hunplug : (clearAuthOnUnplug i js s).faults = s.faults := by
    rw [clearAuthOnUnplug]
    split
    · rfl
    · rfl
  have hcharging : ∀ u, (updateCharging i js u).faults = u.faults := by
    intro u
    rw [updateCharging]
    dsimp only
    generalize (if js = .C then bump evseCDwellTicks u.evseCStreak else 0) = streak
    split
    · exact faults_evseTransition ..
    split
    · exact faults_evseTransition ..
    · rfl
  rw [updateEvseFromJ1772]
  dsimp only
  split
  · rfl
  split
  · split
    · exact (faults_evseTransition ..).trans hunplug
    · exact hunplug
  · exact (hcharging _).trans hunplug

/-- A tick takes the front operations, the update, the outputs, and the rest. -/
theorem tickSteps_eq (fl : BuildFlags) (i : TickInput) (σ : System) :
    tickSteps fl i σ = foldTrace TaskOp.run σ.task (plainOps (frontOps fl i σ)) ++
      ((beforeUpdate fl i σ, ⟨updateEvseFromJ1772 i (beforeUpdate fl i σ).cp.committed, 0⟩) ::
        (afterUpdate fl i σ, ⟨applyOutputs i (afterUpdate fl i σ).cp.committed i.cpHighMv, 0⟩) ::
        foldTrace TaskOp.run (beforeMetering fl i σ)
          (meteringOps i (afterUpdate fl i σ).cp.committed (beforeMetering fl i σ) ++
            plainOps [fun s => (rfidStep i ⟨s, (beforeRfid fl i σ).inbox⟩).task])) := by
  have hplain : ∀ fs gs, plainOps (fs ++ gs) = plainOps fs ++ plainOps gs :=
    fun _ _ => List.map_append
  rw [tickSteps, tickOps, controlOps_eq, hplain, List.append_assoc, List.append_assoc,
    foldTrace_append, foldl_plainOps, foldl_frontOps]
  rfl

/-- The outputs close the contactor in CHARGING only. -/
theorem energises_applyOutputs (i : TickInput) (cpMv : Int) (s : SafetyTask)
    (h : TaskStep.Energises (s, ⟨applyOutputs i s.cp.committed cpMv, 0⟩)) :
    s.mainCmd = false ∧ s.evse = .charging := by
  have hout := view_applyOutputs i cpMv s
  rcases h with ⟨hopen, hclosed⟩ | ⟨hne, he⟩
  · have hwant : (view s).outputs.closed = true :=
      (congrArg Interlock.closed hout).symm.trans hclosed
    simp only [Interlock.outputs, Bool.and_eq_true, decide_eq_true_eq] at hwant
    exact ⟨hopen, hwant.1.1⟩
  · exact absurd ((congrArg Interlock.evse hout).symm.trans he) hne

theorem closed_afterUpdate (fl : BuildFlags) (i : TickInput) (σ : System) :
    (afterUpdate fl i σ).mainCmd = (beforeUpdate fl i σ).mainCmd := by
  have hkept := (Interlock.update_frame evseCDwellTicks (!i.requireRfidAuth)
    (view (beforeUpdate fl i σ))).closed
  rw [← view_afterUpdate] at hkept
  exact hkept

/-- Only the update and the outputs energise, and only in a tick that starts charging. -/
theorem energises_tickSteps (hset : (view σ.task).Settled) {st : TaskStep}
    (hst : st ∈ tickSteps fl i σ) (h : st.Energises) :
    chargingStarts fl i σ ∧ st.before.faults = (beforeUpdate fl i σ).faults := by
  rw [tickSteps_eq, List.mem_append, List.mem_cons, List.mem_cons] at hst
  rcases hst with hfront | rfl | rfl | hrest
  · obtain ⟨f, hf, hop⟩ := List.mem_map.mp (foldTrace_mem hfront)
    refine absurd h (Quiets.not_energises ?_)
    rw [TaskStep.after, ← hop]
    exact quiets_frontOps fl i σ f hf st.1
  · refine ⟨?_, rfl⟩
    rcases h with ⟨hopen, hclosed⟩ | hstarts
    · exact absurd (hclosed.symm.trans ((closed_afterUpdate fl i σ).trans hopen)) nofun
    · exact hstarts
  · obtain ⟨hopen, hcharging⟩ := energises_applyOutputs i i.cpHighMv _ h
    refine ⟨⟨fun hbefore => ?_, hcharging⟩, faults_updateEvseFromJ1772 ..⟩
    -- a session that was on already would have had the contactor closed
    have hframe := beforeUpdate_frame fl i σ
    have hclosed : (view (beforeUpdate fl i σ)).closed = true := by
      rcases hframe.closed with hfault | hsame
      · exact absurd (hfault.symm.trans hbefore) nofun
      · rw [hsame]
        exact hset.closed_iff.mpr (hframe.charging hbefore)
    exact absurd (hopen.symm.trans ((closed_afterUpdate fl i σ).trans hclosed)) nofun
  · have hop := foldTrace_mem hrest
    refine absurd h (Quiets.not_energises ?_)
    rw [TaskStep.after]
    rcases List.mem_append.mp hop with hmeter | hrfid
    · exact quiets_meteringOps _ _ _ _ hmeter _
    · rw [List.mem_singleton.mp hrfid]
      refine (Interlock.Quiets.mk ?_ ?_ : Quiets _ (view (rfidStep i ⟨st.1, _⟩).task))
      · rw [view_rfidStep]
        exact id
      · rw [view_rfidStep]
        exact id

/-! ## Runs -/

/-- `FAULT_AC_ABSENT` is up. -/
def AcAbsentActive (s : SafetyTask) : Prop := faultIsActive s.faults FaultId.acAbsent.code = true

instance (s : SafetyTask) : Decidable (AcAbsentActive s) := by
  unfold AcAbsentActive
  infer_instance

theorem energises_of_chargingStarts (fl : BuildFlags) (b : BootInput) (ins : ℕ → TickInput)
    {k n : ℕ} (hk : k < n) (h : chargingStarts fl (ins k) (safetyRun fl b ins k)) :
    ∃ st ∈ taskSteps fl b ins n,
      st.before = beforeUpdate fl (ins k) (safetyRun fl b ins k) ∧ st.Energises := by
  refine ⟨(beforeUpdate fl (ins k) (safetyRun fl b ins k), ⟨updateEvseFromJ1772 (ins k)
    (beforeUpdate fl (ins k) (safetyRun fl b ins k)).cp.committed, 0⟩),
    List.mem_flatMap.mpr ⟨k, List.mem_range.mpr hk, ?_⟩, rfl, .inr h⟩
  rw [tickSteps_eq]
  exact List.mem_append_right _ (List.mem_cons_self ..)

/-- In every run: with the mains reported absent no step closes the contactor or enters
CHARGING, exactly when no tick finds the conditions of a start met under that report. -/
theorem acAbsent_blocks_iff (fl : BuildFlags) (b : BootInput) (ins : ℕ → TickInput) (n : ℕ) :
    (∀ st ∈ taskSteps fl b ins n, AcAbsentActive st.before → ¬ st.Energises) ↔
      ∀ k < n, AcAbsentActive (beforeUpdate fl (ins k) (safetyRun fl b ins k)) →
        ¬ StartConditions (ins k) (beforeUpdate fl (ins k) (safetyRun fl b ins k)) := by
  constructor
  · intro hsteps k hk habsent hstart
    have hstarts := (chargingStarts_iff fl (ins k) (safetyRun fl b ins k)).mpr hstart
    obtain ⟨st, hst, hbefore, henergises⟩ := energises_of_chargingStarts fl b ins hk hstarts
    exact hsteps st hst (hbefore ▸ habsent) henergises
  · intro hticks st hst habsent henergises
    obtain ⟨k, hk, hst⟩ := List.mem_flatMap.mp hst
    obtain ⟨hstarts, hfaults⟩ := energises_tickSteps (settled_run fl b ins k) hst henergises
    rw [AcAbsentActive, hfaults] at habsent
    exact hticks k (List.mem_range.mp hk) habsent ((chargingStarts_iff ..).mp hstarts)

/-- The mains goes away before the vehicle asks for current. -/
def mainsLostRun (k : ℕ) : TickInput := { quietTick (if k < 40 then 9000 else 6000) 2000 [] with
  bl0939 := ⟨⟨true, 0⟩, ⟨true, 0⟩, ⟨true, 0⟩, ⟨true, 0⟩, ⟨true, 453⟩⟩ }

set_option maxRecDepth 4000 in
theorem charging_without_mains : ¬ ∀ fl b ins n, ∀ st ∈ taskSteps fl b ins n,
    AcAbsentActive st.before → ¬ st.Energises := by
  have habsent : AcAbsentActive (beforeUpdate defaultFlags (mainsLostRun 91)
      (safetyRun defaultFlags (quietBoot 9000) mainsLostRun 91)) := by decide +kernel
  have hstarts : chargingStarts defaultFlags (mainsLostRun 91)
      (safetyRun defaultFlags (quietBoot 9000) mainsLostRun 91) := by decide +kernel
  obtain ⟨st, hst, hbefore, henergises⟩ := energises_of_chargingStarts defaultFlags
    (quietBoot 9000) mainsLostRun (Nat.lt_succ_self 91) hstarts
  exact fun hclaim => hclaim _ _ _ _ st hst (hbefore ▸ habsent) henergises

end OpenEVCharger
