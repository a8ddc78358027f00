import OpenEVCharger.Safety.Contactor

/-!
# The replug window

`SIMULATE_REPLUG` parks the EVSE in USER_PAUSED and arms a window during which
the pilot is held at state F, so that the car sees the cable pulled. The window
is a counter of its own: it holds the pilot, but nothing in it holds the EVSE,
and a start of charging inside it closes the contactor on a car in state C.
-/

namespace OpenEVCharger

open Interlock (Detected)

/-! ## The pilot -/

/-- In the window the pilot output is at state F. -/
def WindowHolds (c : Interlock) : Prop := c.window ≠ 0 → c.pilotF = true

theorem WindowHolds.outputs (c : Interlock) : WindowHolds c.outputs := by
  intro hw
  have hpos : 0 < c.window := Nat.pos_of_ne_zero hw
  simp [Interlock.outputs, hpos]

theorem WindowHolds.detected {c c' : Interlock} (h : WindowHolds c) (hd : Detected c c') :
    WindowHolds c' := by
  intro hw
  have hc : c.pilotF = true := h (hd.frame.window ▸ hw)
  cases hd with
  | quiet => exact hc
  | trip l g _ =>
    unfold Interlock.trip Interlock.move
    repeat' split
    all_goals first | exact hc | rfl

/-- The pilot is held at state F at the end of every tick of the window, whatever
the EVSE does. -/
theorem windowHolds_tick (fl : BuildFlags) (i : TickInput) (σ : System) :
    WindowHolds (view (tick fl i σ).task) := by
  have h : WindowHolds (view (beforeRfid fl i σ).task) :=
    (WindowHolds.outputs _).detected (detected_beforeRfid fl i σ)
  rw [view_tick]
  exact fun hw => (Interlock.authorize_pilotF _).trans (h hw)

/-! ## The EVSE -/

/-- In the window the EVSE is not charging. -/
def WindowIdle (c : Interlock) : Prop := c.window ≠ 0 → c.evse ≠ .charging

theorem WindowIdle.request {c c' : Interlock} {ticks : Nat} {r : SafetyReq} (h : WindowIdle c)
    (hr : Interlock.Request ticks c r c') : WindowIdle c' := by
  have hframe := hr.frame
  -- only a replug touches the window, and it leaves CHARGING
  have hwin : c'.evse = .charging → c'.window = c.window := by
    intro he
    cases hr with
    | clear fid latched _ _ =>
      unfold Interlock.clear
      dsimp only
      split <;> simp
    | userPause _ =>
      unfold Interlock.pause
      split <;> simp
    | userResume => exact (Interlock.resume_frame c).window
    | simulateReplug =>
      unfold Interlock.replug at he ⊢
      split
      · next hready =>
        rw [if_pos hready] at he
        simp at he
      · rfl
    | _ => rfl
  intro hw he
  exact h (hwin he ▸ hw) (hframe.charging he)

theorem passive_windowIdle : Passive WindowIdle where
  serviceWindow c h := by
    unfold Interlock.serviceWindow
    split
    · exact h
    · next hne =>
      split
      · exact fun hw => absurd rfl hw
      · exact fun _ => h hne
  samplePilot _ _ h := h
  detected _ _ hd h := by
    rcases hd.frame.tripped_or_same with hf | rfl
    · exact fun _ he => absurd (hf.symm.trans he) (by decide)
    · exact h
  outputs _ h := h
  authorize _ _ h := h

theorem WindowIdle.overTemp {c c' : Interlock} (h : WindowIdle c)
    (ho : Interlock.OverTemp c c') : WindowIdle c' := by
  intro hw he
  rcases ho.frame.moves with hs | hs | ⟨_, hs⟩
  · exact h (ho.frame.window ▸ hw) (hs.symm.trans he)
  · exact absurd (hs.symm.trans he) (by decide)
  · exact absurd (hs.symm.trans he) (by decide)

/-- The update finds an armed window and a car that may charge. -/
def StartsInWindow (i : TickInput) (s : SafetyTask) : Prop :=
  0 < s.replugWindowTicks ∧ s.evse = .ready ∧ s.cp.committed = .C ∧
    evseCDwellTicks ≤ s.evseCStreak + 1 ∧ sessionMayStart i s = true

instance (i : TickInput) (s : SafetyTask) : Decidable (StartsInWindow i s) := by
  unfold StartsInWindow
  infer_instance

theorem windowIdle_tick {fl : BuildFlags} {i : TickInput} {σ : System}
    (hstart : ¬ StartsInWindow i (beforeUpdate fl i σ)) (h : WindowIdle (view σ.task)) :
    WindowIdle (view (tick fl i σ).task) := by
  have hdrain : WindowIdle (view (drainInbox i σ).task) :=
    view_drain_kept (fun p _ hp => hp.request (request_processRequest i p.2 p.1)) h
  have hbefore : WindowIdle (view (beforeUpdate fl i σ)) :=
    (passive_windowIdle.beforeOverTemp hdrain).overTemp (overTemp_beforeUpdate fl i σ)
  refine passive_windowIdle.tick_of_afterUpdate fun hw he => ?_
  have hw' : (view (beforeUpdate fl i σ)).window ≠ 0 := by
    rw [view_afterUpdate, (Interlock.update_frame _ _ _).window] at hw
    exact hw
  have hcond := startConditions_of_chargingStarts ⟨hbefore hw', he⟩
  exact hstart ⟨Nat.pos_of_ne_zero hw', hcond.ready, hcond.stateC, hcond.dwell, hcond.mayStart⟩

/-- In a run in which no EVSE update may start charging inside the window, the
unit is not charging, its contactor is commanded open and its pilot is held at
state F at the end of every tick of the window. -/
theorem replug_window_holds (fl : BuildFlags) (b : BootInput) (ins : ℕ → TickInput) (n : ℕ)
    (hstart : ∀ k ≤ n,
      ¬ StartsInWindow (ins k) (beforeUpdate fl (ins k) (safetyRun fl b ins k)))
    (hwin : (safetyRun fl b ins (n + 1)).task.replugWindowTicks ≠ 0) :
    (safetyRun fl b ins (n + 1)).task.evse ≠ .charging ∧
      (safetyRun fl b ins (n + 1)).task.mainCmd = false ∧
      (safetyRun fl b ins (n + 1)).task.cpCcr = cpPwmCcrLow := by
  have hboot : WindowIdle (view (safetyRun fl b ins 0).task) :=
    fun hw => absurd (booted_run fl b ins).window_zero hw
  have hidle : WindowIdle (view (safetyRun fl b ins (n + 1)).task) :=
    Machine.kept_between (P := fun σ : System => WindowIdle (view σ.task)) (Nat.zero_le _)
      (fun k _ hk h => windowIdle_tick (hstart k (Nat.lt_succ_iff.mp hk)) h) hboot
  have hev : (safetyRun fl b ins (n + 1)).task.evse ≠ .charging := hidle hwin
  have hset := settled_run fl b ins (n + 1)
  have hpilot : (view (safetyRun fl b ins (n + 1)).task).pilotF = true :=
    windowHolds_tick fl (ins n) (safetyRun fl b ins n) hwin
  refine ⟨hev, Bool.eq_false_iff.mpr fun hcl => hev (hset.closed_iff.mp hcl), ?_⟩
  exact of_decide_eq_true hpilot

/-- A replug of a car that waits in state C. -/
theorem replug_window_holds_first :
    let ins := fun k => quietTick 6000 2000 (if k = 3 then [.simulateReplug] else [])
    let s := (safetyRun defaultFlags (quietBoot 6000) ins 4).task
    s.replugWindowTicks ≠ 0 ∧ s.evse ≠ .charging ∧ s.mainCmd = false ∧ s.cpCcr = cpPwmCcrLow := by
  intro ins s
  have hstart : ∀ k ≤ 3, ¬ StartsInWindow (ins k)
      (beforeUpdate defaultFlags (ins k) (safetyRun defaultFlags (quietBoot 6000) ins k)) := by
    decide +kernel
  have hwin : (safetyRun defaultFlags (quietBoot 6000) ins 4).task.replugWindowTicks ≠ 0 := by
    decide +kernel
  exact ⟨hwin, replug_window_holds defaultFlags (quietBoot 6000) ins 3 hstart hwin⟩

/-- A charging car is replugged and resumed in one drain of the inbox. -/
def replugResumeRun (k : ℕ) : TickInput :=
  quietTick 6000 2000 (if k = 50 then [.simulateReplug, .userResume] else [])

set_option maxRecDepth 4000 in
/-- The resume brings the EVSE back to READY with its dwell still full, and the
update of the same tick goes on charging. -/
theorem replug_window_charging :
    let s := (safetyRun defaultFlags (quietBoot 6000) replugResumeRun 51).task
    s.replugWindowTicks ≠ 0 ∧ s.evse = .charging ∧ s.mainCmd = true := by
  decide +kernel

end OpenEVCharger
