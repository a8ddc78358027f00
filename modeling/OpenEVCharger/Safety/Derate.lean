import OpenEVCharger.Safety.Polls

/-!
# The advertised current

What the pilot advertises is the smallest of the FC41D limit, the DIP cap and the hardware cap
less the soft over-current derating of the session, but never less than the 6 A that the pilot
can express. The derating only grows while a session lasts, and cannot leave its byte.
-/

namespace OpenEVCharger

/-! ## Limits -/

abbrev commsHwAmpsMax : UInt8 := 48

/-- `handle_set_advertised_amps`: the limit queued for the boot config, if one is. -/
def handleSetAdvertisedAmps (stored : UInt8) (p : List UInt8) : Option UInt8 :=
  match p with
  | [] => none
  | amps :: _ =>
    let amps := if commsHwAmpsMax < amps then commsHwAmpsMax else amps
    if amps = stored then none else some amps

def dipCap (i : TickInput) : Nat := if i.dip1Closed then dip1AmpsClosed else dip1AmpsOpen

/-- The smallest of the FC41D limit, when there is one, the DIP cap and the hardware cap. -/
def advertisedLimit (i : TickInput) : Nat :=
  if i.advertisedAmps = 0 then min (dipCap i) hwAmpsMax
  else min i.advertisedAmps (min (dipCap i) hwAmpsMax)

variable {i : TickInput} {s s' u : SafetyTask}

theorem effectiveAdvertisedAmps_eq (i : TickInput) (s : SafetyTask) :
    effectiveAdvertisedAmps i s = max socDerateFloorA (advertisedLimit i - s.socDerateAmps) := by
  have hcap : (if dipCap i < hwAmpsMax then dipCap i else hwAmpsMax) = min (dipCap i) hwAmpsMax := by
    split <;> omega
  rw [effectiveAdvertisedAmps, advertisedLimit]
  dsimp only
  rw [← dipCap, hcap]
  dsimp only [socDerateFloorA]
  repeat' split
  all_goals omega

theorem advertisedLimit_le (i : TickInput) : advertisedLimit i ≤ hwAmpsMax := by
  rw [advertisedLimit]
  split <;> omega

/-- The more derating, the less is advertised. -/
theorem effectiveAdvertisedAmps_anti (h : s.socDerateAmps ≤ s'.socDerateAmps) (i : TickInput) :
    effectiveAdvertisedAmps i s' ≤ effectiveAdvertisedAmps i s := by
  rw [effectiveAdvertisedAmps_eq, effectiveAdvertisedAmps_eq]
  omega

/-! ## Steps of the derating -/

/-- What a ramp adds to the derating. -/
def derateStep (adv : Nat) : Nat := if 10 ≤ adv then adv / 10 else 1

/-- The largest derating: below it something is left to ramp. -/
def socDerateMax : Nat := 45

/-- What a step of the task can do to the derating: nothing, drop it as the session ends, or
ramp. -/
inductive DerateStep (s s' : SafetyTask) : Prop
  | kept (h : s'.socDerateAmps = s.socDerateAmps)
  | ended (hevse : s'.evse ≠ .charging) (h : s'.socDerateAmps = 0)
  | ramped (i : TickInput) (hfloor : socDerateFloorA < effectiveAdvertisedAmps i s)
      (h : s'.socDerateAmps = (s.socDerateAmps + derateStep (effectiveAdvertisedAmps i s)) % 2 ^ 8)

theorem derateStep_bounds {adv : Nat} (h : adv ≤ hwAmpsMax) :
    1 ≤ derateStep adv ∧ derateStep adv ≤ 4 := by
  dsimp only [hwAmpsMax] at h
  rw [derateStep]
  split <;> omega

/-- A ramp finds room for what it adds. -/
theorem ramp_room (hfloor : socDerateFloorA < effectiveAdvertisedAmps i s) :
    s.socDerateAmps + derateStep (effectiveAdvertisedAmps i s) ≤ socDerateMax := by
  have hstep := (derateStep_bounds (effectiveAdvertisedAmps_le i s)).2
  have hlimit := advertisedLimit_le i
  rw [effectiveAdvertisedAmps_eq] at hfloor
  dsimp only [socDerateFloorA, hwAmpsMax, socDerateMax] at *
  omega

theorem DerateStep.ramp (hfloor : socDerateFloorA < effectiveAdvertisedAmps i s)
    (h : s'.socDerateAmps =
      (s.socDerateAmps + derateStep (effectiveAdvertisedAmps i s)) % 2 ^ 8) :
    s.socDerateAmps < s'.socDerateAmps ∧ s'.socDerateAmps ≤ socDerateMax := by
  have hroom := ramp_room hfloor
  have hstep := (derateStep_bounds (effectiveAdvertisedAmps_le i s)).1
  dsimp only [socDerateMax] at *
  omega

theorem DerateStep.le (h : DerateStep s s') (hs : s.socDerateAmps ≤ socDerateMax) :
    s'.socDerateAmps ≤ socDerateMax := by
  cases h with
  | kept h => exact h.le.trans hs
  | ended _ h => rw [h]; exact Nat.zero_le _
  | ramped i hfloor h => exact (DerateStep.ramp hfloor h).2

theorem DerateStep.mono (h : DerateStep s s') (hevse : s'.evse = .charging) :
    s.socDerateAmps ≤ s'.socDerateAmps := by
  cases h with
  | kept h => exact h.ge
  | ended hleft _ => exact absurd hevse hleft
  | ramped i hfloor h => exact (DerateStep.ramp hfloor h).1.le

/-! ## The operations of a tick -/

variable {js : J1772State} {cpMv : Int} {bl : Bl0939Readings} {fl : BuildFlags} {σ : System}
  {b : BootInput} {ins : ℕ → TickInput} {n : ℕ}

/-- A step that does not ramp. -/
def Unramped (s s' : SafetyTask) : Prop :=
  s'.socDerateAmps = s.socDerateAmps ∨ s'.evse ≠ .charging ∧ s'.socDerateAmps = 0

theorem Unramped.step (h : Unramped s s') : DerateStep s s' := by
  rcases h with hkept | ⟨hevse, hzero⟩
  · exact .kept hkept
  · exact .ended hevse hzero

theorem unramped_evseTransition (next : EvseState) (s : SafetyTask) :
    Unramped s (evseTransition next s) := by
  have hend : ∀ reason, (sessionEnd reason s).socDerateAmps = s.socDerateAmps ∨
      (sessionEnd reason s).socDerateAmps = 0 := by
    intro reason
    have hclear : ∀ s, (clearSocDerateForSessionEnd s).socDerateAmps = 0 := by
      intro s
      rw [clearSocDerateForSessionEnd]
      split
      · rfl
      · next hzero => exact not_not.mp hzero
    rw [sessionEnd]
    split
    · exact .inl rfl
    · exact .inr (hclear _)
  by_cases hsame : s.evse = next
  · rw [← hsame, evseTransition_same]
    exact .inl rfl
  by_cases hcharging : next = .charging
  · have hderate : (evseTransition next s).socDerateAmps = (sessionStart s).socDerateAmps := by
      rw [evseTransition, if_neg hsame, if_pos hcharging, hcharging]
      dsimp only
      split
      · rfl
      split
      · rfl
      · rfl
    exact .inl hderate
  · have hleft : (evseTransition next s).evse ≠ .charging := by
      have hview := congrArg SessionView.evse (sessionView_transition next hsame)
      have hevse : (evseTransition next s).evse = next := hview
      rw [hevse]
      exact hcharging
    have hderate : (evseTransition next s).socDerateAmps =
        (if s.evse = .charging then sessionEnd (if next = .fault then .fault else .normal) s
          else s).socDerateAmps := by
      rw [evseTransition, if_neg hsame, if_neg hcharging]
      dsimp only
      generalize (if s.evse = .charging then
        sessionEnd (if next = .fault then .fault else .normal) s else s) = u
      split
      · rfl
      split
      · rfl
      · rfl
    rw [Unramped, hderate]
    split
    · rcases hend (if next = .fault then .fault else .normal) with hkept | hzero
      · exact .inl hkept
      · exact .inr ⟨hleft, hzero⟩
    · exact .inl rfl

/-- At most one transition, and nothing else that the session or the derating could notice. -/
def DerateThrough (s s' : SafetyTask) : Prop :=
  ∃ u next, (sessionView u = sessionView s ∧ u.socDerateAmps = s.socDerateAmps) ∧
    sessionView s' = sessionView (evseTransition next u) ∧
    s'.socDerateAmps = (evseTransition next u).socDerateAmps

theorem Through.derateThrough (h : Through s s') : DerateThrough s s' := by
  obtain ⟨u, next, hu, hs'⟩ := h
  exact ⟨u, next, ⟨congrArg CoreView.session hu, congrArg CoreView.derate hu⟩,
    congrArg CoreView.session hs', congrArg CoreView.derate hs'⟩

theorem DerateThrough.quiet (hsession : sessionView s' = sessionView s)
    (hderate : s'.socDerateAmps = s.socDerateAmps) : DerateThrough s s' :=
  ⟨s, s.evse, ⟨rfl, rfl⟩, by rw [evseTransition_same, hsession], by
    rw [evseTransition_same, hderate]⟩

theorem DerateThrough.unramped (h : DerateThrough s s') : Unramped s s' := by
  obtain ⟨u, next, ⟨-, hstart⟩, hsession, hend⟩ := h
  have hevse : s'.evse = (evseTransition next u).evse := congrArg SessionView.evse hsession
  have hunramped := unramped_evseTransition next u
  rw [Unramped, ← hend, ← hevse, hstart] at hunramped
  exact hunramped

theorem Through.unramped (h : Through s s') : Unramped s s' := h.derateThrough.unramped

theorem derateThrough_latchAfter {need streak : Nat} {fid : FaultId}
    (hsession : sessionView u = sessionView s) (hderate : u.socDerateAmps = s.socDerateAmps) :
    DerateThrough s (latchAfter need streak fid js cpMv u) := by
  have hlatch : Through u (latchAfter need streak fid js cpMv u) := through_latchAfter rfl
  obtain ⟨v, next, ⟨hv, hd⟩, hafter⟩ := hlatch.derateThrough
  exact ⟨v, next, ⟨hv.trans hsession, hd.trans hderate⟩, hafter⟩

theorem derateThrough_check {d : MeterDetector} (hd : d ≠ .softOverCurrent) (i : TickInput)
    (bl : Bl0939Readings) (js : J1772State) (s : SafetyTask) :
    DerateThrough s (d.check i bl js s) := by
  cases d with
  | acAbsent =>
    show DerateThrough s (checkAcAbsent bl js i.cpHighMv s)
    rw [checkAcAbsent]
    dsimp only
    split
    · exact .quiet rfl rfl
    split
    · split
      · exact .quiet (sessionView_raiseFault ..) (congrArg CoreView.derate (coreView_raiseFault ..))
      · exact .quiet rfl rfl
    · split
      · exact .quiet rfl rfl
      · exact .quiet rfl rfl
  | relayWeld =>
    show DerateThrough s (checkRelayWeldBl0939 i bl js i.cpHighMv s)
    rw [checkRelayWeldBl0939]
    dsimp only
    split
    · exact .quiet rfl rfl
    split
    · exact .quiet rfl rfl
    split
    · exact .quiet rfl rfl
    · exact derateThrough_latchAfter rfl rfl
  | relayStuckOpen =>
    show DerateThrough s (checkRelayStuckOpenBl0939 i bl js i.cpHighMv s)
    rw [checkRelayStuckOpenBl0939]
    dsimp only
    split
    · exact .quiet rfl rfl
    split
    · exact .quiet rfl rfl
    split
    · exact .quiet rfl rfl
    · exact derateThrough_latchAfter rfl rfl
  | hardOverCurrent =>
    show DerateThrough s (checkHardOverCurrent i bl js i.cpHighMv s)
    rw [checkHardOverCurrent]
    dsimp only
    split
    · exact .quiet rfl rfl
    split
    · exact .quiet rfl rfl
    split
    · exact .quiet rfl rfl
    · exact derateThrough_latchAfter rfl rfl
  | softOverCurrent => exact absurd rfl hd

theorem unramped_check {d : MeterDetector} (hd : d ≠ .softOverCurrent) (i : TickInput)
    (bl : Bl0939Readings) (js : J1772State) (s : SafetyTask) : Unramped s (d.check i bl js s) :=
  (derateThrough_check hd i bl js s).unramped

theorem derateStep_checkSoftOverCurrent (i : TickInput) (bl : Bl0939Readings) (js : J1772State)
    (cpMv : Int) (s : SafetyTask) : DerateStep s (checkSoftOverCurrent i bl js cpMv s) := by
  rcases derate_checkSoftOverCurrent i bl js cpMv s with hkept | ⟨hvalid, hmeets, hstreak, hfloor⟩
  · exact .kept hkept
  · refine .ramped i hfloor ?_
    rw [checkSoftOverCurrent_over hvalid hmeets hstreak, rampSoftOverCurrent, if_pos hfloor]
    rfl

theorem derate_integrateEnergy (i : TickInput) (bl : Bl0939Readings) (s : SafetyTask) :
    (integrateEnergy i bl s).socDerateAmps = s.socDerateAmps := by
  rw [integrateEnergy]
  split
  · dsimp only
    split
    · rfl
    · rfl
  · rfl

theorem derateStep_plainOps {fs : List (SafetyTask → SafetyTask)}
    (h : ∀ f ∈ fs, ∀ s, DerateStep s (f s)) : ∀ op ∈ plainOps fs, ∀ s, DerateStep s (op.run s) := by
  intro op hop s
  obtain ⟨f, hf, rfl⟩ := List.mem_map.mp hop
  exact h f hf s

theorem derateStep_meteringOps (i : TickInput) (js : J1772State) (s : SafetyTask) :
    ∀ op ∈ meteringOps i js s, ∀ s, DerateStep s (op.run s) := by
  intro op hop s'
  rw [meteringOps] at hop
  split at hop
  · rw [List.mem_singleton.mp hop]
    exact .kept rfl
  · rcases List.mem_append.mp hop with hpoll | hintegrate
    · refine derateStep_plainOps ?_ op hpoll s'
      intro f hf s
      simp only [pollOps, List.mem_cons, List.not_mem_nil, or_false] at hf
      rcases hf with rfl | rfl | rfl | rfl | rfl | rfl
      · exact .kept rfl
      · exact (unramped_check (d := .acAbsent) (by decide) i _ js s).step
      · exact (unramped_check (d := .relayWeld) (by decide) i _ js s).step
      · exact (unramped_check (d := .relayStuckOpen) (by decide) i _ js s).step
      · exact (unramped_check (d := .hardOverCurrent) (by decide) i _ js s).step
      · exact derateStep_checkSoftOverCurrent i _ js _ s
    · rw [List.mem_singleton.mp hintegrate]
      exact .kept (derate_integrateEnergy ..)

theorem derateStep_tickOps (fl : BuildFlags) (i : TickInput) (σ : System) :
    ∀ op ∈ tickOps fl i σ, ∀ s, DerateStep s (op.run s) := by
  intro op hop s
  rw [tickOps, List.mem_append, List.mem_append] at hop
  rcases hop with (hcontrol | hmeter) | hrfid
  · exact derateStep_plainOps (fun f hf s => (through_controlOps fl i σ f hf s).unramped.step) op
      hcontrol s
  · exact derateStep_meteringOps i _ _ op hmeter s
  · rw [List.mem_singleton.mp hrfid]
    exact (through_rfidStep i ⟨s, _⟩).unramped.step

theorem derateStep_taskSteps (fl : BuildFlags) (b : BootInput) (ins : ℕ → TickInput) (n : ℕ) :
    ∀ st ∈ taskSteps fl b ins n, DerateStep st.before st.after := by
  intro st hst
  obtain ⟨k, -, hst⟩ := List.mem_flatMap.mp hst
  exact derateStep_tickOps fl (ins k) (safetyRun fl b ins k) st.2 (foldTrace_mem hst) st.1

/-! ## Runs -/

theorem Chained.derate_le {steps : List TaskStep} (h : Chained s steps s')
    (hstep : ∀ st ∈ steps, DerateStep st.before st.after) (hs : s.socDerateAmps ≤ socDerateMax) :
    s'.socDerateAmps ≤ socDerateMax ∧ ∀ st ∈ steps, st.after.socDerateAmps ≤ socDerateMax := by
  induction steps generalizing s with
  | nil =>
    cases h
    exact ⟨hs, fun _ hst => absurd hst List.not_mem_nil⟩
  | cons st steps ih =>
    obtain ⟨hbefore, hrest⟩ := h
    have hafter : st.after.socDerateAmps ≤ socDerateMax :=
      (hstep st (List.mem_cons_self ..)).le (by rw [hbefore]; exact hs)
    obtain ⟨hend, hall⟩ := ih hrest (fun t ht => hstep t (List.mem_cons_of_mem _ ht)) hafter
    refine ⟨hend, ?_⟩
    intro t ht
    rcases List.mem_cons.mp ht with rfl | ht
    · exact hafter
    · exact hall t ht

theorem Chained.derate_mono {steps : List TaskStep} (h : Chained s steps s')
    (hstep : ∀ st ∈ steps, DerateStep st.before st.after)
    (hin : ∀ st ∈ steps, st.after.evse = .charging) : s.socDerateAmps ≤ s'.socDerateAmps := by
  induction steps generalizing s with
  | nil =>
    cases h
    exact le_rfl
  | cons st steps ih =>
    obtain ⟨hbefore, hrest⟩ := h
    have hfirst := (hstep st (List.mem_cons_self ..)).mono (hin st (List.mem_cons_self ..))
    rw [hbefore] at hfirst
    exact hfirst.trans (ih hrest (fun t ht => hstep t (List.mem_cons_of_mem _ ht))
      fun t ht => hin t (List.mem_cons_of_mem _ ht))

theorem derate_bootTask (fl : BuildFlags) (b : BootInput) : (bootTask fl b).socDerateAmps = 0 := by
  have hkept : ∀ s s', Unramped s s' → s.socDerateAmps = 0 → s'.socDerateAmps = 0 := by
    rintro s s' (hsame | ⟨-, hzero⟩) hs
    · exact hsame.trans hs
    · exact hzero
  have hcheck : ∀ failed fid js cpMv s, Unramped s (bootCheck failed fid js cpMv s) := by
    intro failed fid js cpMv s
    rw [bootCheck]
    split
    · exact (through_raiseToFault rfl).unramped
    · exact .inl rfl
  have hready : ∀ s, Unramped s (if s.evse ≠ .fault then evseTransition .ready s else s) := by
    intro s
    split
    · exact unramped_evseTransition ..
    · exact .inl rfl
  have htest := hkept _ _ (unramped_evseTransition .selfTest (safetyTaskInit b.tickCount)) rfl
  rw [bootTask]
  exact hkept _ _ (hready _) <| hkept _ _ (through_checkSafeFail ..).unramped <|
    hkept _ _ (hcheck ..) <| hkept _ _ (hcheck ..) htest

/-- In every state of a run the derating leaves what a ramp may need. -/
theorem derate_run (fl : BuildFlags) (b : BootInput) (ins : ℕ → TickInput) (n : ℕ) :
    (safetyRun fl b ins n).task.socDerateAmps ≤ socDerateMax ∧
      ∀ st ∈ taskSteps fl b ins n, st.after.socDerateAmps ≤ socDerateMax := by
  refine (taskSteps_chained fl b ins n).derate_le (derateStep_taskSteps fl b ins n) ?_
  show (bootTask fl b).socDerateAmps ≤ socDerateMax
  rw [derate_bootTask]
  exact Nat.zero_le _

/-! ## Persistent soft over-current -/

/-- The whole tick is in the session. -/
def InSession (fl : BuildFlags) (i : TickInput) (σ : System) : Prop :=
  ∀ st ∈ tickSteps fl i σ, st.after.evse = .charging

/-- A poll of the tick finds the soft over-current condition met. -/
def SoftOver (fl : BuildFlags) (i : TickInput) (σ : System) : Prop :=
  Polls fl i σ → (polledReadings fl i σ).valid = true ∧ MetBy fl i σ .softOverCurrent

theorem derate_plainOps {fs : List (SafetyTask → SafetyTask)} (h : ∀ f ∈ fs, ∀ s, Unramped s (f s))
    (hin : ∀ st ∈ foldTrace TaskOp.run s (plainOps fs), (TaskStep.after st).evse = .charging) :
    (fs.foldl (fun s f => f s) s).socDerateAmps = s.socDerateAmps := by
  induction fs generalizing s with
  | nil => rfl
  | cons f fs ih =>
    have hfirst : (f s).evse = .charging := hin (s, ⟨f, 0⟩) (List.mem_cons_self ..)
    have hrest := ih (s := f s) (fun g hg => h g (List.mem_cons_of_mem _ hg))
      (fun st hst => hin st (List.mem_cons_of_mem _ hst))
    rcases h f (List.mem_cons_self ..) s with hkept | ⟨hleft, -⟩
    · exact hrest.trans hkept
    · exact absurd hfirst hleft

/-- The parts of a tick that is in the session. -/
structure SessionParts (fl : BuildFlags) (i : TickInput) (σ : System) : Prop where
  control : ∀ st ∈ foldTrace TaskOp.run σ.task (plainOps (controlOps fl i σ)),
    (TaskStep.after st).evse = .charging
  metering : ∀ st ∈ foldTrace TaskOp.run (beforeMetering fl i σ)
    (meteringOps i (afterUpdate fl i σ).cp.committed (beforeMetering fl i σ)),
    (TaskStep.after st).evse = .charging
  rfid : (tick fl i σ).task.evse = .charging

theorem InSession.parts (h : InSession fl i σ) : SessionParts fl i σ := by
  have hcontrol : (plainOps (controlOps fl i σ)).foldl (fun s op => op.run s) σ.task =
      beforeMetering fl i σ := by
    rw [foldl_plainOps, foldl_controlOps]
  have hmetering : (meteringOps i (afterUpdate fl i σ).cp.committed (beforeMetering fl i σ)).foldl
      (fun s op => op.run s) (beforeMetering fl i σ) = (beforeRfid fl i σ).task := by
    rw [foldl_meteringOps, beforeRfid_task, ← beforeMetering]
  rw [InSession, tickSteps, tickOps, foldTrace_append, foldTrace_append, List.foldl_append,
    hcontrol, hmetering] at h
  refine ⟨fun st hst => ?_, fun st hst => ?_, ?_⟩
  · exact h st (List.mem_append_left _ (List.mem_append_left _ hst))
  · exact h st (List.mem_append_left _ (List.mem_append_right _ hst))
  · rw [tick]
    generalize beforeRfid fl i σ = σ' at h ⊢
    exact h (σ'.task, ⟨fun s => (rfidStep i ⟨s, σ'.inbox⟩).task, 0⟩)
      (List.mem_append_right _ (List.mem_cons_self ..))

/-- The operations of a poll before the soft over-current check. -/
theorem detectorTask_soft (fl : BuildFlags) (i : TickInput) (σ : System) :
    ((pollOps i (polledReadings fl i σ) (afterUpdate fl i σ).cp.committed).take 5).foldl
      (fun s f => f s) (beforeMetering fl i σ) = detectorTask fl i σ .softOverCurrent := by
  rw [detectorTask, polledTask]
  generalize polledReadings fl i σ = bl
  generalize beforeMetering fl i σ = s
  rfl

theorem checkedTask_soft (fl : BuildFlags) (i : TickInput) (σ : System) :
    checkedTask fl i σ = checkSoftOverCurrent i (polledReadings fl i σ)
      (afterUpdate fl i σ).cp.committed i.cpHighMv (detectorTask fl i σ .softOverCurrent) := by
  rw [checkedTask, detectorTask]
  generalize polledTask fl i σ = s
  rfl

theorem derate_beforeMetering (h : SessionParts fl i σ) :
    (beforeMetering fl i σ).socDerateAmps = σ.task.socDerateAmps := by
  rw [← foldl_controlOps]
  exact derate_plainOps (fun f hf s => (through_controlOps fl i σ f hf s).unramped) h.control

theorem derate_tick (h : SessionParts fl i σ) :
    (tick fl i σ).task.socDerateAmps = (afterMetering fl i σ).socDerateAmps := by
  have hrfid := (through_rfidStep i (beforeRfid fl i σ)).unramped
  rw [← tick, beforeRfid_task, ← beforeMetering, ← afterMetering] at hrfid
  rcases hrfid with hkept | ⟨hleft, -⟩
  · exact hkept
  · exact absurd h.rfid hleft

theorem derate_detectorTask (h : SessionParts fl i σ) (hpolls : Polls fl i σ) :
    (detectorTask fl i σ .softOverCurrent).socDerateAmps = σ.task.socDerateAmps := by
  have hmetering := h.metering
  have hpoll : ¬ (beforeMetering fl i σ).bl0939PollDiv + 1 < bl0939PollTicks := not_lt.mpr hpolls
  rw [meteringOps, if_neg hpoll] at hmetering
  have hops := List.take_append_drop 5
    (pollOps i (polledReadings fl i σ) (afterUpdate fl i σ).cp.committed)
  dsimp only at hmetering
  rw [← polledReadings, ← hops, plainOps, List.map_append, List.append_assoc,
    foldTrace_append] at hmetering
  rw [← detectorTask_soft, ← derate_beforeMetering h]
  refine derate_plainOps ?_ fun st hst => hmetering st (List.mem_append_left _ hst)
  intro f hf s
  have hmem : f ∈ [fun s : SafetyTask => { s with
        bl0939PollDiv := 0, readings := polledReadings fl i σ },
      checkAcAbsent (polledReadings fl i σ) (afterUpdate fl i σ).cp.committed i.cpHighMv,
      checkRelayWeldBl0939 i (polledReadings fl i σ) (afterUpdate fl i σ).cp.committed i.cpHighMv,
      checkRelayStuckOpenBl0939 i (polledReadings fl i σ) (afterUpdate fl i σ).cp.committed
        i.cpHighMv,
      checkHardOverCurrent i (polledReadings fl i σ) (afterUpdate fl i σ).cp.committed
        i.cpHighMv] := hf
  simp only [List.mem_cons, List.not_mem_nil, or_false] at hmem
  rcases hmem with rfl | rfl | rfl | rfl | rfl
  · exact .inl rfl
  · exact unramped_check (d := .acAbsent) (by decide) i _ _ s
  · exact unramped_check (d := .relayWeld) (by decide) i _ _ s
  · exact unramped_check (d := .relayStuckOpen) (by decide) i _ _ s
  · exact unramped_check (d := .hardOverCurrent) (by decide) i _ _ s

theorem derate_withDiv (s : SafetyTask) (div : Nat) :
    ({ s with bl0939PollDiv := div } : SafetyTask).socDerateAmps = s.socDerateAmps := rfl

/-- What is left of the derating, the streak and the poll divider before something happens. -/
def softMeasure (σ : System) : ℕ :=
  ((socDerateMax - σ.task.socDerateAmps) * 76 + (bl0939SocPersistPolls - σ.task.socStreak)) * 20 +
    (bl0939PollTicks - 1 - σ.task.bl0939PollDiv)

/-- The bounds that the measure counts from. -/
structure Measured (s : SafetyTask) : Prop where
  derate : s.socDerateAmps ≤ socDerateMax
  streak : s.socStreak ≤ bl0939SocPersistPolls
  div : s.bl0939PollDiv ≤ bl0939PollTicks - 1

theorem pollDiv_tick (fl : BuildFlags) (i : TickInput) (σ : System) :
    (tick fl i σ).task.bl0939PollDiv =
      if Polls fl i σ then 0 else σ.task.bl0939PollDiv + 1 := by
  have htick : (tick fl i σ).task.bl0939PollDiv = (afterMetering fl i σ).bl0939PollDiv :=
    pollDiv_congr (meterView_tick fl i σ)
  have hbefore : (beforeMetering fl i σ).bl0939PollDiv = σ.task.bl0939PollDiv :=
    pollDiv_congr (meterView_beforeMetering fl i σ)
  rw [htick]
  split
  · next hpolls =>
    have hview : (afterMetering fl i σ).bl0939PollDiv = (checkedTask fl i σ).bl0939PollDiv := by
      rw [afterMetering_polls hpolls]
      exact pollDiv_congr (meterView_integrateEnergy ..)
    rw [hview, checkedTask, (readings_runChecks _).2, polledTask]
  · next hpolls =>
    have hlt : (beforeMetering fl i σ).bl0939PollDiv + 1 < bl0939PollTicks := not_le.mp hpolls
    rw [afterMetering, meteringStep, if_pos hlt, ← hbefore]

theorem polls_iff (fl : BuildFlags) (i : TickInput) (σ : System) :
    Polls fl i σ ↔ bl0939PollTicks ≤ σ.task.bl0939PollDiv + 1 := by
  have hbefore : (beforeMetering fl i σ).bl0939PollDiv = σ.task.bl0939PollDiv :=
    pollDiv_congr (meterView_beforeMetering fl i σ)
  rw [Polls, hbefore]

theorem measured_run (fl : BuildFlags) (b : BootInput) (ins : ℕ → TickInput) (n : ℕ) :
    Measured (safetyRun fl b ins n).task := by
  refine ⟨(derate_run fl b ins n).1, ?_, ?_⟩
  · refine Machine.invariant (P := fun σ : System => σ.task.socStreak ≤ bl0939SocPersistPolls) ?_
      ?_ n
    · have hboot : (bootTask fl b).socStreak = 0 :=
        congrArg MeterView.socStreak (meterView_bootTask fl b)
      show (bootTask fl b).socStreak ≤ _
      rw [hboot]
      exact Nat.zero_le _
    · intro i σ hs
      show (tick fl i σ).task.socStreak ≤ _
      by_cases hpolls : Polls fl i σ
      · have hnext : (tick fl i σ).task.socStreak = _ :=
          streak_tick_polls hpolls .softOverCurrent
        have hstart : (detectorTask fl i σ .softOverCurrent).socStreak = σ.task.socStreak :=
          streak_detectorTask fl i σ .softOverCurrent
        rw [hnext, MeterDetector.nextStreak]
        dsimp only [MeterDetector.streak, MeterDetector.need]
        rw [hstart, bump]
        repeat' split
        all_goals omega
      · have hidle : (tick fl i σ).task.socStreak = σ.task.socStreak :=
          (streak_tick_idle hpolls .softOverCurrent).1
        rw [hidle]
        exact hs
  · refine Machine.invariant
      (P := fun σ : System => σ.task.bl0939PollDiv ≤ bl0939PollTicks - 1) ?_ ?_ n
    · have hboot : (bootTask fl b).bl0939PollDiv = 0 :=
        pollDiv_congr (meterView_bootTask fl b)
      show (bootTask fl b).bl0939PollDiv ≤ _
      rw [hboot]
      exact Nat.zero_le _
    · intro i σ hs
      show (tick fl i σ).task.bl0939PollDiv ≤ _
      have hiff := polls_iff fl i σ
      rw [pollDiv_tick]
      split
      · exact Nat.zero_le _
      · next hpolls =>
        rw [hiff] at hpolls
        omega

/-- The poll of the tick finds the floor reached and the fault raised. -/
def RaisedAtFloor (fl : BuildFlags) (i : TickInput) (σ : System) : Prop :=
  effectiveAdvertisedAmps i (detectorTask fl i σ .softOverCurrent) = socDerateFloorA ∧
    faultIsActive (afterMetering fl i σ).faults FaultId.softOverCurrent.code = true

/-- A check that can ramp no further leaves the fault active. -/
theorem soft_raises (hvalid : bl.valid = true)
    (hmeets : MeterDetector.softOverCurrent.meets i bl s = true)
    (hstreak : bl0939SocPersistPolls ≤ s.socStreak)
    (hfloor : ¬ socDerateFloorA < effectiveAdvertisedAmps i s) :
    faultIsActive (checkSoftOverCurrent i bl js cpMv s).faults
      FaultId.softOverCurrent.code = true := by
  rw [checkSoftOverCurrent_over hvalid hmeets hstreak, rampSoftOverCurrent, if_neg hfloor]
  split
  · next hactive => exact hactive
  · rw [faults_raiseFault, faultIsActive_raise _ rfl, decide_eq_true rfl, Bool.or_true]

/-- One that can leaves more derating. -/
theorem soft_ramps (js : J1772State) (cpMv : Int) (hvalid : bl.valid = true)
    (hmeets : MeterDetector.softOverCurrent.meets i bl s = true)
    (hstreak : bl0939SocPersistPolls ≤ s.socStreak)
    (hfloor : socDerateFloorA < effectiveAdvertisedAmps i s) :
    s.socDerateAmps < (checkSoftOverCurrent i bl js cpMv s).socDerateAmps ∧
      (checkSoftOverCurrent i bl js cpMv s).socDerateAmps ≤ socDerateMax := by
  refine DerateStep.ramp hfloor ?_
  rw [checkSoftOverCurrent_over hvalid hmeets hstreak, rampSoftOverCurrent, if_pos hfloor]
  rfl

/-- One that counts leaves the derating. -/
theorem soft_counts (i : TickInput) (bl : Bl0939Readings) (js : J1772State) (cpMv : Int)
    (hstreak : ¬ bl0939SocPersistPolls ≤ s.socStreak) :
    (checkSoftOverCurrent i bl js cpMv s).socDerateAmps = s.socDerateAmps := by
  rcases derate_checkSoftOverCurrent i bl js cpMv s with hkept | ⟨-, -, hfull, -⟩
  · exact hkept
  · exact absurd hfull hstreak

/-- A tick of a session whose polls find the current above the threshold comes closer to the
fault, unless it raises it. -/
theorem soft_tick (hin : InSession fl i σ) (hover : SoftOver fl i σ) (hm : Measured σ.task) :
    RaisedAtFloor fl i σ ∨ softMeasure (tick fl i σ) < softMeasure σ := by
  have hparts := hin.parts
  have hderate := derate_tick hparts
  have hdiv := pollDiv_tick fl i σ
  have hbound := hm.derate
  have hstreakMax := hm.streak
  have hdivMax := hm.div
  by_cases hpolls : Polls fl i σ
  · obtain ⟨hvalid, hmet⟩ := hover hpolls
    have hstart := derate_detectorTask hparts hpolls
    have hstreak : (tick fl i σ).task.socStreak = _ := streak_tick_polls hpolls .softOverCurrent
    have hbefore : (detectorTask fl i σ .softOverCurrent).socStreak = σ.task.socStreak :=
      streak_detectorTask fl i σ .softOverCurrent
    have hchecked : (afterMetering fl i σ).socDerateAmps = (checkedTask fl i σ).socDerateAmps := by
      rw [afterMetering_polls hpolls, derate_integrateEnergy]
    have hfaults : (afterMetering fl i σ).faults = (checkedTask fl i σ).faults := by
      rw [afterMetering_polls hpolls, faults_integrateEnergy]
    rw [checkedTask_soft] at hchecked hfaults
    rw [if_pos hpolls] at hdiv
    have hlast : σ.task.bl0939PollDiv = bl0939PollTicks - 1 := by
      have hdue := (polls_iff fl i σ).mp hpolls
      omega
    rw [MeterDetector.nextStreak, hvalid, if_neg true_ne_false,
      if_pos (show MeterDetector.softOverCurrent.meets i _ _ = true from hmet)] at hstreak
    by_cases hfull : bl0939SocPersistPolls ≤ (detectorTask fl i σ .softOverCurrent).socStreak
    · by_cases hfloor : socDerateFloorA <
          effectiveAdvertisedAmps i (detectorTask fl i σ .softOverCurrent)
      · -- a ramp starts the streak over
        right
        obtain ⟨hmore, hmax⟩ :=
          soft_ramps (afterUpdate fl i σ).cp.committed i.cpHighMv hvalid hmet hfull hfloor
        rw [if_pos ((ramps_iff i _).mpr ⟨hfull, hfloor⟩)] at hstreak
        rw [← hchecked, ← hderate] at hmore hmax
        rw [hstart] at hmore
        rw [softMeasure, softMeasure, hdiv, hstreak, hlast]
        dsimp only [socDerateMax, bl0939SocPersistPolls, bl0939PollTicks] at *
        omega
      · left
        refine ⟨?_, ?_⟩
        · have hmin : socDerateFloorA ≤
              effectiveAdvertisedAmps i (detectorTask fl i σ .softOverCurrent) := by
            rw [effectiveAdvertisedAmps_eq]
            exact le_max_left ..
          omega
        · rw [hfaults]
          exact soft_raises hvalid hmet hfull hfloor
    · right
      have hkept := soft_counts i (polledReadings fl i σ) (afterUpdate fl i σ).cp.committed
        i.cpHighMv hfull
      have hnot : ¬ MeterDetector.softOverCurrent.ramps i
          (detectorTask fl i σ .softOverCurrent) = true :=
        fun hramps => hfull ((ramps_iff i _).mp hramps).1
      have hbump : bump bl0939SocPersistPolls (detectorTask fl i σ .softOverCurrent).socStreak =
          (detectorTask fl i σ .softOverCurrent).socStreak + 1 := if_pos (not_le.mp hfull)
      have hnext : (tick fl i σ).task.socStreak = σ.task.socStreak + 1 := by
        rw [if_neg hnot] at hstreak
        exact (hstreak.trans hbump).trans (congrArg (· + 1) hbefore)
      rw [hbefore] at hfull
      rw [softMeasure, softMeasure, hdiv, hnext, hlast, hderate, hchecked, hkept, hstart]
      dsimp only [socDerateMax, bl0939SocPersistPolls, bl0939PollTicks] at *
      omega
  · right
    rw [if_neg hpolls] at hdiv
    have hstreak : (tick fl i σ).task.socStreak = σ.task.socStreak :=
      (streak_tick_idle hpolls .softOverCurrent).1
    have hidle : (afterMetering fl i σ).socDerateAmps = σ.task.socDerateAmps := by
      have hlt : (beforeMetering fl i σ).bl0939PollDiv + 1 < bl0939PollTicks := not_le.mp hpolls
      rw [afterMetering, meteringStep, if_pos hlt, derate_withDiv]
      exact derate_beforeMetering hparts
    rw [polls_iff] at hpolls
    rw [softMeasure, softMeasure, hdiv, hstreak, hderate, hidle]
    dsimp only [socDerateMax, bl0939SocPersistPolls, bl0939PollTicks] at *
    omega

/-- The advertised current stays below the limits, or at the 6 A that the pilot can express;
the derating never leaves its byte; within a session the advertised current of a
configuration never rises; and a soft over-current that persists ramps it to the floor and
raises SOFT_OVER_CURRENT. -/
theorem advertised_amps_derated (fl : BuildFlags) (b : BootInput) (ins : ℕ → TickInput) :
    (∀ i s, effectiveAdvertisedAmps i s ≤ max socDerateFloorA (advertisedLimit i)) ∧
    (∀ n, ∀ st ∈ taskSteps fl b ins n, ∀ i, st.after.socDerateAmps +
      derateStep (effectiveAdvertisedAmps i st.after) < 2 ^ 8) ∧
    (∀ n first st inside last rest,
      taskSteps fl b ins n = first ++ st :: (inside ++ last :: rest) →
      st.after.evse = .charging → (∀ t ∈ inside, t.after.evse = .charging) →
      last.after.evse = .charging →
      ∀ i, effectiveAdvertisedAmps i last.after ≤ effectiveAdvertisedAmps i st.after) ∧
    (∀ a, (∀ k, a ≤ k → InSession fl (ins k) (safetyRun fl b ins k) ∧
        SoftOver fl (ins k) (safetyRun fl b ins k)) →
      ∃ k, a ≤ k ∧ RaisedAtFloor fl (ins k) (safetyRun fl b ins k)) := by
  refine ⟨?_, ?_, ?_, ?_⟩
  · intro i s
    rw [effectiveAdvertisedAmps_eq]
    exact max_le_max_left _ (Nat.sub_le ..)
  · intro n st hst i
    have hmax := (derate_run fl b ins n).2 st hst
    have hstep := (derateStep_bounds (effectiveAdvertisedAmps_le i st.after)).2
    dsimp only [socDerateMax] at hmax
    omega
  · intro n first st inside last rest hsplit hst hin hlast i
    have hchain := taskSteps_chained fl b ins n
    have hsteps := derateStep_taskSteps fl b ins n
    have hmid : taskSteps fl b ins n = first ++ (st :: (inside ++ [last]) ++ rest) := by
      simp [hsplit]
    rw [hmid] at hchain hsteps
    obtain ⟨u, -, htail⟩ := Chained.split hchain
    obtain ⟨v, hinterval, -⟩ := Chained.split htail
    obtain ⟨w, hinside, hend⟩ := Chained.split hinterval.2
    have hv : last.after = v := hend.2
    refine effectiveAdvertisedAmps_anti ?_ i
    rw [hv]
    refine Chained.derate_mono hinterval.2 (fun t ht => hsteps t (List.mem_append_right _
      (List.mem_append_left _ (List.mem_cons_of_mem _ ht)))) ?_
    intro t ht
    rcases List.mem_append.mp ht with ht | ht
    · exact hin t ht
    · rw [List.mem_singleton.mp ht]
      exact hlast
  · intro a hpersists
    refine @Machine.reaches _ _ _ (safetyMachine fl) b ins softMeasure (RaisedAtFloor fl) a ?_
    intro k hk
    obtain ⟨hin, hover⟩ := hpersists k hk
    rw [Machine.run_succ]
    exact soft_tick hin hover (measured_run fl b ins k)

/-- A limit of 3 A is accepted, and 6 A are advertised. -/
theorem advertised_above_limit :
    let i : TickInput := { quietTick 9000 2000 [] with advertisedAmps := 3 }
    handleSetAdvertisedAmps 0 [3] = some 3 ∧ advertisedLimit i = 3 ∧
      effectiveAdvertisedAmps i (safetyRun defaultFlags (quietBoot 9000) (fun _ => i) 0).task =
        6 := by
  refine ⟨rfl, rfl, ?_⟩
  rw [effectiveAdvertisedAmps_eq]
  show max 6 (3 - _) = 6
  omega

end OpenEVCharger
