import OpenEVCharger.Safety.Derate

/-!
# The derating at the start of a session

The derating is dropped where a session ends, but the check that ramps it runs on every
poll. A ramp outside a session is carried into the next one.
-/

namespace OpenEVCharger

variable {s s' u : SafetyTask} {i : TickInput} {js : J1772State} {cpMv : Int}
  {bl : Bl0939Readings} {fl : BuildFlags} {σ : System}

/-! ## The derating and the session -/

/-- The derating stays as it is, but drops to zero where the session ends. -/
def DerateKept (s s' : SafetyTask) : Prop :=
  s'.socDerateAmps = if s.evse = .charging ∧ s'.evse ≠ .charging then 0 else s.socDerateAmps

theorem evse_evseTransition (next : EvseState) (s : SafetyTask) :
    (evseTransition next s).evse = next := by
  by_cases hsame : s.evse = next
  · rw [← hsame, evseTransition_same]
  · exact congrArg SessionView.evse (sessionView_transition next hsame)

/-- An active session leaves no derating when it ends. -/
theorem derate_sessionEnd (reason : SessionEndReason) (h : s.session.active = true) :
    (sessionEnd reason s).socDerateAmps = 0 := by
  have hclear : ∀ s, (clearSocDerateForSessionEnd s).socDerateAmps = 0 := by
    intro s
    rw [clearSocDerateForSessionEnd]
    split
    · rfl
    · next hzero => exact not_not.mp hzero
  rw [sessionEnd, h, if_neg (show ¬ (!true) = true from Bool.false_ne_true)]
  exact hclear _

theorem derateKept_evseTransition (next : EvseState)
    (hactive : s.session.active = decide (s.evse = .charging)) :
    DerateKept s (evseTransition next s) := by
  by_cases hsame : s.evse = next
  · rw [← hsame, evseTransition_same, DerateKept, if_neg fun h => h.2 h.1]
  rw [DerateKept, evse_evseTransition]
  have hderate : (evseTransition next s).socDerateAmps =
      (if next = .charging then sessionStart s
      else if s.evse = .charging then
        sessionEnd (if next = .fault then .fault else .normal) s
      else s).socDerateAmps := by
    rw [evseTransition, if_neg hsame]
    dsimp only
    generalize (if next = .charging then sessionStart s
      else if s.evse = .charging then
        sessionEnd (if next = .fault then .fault else .normal) s
      else s) = u
    repeat' split
    all_goals rfl
  rw [hderate]
  by_cases hnext : next = .charging
  · rw [if_pos hnext, if_neg fun h => h.2 hnext]
    rfl
  rw [if_neg hnext]
  by_cases hcharging : s.evse = .charging
  · rw [if_pos hcharging, if_pos (And.intro hcharging hnext)]
    exact derate_sessionEnd _ (hactive.trans (decide_eq_true hcharging))
  · rw [if_neg hcharging, if_neg fun h => hcharging h.1]

theorem DerateThrough.kept (h : DerateThrough s s')
    (hactive : s.session.active = decide (s.evse = .charging)) : DerateKept s s' := by
  obtain ⟨u, next, ⟨hu, hd⟩, hs', hd'⟩ := h
  rw [sessionView, sessionView, SessionView.mk.injEq] at hu
  obtain ⟨hevse, hact, -, -⟩ := hu
  have hevse' : s'.evse = (evseTransition next u).evse := congrArg SessionView.evse hs'
  have hkept := derateKept_evseTransition (s := u) next (by rw [hact, hevse, hactive])
  rw [DerateKept, hd', hevse', ← hevse, ← hd]
  exact hkept

/-! ## Ramps outside a session -/

/-- A soft over-current check that ramps outside a session: on a valid reading over the
threshold, behind a full streak, with amps left to ramp. -/
def TaskStep.RampsOutside (st : TaskStep) : Prop :=
  st.before.evse ≠ .charging ∧ ∃ i bl js cpMv, st.2.run = checkSoftOverCurrent i bl js cpMv ∧
    bl.valid = true ∧ MeterDetector.softOverCurrent.meets i bl st.before = true ∧
    MeterDetector.softOverCurrent.ramps i st.before = true

/-- A step that begins a session. -/
def TaskStep.Begins (st : TaskStep) : Prop :=
  st.before.evse ≠ .charging ∧ st.after.evse = .charging

theorem evse_checkSoftOverCurrent (i : TickInput) (bl : Bl0939Readings) (js : J1772State)
    (cpMv : Int) (s : SafetyTask) :
    (checkSoftOverCurrent i bl js cpMv s).evse = s.evse := by
  have hclear : (clearSoftOverCurrent s).evse = s.evse := by
    rw [clearSoftOverCurrent]
    dsimp only
    repeat' split
    all_goals rfl
  have hramp : ∀ adv, (rampSoftOverCurrent adv js cpMv s).evse = s.evse := by
    intro adv
    rw [rampSoftOverCurrent]
    split
    · rfl
    split
    · rfl
    · exact congrArg (fun v : CoreView => v.session.evse) (coreView_raiseFault ..)
  rw [checkSoftOverCurrent]
  dsimp only
  split
  · rfl
  split
  · rfl
  split
  · rfl
  split
  · exact hclear
  split
  · rfl
  · exact hramp _

/-- What a step does to the derating. -/
inductive DerateEffect (st : TaskStep) : Prop where
  | kept (h : DerateKept st.before st.after)
  | ramped (evse : st.after.evse = st.before.evse) (h : 0 < st.after.socDerateAmps)
      (outside : st.before.evse ≠ .charging → st.RampsOutside)

theorem derateEffect_soft (i : TickInput) (bl : Bl0939Readings) (js : J1772State) (cpMv : Int)
    (s : SafetyTask) (e : Int) :
    DerateEffect (s, ⟨checkSoftOverCurrent i bl js cpMv, e⟩) := by
  have hevse := evse_checkSoftOverCurrent i bl js cpMv s
  rcases derate_checkSoftOverCurrent i bl js cpMv s with hkept | ⟨hvalid, hmeets, hstreak, hfloor⟩
  · refine .kept ?_
    show _ = _
    rw [if_neg fun h => h.2 (hevse.trans h.1)]
    exact hkept
  · refine .ramped hevse ?_ fun hout => ⟨hout, i, bl, js, cpMv, rfl, hvalid, hmeets,
      (ramps_iff i s).mpr ⟨hstreak, hfloor⟩⟩
    have hderate : (checkSoftOverCurrent i bl js cpMv s).socDerateAmps =
        (s.socDerateAmps + derateStep (effectiveAdvertisedAmps i s)) % 2 ^ 8 := by
      rw [checkSoftOverCurrent_over hvalid hmeets hstreak, rampSoftOverCurrent, if_pos hfloor]
      rfl
    exact Nat.lt_of_le_of_lt (Nat.zero_le _) (DerateStep.ramp hfloor hderate).1

/-- A ramp outside a session leaves a derating behind. -/
theorem TaskStep.RampsOutside.derate_pos {st : TaskStep} (h : st.RampsOutside) :
    st.after.evse = st.before.evse ∧ st.after.socDerateAmps ≠ st.before.socDerateAmps := by
  obtain ⟨-, i, bl, js, cpMv, hrun, hvalid, hmeets, hramps⟩ := h
  rw [TaskStep.after, hrun]
  exact ⟨evse_checkSoftOverCurrent .., derate_ramped hvalid hmeets hramps⟩

theorem derateEffect_plain {st : TaskStep} (h : DerateThrough st.before st.after)
    (hactive : st.before.session.active = decide (st.before.evse = .charging)) :
    DerateEffect st := .kept (h.kept hactive)

theorem derateEffect_metering (i : TickInput) (js : J1772State) (s u : SafetyTask) {op : TaskOp}
    (hop : op ∈ meteringOps i js s) (hactive : u.session.active = decide (u.evse = .charging)) :
    DerateEffect (u, op) := by
  rw [meteringOps] at hop
  split at hop
  · rw [List.mem_singleton.mp hop]
    exact .kept ((DerateThrough.quiet rfl rfl).kept hactive)
  · rcases List.mem_append.mp hop with hpoll | hintegrate
    · obtain ⟨f, hf, rfl⟩ := List.mem_map.mp hpoll
      simp only [pollOps, List.mem_cons, List.not_mem_nil, or_false] at hf
      rcases hf with rfl | rfl | rfl | rfl | rfl | rfl
      · exact .kept ((DerateThrough.quiet rfl rfl).kept hactive)
      · exact .kept ((derateThrough_check (d := .acAbsent) (by decide) i _ js u).kept hactive)
      · exact .kept ((derateThrough_check (d := .relayWeld) (by decide) i _ js u).kept hactive)
      · exact .kept ((derateThrough_check (d := .relayStuckOpen) (by decide) i _ js u).kept hactive)
      · exact .kept ((derateThrough_check (d := .hardOverCurrent) (by decide) i _ js u).kept hactive)
      · exact derateEffect_soft i _ js _ u _
    · rw [List.mem_singleton.mp hintegrate]
      have hevse : (integrateEnergy i (bl0939Poll i.freqConst i.bl0939 s.readings) u).evse =
          u.evse := congrArg Interlock.evse (view_integrateEnergy ..)
      refine .kept ?_
      show (integrateEnergy i _ u).socDerateAmps = _
      rw [if_neg fun h => h.2 (hevse.trans h.1)]
      exact derate_integrateEnergy ..

theorem derateEffect_taskSteps (fl : BuildFlags) (b : BootInput) (ins : ℕ → TickInput) (n : ℕ) :
    ∀ st ∈ taskSteps fl b ins n, DerateEffect st := by
  intro st hst
  have hactive := (taskSteps_chained fl b ins n).active (taskSteps_ok fl b ins n)
    (run_active fl b ins 0) st hst
  obtain ⟨k, -, hst⟩ := List.mem_flatMap.mp hst
  have hop := foldTrace_mem hst
  rw [tickOps, List.mem_append, List.mem_append] at hop
  rcases hop with (hcontrol | hmeter) | hrfid
  · obtain ⟨f, hf, hfop⟩ := List.mem_map.mp hcontrol
    refine derateEffect_plain ?_ hactive
    rw [TaskStep.after, ← hfop]
    exact (through_controlOps fl _ _ f hf st.1).derateThrough
  · exact derateEffect_metering _ _ _ st.1 hmeter hactive
  · refine derateEffect_plain ?_ hactive
    rw [TaskStep.after, List.mem_singleton.mp hrfid]
    exact (through_rfidStep _ ⟨st.1, _⟩).derateThrough

/-! ## Runs -/

/-- Whether a derating is left, at every point of a run: in a session there was no ramp
outside since it began, and outside there is a derating exactly when there was one. -/
theorem Chained.derate_since {steps : List TaskStep} (h : Chained s steps s')
    (heffect : ∀ st ∈ steps, DerateEffect st) (hs : s.socDerateAmps = 0) :
    (s'.evse = .charging → ¬ Since TaskStep.RampsOutside TaskStep.Begins steps) ∧
      (s'.evse ≠ .charging →
        (s'.socDerateAmps = 0 ↔ ¬ Since TaskStep.RampsOutside TaskStep.Begins steps)) := by
  induction steps using List.reverseRecOn generalizing s' with
  | nil =>
    cases h
    exact ⟨fun _ => not_since_nil, fun _ => iff_of_true hs not_since_nil⟩
  | append_singleton steps st ih =>
    obtain ⟨u, hsteps, hlast⟩ := Chained.split h
    obtain ⟨rfl, rfl⟩ : st.before = u ∧ st.after = s' := hlast
    obtain ⟨hin, hout⟩ := ih hsteps fun t ht => heffect t (List.mem_append_left _ ht)
    have hst := heffect st (List.mem_append_right _ (List.mem_singleton_self st))
    rw [since_concat]
    by_cases hbefore : st.before.evse = .charging
    · -- in a session, which goes on or ends here
      have hno : ¬ (st.RampsOutside ∨
          Since TaskStep.RampsOutside TaskStep.Begins steps ∧ ¬ st.Begins) := by
        rintro (hramp | ⟨hsince, -⟩)
        · exact hramp.1 hbefore
        · exact hin hbefore hsince
      refine ⟨fun _ => hno, fun hafter => iff_of_true ?_ hno⟩
      cases hst with
      | kept hkept => rw [hkept, if_pos ⟨hbefore, hafter⟩]
      | ramped hevse _ _ => exact absurd (hevse.trans hbefore) hafter
    · have hprior := hout hbefore
      cases hst with
      | kept hkept =>
        rw [DerateKept, if_neg fun h => hbefore h.1] at hkept
        have hno : ¬ st.RampsOutside := fun hramp => hramp.derate_pos.2 hkept
        refine ⟨fun hafter => ?_, fun hafter => ?_⟩
        · rintro (hramp | ⟨-, hnot⟩)
          · exact hno hramp
          · exact hnot ⟨hbefore, hafter⟩
        · rw [hkept, hprior, or_iff_right hno, and_iff_left fun h : st.Begins => hafter h.2]
      | ramped hevse hpos houtside =>
        refine ⟨fun hafter => absurd (hevse.symm.trans hafter) hbefore, fun _ => ?_⟩
        exact iff_of_false (Nat.ne_of_gt hpos) fun hnot => hnot (.inl (houtside hbefore))

/-! ## A welded contactor between sessions -/

/-- Between sessions, 55 A through a contactor commanded open. -/
def overTick : TickInput := { quietTick 12000 2000 [] with
  iaNaPerRaw := 1000000
  bl0939 := ⟨⟨true, 1000000⟩, ⟨true, 55000⟩, ⟨true, 0⟩, ⟨true, 0⟩, ⟨true, 453⟩⟩ }

/-- The task with the weld latched, as the readings above leave it. -/
def weldedTask (div streak polls keepalive derate : ℕ) (outs : List Output) : SafetyTask where
  tickCount := 0
  faults := { activeBits := 4, firstRaised := 2 }
  evse := .fault
  cp := { committed := .A, candidate := .A, streak := 255 }
  lastLoggedJ1772 := .A
  weldStreak := 0
  stuckOpenStreak := 0
  cpEStreak := 0
  evseCStreak := 0
  gfciCtx := { tripStreak := 0, warned := false, faultActive := false }
  peStreak := 0
  peLogTick := 60
  adcRuntimeStreak := 0
  ccStreak := 0
  prevJs := .A
  prevEs := .fault
  otCtx := { tripStreak := 0, faultActive := false }
  rfidCtx := { buf := [], lastUid := 0, cardPresent := false }
  rfidKeepaliveDiv := keepalive
  bl0939PollDiv := div
  acAbsentStreak := 0
  weldBlStreak := 3
  stuckOpenBlStreak := 0
  hocStreak := 0
  socStreak := streak
  weldPrevCommanded := some false
  weldSettlePolls := 0
  rfidLearnTicks := 0
  replugWindowTicks := 0
  sessionAuthorized := false
  socDerateAmps := derate
  session := ⟨false, 0, .invalid, 0, 0, 0⟩
  readings := ⟨1000000, 55000, 0, 0, 453, 600, polls, 0, true⟩
  mainCmd := false
  forceOpen := true
  cpCcr := 0
  outputs := outs

section Welded

variable {d a p k e : ℕ} {outs : List Output}

theorem weldedTask_overTemp :
    checkOverTemp defaultFlags overTick (weldedTask d a p k e outs) = weldedTask d a p k e outs := by
  have hoff : faultIsActive ⟨4, 2⟩ FaultId.overTemp.code = false := by decide
  have hstep : overTempStep ⟨0, false⟩ 2000 2000 true true = (⟨false, false⟩, ⟨0, false⟩) := by
    decide
  rw [checkOverTemp]
  dsimp only
  rw [show faultIsActive (weldedTask d a p k e outs).faults FaultId.overTemp.code = false from hoff,
    show overTempStep { (weldedTask d a p k e outs).otCtx with faultActive := false }
      overTick.adc.ntc1 overTick.adc.ac defaultFlags.ntc1Present defaultFlags.gunNtcPresent =
        (⟨false, false⟩, ⟨0, false⟩) from hstep]
  rfl

theorem weldedTask_afterUpdate :
    afterUpdate defaultFlags overTick ⟨weldedTask d a p k 0 outs, []⟩ =
      weldedTask d a p k 0 outs := by
  have hfront : beforeDetectors overTick ⟨weldedTask d a p k 0 outs, []⟩ =
      weldedTask d a p k 0 outs := rfl
  have hdetect : runDetectors defaultFlags overTick (weldedTask d a p k 0 outs).cp.committed
      overTick.cpHighMv (weldedTask d a p k 0 outs) = weldedTask d a p k 0 outs := rfl
  rw [afterUpdate, beforeUpdate, beforeOverTemp, hfront, hdetect, weldedTask_overTemp]
  rfl

/-- The tick around its metering block. -/
theorem weldedTask_tick {d' a' p' e' : ℕ}
    (hmeter : meteringStep overTick .A 12000 (weldedTask d a p k 0 outs) =
      weldedTask d' a' p' k e' outs) :
    ∃ outs', tick defaultFlags overTick ⟨weldedTask d a p k 0 outs, []⟩ =
      ⟨weldedTask d' a' p' (if k + 1 < 17 then k + 1 else 0) e' outs', []⟩ := by
  have hmid : beforeRfid defaultFlags overTick ⟨weldedTask d a p k 0 outs, []⟩ =
      ⟨weldedTask d' a' p' k e' outs, []⟩ := by
    have houtputs : applyOutputs overTick .A 12000 (weldedTask d a p k 0 outs) =
        weldedTask d a p k 0 outs := rfl
    rw [beforeRfid, weldedTask_afterUpdate, show (weldedTask d a p k 0 outs).cp.committed = .A
      from rfl, show overTick.cpHighMv = 12000 from rfl, houtputs, hmeter]
    rfl
  have hrfid : rfidStep overTick ⟨weldedTask d' a' p' k e' outs, []⟩ =
      ⟨rfidTimers (weldedTask d' a' p' k e' outs), []⟩ := rfl
  rw [tick, hmid, hrfid, rfidTimers]
  by_cases hk : k + 1 < 17
  · rw [if_neg (show ¬ rfidKeepaliveTicks ≤ (weldedTask d' a' p' k e' outs).rfidKeepaliveDiv + 1
      from Nat.not_le.mpr hk), if_pos hk]
    exact ⟨_, rfl⟩
  · rw [if_pos (show rfidKeepaliveTicks ≤ (weldedTask d' a' p' k e' outs).rfidKeepaliveDiv + 1
      from Nat.not_lt.mp hk), if_neg hk]
    exact ⟨_, rfl⟩

theorem weldedTask_idle (h : d + 1 < 20) :
    meteringStep overTick .A 12000 (weldedTask d a p k e outs) =
      weldedTask (d + 1) a p k e outs := if_pos h

def weldedReadings (p : ℕ) : Bl0939Readings := ⟨1000000, 55000, 0, 0, 453, 600, p, 0, true⟩

theorem weldedReadings_ma (p : ℕ) :
    iaMilliamps (weldedReadings p) overTick.iaNaPerRaw = 55000 := by
  show 55000 * Int.toNat 1000000 / 1000000 = 55000
  decide

theorem overTick_scaled : ¬ overTick.iaNaPerRaw ≤ 0 := by decide

theorem weldedTask_relayWeld :
    checkRelayWeldBl0939 overTick (weldedReadings p) .A 12000 (weldedTask d a p k e outs) =
      weldedTask d a p k e outs := by
  rw [checkRelayWeldBl0939, weldedReadings_ma, if_neg (show ¬ (!(weldedReadings p).valid) = true
    from Bool.false_ne_true), if_neg overTick_scaled]
  show latchAfter 3 3 .relayWeld .A 12000 (weldedTask d a p k e outs) = _
  rw [latchAfter, if_neg fun h => absurd h.2 (show ¬ faultIsActive ⟨4, 2⟩ FaultId.relayWeld.code =
    false by decide)]

theorem weldedTask_hardOver :
    checkHardOverCurrent overTick (weldedReadings p) .A 12000 (weldedTask d a p k 0 outs) =
      weldedTask d a p k 0 outs := by
  have hadv : effectiveAdvertisedAmps overTick (weldedTask d a p k 0 outs) = 48 := rfl
  rw [checkHardOverCurrent, weldedReadings_ma, if_neg (show ¬ (!(weldedReadings p).valid) = true
    from Bool.false_ne_true), if_neg overTick_scaled, hadv,
    if_neg (show ¬ (48 : ℕ) = 0 by decide)]
  dsimp only
  rw [if_neg (show ¬ hocThresholdMa 48 < 55000 by decide)]
  rfl

theorem bl0939Poll_all (freqConst : Int) (v ia ib aw tp : ℕ) (snap : Bl0939Readings) :
    bl0939Poll freqConst ⟨⟨true, v⟩, ⟨true, ia⟩, ⟨true, ib⟩, ⟨true, aw⟩, ⟨true, tp⟩⟩ snap =
      ⟨v, ia, ib, bl0939Sx24 aw, tp, bl0939PollFreq freqConst tp, snap.pollCount + 1,
        snap.checksumFail, true⟩ := by
  simp [bl0939Poll]

theorem weldedTask_poll :
    meteringStep overTick .A 12000 (weldedTask 19 a p k 0 outs) =
      integrateEnergy overTick (weldedReadings (p + 1)) (checkSoftOverCurrent overTick
        (weldedReadings (p + 1)) .A 12000 (weldedTask 0 a (p + 1) k 0 outs)) := by
  have habsent : checkAcAbsent (weldedReadings (p + 1)) .A 12000
      (weldedTask 0 a (p + 1) k 0 outs) = weldedTask 0 a (p + 1) k 0 outs := by
    rw [checkAcAbsent, if_neg (show ¬ (!(weldedReadings (p + 1)).valid) = true from Bool.false_ne_true),
      if_neg (show ¬ (weldedReadings (p + 1)).vRms < bl0939VRmsAcPresentRaw from
        (by decide : ¬ 1000000 < bl0939VRmsAcPresentRaw))]
    show (if faultIsActive ⟨4, 2⟩ FaultId.acAbsent.code = true then _ else _) = _
    rw [if_neg (by decide)]
    rfl
  have hstuck : checkRelayStuckOpenBl0939 overTick (weldedReadings (p + 1)) .A 12000
      (weldedTask 0 a (p + 1) k 0 outs) = weldedTask 0 a (p + 1) k 0 outs := by
    rw [checkRelayStuckOpenBl0939, if_neg (show ¬ (!(weldedReadings (p + 1)).valid) = true
      from Bool.false_ne_true), if_neg overTick_scaled]
    rfl
  have hread : bl0939Poll overTick.freqConst overTick.bl0939 (weldedTask 19 a p k 0 outs).readings =
      weldedReadings (p + 1) := by
    rw [overTick, bl0939Poll_all, show bl0939Sx24 0 = 0 by decide,
      show bl0939PollFreq (quietTick 12000 2000 []).freqConst 453 = 600 by decide]
    rfl
  rw [meteringStep, if_neg (show ¬ (weldedTask 19 a p k 0 outs).bl0939PollDiv + 1 <
    bl0939PollTicks from (by decide : ¬ 19 + 1 < bl0939PollTicks)), hread]
  show integrateEnergy overTick (weldedReadings (p + 1)) (checkSoftOverCurrent overTick
    (weldedReadings (p + 1)) .A 12000 (checkHardOverCurrent overTick (weldedReadings (p + 1)) .A
      12000 (checkRelayStuckOpenBl0939 overTick (weldedReadings (p + 1)) .A 12000
        (checkRelayWeldBl0939 overTick (weldedReadings (p + 1)) .A 12000
          (checkAcAbsent (weldedReadings (p + 1)) .A 12000
            (weldedTask 0 a (p + 1) k 0 outs)))))) = _
  rw [habsent, weldedTask_relayWeld, hstuck, weldedTask_hardOver]

theorem weldedTask_meets (a p k : ℕ) (outs : List Output) :
    MeterDetector.softOverCurrent.meets overTick (weldedReadings p) (weldedTask 0 a p k 0 outs) =
      true := by
  have hadv : effectiveAdvertisedAmps overTick (weldedTask 0 a p k 0 outs) = 48 := rfl
  rw [MeterDetector.meets, weldedReadings_ma, hadv]
  decide

theorem weldedTask_count (h : a < 75) :
    meteringStep overTick .A 12000 (weldedTask 19 a p k 0 outs) =
      weldedTask 0 (a + 1) (p + 1) k 0 outs := by
  have hadv : effectiveAdvertisedAmps overTick (weldedTask 0 a (p + 1) k 0 outs) = 48 := rfl
  rw [weldedTask_poll, checkSoftOverCurrent, hadv, weldedReadings_ma]
  rw [if_neg (show ¬ (!(weldedReadings (p + 1)).valid) = true from Bool.false_ne_true),
    if_neg overTick_scaled, if_neg (show ¬ (48 : ℕ) = 0 by decide)]
  dsimp only
  rw [if_neg (show ¬ 55000 ≤ socThresholdMa 48 by decide),
    if_pos (show (weldedTask 0 a (p + 1) k 0 outs).socStreak < bl0939SocPersistPolls from h)]
  rfl

theorem weldedTask_ramp :
    meteringStep overTick .A 12000 (weldedTask 19 75 p k 0 outs) =
      weldedTask 0 0 (p + 1) k 4 outs := by
  have hadv : effectiveAdvertisedAmps overTick (weldedTask 0 75 (p + 1) k 0 outs) = 48 := rfl
  rw [weldedTask_poll, checkSoftOverCurrent_over rfl (weldedTask_meets ..) (Nat.le_refl 75), hadv]
  rfl

/-- After the ramp the fault is cleared, and a vehicle asks for current. -/
def weldedRun (k : ℕ) : TickInput :=
  if k < 1520 then overTick
  else quietTick 6000 2000 (if k = 1520 then [.clearFault 2] else [])

set_option maxRecDepth 8000 in
theorem weldedRun_latched : ∃ outs, safetyRun defaultFlags (quietBoot 12000) weldedRun 260 =
    ⟨weldedTask 0 13 13 5 0 outs, []⟩ :=
  ⟨(safetyRun defaultFlags (quietBoot 12000) weldedRun 260).task.outputs, by decide +kernel⟩

theorem weldedRun_counts (t : ℕ) (ht : t ≤ 1259) :
    ∃ outs, safetyRun defaultFlags (quietBoot 12000) weldedRun (260 + t) =
      ⟨weldedTask (t % 20) (13 + t / 20) (13 + t / 20) ((260 + t) % 17) 0 outs, []⟩ := by
  induction t with
  | zero => exact weldedRun_latched
  | succ t ih =>
    obtain ⟨outs, hrun⟩ := ih (Nat.le_of_succ_le ht)
    have hin : weldedRun (260 + t) = overTick := if_pos (by omega)
    have hnext : (if (260 + t) % 17 + 1 < 17 then (260 + t) % 17 + 1 else 0) =
        (260 + (t + 1)) % 17 := by split <;> omega
    have hstep : safetyRun defaultFlags (quietBoot 12000) weldedRun (260 + (t + 1)) =
        tick defaultFlags overTick ⟨weldedTask (t % 20) (13 + t / 20) (13 + t / 20)
          ((260 + t) % 17) 0 outs, []⟩ := by
      rw [← hrun, ← hin]
      rfl
    by_cases hpoll : t % 20 + 1 < 20
    · obtain ⟨outs', htick⟩ := weldedTask_tick (weldedTask_idle hpoll)
      rw [hnext] at htick
      refine ⟨outs', hstep.trans (htick.trans ?_)⟩
      rw [show (t + 1) % 20 = t % 20 + 1 by omega, show (t + 1) / 20 = t / 20 by omega]
    · have hd : t % 20 = 19 := by omega
      rw [hd] at hstep
      have hcount : meteringStep overTick .A 12000
          (weldedTask 19 (13 + t / 20) (13 + t / 20) ((260 + t) % 17) 0 outs) =
            weldedTask 0 (13 + t / 20 + 1) (13 + t / 20 + 1) ((260 + t) % 17) 0 outs :=
        weldedTask_count (by omega)
      obtain ⟨outs', htick⟩ := weldedTask_tick hcount
      rw [hnext] at htick
      refine ⟨outs', hstep.trans (htick.trans ?_)⟩
      rw [show (t + 1) % 20 = 0 by omega, show 13 + (t + 1) / 20 = 13 + t / 20 + 1 by omega]

/-- The seventy-sixth reading ramps, though there is no session. -/
theorem weldedRun_ramped : safetyRun defaultFlags (quietBoot 12000) weldedRun 1520 =
    ⟨weldedTask 0 0 76 7 4
      (safetyRun defaultFlags (quietBoot 12000) weldedRun 1520).task.outputs, []⟩ := by
  obtain ⟨outs, hrun⟩ := weldedRun_counts 1259 (Nat.le_refl _)
  have hramp : meteringStep overTick .A 12000 (weldedTask 19 75 75 6 0 outs) =
      weldedTask 0 0 76 6 4 outs := weldedTask_ramp
  obtain ⟨outs', htick⟩ := weldedTask_tick hramp
  have hin : weldedRun 1519 = overTick := if_pos (by decide)
  have hstep : safetyRun defaultFlags (quietBoot 12000) weldedRun 1520 =
      ⟨weldedTask 0 0 76 7 4 outs', []⟩ := by
    show tick defaultFlags (weldedRun 1519)
      (safetyRun defaultFlags (quietBoot 12000) weldedRun 1519) = _
    rw [hin, hrun]
    exact htick
  rw [hstep]
  rfl

/-- The state the ramp leaves, taken fifty-one ticks further. -/
theorem weldedRun_ready : safetyRun defaultFlags (quietBoot 12000) weldedRun (1520 + 51) =
    Machine.run ⟨id, (safetyMachine defaultFlags).step⟩ ⟨weldedTask 0 0 76 7 4
      (safetyRun defaultFlags (quietBoot 12000) weldedRun 1520).task.outputs, []⟩
      (fun j => weldedRun (1520 + j)) 51 := by
  have hrun : ∀ σ, safetyRun defaultFlags (quietBoot 12000) weldedRun 1520 = σ →
      safetyRun defaultFlags (quietBoot 12000) weldedRun (1520 + 51) =
        Machine.run ⟨id, (safetyMachine defaultFlags).step⟩ σ
          (fun j => weldedRun (1520 + j)) 51 := by
    rintro _ rfl
    exact Machine.run_add (safetyMachine defaultFlags) (quietBoot 12000) weldedRun 1520 51
  exact hrun _ weldedRun_ramped

set_option maxRecDepth 8000 in
theorem weldedRun_begins :
    ∃ hj : 11 < (tickSteps defaultFlags (weldedRun 1571)
        (safetyRun defaultFlags (quietBoot 12000) weldedRun 1571)).length,
      ((tickSteps defaultFlags (weldedRun 1571)
        (safetyRun defaultFlags (quietBoot 12000) weldedRun 1571))[11]).before.evse ≠ .charging ∧
      ((tickSteps defaultFlags (weldedRun 1571)
        (safetyRun defaultFlags (quietBoot 12000) weldedRun 1571))[11]).after.evse = .charging ∧
      ((tickSteps defaultFlags (weldedRun 1571)
        (safetyRun defaultFlags (quietBoot 12000) weldedRun 1571))[11]).after.socDerateAmps = 4 := by
  have hready := weldedRun_ready
  rw [show 1520 + 51 = 1571 from rfl] at hready
  rw [hready]
  decide +kernel

/-- The session that starts then starts derated. -/
theorem weldedRun_start : ∃ first enter rest,
    taskSteps defaultFlags (quietBoot 12000) weldedRun 1572 = first ++ enter :: rest ∧
      enter.Begins ∧ enter.after.socDerateAmps = 4 := by
  obtain ⟨hj, hbefore, hafter, hderate⟩ := weldedRun_begins
  have hsplit := taskSteps_succ defaultFlags (quietBoot 12000) weldedRun 1571
  generalize tickSteps defaultFlags (weldedRun 1571)
    (safetyRun defaultFlags (quietBoot 12000) weldedRun 1571) = steps
    at hj hbefore hafter hderate hsplit
  rw [← List.take_append_drop 11 steps, List.drop_eq_getElem_cons hj,
    ← List.append_assoc] at hsplit
  exact ⟨_, _, _, hsplit, ⟨hbefore, hafter⟩, hderate⟩

end Welded

/-! ## Every start -/

end OpenEVCharger
