import OpenEVCharger.Safety.Run

/-!
# Learning a card

A card is handed to the persist task by the swipe alone that finds the learn window open, and
the window is opened by a request alone. Everything else that a tick does only adds to the
outputs, and adds no card.
-/

namespace OpenEVCharger

/-! ## What the operations of a tick leave alone -/

/-- The learn window, and the outputs so far. -/
def learnView (s : SafetyTask) : ℕ × List Output := (s.rfidLearnTicks, s.outputs)

def isAuthlistAdd : Output → Bool
  | .postAuthlistAdd _ => true
  | _ => false

/-- From one view to the other the window stays as it is, and no card is handed over. -/
def Extends (v v' : ℕ × List Output) : Prop :=
  v'.1 = v.1 ∧ ∃ new, v'.2 = v.2 ++ new ∧ ∀ o ∈ new, isAuthlistAdd o = false

/-- An operation of the tick apart from the learning. -/
def Unlearned (s s' : SafetyTask) : Prop := Extends (learnView s) (learnView s')

variable {s s' u : SafetyTask} {i : TickInput} {js : J1772State} {cpMv : Int} {fid : FaultId}
  {fl : BuildFlags} {σ : System}

namespace Unlearned

theorem refl (s : SafetyTask) : Unlearned s s :=
  ⟨rfl, [], (List.append_nil _).symm, fun _ h => absurd h List.not_mem_nil⟩

theorem trans (h : Unlearned s u) (h' : Unlearned u s') : Unlearned s s' := by
  obtain ⟨hticks, new, hnew, hadds⟩ := h
  obtain ⟨hticks', new', hnew', hadds'⟩ := h'
  refine ⟨hticks'.trans hticks, new ++ new', ?_, fun o ho => ?_⟩
  · rw [hnew', hnew, List.append_assoc]
  · exact (List.mem_append.mp ho).elim (hadds o) (hadds' o)

theorem emit {o : Output} (h : Unlearned s u) (ho : isAuthlistAdd o = false) :
    Unlearned s (OpenEVCharger.emit o u) := by
  refine h.trans ⟨rfl, [o], rfl, fun o' ho' => ?_⟩
  rw [List.mem_singleton.mp ho']
  exact ho

theorem publish (h : Unlearned s u) (e : CommsEvent) : Unlearned s (commsPublishEvent e u) :=
  h.emit rfl

theorem sessionEnd (h : Unlearned s u) (reason : SessionEndReason) :
    Unlearned s (OpenEVCharger.sessionEnd reason u) := by
  have hclear : ∀ v, Unlearned s v → Unlearned s (clearSocDerateForSessionEnd v) := by
    intro v hv
    rw [clearSocDerateForSessionEnd]
    split
    · exact hv
    · exact hv
  rw [OpenEVCharger.sessionEnd]
  split
  · exact h
  · refine hclear _ ?_
    generalize (decide (sessionMinPersistMs ≤ (u.tickCount - u.session.startTs).toNat) ||
      decide (0 < u.session.faultCount) || decide (reason = .fault)) = persist
    cases persist with
    | false => exact h.publish _
    | true => exact (h.emit rfl).publish _

theorem transition (h : Unlearned s u) (next : EvseState) : Unlearned s (evseTransition next u) := by
  have hsession : Unlearned s (if next = .charging then sessionStart u
      else if u.evse = .charging then
        OpenEVCharger.sessionEnd (if next = .fault then .fault else .normal) u
      else u) := by
    split
    · refine publish ?_ _
      exact h
    split
    · exact h.sessionEnd _
    · exact h
  rw [evseTransition]
  split
  · exact h
  dsimp only
  generalize (if next = .charging then sessionStart u else if u.evse = .charging then
    OpenEVCharger.sessionEnd (if next = .fault then .fault else .normal) u else u) = v at hsession
  split
  · exact hsession
  split
  · exact hsession
  · exact hsession

theorem faultEvent (h : Unlearned s u) (fid : FaultId) (js : J1772State) (cpMv : Int) :
    Unlearned s (postFaultEvent fid js cpMv u) := by
  rw [postFaultEvent]
  refine publish ?_ _
  split
  · exact h.emit rfl
  · exact h.emit rfl

theorem raise (h : Unlearned s u) (fid : FaultId) (js : J1772State) (cpMv : Int) :
    Unlearned s (raiseFault fid js cpMv u) := by
  rw [raiseFault]
  split
  · refine faultEvent ?_ fid js cpMv
    exact h
  · exact h

theorem toFault (h : Unlearned s u) (fid : FaultId) (js : J1772State) (cpMv : Int) :
    Unlearned s (raiseToFault fid js cpMv u) := (h.raise fid js cpMv).transition .fault

theorem latch (h : Unlearned s u) {need streak : ℕ} :
    Unlearned s (latchAfter need streak fid js cpMv u) := by
  rw [latchAfter]
  split
  · exact h.toFault fid js cpMv
  · exact h

end Unlearned

/-! ### Requests -/

theorem unlearned_processClearFault (f : ℕ) (s : SafetyTask) :
    Unlearned s (processClearFault f s) := by
  have hleave : ∀ v, Unlearned s v → Unlearned s (leaveFaultIfClear v) := by
    intro v hv
    rw [leaveFaultIfClear]
    split
    · exact hv.transition .ready
    · exact hv
  have hcleared : ∀ (p : Prop) [Decidable p] (fs : FaultState),
      Unlearned s (if p then publishCleared f { s with faults := fs }
        else { s with faults := fs }) := by
    intro p _ fs
    split
    · rw [publishCleared]
      split
      · exact (Unlearned.refl s).publish _
      · exact (Unlearned.refl s).publish _
    · exact .refl s
  rw [processClearFault]
  split
  · exact hleave _ (hcleared _ _)
  split
  · dsimp only
    split
    · exact .refl s
    · exact hleave _ (hcleared _ _)
  · exact .refl s

/-- A request does not touch the window unless it opens it. -/
theorem unlearned_processRequest {r : SafetyReq} (hr : r ≠ .rfidLearnArm) (i : TickInput)
    (s : SafetyTask) : Unlearned s (processRequest i r s) := by
  cases r with
  | rfidLearnArm => exact absurd rfl hr
  | clearFault f => exact unlearned_processClearFault f s
  | userPause reason =>
    rw [processRequest, processUserPause]
    split
    · exact (Unlearned.refl s).transition .userPaused
    · exact .refl s
  | userResume =>
    rw [processRequest, processUserResume]
    split
    · exact (Unlearned.refl s).transition .ready
    · exact .refl s
  | publishRfidConfig => exact (Unlearned.refl s).publish _
  | publishGfciPolicy => exact (Unlearned.refl s).publish _
  | simulateReplug =>
    rw [processRequest, processSimulateReplug]
    split
    · exact (Unlearned.refl s).transition .userPaused
    · exact .refl s
  | runGfciCalTest =>
    rw [processRequest]
    split
    · exact .refl s
    · exact (Unlearned.refl s).emit rfl

/-! ### The control operations -/

theorem unlearned_serviceReplugWindow (s : SafetyTask) : Unlearned s (serviceReplugWindow s) := by
  rw [serviceReplugWindow]
  dsimp only
  split
  · split
    · split
      · refine Unlearned.transition ?_ .ready
        exact Unlearned.refl s
      · exact .refl s
    · exact .refl s
  · exact .refl s

theorem unlearned_readPilot (i : TickInput) (s : SafetyTask) : Unlearned s (readPilot i s) := by
  rw [readPilot]
  dsimp only
  split
  · refine Unlearned.publish ?_ _
    exact Unlearned.refl s
  · exact .refl s

theorem unlearned_checkSafeFail (h : Unlearned s u) (safeFail : Bool) :
    Unlearned s (checkSafeFail safeFail js cpMv u) := by
  rw [checkSafeFail]
  split
  · exact h.toFault _ _ _
  · exact h

theorem unlearned_checkRelayFeedback (h : Unlearned s u) :
    Unlearned s (checkRelayFeedback fl js cpMv u) := by
  have hweld : Unlearned s (checkRelayWeld relayMainSenseClosed js cpMv u) := by
    rw [checkRelayWeld]
    refine Unlearned.latch ?_
    exact h
  rw [checkRelayFeedback]
  split
  · rw [checkRelayStuckOpen]
    split
    · exact hweld
    · refine Unlearned.latch ?_
      exact hweld
  · exact h

theorem unlearned_checkGfci (h : Unlearned s u) : Unlearned s (checkGfci i js cpMv u) := by
  rw [checkGfci]
  split
  · exact h
  · refine Unlearned.faultEvent ?_ _ _ _
    exact h
  · refine Unlearned.toFault ?_ _ _ _
    exact h

theorem unlearned_checkPeContinuity (h : Unlearned s u) :
    Unlearned s (checkPeContinuity fl i js cpMv u) := by
  have hlog : Unlearned s (logPe i js u) := by
    rw [logPe]
    split
    · refine Unlearned.publish ?_ _
      exact h
    · exact h
  rw [checkPeContinuity]
  split
  · exact h
  · dsimp only
    split
    · refine Unlearned.latch ?_
      exact hlog
    · exact hlog

theorem unlearned_checkAdcRuntime (h : Unlearned s u) :
    Unlearned s (checkAdcRuntime i js cpMv u) := by
  rw [checkAdcRuntime]
  split
  · exact h
  · refine Unlearned.latch ?_
    exact h

theorem unlearned_checkCcOutOfRange (h : Unlearned s u) :
    Unlearned s (checkCcOutOfRange fl i js cpMv u) := by
  rw [checkCcOutOfRange]
  split
  · exact h
  split
  · exact h
  · refine Unlearned.latch ?_
    exact h

theorem unlearned_checkCpE (h : Unlearned s u) : Unlearned s (checkCpE js cpMv u) := by
  rw [checkCpE]
  split
  · exact h
  · refine Unlearned.latch ?_
    exact h

theorem unlearned_runDetectors (h : Unlearned s u) :
    Unlearned s (runDetectors fl i js cpMv u) :=
  unlearned_checkCpE <| unlearned_checkCcOutOfRange <| unlearned_checkAdcRuntime <|
    unlearned_checkPeContinuity <| unlearned_checkGfci <| unlearned_checkRelayFeedback <|
    unlearned_checkSafeFail h _

theorem unlearned_checkOverTemp (h : Unlearned s u) : Unlearned s (checkOverTemp fl i u) := by
  rw [checkOverTemp]
  dsimp only
  split
  · split
    · refine Unlearned.transition (Unlearned.raise ?_ _ _ _) .coolingDown
      exact h
    · refine Unlearned.raise ?_ _ _ _
      exact h
  split
  · split
    · refine Unlearned.transition ?_ .ready
      exact h
    · exact h
  · exact h

theorem unlearned_updateEvseFromJ1772 (h : Unlearned s u) :
    Unlearned s (updateEvseFromJ1772 i js u) := by
  have hunplug : Unlearned s (clearAuthOnUnplug i js u) := by
    rw [clearAuthOnUnplug]
    split
    · refine Unlearned.publish ?_ _
      exact h
    · exact h
  rw [updateEvseFromJ1772]
  split
  · exact h
  dsimp only
  generalize clearAuthOnUnplug i js u = v at hunplug
  split
  · split
    · refine Unlearned.transition ?_ .ready
      exact hunplug
    · exact hunplug
  · rw [updateCharging]
    dsimp only
    generalize (if js = .C then bump evseCDwellTicks v.evseCStreak else 0) = streak
    split
    · refine Unlearned.transition ?_ .charging
      exact hunplug
    split
    · refine Unlearned.transition ?_ .ready
      exact hunplug
    · exact hunplug

theorem unlearned_applyOutputs (h : Unlearned s u) : Unlearned s (applyOutputs i js cpMv u) := by
  have hregress : Unlearned s (checkCpRegression js cpMv u) := by
    rw [checkCpRegression]
    split
    · exact h.faultEvent _ _ _
    · exact h
  have hrelay : ∀ v, Unlearned s v → Unlearned s (applyRelayState js v) := by
    intro v hv
    rw [applyRelayState]
    repeat' split
    all_goals exact hv
  have hpilot : ∀ v, Unlearned s v → Unlearned s (applyCpForState i js v) := by
    intro v hv
    have hamps : ∀ amps, Unlearned s (cpPwmSetAdvertiseAmps amps v) := by
      intro amps
      rw [cpPwmSetAdvertiseAmps]
      split
      · exact hv
      · exact hv
    rw [applyCpForState]
    split
    · exact hv
    split
    · exact hv
    split
    · exact hv
    split
    · exact hv
    split
    · exact hamps _
    · exact hv
  rw [applyOutputs]
  exact hpilot _ (hrelay _ hregress)

theorem unlearned_checkAcAbsent (bl : Bl0939Readings) (h : Unlearned s u) :
    Unlearned s (checkAcAbsent bl js cpMv u) := by
  rw [checkAcAbsent]
  dsimp only
  repeat' split
  all_goals first
    | exact h
    | refine Unlearned.raise ?_ _ _ _
      exact h

theorem unlearned_checkRelayWeldBl0939 (bl : Bl0939Readings) (h : Unlearned s u) :
    Unlearned s (checkRelayWeldBl0939 i bl js cpMv u) := by
  rw [checkRelayWeldBl0939]
  dsimp only
  split
  · exact h
  split
  · exact h
  split
  · exact h
  · refine Unlearned.latch ?_
    exact h

theorem unlearned_checkRelayStuckOpenBl0939 (bl : Bl0939Readings) (h : Unlearned s u) :
    Unlearned s (checkRelayStuckOpenBl0939 i bl js cpMv u) := by
  rw [checkRelayStuckOpenBl0939]
  split
  · exact h
  split
  · exact h
  split
  · exact h
  · refine Unlearned.latch ?_
    exact h

theorem unlearned_checkHardOverCurrent (bl : Bl0939Readings) (h : Unlearned s u) :
    Unlearned s (checkHardOverCurrent i bl js cpMv u) := by
  rw [checkHardOverCurrent]
  split
  · exact h
  split
  · exact h
  split
  · exact h
  · refine Unlearned.latch ?_
    exact h

theorem unlearned_checkSoftOverCurrent (bl : Bl0939Readings) (h : Unlearned s u) :
    Unlearned s (checkSoftOverCurrent i bl js cpMv u) := by
  rw [checkSoftOverCurrent]
  dsimp only
  split
  · exact h
  split
  · exact h
  split
  · exact h
  split
  · rw [clearSoftOverCurrent]
    dsimp only
    split
    · split
      · refine Unlearned.publish ?_ _
        exact h
      · exact h
    · exact h
  split
  · exact h
  · rw [rampSoftOverCurrent]
    split
    · exact h
    split
    · exact h
    · exact h.raise _ _ _

theorem unlearned_integrateEnergy (bl : Bl0939Readings) (h : Unlearned s u) :
    Unlearned s (integrateEnergy i bl u) := by
  rw [integrateEnergy]
  dsimp only
  repeat' split
  all_goals exact h

theorem unlearned_meteringStep (h : Unlearned s u) : Unlearned s (meteringStep i js cpMv u) := by
  rw [meteringStep]
  split
  · exact h
  · refine unlearned_integrateEnergy _ (unlearned_checkSoftOverCurrent _ ?_)
    refine unlearned_checkHardOverCurrent _ (unlearned_checkRelayStuckOpenBl0939 _ ?_)
    exact unlearned_checkRelayWeldBl0939 _ (unlearned_checkAcAbsent _ h)

/-! ## The window through a tick -/

/-- The card that the reader puts on the tick's only edge, if it is one. -/
def swipedCard (i : TickInput) (s : SafetyTask) : Option UInt32 :=
  let a := (rfidFeed s.rfidCtx i.rfidRx).2.2
  if i.rfidRx ≠ [] ∧ a.edge = true ∧ a.present = true ∧ a.uid ≠ 0 then
    some (UInt32.ofNat a.uid)
  else none

/-- The outputs have grown, and the cards among what is new satisfy `P`. -/
def AddsOnly (P : ℕ → Prop) (old outputs : List Output) : Prop :=
  ∃ new, outputs = old ++ new ∧ ∀ uid, .postAuthlistAdd uid ∈ new → P uid

variable {P : ℕ → Prop} {xs ys zs : List Output}

theorem AddsOnly.trans (h : AddsOnly P xs ys) (h' : AddsOnly P ys zs) : AddsOnly P xs zs := by
  obtain ⟨new, rfl, hnew⟩ := h
  obtain ⟨new', rfl, hnew'⟩ := h'
  refine ⟨new ++ new', List.append_assoc _ _ _, fun uid hu => ?_⟩
  exact (List.mem_append.mp hu).elim (hnew uid) (hnew' uid)

theorem Unlearned.addsOnly (h : Unlearned s s') (P : ℕ → Prop) :
    AddsOnly P s.outputs s'.outputs := by
  obtain ⟨-, new, hnew, hadds⟩ := h
  exact ⟨new, hnew, fun uid hu => absurd (hadds _ hu) Bool.true_eq_false.mp⟩

theorem Unlearned.ticks (h : Unlearned s s') : s'.rfidLearnTicks = s.rfidLearnTicks := h.1

/-- The window behind some requests: open for its full length if one of them has opened it. -/
theorem learnView_requests (i : TickInput) (rs : List SafetyReq) (s : SafetyTask) :
    let s' := rs.foldl (fun s r => processRequest i r s) s
    s'.rfidLearnTicks = (if .rfidLearnArm ∈ rs then rfidLearnTicks else s.rfidLearnTicks) ∧
      AddsOnly P s.outputs s'.outputs := by
  induction rs generalizing s with
  | nil => exact ⟨(if_neg List.not_mem_nil).symm, (Unlearned.refl s).addsOnly P⟩
  | cons r rs ih =>
    obtain ⟨hticks, hadds⟩ := ih (processRequest i r s)
    rw [List.foldl_cons]
    by_cases hr : r = .rfidLearnArm
    · subst hr
      refine ⟨?_, hadds⟩
      rw [hticks, if_pos List.mem_cons_self]
      split
      · rfl
      · rfl
    · have hun := unlearned_processRequest hr i s
      refine ⟨?_, (hun.addsOnly P).trans hadds⟩
      rw [hticks, hun.ticks]
      have hmem : SafetyReq.rfidLearnArm ∈ r :: rs ↔ .rfidLearnArm ∈ rs := by
        rw [List.mem_cons]
        exact or_iff_right fun h => hr h.symm
      simp only [hmem]

theorem unlearned_beforeRfid (fl : BuildFlags) (i : TickInput) (σ : System) :
    Unlearned (drainInbox i σ).task (beforeRfid fl i σ).task := by
  have hdetectors : Unlearned (drainInbox i σ).task (beforeDetectors i σ) :=
    (unlearned_serviceReplugWindow _).trans (unlearned_readPilot i _)
  have hupdate : Unlearned (drainInbox i σ).task (afterUpdate fl i σ) :=
    unlearned_updateEvseFromJ1772 (unlearned_checkOverTemp (unlearned_runDetectors hdetectors))
  rw [beforeRfid_task]
  exact unlearned_meteringStep (unlearned_applyOutputs hupdate)

/-- What the RFID block does about cards: one is handed over only by its swipe in the window,
and the window is a tick shorter behind it. -/
structure Learns (i : TickInput) (s s' : SafetyTask) : Prop where
  adds : AddsOnly (fun uid => swipedCard i s = some (UInt32.ofNat uid) ∧ 0 < s.rfidLearnTicks)
    s.outputs s'.outputs
  window : s'.rfidLearnTicks ≤ s.rfidLearnTicks - 1

theorem addsOnly_rfidCard (i : TickInput) (uid : ℕ) (σ : System) :
    AddsOnly (fun v => v = uid ∧ 0 < σ.task.rfidLearnTicks) σ.task.outputs
        (rfidCard i uid σ).2.task.outputs ∧
      (rfidCard i uid σ).2.task.rfidLearnTicks ≤ σ.task.rfidLearnTicks := by
  have hkept := (Unlearned.refl σ.task).addsOnly
    fun v => v = uid ∧ 0 < σ.task.rfidLearnTicks
  rw [rfidCard]
  dsimp only
  split
  · next hopen =>
    split
    · exact ⟨hkept, Nat.zero_le _⟩
    · refine ⟨⟨[.postAuthlistAdd uid], rfl, fun v hv => ⟨?_, hopen⟩⟩, Nat.zero_le _⟩
      exact Output.postAuthlistAdd.inj (List.mem_singleton.mp hv)
  split
  · rw [rfidGrant]
    dsimp only
    split
    · exact ⟨hkept, Nat.le_refl _⟩
    · refine ⟨?_, Nat.le_refl _⟩
      exact ((Unlearned.refl σ.task).publish _).addsOnly _
  · exact ⟨hkept, Nat.le_refl _⟩

theorem addsOnly_rfidEdge (i : TickInput) (a : RfidAction) (σ : System) :
    AddsOnly (fun v => a.present = true ∧ a.uid ≠ 0 ∧ v = a.uid ∧ 0 < σ.task.rfidLearnTicks)
        σ.task.outputs (rfidEdge i a σ).task.outputs ∧
      (rfidEdge i a σ).task.rfidLearnTicks ≤ σ.task.rfidLearnTicks := by
  have hswipe := ((Unlearned.refl σ.task).publish (.rfidSwipe a.uid a.present)).addsOnly
    fun v => a.present = true ∧ a.uid ≠ 0 ∧ v = a.uid ∧ 0 < σ.task.rfidLearnTicks
  rw [rfidEdge]
  dsimp only
  split
  · next hcard =>
    rw [Bool.and_eq_true, decide_eq_true_eq] at hcard
    obtain ⟨hadds, hwindow⟩ := addsOnly_rfidCard i a.uid
      ⟨commsPublishEvent (.rfidSwipe a.uid a.present) σ.task, σ.inbox⟩
    refine ⟨?_, hwindow⟩
    refine (hswipe.trans ?_).trans (((Unlearned.refl _).publish _).addsOnly _)
    obtain ⟨new, hnew, huids⟩ := hadds
    exact ⟨new, hnew, fun v hv => ⟨hcard.1, hcard.2, huids v hv⟩⟩
  · exact ⟨hswipe, Nat.le_refl _⟩

theorem learns_rfidReceive (i : TickInput) (σ : System) :
    AddsOnly (fun v => swipedCard i σ.task = some (UInt32.ofNat v) ∧ 0 < σ.task.rfidLearnTicks)
        σ.task.outputs (rfidReceive i σ).task.outputs ∧
      (rfidReceive i σ).task.rfidLearnTicks ≤ σ.task.rfidLearnTicks := by
  rw [rfidReceive]
  by_cases hrx : i.rfidRx = []
  · rw [if_pos hrx]
    exact ⟨(Unlearned.refl σ.task).addsOnly _, Nat.le_refl _⟩
  rw [if_neg hrx, swipedCard]
  generalize rfidFeed σ.task.rfidCtx i.rfidRx = r
  dsimp only
  by_cases hedge : r.2.2.edge = true
  · rw [if_pos hedge]
    obtain ⟨hadds, hwindow⟩ := addsOnly_rfidEdge i r.2.2
      { σ with task := { σ.task with rfidCtx := r.2.1 } }
    refine ⟨?_, hwindow⟩
    obtain ⟨new, hnew, huids⟩ := hadds
    refine ⟨new, hnew, fun v hv => ?_⟩
    obtain ⟨hpresent, huid, rfl, hopen⟩ := huids v hv
    exact ⟨if_pos ⟨hrx, hedge, hpresent, huid⟩, hopen⟩
  · rw [if_neg hedge]
    exact ⟨(Unlearned.refl σ.task).addsOnly _, Nat.le_refl _⟩

theorem learns_rfidStep (i : TickInput) (σ : System) : Learns i σ.task (rfidStep i σ).task := by
  obtain ⟨hadds, hwindow⟩ := learns_rfidReceive i σ
  rw [rfidStep]
  dsimp only
  generalize (rfidReceive i σ).task = v at hadds hwindow
  rw [rfidTimers]
  dsimp only
  split
  · refine ⟨?_, Nat.sub_le_sub_right hwindow 1⟩
    exact hadds.trans (((Unlearned.refl v).emit (o := .rfidKeepalive) rfl).addsOnly _)
  · exact ⟨hadds, Nat.sub_le_sub_right hwindow 1⟩

/-- What a tick does about cards. -/
structure TickLearns (fl : BuildFlags) (i : TickInput) (σ : System) : Prop where
  adds : AddsOnly (fun uid => swipedCard i (beforeRfid fl i σ).task = some (UInt32.ofNat uid) ∧
    0 < (beforeRfid fl i σ).task.rfidLearnTicks) σ.task.outputs (tick fl i σ).task.outputs
  window : (beforeRfid fl i σ).task.rfidLearnTicks =
    if .rfidLearnArm ∈ received i σ then rfidLearnTicks else σ.task.rfidLearnTicks
  closes : (tick fl i σ).task.rfidLearnTicks ≤ (beforeRfid fl i σ).task.rfidLearnTicks - 1

theorem tickLearns (fl : BuildFlags) (i : TickInput) (σ : System) : TickLearns fl i σ := by
  have hstep := learns_rfidStep i (beforeRfid fl i σ)
  have hbefore := unlearned_beforeRfid fl i σ
  obtain ⟨hticks, hrequests⟩ := learnView_requests
    (P := fun uid => swipedCard i (beforeRfid fl i σ).task = some (UInt32.ofNat uid) ∧
      0 < (beforeRfid fl i σ).task.rfidLearnTicks) i (received i σ) (σ.atTick i).task
  rw [← drainInbox_task] at hticks hrequests
  refine ⟨(hrequests.trans (hbefore.addsOnly _)).trans hstep.adds, ?_, hstep.window⟩
  rw [hbefore.ticks, hticks]
  rfl

/-- A session is granted by the swipe of a listed card outside the window. -/
theorem card_of_swipeAuthorized {cards : List UInt32} (hlist : i.authlist = cards.map UInt32.toNat)
    (h : swipeAuthorized i s = true) :
    ∃ card ∈ cards, swipedCard i s = some card ∧ s.rfidLearnTicks = 0 := by
  rw [swipeAuthorized, hlist] at h
  rw [swipedCard]
  generalize (rfidFeed s.rfidCtx i.rfidRx).2.2 = a at h
  simp only [Bool.and_eq_true, decide_eq_true_eq, List.contains_iff_mem, List.mem_map] at h
  obtain ⟨⟨⟨⟨⟨hrx, hedge⟩, hpresent⟩, huid⟩, hwindow⟩, card, hcard, heq⟩ := h
  refine ⟨card, hcard, ?_, hwindow⟩
  rw [if_pos ⟨hrx, hedge, hpresent, huid⟩, ← heq, UInt32.ofNat_toNat]

end OpenEVCharger
