import OpenEVCharger.Lib.Machine
import OpenEVCharger.Safety.Polls

/-!
# The settle window of the weld detector

`check_relay_weld_bl0939` sees the contactor command only at the polls with valid readings.
From there it keeps the command of the poll before, a settle window that a close-to-open
edge arms, and the debounce streak. Here they are followed over any order of polls and
contactor commands, beside an observer that sees every command.
-/

namespace OpenEVCharger

/-! ## Polls and commands -/

/-- The poll and the weld check of the metering block. -/
def weldPoll (i : TickInput) (p : Bl0939Poll) (js : J1772State) (cpMv : Int) (s : SafetyTask) :
    SafetyTask :=
  let bl := bl0939Poll i.freqConst p s.readings
  checkRelayWeldBl0939 i bl js cpMv { s with readings := bl }

def relayMainCommand (closed : Bool) (s : SafetyTask) : SafetyTask :=
  if closed then relayMainClose s else relayMainOpen s

/-- The rest of the task does what it likes, but the command, the readings and the statics of
the detector are not its own. -/
def besideWeld (t s : SafetyTask) : SafetyTask :=
  { t with
      weldBlStreak := s.weldBlStreak
      weldPrevCommanded := s.weldPrevCommanded
      weldSettlePolls := s.weldSettlePolls
      readings := s.readings
      mainCmd := s.mainCmd }

inductive WeldEvent
  | command (closed : Bool)
  | poll (i : TickInput) (p : Bl0939Poll) (js : J1772State) (cpMv : Int)
  | beside (t : SafetyTask)

namespace WeldEvent

def apply : WeldEvent → SafetyTask → SafetyTask
  | .command closed, s => relayMainCommand closed s
  | .poll i p js cpMv, s => weldPoll i p js cpMv s
  | .beside t, s => besideWeld t s

def isPoll : WeldEvent → Bool
  | .poll .. => true
  | _ => false

/-- A poll under a positive current calibration. -/
def calibrated : WeldEvent → Prop
  | .poll i .. => 0 < i.iaNaPerRaw
  | _ => True

/-- A command that opens the closed contactor. -/
def opens (s : SafetyTask) : WeldEvent → Bool
  | .command closed => s.mainCmd && !closed
  | _ => false

end WeldEvent

/-! ## The observer -/

/-- What an observer of the contactor line and of the polls knows: the polls since the last
commanded close-to-open transition, and how many polls in a row, up to now, were valid with the
contactor commanded open and at least 500 mA flowing. -/
structure WeldLog where
  sinceOpened : Option ℕ
  flowing : ℕ
  deriving DecidableEq, Repr

/-- The condition of the detector at a poll. -/
def flowsOpen (i : TickInput) (p : Bl0939Poll) (s : SafetyTask) : Bool :=
  let bl := bl0939Poll i.freqConst p s.readings
  bl.valid && !s.mainCmd && decide (500 ≤ iaMilliamps bl i.iaNaPerRaw)

def weldObserve (e : WeldEvent) (s : SafetyTask) (l : WeldLog) : WeldLog :=
  match e with
  | .command _ => if e.opens s then { l with sinceOpened := some 0 } else l
  | .poll i p _ _ =>
    { sinceOpened := l.sinceOpened.map (· + 1)
      flowing := if flowsOpen i p s then l.flowing + 1 else 0 }
  | .beside _ => l

def weldMachine : Machine SafetyTask WeldEvent SafetyTask := ⟨id, WeldEvent.apply⟩

/-- The task after the first `n` events. -/
def weldRun (s : SafetyTask) (es : ℕ → WeldEvent) (n : ℕ) : SafetyTask := weldMachine.run s es n

def weldLog (s : SafetyTask) (es : ℕ → WeldEvent) (n : ℕ) : WeldLog :=
  weldMachine.history s es weldObserve ⟨none, 0⟩ n

/-- The detector as the boot leaves it: `s_prev_commanded` at `-1`, nothing counted. -/
def WeldFresh (s : SafetyTask) : Prop :=
  s.weldPrevCommanded = none ∧ s.weldSettlePolls = 0 ∧ s.weldBlStreak = 0

def weldActive (s : SafetyTask) : Bool := faultIsActive s.faults FaultId.relayWeld.code

/-- The `n`-th event is a poll that raises the fault. -/
def RaisesWeld (s : SafetyTask) (es : ℕ → WeldEvent) (n : ℕ) : Prop :=
  (es n).isPoll = true ∧ weldActive (weldRun s es n) = false ∧
    weldActive (weldRun s es (n + 1)) = true

/-- A command that opens the contactor comes when the detector has seen it closed, or in a
settle window with enough left. -/
def OpeningSeen (s : SafetyTask) (es : ℕ → WeldEvent) (n : ℕ) : Prop :=
  (es n).opens (weldRun s es n) = true →
    (weldRun s es n).weldPrevCommanded = some true ∨
      bl0939WeldSettlePolls ≤ (weldRun s es n).weldSettlePolls + bl0939DetectorPersist

instance (s : SafetyTask) (es : ℕ → WeldEvent) (n : ℕ) : Decidable (OpeningSeen s es n) :=
  inferInstanceAs (Decidable (_ → _))

instance (s : SafetyTask) (es : ℕ → WeldEvent) (n : ℕ) : Decidable (RaisesWeld s es n) :=
  inferInstanceAs (Decidable (_ ∧ _))

/-! ## What a raise leaves alone -/

variable {i : TickInput} {p : Bl0939Poll} {js : J1772State} {cpMv : Int} {s t : SafetyTask}
  {l : WeldLog} {e : WeldEvent} {n : ℕ}

/-- The statics of `check_relay_weld_bl0939`. -/
def weldMemory (s : SafetyTask) : Option Bool × ℕ := (s.weldPrevCommanded, s.weldSettlePolls)

theorem weldMemory_sessionEnd (reason : SessionEndReason) (s : SafetyTask) :
    weldMemory (sessionEnd reason s) = weldMemory s := by
  rw [sessionEnd, clearSocDerateForSessionEnd]
  dsimp only
  repeat' split
  all_goals rfl

theorem weldMemory_evseTransition (next : EvseState) (s : SafetyTask) :
    weldMemory (evseTransition next s) = weldMemory s := by
  rw [evseTransition]
  dsimp only
  repeat' split
  all_goals first | rfl | exact weldMemory_sessionEnd _ s

theorem weldMemory_raiseFault (fid : FaultId) (js : J1772State) (cpMv : Int) (s : SafetyTask) :
    weldMemory (raiseFault fid js cpMv s) = weldMemory s := by
  rw [raiseFault, postFaultEvent]
  dsimp only
  repeat' split
  all_goals rfl

theorem weldMemory_latchAfter (need streak : ℕ) (fid : FaultId) (js : J1772State) (cpMv : Int)
    (s : SafetyTask) : weldMemory (latchAfter need streak fid js cpMv s) = weldMemory s := by
  rw [latchAfter]
  split
  · rw [raiseToFault, weldMemory_evseTransition, weldMemory_raiseFault]
  · rfl

theorem mainCmd_raiseFault (fid : FaultId) (js : J1772State) (cpMv : Int) (s : SafetyTask) :
    (raiseFault fid js cpMv s).mainCmd = s.mainCmd := by
  rw [raiseFault, postFaultEvent]
  dsimp only
  repeat' split
  all_goals rfl

/-- Entering FAULT leaves an open contactor open. -/
theorem mainCmd_latchAfter (need streak : ℕ) (fid : FaultId) (js : J1772State) (cpMv : Int)
    (h : s.mainCmd = false) : (latchAfter need streak fid js cpMv s).mainCmd = false := by
  rw [latchAfter]
  split
  · rw [raiseToFault, evseTransition]
    split
    · exact (mainCmd_raiseFault ..).trans h
    · rfl
  · exact h

/-- A streak that is long enough leaves the fault active, a shorter one leaves it alone. -/
theorem faultIsActive_latchAfter (need streak : ℕ) {fid : FaultId} (hfid : fidOk fid.code = true)
    (js : J1772State) (cpMv : Int) (s : SafetyTask) :
    faultIsActive (latchAfter need streak fid js cpMv s).faults fid.code =
      (faultIsActive s.faults fid.code || decide (need ≤ streak)) := by
  rw [latchAfter]
  split
  · next hlatch =>
    rw [raiseToFault, faults_evseTransition, faults_raiseFault, faultIsActive_raise _ hfid,
      decide_eq_true hlatch.1, decide_eq_true (rfl : fid.code = fid.code)]
  · next hkeep =>
    rw [not_and, Bool.not_eq_false] at hkeep
    by_cases hneed : need ≤ streak
    · rw [hkeep hneed, Bool.true_or]
    · rw [decide_eq_false hneed, Bool.or_false]

/-! ## One poll -/

/-- What the detector keeps, with what it looks at. -/
structure WeldStatics where
  prevCommanded : Option Bool
  settle : ℕ
  streak : ℕ
  valid : Bool
  mainCmd : Bool

def weldStatics (s : SafetyTask) : WeldStatics :=
  ⟨s.weldPrevCommanded, s.weldSettlePolls, s.weldBlStreak, s.readings.valid, s.mainCmd⟩

theorem bl0939Poll_valid (h : s.readings.valid = true) :
    (bl0939Poll i.freqConst p s.readings).valid = true := by
  rw [bl0939Poll]
  dsimp only
  split
  · rfl
  · exact h

/-- The streak behind a poll out of the settle window. -/
def weldStreakNext (i : TickInput) (p : Bl0939Poll) (s : SafetyTask) : ℕ :=
  if flowsOpen i p s then bump bl0939DetectorPersist s.weldBlStreak else 0

/-- Everything a poll under a positive calibration can do to the detector. -/
inductive WeldPolled (i : TickInput) (p : Bl0939Poll) (s s' : SafetyTask) : Prop
  | blind (hvalid : (bl0939Poll i.freqConst p s.readings).valid = false)
      (hstatics : weldStatics s' = { weldStatics s with valid := false })
      (hactive : weldActive s' = weldActive s)
  | settling (hvalid : (bl0939Poll i.freqConst p s.readings).valid = true)
      (hsettle : 0 < weldSettleArmed s)
      (hstatics : weldStatics s' =
        ⟨some s.mainCmd, weldSettleArmed s - 1, 0, true, s.mainCmd⟩)
      (hactive : weldActive s' = weldActive s)
  | counted (hvalid : (bl0939Poll i.freqConst p s.readings).valid = true)
      (hsettle : weldSettleArmed s = 0)
      (hstatics : weldStatics s' = ⟨some s.mainCmd, 0, weldStreakNext i p s, true, s.mainCmd⟩)
      (hactive : weldActive s' =
        (weldActive s || decide (bl0939DetectorPersist ≤ weldStreakNext i p s)))

theorem weldStatics_latchAfter (need streak : ℕ) (fid : FaultId) (js : J1772State) (cpMv : Int)
    (h : need ≤ streak → s.mainCmd = false) :
    weldStatics (latchAfter need streak fid js cpMv s) = weldStatics s := by
  have hmemory := weldMemory_latchAfter need streak fid js cpMv s
  have hmeter := meterView_latchAfter need streak fid js cpMv s
  have hcmd : (latchAfter need streak fid js cpMv s).mainCmd = s.mainCmd := by
    by_cases hneed : need ≤ streak
    · rw [h hneed, mainCmd_latchAfter _ _ _ _ _ (h hneed)]
    · rw [latchAfter, if_neg (fun hlatch => hneed hlatch.1)]
  have hstreak : (latchAfter need streak fid js cpMv s).weldBlStreak = s.weldBlStreak :=
    congrArg MeterView.weldBlStreak hmeter
  rw [weldMemory, weldMemory, Prod.mk.injEq] at hmemory
  rw [weldStatics, weldStatics, hmemory.1, hmemory.2, hstreak, readings_congr hmeter, hcmd]

theorem weldPoll_cases (p : Bl0939Poll) (js : J1772State) (cpMv : Int) (s : SafetyTask)
    (hcal : 0 < i.iaNaPerRaw) : WeldPolled i p s (weldPoll i p js cpMv s) := by
  have hscale : ¬ i.iaNaPerRaw ≤ 0 := not_le.mpr hcal
  rw [weldPoll, checkRelayWeldBl0939]
  dsimp only
  cases hvalid : (bl0939Poll i.freqConst p s.readings).valid with
  | false =>
    rw [if_pos (show (!false) = true from rfl)]
    refine .blind hvalid ?_ rfl
    rw [weldStatics, weldStatics, hvalid]
  | true =>
    rw [if_neg not_not_true, if_neg hscale]
    have harmed : weldSettleArmed { s with readings := bl0939Poll i.freqConst p s.readings } =
      weldSettleArmed s := rfl
    rw [harmed]
    by_cases hsettle : 0 < weldSettleArmed s
    · rw [if_pos hsettle]
      refine .settling hvalid hsettle ?_ rfl
      rw [weldStatics, hvalid]
    · have hzero : weldSettleArmed s = 0 := Nat.eq_zero_of_not_pos hsettle
      have hflow : (decide (500 ≤ iaMilliamps (bl0939Poll i.freqConst p s.readings) i.iaNaPerRaw)
          && !s.mainCmd) = flowsOpen i p s := by
        rw [flowsOpen, hvalid, Bool.true_and, Bool.and_comm]
      rw [if_neg hsettle, hflow]
      have hopen : bl0939DetectorPersist ≤ weldStreakNext i p s → s.mainCmd = false := by
        intro hlong
        rw [weldStreakNext] at hlong
        split at hlong
        · next hflows =>
          rw [flowsOpen, Bool.and_eq_true, Bool.and_eq_true, Bool.not_eq_true'] at hflows
          exact hflows.1.2
        · exact absurd hlong (by decide)
      refine .counted hvalid hzero ?_ ?_
      · refine (weldStatics_latchAfter _ _ _ _ _ ?_).trans ?_
        · exact hopen
        · rw [weldStatics, hzero, hvalid]
          rfl
      · exact faultIsActive_latchAfter _ _ rfl js cpMv _

theorem weldSettleArmed_of_edge (hprev : s.weldPrevCommanded = some true)
    (hcmd : s.mainCmd = false) : weldSettleArmed s = bl0939WeldSettlePolls :=
  if_pos ⟨hprev, hcmd⟩

theorem weldSettleArmed_of_not_edge (h : s.mainCmd = false → s.weldPrevCommanded ≠ some true) :
    weldSettleArmed s = s.weldSettlePolls :=
  if_neg fun hedge => h hedge.2 hedge.1

/-! ## The metering block -/

/-- What the weld detector keeps or looks at, apart from the command. -/
def weldView (s : SafetyTask) : (Option Bool × ℕ) × ℕ × Bl0939Readings :=
  (weldMemory s, s.weldBlStreak, s.readings)

theorem besideWeld_eq (h : weldView t = weldView s) :
    besideWeld t s = { t with mainCmd := s.mainCmd } := by
  rw [weldView, weldView, weldMemory, weldMemory, Prod.mk.injEq, Prod.mk.injEq,
    Prod.mk.injEq] at h
  rw [besideWeld, ← h.1.1, ← h.1.2, ← h.2.1, ← h.2.2]

/-- A detector that keeps the statics of the weld detector and changes a streak of its own. -/
theorem weldView_of_meter {u : SafetyTask} (hmemory : weldMemory t = weldMemory s)
    (hmeter : meterView t = meterView u) (hstreak : u.weldBlStreak = s.weldBlStreak)
    (hread : u.readings = s.readings) : weldView t = weldView s := by
  have ht : t.weldBlStreak = u.weldBlStreak := congrArg MeterView.weldBlStreak hmeter
  rw [weldView, weldView, hmemory, ht, hstreak, readings_congr hmeter, hread]

theorem weldView_checkAcAbsent (i : TickInput) (bl : Bl0939Readings) (js : J1772State)
    (cpMv : Int) (s : SafetyTask) : weldView (checkAcAbsent bl js cpMv s) = weldView s := by
  refine weldView_of_meter ?_ (meterView_checkAcAbsent i bl js cpMv s) rfl rfl
  rw [checkAcAbsent]
  dsimp only
  repeat' split
  all_goals first | rfl | exact weldMemory_raiseFault ..

theorem mainCmd_checkAcAbsent (bl : Bl0939Readings) (js : J1772State) (cpMv : Int)
    (s : SafetyTask) : (checkAcAbsent bl js cpMv s).mainCmd = s.mainCmd := by
  rw [checkAcAbsent]
  dsimp only
  repeat' split
  all_goals first | rfl | exact mainCmd_raiseFault ..

theorem weldView_checkRelayStuckOpen (i : TickInput) (bl : Bl0939Readings) (js : J1772State)
    (cpMv : Int) (s : SafetyTask) :
    weldView (checkRelayStuckOpenBl0939 i bl js cpMv s) = weldView s := by
  refine weldView_of_meter ?_ (meterView_checkRelayStuckOpenBl0939 i bl js cpMv s) rfl rfl
  rw [checkRelayStuckOpenBl0939]
  dsimp only
  repeat' split
  all_goals first | rfl | exact weldMemory_latchAfter ..

theorem weldView_checkHardOverCurrent (i : TickInput) (bl : Bl0939Readings) (js : J1772State)
    (cpMv : Int) (s : SafetyTask) :
    weldView (checkHardOverCurrent i bl js cpMv s) = weldView s := by
  refine weldView_of_meter ?_ (meterView_checkHardOverCurrent i bl js cpMv s) rfl rfl
  rw [checkHardOverCurrent]
  dsimp only
  repeat' split
  all_goals first | rfl | exact weldMemory_latchAfter ..

theorem weldView_checkSoftOverCurrent (i : TickInput) (bl : Bl0939Readings) (js : J1772State)
    (cpMv : Int) (s : SafetyTask) :
    weldView (checkSoftOverCurrent i bl js cpMv s) = weldView s := by
  refine weldView_of_meter ?_ (meterView_checkSoftOverCurrent i bl js cpMv s) rfl rfl
  unfold checkSoftOverCurrent clearSoftOverCurrent rampSoftOverCurrent
  dsimp only
  repeat' split
  all_goals first | rfl | exact weldMemory_raiseFault ..

theorem weldView_integrateEnergy (i : TickInput) (bl : Bl0939Readings) (s : SafetyTask) :
    weldView (integrateEnergy i bl s) = weldView s := by
  refine weldView_of_meter ?_ (meterView_integrateEnergy i bl s) rfl rfl
  rw [integrateEnergy]
  dsimp only
  repeat' split
  all_goals rfl

/-- A due pass of the metering block is a poll of the detector, between other work and the command
a later detector may leave. -/
theorem meteringStep_weld (hdue : bl0939PollTicks ≤ s.bl0939PollDiv + 1) :
    ∃ t u closed, meteringStep i js cpMv s =
      relayMainCommand closed (besideWeld u (weldPoll i i.bl0939 js cpMv (besideWeld t s))) := by
  have hpoll : ¬ s.bl0939PollDiv + 1 < bl0939PollTicks := not_lt.mpr hdue
  rw [meteringStep, if_neg hpoll]
  dsimp only
  generalize hbl : bl0939Poll i.freqConst i.bl0939 s.readings = bl
  generalize ha : checkAcAbsent bl js cpMv { s with bl0939PollDiv := 0, readings := bl } = a
  have hfirst : weldPoll i i.bl0939 js cpMv (besideWeld a s) =
      checkRelayWeldBl0939 i bl js cpMv a := by
    have hview := weldView_checkAcAbsent i bl js cpMv { s with bl0939PollDiv := 0, readings := bl }
    have hcmd := mainCmd_checkAcAbsent bl js cpMv { s with bl0939PollDiv := 0, readings := bl }
    rw [ha] at hview hcmd
    have hbeside : besideWeld a { s with bl0939PollDiv := 0, readings := bl } = a :=
      (besideWeld_eq hview).trans (by rw [← hcmd])
    rw [weldPoll, show (besideWeld a s).readings = s.readings from rfl, hbl]
    exact congrArg (checkRelayWeldBl0939 i bl js cpMv) hbeside
  generalize hr : integrateEnergy i bl (checkSoftOverCurrent i bl js cpMv
    (checkHardOverCurrent i bl js cpMv (checkRelayStuckOpenBl0939 i bl js cpMv
      (checkRelayWeldBl0939 i bl js cpMv a)))) = r
  have hview : weldView r = weldView (checkRelayWeldBl0939 i bl js cpMv a) := by
    rw [← hr, weldView_integrateEnergy, weldView_checkSoftOverCurrent,
      weldView_checkHardOverCurrent, weldView_checkRelayStuckOpen]
  refine ⟨a, r, r.mainCmd, ?_⟩
  rw [hfirst, besideWeld_eq hview, relayMainCommand]
  cases hcmd : r.mainCmd with
  | false => rw [if_neg Bool.false_ne_true, relayMainOpen, ← hcmd]
  | true => rw [if_pos rfl, relayMainClose, ← hcmd]

/-! ## The detector and the observer -/

/-- What the detector keeps, against what the observer has seen. -/
structure WeldTracked (w : WeldStatics) (l : WeldLog) : Prop where
  settle_le : w.settle ≤ bl0939WeldSettlePolls
  streak_le : w.streak ≤ l.flowing
  settling : 0 < w.settle → w.streak = 0
  blind : w.valid = false → w.prevCommanded = none ∧ w.settle = 0 ∧ w.streak = 0
  /-- Nothing was opened: there is no window. -/
  unopened : l.sinceOpened = none → w.settle = 0
  /-- An edge the detector has still to see is of this poll period. -/
  edge : w.mainCmd = false → w.prevCommanded = some true → l.sinceOpened = some 0
  window : ∀ n, l.sinceOpened = some n → w.mainCmd = false → w.prevCommanded ≠ some true →
    w.settle = 0 ∨ w.settle + n ≤ bl0939WeldSettlePolls
  /-- Out of the window every poll that meets the condition has been counted. -/
  counted : ∀ j ≤ bl0939DetectorPersist, j ≤ l.flowing →
    (∀ n, l.sinceOpened = some n → bl0939WeldSettlePolls + j ≤ n) → j ≤ w.streak

theorem weldTracked_fresh (h : WeldFresh s) : WeldTracked (weldStatics s) ⟨none, 0⟩ := by
  obtain ⟨hprev, hsettle, hstreak⟩ := h
  have hstatics : weldStatics s = ⟨none, 0, 0, s.readings.valid, s.mainCmd⟩ := by
    rw [weldStatics, hprev, hsettle, hstreak]
  rw [hstatics]
  exact {
    settle_le := Nat.zero_le _
    streak_le := Nat.le_refl 0
    settling := fun _ => rfl
    blind := fun _ => ⟨rfl, rfl, rfl⟩
    unopened := fun _ => rfl
    edge := fun _ hedge => absurd hedge nofun
    window := fun _ hopened => absurd hopened nofun
    counted := fun j _ hflowing _ => hflowing }

/-- A command is seen at once by the observer, and by the detector at its next poll. -/
theorem WeldTracked.command (h : WeldTracked (weldStatics s) l) (closed : Bool) :
    WeldTracked (weldStatics (relayMainCommand closed s))
      (weldObserve (.command closed) s l) := by
  have hstatics : weldStatics (relayMainCommand closed s) =
      { weldStatics s with mainCmd := closed } := by
    cases closed <;> rfl
  rw [hstatics, weldObserve]
  split
  · next hopens =>
    exact {
      settle_le := h.settle_le
      streak_le := h.streak_le
      settling := h.settling
      blind := h.blind
      unopened := fun hnone => absurd hnone nofun
      edge := fun _ _ => rfl
      window := by
        rintro n hsome - -
        cases hsome
        exact .inr h.settle_le
      counted := by
        intro j _ _ hafter
        have hwindow := hafter 0 rfl
        rw [bl0939WeldSettlePolls] at hwindow
        omega }
  · next hkept =>
    -- an open contactor was open before
    have hopen : closed = false → s.mainCmd = false := by
      rintro rfl
      exact Bool.eq_false_iff.mpr fun hcmd => hkept (by rw [WeldEvent.opens, hcmd]; rfl)
    exact {
      settle_le := h.settle_le
      streak_le := h.streak_le
      settling := h.settling
      blind := h.blind
      unopened := h.unopened
      edge := fun hclosed => h.edge (hopen hclosed)
      window := fun n hsome hclosed => h.window n hsome (hopen hclosed)
      counted := h.counted }

theorem open_of_flows (h : flowsOpen i p s = true) : s.mainCmd = false := by
  rw [flowsOpen, Bool.and_eq_true, Bool.and_eq_true, Bool.not_eq_true'] at h
  exact h.1.2

theorem not_flows_of_blind (h : (bl0939Poll i.freqConst p s.readings).valid = false) :
    flowsOpen i p s = false := by
  rw [flowsOpen, h, Bool.false_and, Bool.false_and]

/-- A poll without readings: the detector has never seen one with readings. -/
theorem WeldTracked.blindPoll (h : WeldTracked (weldStatics s) l)
    (hvalid : (bl0939Poll i.freqConst p s.readings).valid = false) :
    WeldTracked { weldStatics s with valid := false }
      (weldObserve (.poll i p js cpMv) s l) := by
  have hbefore : s.readings.valid = false :=
    Bool.eq_false_iff.mpr fun hyes => by rw [bl0939Poll_valid hyes] at hvalid; cases hvalid
  obtain ⟨hprev, hsettle, hstreak⟩ := h.blind hbefore
  rw [weldObserve, not_flows_of_blind hvalid]
  exact {
    settle_le := h.settle_le
    streak_le := Nat.le_of_eq hstreak
    settling := h.settling
    blind := fun _ => ⟨hprev, hsettle, hstreak⟩
    unopened := fun hnone => h.unopened (Option.map_eq_none_iff.mp hnone)
    edge := fun _ hedge => absurd (hprev.symm.trans hedge) nofun
    window := fun _ _ _ _ => .inl hsettle
    counted := fun j _ hflowing _ => Nat.le_trans hflowing (Nat.zero_le _) }

theorem WeldTracked.armed_le (h : WeldTracked (weldStatics s) l) :
    weldSettleArmed s ≤ bl0939WeldSettlePolls := by
  rw [weldSettleArmed]
  split
  · exact Nat.le_refl _
  · exact h.settle_le

/-- While polls are skipped, the window and the polls since the opening make up its length at
most. -/
theorem WeldTracked.armed_window (h : WeldTracked (weldStatics s) l) (hcmd : s.mainCmd = false)
    {n : ℕ} (hopened : l.sinceOpened = some n) :
    weldSettleArmed s = 0 ∨ weldSettleArmed s + n ≤ bl0939WeldSettlePolls := by
  by_cases hprev : s.weldPrevCommanded = some true
  · have hnow : l.sinceOpened = some 0 := h.edge hcmd hprev
    rw [hopened, Option.some.injEq] at hnow
    rw [weldSettleArmed_of_edge hprev hcmd, hnow]
    exact .inr (Nat.le_refl _)
  · rw [weldSettleArmed_of_not_edge fun _ => hprev]
    exact h.window n hopened hcmd hprev

/-- Nothing is skipped when nothing was opened. -/
theorem WeldTracked.armed_unopened (h : WeldTracked (weldStatics s) l)
    (hopened : l.sinceOpened = none) : weldSettleArmed s = 0 := by
  rw [weldSettleArmed_of_not_edge]
  · exact h.unopened hopened
  · intro hcmd hprev
    have hnow : l.sinceOpened = some 0 := h.edge hcmd hprev
    rw [hopened] at hnow
    cases hnow

/-- A poll with readings leaves the command it saw, so that no edge is pending. -/
theorem edge_seen {w : WeldStatics} {a : Option ℕ} (hprev : w.prevCommanded = some w.mainCmd) :
    w.mainCmd = false → w.prevCommanded = some true → a = some 0 := by
  intro hcmd hedge
  rw [hprev, hcmd] at hedge
  cases hedge

theorem WeldTracked.settlingPoll (h : WeldTracked (weldStatics s) l)
    (hsettle : 0 < weldSettleArmed s) :
    WeldTracked ⟨some s.mainCmd, weldSettleArmed s - 1, 0, true, s.mainCmd⟩
      (weldObserve (.poll i p js cpMv) s l) := by
  have hle := h.armed_le
  exact {
    settle_le := Nat.le_trans (Nat.sub_le _ _) hle
    streak_le := Nat.zero_le _
    settling := fun _ => rfl
    blind := fun hvalid => absurd hvalid nofun
    unopened := by
      intro hnone
      have hzero := h.armed_unopened (Option.map_eq_none_iff.mp hnone)
      exact absurd hzero (Nat.ne_of_gt hsettle)
    edge := edge_seen rfl
    window := by
      intro n' hsome hcmd _
      obtain ⟨n, hn, rfl⟩ := Option.map_eq_some_iff.mp hsome
      have hwindow := h.armed_window hcmd hn
      dsimp only
      omega
    counted := by
      -- a poll that is skipped is too close to the opening
      intro j _ hflowing hafter
      rw [weldObserve] at hflowing hafter
      split at hflowing
      · next hflows =>
        have hcmd := open_of_flows hflows
        cases hopened : l.sinceOpened with
        | none => exact absurd (h.armed_unopened hopened) (Nat.ne_of_gt hsettle)
        | some n =>
          have hwindow := h.armed_window hcmd hopened
          have hlate := hafter (n + 1) (by rw [hopened]; rfl)
          omega
      · exact hflowing }

theorem WeldTracked.countedPoll (h : WeldTracked (weldStatics s) l) :
    WeldTracked ⟨some s.mainCmd, 0, weldStreakNext i p s, true, s.mainCmd⟩
      (weldObserve (.poll i p js cpMv) s l) := by
  have hstreak_le : s.weldBlStreak ≤ l.flowing := h.streak_le
  exact {
    settle_le := Nat.zero_le _
    streak_le := by
      rw [weldObserve, weldStreakNext]
      dsimp only
      split
      · rw [bump]
        split
        · exact Nat.succ_le_succ hstreak_le
        · exact Nat.le_succ_of_le hstreak_le
      · exact Nat.le_refl 0
    settling := fun hpos => absurd hpos (Nat.lt_irrefl 0)
    blind := fun hvalid => absurd hvalid nofun
    unopened := fun _ => rfl
    edge := edge_seen rfl
    window := fun _ _ _ _ => .inl rfl
    counted := by
      intro j hj hflowing hafter
      rw [weldObserve] at hflowing hafter
      dsimp only
      rw [weldStreakNext]
      split at hflowing
      · next hflows =>
        rw [if_pos hflows]
        cases j with
        | zero => exact Nat.zero_le _
        | succ j =>
          have hprev : j ≤ s.weldBlStreak := by
            refine h.counted j (Nat.le_of_succ_le hj) (Nat.le_of_succ_le_succ hflowing) ?_
            intro n hn
            have hlate := hafter (n + 1) (by rw [hn]; rfl)
            omega
          rw [bump]
          split <;> omega
      · exact Nat.le_trans hflowing (Nat.zero_le _) }

theorem WeldTracked.step (h : WeldTracked (weldStatics s) l) (hcal : e.calibrated) :
    WeldTracked (weldStatics (e.apply s)) (weldObserve e s l) := by
  cases e with
  | command closed => exact h.command closed
  | poll i p js cpMv =>
    obtain ⟨hvalid, hstatics, -⟩ | ⟨-, hsettle, hstatics, -⟩ | ⟨-, -, hstatics, -⟩ :=
      weldPoll_cases p js cpMv s hcal
    · rw [WeldEvent.apply, hstatics]
      exact h.blindPoll hvalid
    · rw [WeldEvent.apply, hstatics]
      exact h.settlingPoll hsettle
    · rw [WeldEvent.apply, hstatics]
      exact h.countedPoll
  | beside t => exact h

theorem weldTracked_run (hfresh : WeldFresh s) {es : ℕ → WeldEvent}
    (hcal : ∀ k, (es k).calibrated) (n : ℕ) :
    WeldTracked (weldStatics (weldRun s es n)) (weldLog s es n) := by
  induction n with
  | zero => exact weldTracked_fresh hfresh
  | succ n ih => exact ih.step (hcal n)

/-! ## Openings the detector sees -/

/-- The polls since the opening, with those still to be skipped and to be counted, come to the
settle window at least. -/
def WeldSpaced (w : WeldStatics) (l : WeldLog) : Prop :=
  ∀ n, l.sinceOpened = some n → w.mainCmd = false → w.prevCommanded ≠ some true →
    bl0939WeldSettlePolls + w.streak ≤ n + w.settle + bl0939DetectorPersist

theorem WeldSpaced.command (h : WeldSpaced (weldStatics s) l)
    (htracked : WeldTracked (weldStatics s) l) {closed : Bool}
    (hseen : (WeldEvent.command closed).opens s = true → s.weldPrevCommanded = some true ∨
      bl0939WeldSettlePolls ≤ s.weldSettlePolls + bl0939DetectorPersist) :
    WeldSpaced (weldStatics (relayMainCommand closed s))
      (weldObserve (.command closed) s l) := by
  intro n hsome hcmd hprev
  have hstatics : weldStatics (relayMainCommand closed s) =
      { weldStatics s with mainCmd := closed } := by
    cases closed <;> rfl
  rw [hstatics] at hcmd hprev ⊢
  rw [weldObserve] at hsome
  split at hsome
  · next hopens =>
    cases hsome
    obtain hedge | hlong := hseen hopens
    · exact absurd hedge hprev
    · have hstreak := htracked.settling
      have hwindow : 0 < (weldStatics s).settle := by
        show 0 < s.weldSettlePolls
        rw [bl0939WeldSettlePolls, bl0939DetectorPersist] at hlong
        omega
      rw [show (weldStatics s).streak = 0 from hstreak hwindow, Nat.zero_add]
      exact hlong
  · next hkept =>
    have hopen : s.mainCmd = false := by
      rw [show closed = false from hcmd] at hkept
      exact Bool.eq_false_iff.mpr fun hclosed => hkept (by rw [WeldEvent.opens, hclosed]; rfl)
    exact h n hsome hopen hprev

/-- A poll spends one of the polls to be skipped, or counts one. -/
theorem WeldSpaced.poll (h : WeldSpaced (weldStatics s) l) (hcal : 0 < i.iaNaPerRaw) :
    WeldSpaced (weldStatics (weldPoll i p js cpMv s))
      (weldObserve (.poll i p js cpMv) s l) := by
  intro n' hsome
  obtain ⟨n, hn, rfl⟩ := Option.map_eq_some_iff.mp hsome
  obtain ⟨hvalid, hstatics, -⟩ | ⟨-, hsettle, hstatics, -⟩ | ⟨-, hsettle, hstatics, -⟩ :=
    weldPoll_cases p js cpMv s hcal
  · rw [hstatics]
    intro hcmd hprev
    have hbefore := h n hn hcmd hprev
    dsimp only at hbefore ⊢
    omega
  · rw [hstatics]
    intro hcmd _
    dsimp only at hcmd ⊢
    by_cases hprev : s.weldPrevCommanded = some true
    · rw [weldSettleArmed_of_edge hprev hcmd, bl0939WeldSettlePolls, bl0939DetectorPersist]
      omega
    · have hbefore := h n hn hcmd hprev
      rw [weldSettleArmed_of_not_edge fun _ => hprev] at hsettle ⊢
      have hsame : (weldStatics s).settle = s.weldSettlePolls := rfl
      omega
  · rw [hstatics]
    intro hcmd _
    dsimp only at hcmd ⊢
    have hprev : s.weldPrevCommanded ≠ some true := by
      intro hedge
      rw [weldSettleArmed_of_edge hedge hcmd] at hsettle
      cases hsettle
    have hbefore := h n hn hcmd hprev
    rw [weldSettleArmed_of_not_edge fun _ => hprev] at hsettle
    have hzero : (weldStatics s).settle = 0 := hsettle
    have hcount : weldStreakNext i p s ≤ (weldStatics s).streak + 1 := by
      show weldStreakNext i p s ≤ s.weldBlStreak + 1
      rw [weldStreakNext, bump]
      split
      · split <;> omega
      · exact Nat.zero_le _
    omega

theorem weldSpaced_run (hfresh : WeldFresh s) {es : ℕ → WeldEvent}
    (hcal : ∀ k, (es k).calibrated) {n : ℕ} (hseen : ∀ k < n, OpeningSeen s es k) :
    WeldSpaced (weldStatics (weldRun s es n)) (weldLog s es n) := by
  induction n with
  | zero => exact fun n hsome => absurd hsome nofun
  | succ n ih =>
    have hspaced := ih fun k hk => hseen k (Nat.lt_succ_of_lt hk)
    have htracked := weldTracked_run hfresh hcal n
    have hnow := hseen n (Nat.lt_succ_self n)
    have hcalNow := hcal n
    rw [OpeningSeen] at hnow
    show WeldSpaced (weldStatics ((es n).apply (weldRun s es n)))
      (weldObserve (es n) (weldRun s es n) (weldLog s es n))
    cases he : es n with
    | command closed =>
      rw [he] at hnow
      exact hspaced.command htracked hnow
    | poll i p js cpMv =>
      rw [he] at hcalNow
      exact hspaced.poll hcalNow
    | beside t => exact hspaced

/-! ## Alarms -/

/-- A raise comes with the whole streak behind it. -/
theorem streak_of_raise {es : ℕ → WeldEvent} (hcal : ∀ k, (es k).calibrated)
    (hraise : RaisesWeld s es n) :
    bl0939DetectorPersist ≤ (weldStatics (weldRun s es (n + 1))).streak ∧
      weldStatics (weldRun s es (n + 1)) =
        ⟨some false, 0, (weldStatics (weldRun s es (n + 1))).streak, true, false⟩ := by
  obtain ⟨hpoll, hoff, hon⟩ := hraise
  have hcalNow := hcal n
  change weldActive ((es n).apply (weldRun s es n)) = true at hon
  show bl0939DetectorPersist ≤ (weldStatics ((es n).apply (weldRun s es n))).streak ∧
    weldStatics ((es n).apply (weldRun s es n)) =
      ⟨some false, 0, (weldStatics ((es n).apply (weldRun s es n))).streak, true, false⟩
  cases he : es n with
  | command closed => rw [he] at hpoll; cases hpoll
  | beside t => rw [he] at hpoll; cases hpoll
  | poll i p js cpMv =>
    rw [he] at hcalNow hon
    rw [WeldEvent.apply] at hon ⊢
    obtain ⟨-, -, hactive⟩ | ⟨-, -, -, hactive⟩ | ⟨-, -, hstatics, hactive⟩ :=
      weldPoll_cases p js cpMv (weldRun s es n) hcalNow
    · rw [hactive, hoff] at hon
      cases hon
    · rw [hactive, hoff] at hon
      cases hon
    · rw [hactive, hoff, Bool.false_or, decide_eq_true_eq] at hon
      have hopen : (weldRun s es n).mainCmd = false := by
        rw [weldStreakNext] at hon
        split at hon
        · next hflows => exact open_of_flows hflows
        · exact absurd hon (by decide)
      rw [hstatics, hopen]
      exact ⟨hon, rfl⟩

/-- A poll that leaves a full streak leaves the fault active. -/
theorem active_of_streak (hcal : 0 < i.iaNaPerRaw)
    (hstreak : bl0939DetectorPersist ≤ (weldStatics (weldPoll i p js cpMv s)).streak)
    (hblind : s.readings.valid = false → s.weldBlStreak = 0) :
    weldActive (weldPoll i p js cpMv s) = true := by
  obtain ⟨hvalid, hstatics, -⟩ | ⟨-, -, hstatics, -⟩ | ⟨-, -, hstatics, hactive⟩ :=
    weldPoll_cases p js cpMv s hcal
  · have hbefore : s.readings.valid = false :=
      Bool.eq_false_iff.mpr fun hyes => by rw [bl0939Poll_valid hyes] at hvalid; cases hvalid
    rw [hstatics, show (weldStatics s).streak = 0 from hblind hbefore] at hstreak
    exact absurd hstreak (by decide)
  · rw [hstatics] at hstreak
    exact absurd hstreak (Nat.not_succ_le_zero 2)
  · rw [hstatics] at hstreak
    rw [hactive, decide_eq_true hstreak, Bool.or_true]

/-- A calibrated tick. -/
def weldTick : TickInput := { quietTick 12000 2000 [] with iaNaPerRaw := 400 }

/-- Every register received, 838 mA through the contactor. -/
def weldFlowPoll : Bl0939Poll := { weldTick.bl0939 with ia := ⟨true, 0x200000⟩ }

/-- The events of a list, and polls under flow from its end on. -/
def weldStream (es : List WeldEvent) (k : ℕ) : WeldEvent :=
  es.getD k (.poll weldTick weldFlowPoll .A 12000)

theorem weldStream_calibrated {es : List WeldEvent} (h : ∀ e ∈ es, e.calibrated) (k : ℕ) :
    (weldStream es k).calibrated := by
  have hflow : (WeldEvent.poll weldTick weldFlowPoll .A 12000).calibrated := by
    show (0 : ℤ) < 400
    decide
  rw [weldStream, List.getD_eq_getElem?_getD]
  cases he : es[k]? with
  | none => exact hflow
  | some e => exact h e (List.mem_of_getElem? he)

/-- The contactor closes, is seen closed by a poll, and opens. -/
def weldOpening : List WeldEvent :=
  [.command true, .poll weldTick weldFlowPoll .C 6000, .command false]

theorem weldOpening_calibrated : ∀ e ∈ weldOpening, e.calibrated := by
  intro e he
  rcases List.mem_cons.mp he with rfl | he
  · trivial
  rcases List.mem_cons.mp he with rfl | he
  · show (0 : ℤ) < 400
    decide
  · rw [List.mem_singleton.mp he]
    trivial

/-- Two polls under flow, and the contactor closed and opened again before the third: the edge is
missed and the fault raised at the first poll behind the opening. -/
def weldBlink : List WeldEvent :=
  [.poll weldTick weldFlowPoll .A 12000, .poll weldTick weldFlowPoll .A 12000, .command true,
    .command false]

end OpenEVCharger
