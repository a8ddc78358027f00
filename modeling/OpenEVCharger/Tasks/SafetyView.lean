import OpenEVCharger.Lib.Simulation
import OpenEVCharger.Tasks.Queues

/-!
# The safety task of the charger

A run of the charger is a run of the safety task for its own: the ticks are those among the
turns, and what the other turns have asked for since the last tick is posted before the first
receive. What holds in every run of the safety task holds of it in the charger.
-/

namespace OpenEVCharger

/-! ## Requests posted before a tick -/

/-- A tick before which the other tasks post `asks`. -/
def TickInput.asked (i : TickInput) (asks : List SafetyReq) : TickInput :=
  { i with posts := fun k => if k = 0 then asks else [] }

variable {i : TickInput} {asks : List SafetyReq} {fl : BuildFlags} {σ : System}

theorem receiveLoop_asked (h : ∀ k, i.posts k = []) (asks inbox : List SafetyReq) :
    receiveLoop (i.asked asks) drainMax 0 inbox =
      receiveLoop i drainMax 0 (asks.foldl postSafetyReq inbox) := by
  have hlater : ∀ j, 1 ≤ j → (i.asked asks).posts j = [] := fun j hj =>
    if_neg (Nat.ne_of_gt hj)
  have hfirst : ((i.asked asks).posts 0).foldl postSafetyReq inbox =
      asks.foldl postSafetyReq inbox := rfl
  rw [receiveLoop_quiet fun k _ => h k, drainMax, receiveLoop, hfirst]
  cases asks.foldl postSafetyReq inbox with
  | nil => rfl
  | cons r inbox =>
    dsimp only
    rw [receiveLoop_quiet hlater]
    rfl

theorem processRequest_asked (i : TickInput) (asks : List SafetyReq) (r : SafetyReq)
    (s : SafetyTask) : processRequest (i.asked asks) r s = processRequest i r s := by
  cases r <;> rfl

theorem drainInbox_asked (h : ∀ k, i.posts k = []) (asks : List SafetyReq) (σ : System) :
    drainInbox (i.asked asks) σ =
      drainInbox i { σ with inbox := asks.foldl postSafetyReq σ.inbox } := by
  rw [drainInbox, drainInbox, drainLoop_eq, drainLoop_eq]
  have hloop := receiveLoop_asked h asks σ.inbox
  have hprocess : (fun s r => processRequest (i.asked asks) r s) =
      fun s r => processRequest i r s :=
    funext fun s => funext fun r => processRequest_asked i asks r s
  show System.mk ((receiveLoop (i.asked asks) drainMax 0 σ.inbox).1.foldl _ _)
    (receiveLoop (i.asked asks) drainMax 0 σ.inbox).2 = _
  rw [hloop, hprocess]
  rfl

section Phases

-- The phases of a tick behind the drain read no requests.
variable (i : TickInput) (asks : List SafetyReq) (fl : BuildFlags) (js : J1772State) (cpMv : Int)
  (s : SafetyTask)

theorem readPilot_asked : readPilot (i.asked asks) s = readPilot i s := rfl

theorem runDetectors_asked :
    runDetectors fl (i.asked asks) js cpMv s = runDetectors fl i js cpMv s := rfl

theorem checkOverTemp_asked : checkOverTemp fl (i.asked asks) s = checkOverTemp fl i s := rfl

theorem updateEvseFromJ1772_asked :
    updateEvseFromJ1772 (i.asked asks) js s = updateEvseFromJ1772 i js s := rfl

theorem applyOutputs_asked :
    applyOutputs (i.asked asks) js cpMv s = applyOutputs i js cpMv s := rfl

theorem meteringStep_asked :
    meteringStep (i.asked asks) js cpMv s = meteringStep i js cpMv s := rfl

theorem rfidStep_asked (σ : System) : rfidStep (i.asked asks) σ = rfidStep i σ := rfl

end Phases

/-- What is posted before the first receive of a tick could have been posted before the tick. -/
theorem tick_asked (h : ∀ k, i.posts k = []) (asks : List SafetyReq) (σ : System) :
    tick fl (i.asked asks) σ =
      tick fl i { σ with inbox := asks.foldl postSafetyReq σ.inbox } := by
  have hdrain := drainInbox_asked h asks σ
  generalize ({ σ with inbox := asks.foldl postSafetyReq σ.inbox } : System) = σ' at hdrain ⊢
  have hdetectors : beforeDetectors (i.asked asks) σ = beforeDetectors i σ' := by
    rw [beforeDetectors, beforeDetectors, hdrain, readPilot_asked]
  have hthermal : beforeOverTemp fl (i.asked asks) σ = beforeOverTemp fl i σ' := by
    rw [beforeOverTemp, beforeOverTemp, hdetectors]
    exact runDetectors_asked ..
  have hupdate : afterUpdate fl (i.asked asks) σ = afterUpdate fl i σ' := by
    rw [afterUpdate, afterUpdate, beforeUpdate, beforeUpdate, hthermal, checkOverTemp_asked]
    exact updateEvseFromJ1772_asked ..
  have hbefore : beforeRfid fl (i.asked asks) σ = beforeRfid fl i σ' := by
    rw [beforeRfid, beforeRfid, hupdate, hdrain, h drainMax, applyOutputs_asked,
      meteringStep_asked]
    rfl
  rw [tick, tick, hbefore]
  exact rfidStep_asked ..

/-! ## The safety task in a step -/

namespace Charger

variable {B : ChargerBuild} {i : ChargerInput} {σ : Charger}

/-- A tick is a turn of the safety task in a core that is up. -/
theorem ticks_eq_true : σ.ticks i = true ↔ ∃ r, i = .safety r ∧ σ.restarting = false := by
  unfold ticks
  cases i with
  | safety r =>
    rw [Bool.and_true, Bool.not_eq_true']
    exact ⟨fun h => ⟨r, rfl, h⟩, fun ⟨_, _, h⟩ => h⟩
  | _ =>
    rw [Bool.and_false]
    refine ⟨fun h => absurd h Bool.false_ne_true, ?_⟩
    rintro ⟨r, hr, -⟩
    cases hr

theorem step_of_tick {r : TickReading} (hup : σ.restarting = false) :
    (σ.step B (.safety r)).safety = tick B.flags (r.input σ.persist.store) σ.safety := by
  rw [step, if_neg (Bool.eq_false_iff.mp hup)]
  rfl

/-- Only a tick touches what the safety task keeps besides its inbox. -/
theorem task_of_not_tick (h : σ.ticks i = false) : (σ.step B i).safety.task = σ.safety.task := by
  cases hr : σ.restarting with
  | true => rw [step_restarting hr]
  | false =>
  unfold step
  rw [if_neg (Bool.eq_false_iff.mp hr)]
  cases i with
  | arrive bytes => rfl
  | comms r =>
    dsimp only
    rw [commsTurn]
    cases σ.pending with
    | none => rfl
    | some x => rfl
  | safety r => exact absurd (ticks_eq_true.mpr ⟨r, rfl, hr⟩) (Bool.eq_false_iff.mp h)
  | io r =>
    dsimp only
    rw [ioTurn]
    cases σ.ioStarted with
    | true => rfl
    | false => rfl
  | persist outcomes txFree =>
    dsimp only
    rw [persistTurn]
    cases σ.queue with
    | nil => rfl
    | cons r rest => rfl

/-! ## The simulation -/

/-- What has been asked for since the last tick; what the swipe of a tick asks for is part of
the tick. -/
def logAsks (B : ChargerBuild) (i : ChargerInput) (σ : Charger) (asked : List SafetyReq) :
    List SafetyReq :=
  if σ.ticks i then [] else asked ++ σ.asks B i

/-- What a tick is for the safety task by itself. -/
def tickLabel (i : ChargerInput) (σ : Charger) (asked : List SafetyReq) : Option TickInput :=
  match i with
  | .safety r => if σ.ticks i then some ((r.input σ.persist.store).asked asked) else none
  | _ => none

/-- The task is the one that has taken the ticks, and its inbox is theirs with what has been
asked for since. -/
structure RunsAs (σ : Charger) (asked : List SafetyReq) (τ : System) : Prop where
  task : σ.safety.task = τ.task
  inbox : σ.safety.inbox = asked.foldl postSafetyReq τ.inbox

theorem RunsAs.safety {asked : List SafetyReq} {τ : System} (h : RunsAs σ asked τ) :
    σ.safety = { τ with inbox := asked.foldl postSafetyReq τ.inbox } := by
  rw [← h.task, ← h.inbox]

theorem tickLabel_of_not_tick {asked : List SafetyReq} (h : σ.ticks i = false) :
    tickLabel i σ asked = none := by
  unfold tickLabel
  cases i with
  | safety r => exact if_neg (Bool.eq_false_iff.mp h)
  | _ => rfl

theorem RunsAs.step {asked : List SafetyReq} {τ : System} (h : RunsAs σ asked τ)
    (i : ChargerInput) :
    RunsAs (σ.step B i) (logAsks B i σ asked)
      ((tickLabel i σ asked).elim τ fun j => tick B.flags j τ) := by
  cases htick : σ.ticks i with
  | false =>
    rw [tickLabel_of_not_tick htick, logAsks, htick]
    refine ⟨(task_of_not_tick htick).trans h.task, ?_⟩
    rw [step_inbox, htick, h.inbox]
    exact List.foldl_append.symm
  | true =>
    obtain ⟨r, rfl, hup⟩ := ticks_eq_true.mp htick
    have hlabel : tickLabel (.safety r) σ asked =
        some ((r.input σ.persist.store).asked asked) := if_pos htick
    have hsafety : (σ.step B (.safety r)).safety =
        tick B.flags ((r.input σ.persist.store).asked asked) τ := by
      rw [step_of_tick hup, h.safety, tick_asked fun _ => rfl]
    rw [hlabel, logAsks, htick]
    exact ⟨congrArg System.task hsafety, congrArg System.inbox hsafety⟩

end Charger

/-- The safety task within the charger. -/
def safetySimulation (B : ChargerBuild) :
    Machine.Simulation (chargerMachine B) (safetyMachine B.flags) (List SafetyReq) where
  bootOf b := b.reading.input b.stores
  init := []
  next := Charger.logAsks B
  label := Charger.tickLabel
  rel := Charger.RunsAs
  rel_boot _ := ⟨rfl, rfl⟩
  rel_step i _ _ _ h := h.step i

instance : Inhabited TickInput := ⟨quietTick 0 0 []⟩

section Runs

variable (B : ChargerBuild) (b : ChargerBoot) (ins : ℕ → ChargerInput)

/-- The ticks in the first `n` steps. -/
def tickCount (n : ℕ) : ℕ := (safetySimulation B).count b ins n

/-- What has been asked of the safety task since the last tick. -/
def askedSince (n : ℕ) : List SafetyReq := (safetySimulation B).log b ins n

/-- In every run of the charger, whatever the other tasks do between the ticks, the safety task
is where its own loop gets over the ticks alone: the inputs of that run are what the ticks read,
with the requests made since the tick before posted ahead of the first receive. -/
theorem safety_task_runs : ∃ js : ℕ → TickInput,
    (∀ n, (chargerRun B b ins n).safety =
      { safetyRun B.flags (b.reading.input b.stores) js (tickCount B b ins n) with
        inbox := (askedSince B b ins n).foldl postSafetyReq
          (safetyRun B.flags (b.reading.input b.stores) js (tickCount B b ins n)).inbox }) ∧
    ∀ n r, ins n = .safety r → (chargerRun B b ins n).restarting = false →
      js (tickCount B b ins n) =
          (r.input (chargerRun B b ins n).persist.store).asked (askedSince B b ins n) ∧
        tickCount B b ins (n + 1) = tickCount B b ins n + 1 := by
  refine ⟨(safetySimulation B).inputs b ins, fun n => ?_, fun n r hr hup => ?_⟩
  · exact Charger.RunsAs.safety ((safetySimulation B).related_run b ins n)
  · have hlabel : (safetySimulation B).label (ins n) ((chargerMachine B).run b ins n)
        ((safetySimulation B).log b ins n) =
          some ((r.input (chargerRun B b ins n).persist.store).asked (askedSince B b ins n)) := by
      have htick : (chargerRun B b ins n).ticks (.safety r) = true := by
        rw [Charger.ticks, hup]
        rfl
      rw [hr]
      exact if_pos htick
    refine ⟨(safetySimulation B).inputs_of_label b ins hlabel, ?_⟩
    have hcount := (safetySimulation B).count_succ b ins n
    rw [hlabel] at hcount
    exact hcount

end Runs

end OpenEVCharger
