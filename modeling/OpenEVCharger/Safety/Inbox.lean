import OpenEVCharger.Safety.Detectors
import OpenEVCharger.Lib.Machine

/-!
# Control inbox

`process_request`, which applies one inbox entry, and `drain_inbox`, which takes
up to four entries a tick from the bounded queue other tasks post to.
-/

namespace OpenEVCharger

abbrev safetyReplugWindowTicks : Nat := 150
def rfidLearnTicks : Nat := 1500
def safetyInboxDepth : Nat := 4

/-- The safety task together with its inbox, oldest entry first. -/
structure System where
  task : SafetyTask
  inbox : List SafetyReq
  deriving DecidableEq, Repr

/-- The tick count is sampled once, at the start of a tick. -/
def System.atTick (i : TickInput) (σ : System) : System :=
  { σ with task := { σ.task with tickCount := i.tickCount } }

/-! ## One request -/

/-- The pilot classifier and its no-pilot streak start afresh. -/
def resetPilot (s : SafetyTask) : SafetyTask := { s with cpEStreak := 0, cp := j1772Init }

def resetFirstRaised (s : SafetyTask) : SafetyTask :=
  { s with faults := { s.faults with firstRaised := FaultId.none.code } }

/-- The end of `CLEAR_FAULT`: EVSE_FAULT is left once nothing latched remains,
with the pilot classifier started afresh. -/
def leaveFaultIfClear (s : SafetyTask) : SafetyTask :=
  if s.evse = .fault ∧ faultAnyLatchedActive s.faults = false then
    resetPilot (resetFirstRaised (evseTransition .ready s))
  else s

/-- What `CLEAR_FAULT` does when some bit was cleared. -/
def publishCleared (fid : Nat) (s : SafetyTask) : SafetyTask :=
  let s := commsPublishEvent (.faultCleared fid) s
  if fid = 0 ∨ fid = FaultId.cpNoPilot.code then { s with cpEStreak := 0 } else s

/-- `CLEAR_FAULT`: id 0 clears every clearable latched fault, a valid id clears
that fault; GFCI and ids out of range are refused without any effect. -/
def processClearFault (fid : Nat) (s : SafetyTask) : SafetyTask :=
  if fid = 0 then
    let r := faultClearAllClearable s.faults
    let s := { s with faults := r.2 }
    leaveFaultIfClear (if r.1 ≠ 0 then publishCleared fid s else s)
  else if fid < faultCount then
    let r := faultClear s.faults fid
    if r.1 < 0 then s
    else
      let s := { s with faults := r.2 }
      leaveFaultIfClear (if r.1 = 1 then publishCleared fid s else s)
  else s

def processUserPause (s : SafetyTask) : SafetyTask :=
  if s.evse = .ready ∨ s.evse = .charging then evseTransition .userPaused s else s

def processUserResume (s : SafetyTask) : SafetyTask :=
  if s.evse = .userPaused then evseTransition .ready s else s

/-- A plug is in: the committed J1772 state is one with a vehicle connected. -/
def plugPresent (cp : J1772Ctx) : Bool :=
  decide (cp.committed = .B) || decide (cp.committed = .C) || decide (cp.committed = .D)

/-- The EVSE states `SIMULATE_REPLUG` is accepted in. -/
def replugAllowed (es : EvseState) : Bool :=
  decide (es = .ready) || decide (es = .charging) || decide (es = .userPaused)
    || decide (es = .coolingDown)

def armReplugWindow (s : SafetyTask) : SafetyTask :=
  { s with replugWindowTicks := safetyReplugWindowTicks }

def processSimulateReplug (s : SafetyTask) : SafetyTask :=
  if plugPresent s.cp && replugAllowed s.evse then
    cpPwmSetStateF (armReplugWindow (evseTransition .userPaused s))
  else s

def processRequest (i : TickInput) (r : SafetyReq) (s : SafetyTask) : SafetyTask :=
  match r with
  | .clearFault fid => processClearFault fid s
  | .userPause _ => processUserPause s
  | .userResume => processUserResume s
  | .rfidLearnArm => { s with rfidLearnTicks := rfidLearnTicks }
  | .publishRfidConfig => publishRfidConfig i s
  | .publishGfciPolicy => publishGfciPolicy i s
  | .simulateReplug => processSimulateReplug s
  | .runGfciCalTest => if s.evse ≠ .ready then s else emit .gfciSelfTest s

/-! ## The queue -/

/-- `xQueueSend` with no wait: a full queue drops the entry. -/
def postSafetyReq (inbox : List SafetyReq) (r : SafetyReq) : List SafetyReq :=
  if inbox.length < safetyInboxDepth then inbox ++ [r] else inbox

/-- The loop of `drain_inbox`: `left` receives to go, `k` of them done. The other
tasks may post before every receive. -/
def drainLoop (i : TickInput) : Nat → Nat → System → System
  | 0, _, σ => σ
  | left + 1, k, σ =>
    match (i.posts k).foldl postSafetyReq σ.inbox with
    | [] => { σ with inbox := [] }
    | r :: inbox => drainLoop i left (k + 1) ⟨processRequest i r σ.task, inbox⟩

def drainMax : Nat := 4

def drainInbox (i : TickInput) (σ : System) : System := drainLoop i drainMax 0 (σ.atTick i)

/-- The entries the drain loop receives, in order, and the inbox it leaves. -/
def receiveLoop (i : TickInput) : Nat → Nat → List SafetyReq → List SafetyReq × List SafetyReq
  | 0, _, inbox => ([], inbox)
  | left + 1, k, inbox =>
    match (i.posts k).foldl postSafetyReq inbox with
    | [] => ([], [])
    | r :: inbox =>
      let rest := receiveLoop i left (k + 1) inbox
      (r :: rest.1, rest.2)

/-- The requests processed in the tick, in order. -/
def received (i : TickInput) (σ : System) : List SafetyReq :=
  (receiveLoop i drainMax 0 σ.inbox).1

/-- The requests processed in the tick, each with the task state it is processed
in. -/
def requestTrace (i : TickInput) (σ : System) : List (SafetyTask × SafetyReq) :=
  foldTrace (processRequest i) (σ.atTick i).task (received i σ)

theorem drainLoop_eq (i : TickInput) (left k : Nat) (σ : System) :
    drainLoop i left k σ =
      ⟨(receiveLoop i left k σ.inbox).1.foldl (fun s r => processRequest i r s) σ.task,
        (receiveLoop i left k σ.inbox).2⟩ := by
  induction left generalizing k σ with
  | zero => simp [drainLoop, receiveLoop]
  | succ left ih =>
    simp only [drainLoop, receiveLoop]
    cases hq : (i.posts k).foldl postSafetyReq σ.inbox with
    | nil => simp
    | cons r inbox => simp [ih]

/-- Receiving does not depend on processing, so a drain is a fold of
`process_request` over the entries received. -/
theorem drainInbox_task (i : TickInput) (σ : System) :
    (drainInbox i σ).task =
      (received i σ).foldl (fun s r => processRequest i r s) (σ.atTick i).task := by
  rw [drainInbox, drainLoop_eq]
  rfl

/-- What every request processed in the tick keeps, the drain keeps. -/
theorem drainInbox_kept {P : SafetyTask → Prop} {i : TickInput} {σ : System}
    (hstep : ∀ p ∈ requestTrace i σ, P p.1 → P (processRequest i p.2 p.1))
    (hP : P (σ.atTick i).task) : P (drainInbox i σ).task := by
  rw [drainInbox_task]
  exact foldTrace_kept (received i σ) (σ.atTick i).task hstep hP

end OpenEVCharger
