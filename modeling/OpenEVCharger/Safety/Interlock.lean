import OpenEVCharger.Safety.State

/-!
# The charge interlock

What the safety task is for, without its counters, logs and drivers: a contactor
that may be closed only in CHARGING, a pilot classifier, one bit for "some
latched fault is active", and the over-temperature hold. Detectors are not
modelled; a detector may trip or not at any time. The tick is a sequence of
operations on this state, and `Safe` is what each of them keeps.
-/

namespace OpenEVCharger

structure Interlock where
  evse : EvseState
  cp : J1772Ctx
  /-- Ticks the pilot has been in state C, up to the dwell. -/
  dwell : Nat
  /-- Ticks left of the replug window. -/
  window : Nat
  authorized : Bool
  /-- Some latched fault is active. -/
  latched : Bool
  gfci : Bool
  overTemp : Bool
  /-- The over-temperature detector remembers a trip. -/
  tripped : Bool
  closed : Bool
  forceOpen : Bool
  /-- The pilot output is held at state F. -/
  pilotF : Bool
  deriving DecidableEq, Repr

namespace Interlock

/-! ## Operations -/

/-- A change of the EVSE state; only FAULT touches the contactor. -/
def move (next : EvseState) (c : Interlock) : Interlock :=
  if c.evse = next then c
  else if next = .fault then
    { c with evse := .fault, closed := false, forceOpen := true, pilotF := true }
  else { c with evse := next, forceOpen := false }

/-- A detector raises a fault, which may be a latched one, and enters FAULT. -/
def trip (latched gfci : Bool) (c : Interlock) : Interlock :=
  move .fault { c with latched := c.latched || latched, gfci := c.gfci || gfci }

/-- One or more detectors ran. -/
inductive Detected (c : Interlock) : Interlock → Prop
  | quiet : Detected c c
  | trip (latched gfci : Bool) (hgfci : gfci = true → latched = true) :
      Detected c (c.trip latched gfci)

/-- A fault clear that was not refused, and leaves `latched`. -/
def clear (fid : Nat) (latched : Bool) (c : Interlock) : Interlock :=
  let c := { c with
    latched := latched
    overTemp := c.overTemp && decide (fid ≠ FaultId.overTemp.code) }
  if c.evse = .fault ∧ latched = false then { c.move .ready with cp := j1772Init } else c

def pause (c : Interlock) : Interlock :=
  if c.evse = .ready ∨ c.evse = .charging then c.move .userPaused else c

def resume (c : Interlock) : Interlock :=
  if c.evse = .userPaused then c.move .ready else c

/-- The states a replug is accepted in: a plug is in and the EVSE is up. -/
def ReplugReady (c : Interlock) : Prop :=
  (c.cp.committed = .B ∨ c.cp.committed = .C ∨ c.cp.committed = .D) ∧
    (c.evse = .ready ∨ c.evse = .charging ∨ c.evse = .userPaused ∨ c.evse = .coolingDown)

instance (c : Interlock) : Decidable c.ReplugReady := by unfold ReplugReady; infer_instance

def replug (ticks : Nat) (c : Interlock) : Interlock :=
  if c.ReplugReady then { c.move .userPaused with window := ticks, pilotF := true } else c

/-- The effect of one request; `ticks` is the length of a replug window. -/
inductive Request (ticks : Nat) (c : Interlock) : SafetyReq → Interlock → Prop
  | clearRefused (fid : Nat) : Request ticks c (.clearFault fid) c
  | clear (fid : Nat) (latched : Bool) (hle : latched = true → c.latched = true)
      (hgfci : c.gfci = true → latched = true) :
      Request ticks c (.clearFault fid) (c.clear fid latched)
  | userPause (reason : Nat) : Request ticks c (.userPause reason) c.pause
  | userResume : Request ticks c .userResume c.resume
  | simulateReplug : Request ticks c .simulateReplug (c.replug ticks)
  | rfidLearnArm : Request ticks c .rfidLearnArm c
  | publishRfidConfig : Request ticks c .publishRfidConfig c
  | runGfciCalTest : Request ticks c .runGfciCalTest c
  | publishGfciPolicy : Request ticks c .publishGfciPolicy c

/-- The replug window counts down; at its end the pilot classifier restarts. -/
def serviceWindow (c : Interlock) : Interlock :=
  if c.window = 0 then c
  else if c.window = 1 then { c.resume with window := 0, cp := j1772Init }
  else { c with window := c.window - 1 }

/-- One reading of the pilot. -/
def samplePilot (cpMv : Int) (debounceN : Nat) (c : Interlock) : Interlock :=
  { c with cp := j1772Step c.cp cpMv debounceN }

/-- The over-temperature detector: no edge, a trip, or a clear. -/
inductive OverTemp (c : Interlock) : Interlock → Prop
  | hold : OverTemp c { c with tripped := c.overTemp }
  | trip (h : c.overTemp = false) :
      OverTemp c (if c.evse = .fault then { c with overTemp := true, tripped := true }
        else move .coolingDown { c with overTemp := true, tripped := true })
  | clear (h : c.overTemp = true) :
      OverTemp c (if c.evse = .coolingDown then
          move .ready { c with overTemp := false, tripped := false }
        else { c with overTemp := false, tripped := false })

def countDwell (dwellTicks : Nat) (c : Interlock) : Interlock :=
  { c with dwell := if c.cp.committed = .C then bump dwellTicks c.dwell else 0 }

/-- Charging may start without a card when `gateOpen`. -/
def mayCharge (dwellTicks : Nat) (gateOpen : Bool) (c : Interlock) : Bool :=
  decide (c.evse = .ready) && decide (dwellTicks ≤ c.dwell) && (gateOpen || c.authorized)

/-- READY to CHARGING, and back as soon as the pilot leaves state C. -/
def charge (dwellTicks : Nat) (gateOpen : Bool) (c : Interlock) : Interlock :=
  if c.mayCharge dwellTicks gateOpen then c.move .charging
  else if c.evse = .charging ∧ c.cp.committed ≠ .C then c.move .ready
  else c

/-- An unplugged car loses its authorisation. -/
def dropAuth (c : Interlock) : Interlock :=
  { c with authorized := c.authorized && decide (c.cp.committed ≠ J1772State.A) }

/-- The EVSE update. FAULT and COOLING_DOWN are left alone, and so is the
authorisation while in them. -/
def update (dwellTicks : Nat) (gateOpen : Bool) (c : Interlock) : Interlock :=
  if c.evse = .fault ∨ c.evse = .boot ∨ c.evse = .selfTest ∨ c.evse = .coolingDown then
    { c with dwell := 0 }
  else if c.evse = .userPaused then
    if c.cp.committed = .A then move .ready { c.dropAuth with dwell := 0 }
    else { c.dropAuth with dwell := 0 }
  else (c.dropAuth.countDwell dwellTicks).charge dwellTicks gateOpen

/-- The contactor and pilot outputs of the tick. -/
def outputs (c : Interlock) : Interlock :=
  { c with
    closed := decide (c.evse = .charging) && decide (c.cp.committed = .C) && !c.latched
    pilotF := decide (0 < c.window) || decide (c.evse = .fault) }

/-- The RFID block, which may grant the session. -/
def authorize (granted : Bool) (c : Interlock) : Interlock :=
  { c with authorized := c.authorized || granted }

/-! ## Safety -/

/-- A latched fault means FAULT, FAULT means the force-open latch is armed, and
FAULT keeps the contactor open. -/
structure Safe (c : Interlock) : Prop where
  fault_of_latched : c.latched = true → c.evse = .fault
  forceOpen_iff : c.forceOpen = true ↔ c.evse = .fault
  open_of_fault : c.evse = .fault → c.closed = false
  latched_of_gfci : c.gfci = true → c.latched = true

variable {c c' : Interlock}

theorem mayCharge_iff {dwellTicks : Nat} {gateOpen : Bool} :
    c.mayCharge dwellTicks gateOpen = true ↔
      c.evse = .ready ∧ dwellTicks ≤ c.dwell ∧ (gateOpen || c.authorized) = true := by
  simp [mayCharge, and_assoc]

@[simp] theorem move_evse (next : EvseState) : (c.move next).evse = next := by
  unfold move
  split
  · assumption
  · split <;> simp_all

@[simp] theorem trip_evse (l g : Bool) : (c.trip l g).evse = .fault := by simp [trip]

/-- Outside FAULT a change of state leaves everything but the state alone. -/
theorem Safe.move_eq (h : c.Safe) (hf : c.evse ≠ .fault) {next : EvseState}
    (hn : next ≠ .fault) : c.move next = { c with evse := next } := by
  have hfo : c.forceOpen = false :=
    Bool.eq_false_iff.mpr fun ht => hf (h.forceOpen_iff.mp ht)
  obtain ⟨evse, cp, dwell, window, authorized, latched, gfci, overTemp, tripped, closed,
    forceOpen, pilotF⟩ := c
  simp only at hfo
  unfold move
  by_cases he : evse = next <;> simp [he, hn, hfo]

theorem Safe.set_evse (h : c.Safe) (hf : c.evse ≠ .fault) {next : EvseState}
    (hn : next ≠ .fault) :
    Safe { c with evse := next } where
  fault_of_latched := fun hl => absurd (h.fault_of_latched hl) hf
  forceOpen_iff := by simpa [hn, hf] using h.forceOpen_iff
  open_of_fault := fun he => absurd he hn
  latched_of_gfci := h.latched_of_gfci

theorem Safe.move (h : c.Safe) (hf : c.evse ≠ .fault) {next : EvseState}
    (hn : next ≠ .fault) : (c.move next).Safe := by
  rw [h.move_eq hf hn]
  exact h.set_evse hf hn

theorem Safe.trip (h : c.Safe) {l g : Bool} (hg : g = true → l = true) : (c.trip l g).Safe := by
  have hgl : (c.gfci || g) = true → (c.latched || l) = true := by
    rw [Bool.or_eq_true, Bool.or_eq_true]
    exact Or.imp h.latched_of_gfci hg
  by_cases he : c.evse = .fault
  · exact
      { fault_of_latched := by simp [Interlock.trip, Interlock.move, he]
        forceOpen_iff := by simpa [Interlock.trip, Interlock.move, he] using h.forceOpen_iff
        open_of_fault := by simpa [Interlock.trip, Interlock.move, he] using h.open_of_fault he
        latched_of_gfci := by simpa [Interlock.trip, Interlock.move, he] using hgl }
  · exact
      { fault_of_latched := by simp [Interlock.trip, Interlock.move, he]
        forceOpen_iff := by simp [Interlock.trip, Interlock.move, he]
        open_of_fault := by simp [Interlock.trip, Interlock.move, he]
        latched_of_gfci := by simpa [Interlock.trip, Interlock.move, he] using hgl }

theorem Safe.detected (h : c.Safe) (hd : Detected c c') : c'.Safe := by
  cases hd with
  | quiet => exact h
  | trip l g hg => exact h.trip hg

theorem trip_trip (l g l' g' : Bool) : (c.trip l g).trip l' g' = c.trip (l || l') (g || g') := by
  by_cases he : c.evse = .fault <;> simp [trip, Interlock.move, he, Bool.or_assoc]

theorem Detected.trans {c''} (h : Detected c c') (h' : Detected c' c'') : Detected c c'' := by
  cases h with
  | quiet => exact h'
  | trip l g hg =>
    cases h' with
    | quiet => exact .trip l g hg
    | trip l' g' hg' =>
      rw [trip_trip]
      refine .trip _ _ fun hgg => ?_
      rw [Bool.or_eq_true] at hgg ⊢
      exact hgg.imp hg hg'

theorem Safe.clear (h : c.Safe) (fid : Nat) {latched : Bool}
    (hle : latched = true → c.latched = true) (hgfci : c.gfci = true → latched = true) :
    (c.clear fid latched).Safe := by
  by_cases hc : c.evse = .fault ∧ latched = false
  · have hg : c.gfci = false :=
      Bool.eq_false_iff.mpr fun ht => by simpa [hc.2] using hgfci ht
    exact
      { fault_of_latched := by simp [Interlock.clear, Interlock.move, hc]
        forceOpen_iff := by simp [Interlock.clear, Interlock.move, hc]
        open_of_fault := by simp [Interlock.clear, Interlock.move, hc]
        latched_of_gfci := by simp [Interlock.clear, Interlock.move, hc, hg] }
  · have hl : latched = true → c.evse = .fault := fun ht => h.fault_of_latched (hle ht)
    exact
      { fault_of_latched := by simpa [Interlock.clear, hc] using hl
        forceOpen_iff := by simpa [Interlock.clear, hc] using h.forceOpen_iff
        open_of_fault := by simpa [Interlock.clear, hc] using h.open_of_fault
        latched_of_gfci := by simpa [Interlock.clear, hc] using hgfci }

theorem Safe.pause (h : c.Safe) : c.pause.Safe := by
  unfold Interlock.pause
  split
  · next he =>
    refine h.move (fun hf => ?_) (by decide)
    rw [hf] at he
    simp at he
  · exact h

theorem Safe.resume (h : c.Safe) : c.resume.Safe := by
  unfold Interlock.resume
  split
  · next he => exact h.move (by simp [he]) (by decide)
  · exact h

theorem Safe.replug (h : c.Safe) (ticks : Nat) : (c.replug ticks).Safe := by
  unfold Interlock.replug
  split
  · next hr =>
    have hf : c.evse ≠ .fault := by
      intro he
      simp [ReplugReady, he] at hr
    have hm : (c.move .userPaused).Safe := h.move hf (by decide)
    exact ⟨hm.fault_of_latched, hm.forceOpen_iff, hm.open_of_fault, hm.latched_of_gfci⟩
  · exact h

theorem Safe.request {ticks : Nat} {r : SafetyReq} (h : c.Safe) (hr : Request ticks c r c') :
    c'.Safe := by
  cases hr with
  | clear fid latched hle hgfci => exact h.clear fid hle hgfci
  | userPause _ => exact h.pause
  | userResume => exact h.resume
  | simulateReplug => exact h.replug ticks
  | _ => exact h

theorem Safe.serviceWindow (h : c.Safe) : c.serviceWindow.Safe := by
  unfold Interlock.serviceWindow
  split
  · exact h
  · split
    · have hr := h.resume
      exact ⟨hr.fault_of_latched, hr.forceOpen_iff, hr.open_of_fault, hr.latched_of_gfci⟩
    · exact ⟨h.fault_of_latched, h.forceOpen_iff, h.open_of_fault, h.latched_of_gfci⟩

/-- The fields `Safe` looks at. -/
theorem Safe.congr (h : c.Safe) (he : c'.evse = c.evse) (hl : c'.latched = c.latched)
    (hg : c'.gfci = c.gfci) (hf : c'.forceOpen = c.forceOpen) (hc : c'.closed = c.closed) :
    c'.Safe := by
  constructor
  · rw [he, hl]; exact h.fault_of_latched
  · rw [he, hf]; exact h.forceOpen_iff
  · rw [he, hc]; exact h.open_of_fault
  · rw [hg, hl]; exact h.latched_of_gfci

theorem Safe.overTemp (h : c.Safe) (ho : OverTemp c c') : c'.Safe := by
  cases ho with
  | hold => exact h.congr rfl rfl rfl rfl rfl
  | trip _ =>
    have hs : Safe { c with overTemp := true, tripped := true } := h.congr rfl rfl rfl rfl rfl
    split
    · exact hs
    · next hf => exact hs.move hf (by decide)
  | clear _ =>
    have hs : Safe { c with overTemp := false, tripped := false } := h.congr rfl rfl rfl rfl rfl
    split
    · next he => exact hs.move (by simp [he]) (by decide)
    · exact hs

theorem Safe.charge (h : c.Safe) (dwellTicks : Nat) (gateOpen : Bool) :
    (c.charge dwellTicks gateOpen).Safe := by
  unfold Interlock.charge
  split
  · next hc =>
    exact h.move (by simp [(mayCharge_iff.mp hc).1]) (by decide)
  · split
    · next hc => exact h.move (by simp [hc.1]) (by decide)
    · exact h

theorem Safe.update (h : c.Safe) (dwellTicks : Nat) (gateOpen : Bool) :
    (c.update dwellTicks gateOpen).Safe := by
  unfold Interlock.update
  split
  · exact h.congr rfl rfl rfl rfl rfl
  · split
    · next hp =>
      have hs : Safe { c.dropAuth with dwell := 0 } := h.congr rfl rfl rfl rfl rfl
      split
      · exact hs.move (by simp [dropAuth, hp]) (by decide)
      · exact hs
    · have hs : (c.dropAuth.countDwell dwellTicks).Safe := h.congr rfl rfl rfl rfl rfl
      exact hs.charge dwellTicks gateOpen

/-- After the outputs of a tick the contactor is closed exactly in CHARGING. -/
structure Settled (c : Interlock) : Prop extends Safe c where
  closed_iff : c.closed = true ↔ c.evse = .charging
  stateC : c.evse = .charging → c.cp.committed = .C

theorem Safe.outputs (h : c.Safe) (hC : c.evse = .charging → c.cp.committed = .C) :
    c.outputs.Settled where
  fault_of_latched := h.fault_of_latched
  forceOpen_iff := h.forceOpen_iff
  open_of_fault := by
    intro he
    have hf : c.evse = .fault := he
    simp [Interlock.outputs, hf]
  latched_of_gfci := h.latched_of_gfci
  closed_iff := by
    simp only [Interlock.outputs, Bool.and_eq_true, decide_eq_true_eq, Bool.not_eq_true']
    constructor
    · exact fun hcl => hcl.1.1
    · intro he
      refine ⟨⟨he, hC he⟩, Bool.eq_false_iff.mpr fun ht => ?_⟩
      simp [h.fault_of_latched ht] at he
  stateC := hC

/-- After the update CHARGING means state C. -/
theorem update_charging_stateC {dwellTicks : Nat} (hd : 0 < dwellTicks) {gateOpen : Bool}
    (he : (c.update dwellTicks gateOpen).evse = .charging) :
    (c.update dwellTicks gateOpen).cp.committed = .C := by
  unfold Interlock.update Interlock.charge Interlock.move at *
  simp only [mayCharge, countDwell, dropAuth] at *
  grind

/-- The update starts charging from READY in state C, when the dwell is full and
the session may start. -/
theorem update_starts {dwellTicks : Nat} (hd : 0 < dwellTicks) {gateOpen : Bool}
    (hbefore : c.evse ≠ .charging) (hafter : (c.update dwellTicks gateOpen).evse = .charging) :
    c.evse = .ready ∧ c.cp.committed = .C ∧ dwellTicks ≤ bump dwellTicks c.dwell ∧
      (gateOpen || c.authorized) = true := by
  unfold update charge move at hafter
  simp only [mayCharge, countDwell, dropAuth] at hafter
  grind

theorem overTemp_of_fault (ho : OverTemp c c') (h : c.evse = .fault) : c'.evse = .fault := by
  cases ho <;> simp [h]

theorem Settled.trip (h : c.Settled) {l g : Bool} (hg : g = true → l = true) :
    (c.trip l g).Settled where
  toSafe := h.toSafe.trip hg
  closed_iff := by
    have ho : (c.trip l g).closed = false := (h.toSafe.trip hg).open_of_fault (trip_evse l g)
    simp [ho]
  stateC := by simp

theorem Settled.authorize (h : c.Settled) (granted : Bool) : (c.authorize granted).Settled where
  toSafe := h.toSafe.congr rfl rfl rfl rfl rfl
  closed_iff := h.closed_iff
  stateC := h.stateC

theorem Settled.detected (h : c.Settled) (hd : Detected c c') : c'.Settled := by
  cases hd with
  | quiet => exact h
  | trip l g hg => exact h.trip hg

/-! ## What an operation leaves alone -/

@[simp] theorem move_latched (next : EvseState) : (c.move next).latched = c.latched := by
  unfold move
  repeat' split
  all_goals rfl

@[simp] theorem move_gfci (next : EvseState) : (c.move next).gfci = c.gfci := by
  unfold move
  repeat' split
  all_goals rfl

@[simp] theorem move_overTemp (next : EvseState) : (c.move next).overTemp = c.overTemp := by
  unfold move
  repeat' split
  all_goals rfl

@[simp] theorem move_tripped (next : EvseState) : (c.move next).tripped = c.tripped := by
  unfold move
  repeat' split
  all_goals rfl

@[simp] theorem move_window (next : EvseState) : (c.move next).window = c.window := by
  unfold move
  repeat' split
  all_goals rfl

@[simp] theorem move_dwell (next : EvseState) : (c.move next).dwell = c.dwell := by
  unfold move
  repeat' split
  all_goals rfl

@[simp] theorem move_authorized (next : EvseState) :
    (c.move next).authorized = c.authorized := by
  unfold move
  repeat' split
  all_goals rfl

@[simp] theorem move_cp (next : EvseState) : (c.move next).cp = c.cp := by
  unfold move
  repeat' split
  all_goals rfl

theorem move_closed {next : EvseState} (hn : next ≠ .fault) :
    (c.move next).closed = c.closed := by
  unfold move
  repeat' split
  all_goals rfl

@[simp] theorem samplePilot_evse (mv : Int) (n : Nat) : (c.samplePilot mv n).evse = c.evse := rfl

@[simp] theorem samplePilot_dwell (mv : Int) (n : Nat) :
    (c.samplePilot mv n).dwell = c.dwell := rfl

@[simp] theorem samplePilot_authorized (mv : Int) (n : Nat) :
    (c.samplePilot mv n).authorized = c.authorized := rfl

@[simp] theorem samplePilot_overTemp (mv : Int) (n : Nat) :
    (c.samplePilot mv n).overTemp = c.overTemp := rfl

@[simp] theorem samplePilot_closed (mv : Int) (n : Nat) :
    (c.samplePilot mv n).closed = c.closed := rfl

@[simp] theorem samplePilot_cp (mv : Int) (n : Nat) :
    (c.samplePilot mv n).cp = j1772Step c.cp mv n := rfl

@[simp] theorem authorize_evse (g : Bool) : (c.authorize g).evse = c.evse := rfl

@[simp] theorem authorize_cp (g : Bool) : (c.authorize g).cp = c.cp := rfl

@[simp] theorem authorize_window (g : Bool) : (c.authorize g).window = c.window := rfl

@[simp] theorem authorize_overTemp (g : Bool) : (c.authorize g).overTemp = c.overTemp := rfl

@[simp] theorem authorize_tripped (g : Bool) : (c.authorize g).tripped = c.tripped := rfl

@[simp] theorem authorize_pilotF (g : Bool) : (c.authorize g).pilotF = c.pilotF := rfl

@[simp] theorem authorize_authorized (g : Bool) :
    (c.authorize g).authorized = (c.authorized || g) := rfl

/-- What a detector leaves alone. -/
structure Detected.Frame (c c' : Interlock) : Prop where
  cp : c'.cp = c.cp
  dwell : c'.dwell = c.dwell
  window : c'.window = c.window
  authorized : c'.authorized = c.authorized
  overTemp : c'.overTemp = c.overTemp
  tripped : c'.tripped = c.tripped
  tripped_or_same : c'.evse = .fault ∨ c' = c

theorem Detected.frame (hd : Detected c c') : Detected.Frame c c' := by
  cases hd with
  | quiet => exact ⟨rfl, rfl, rfl, rfl, rfl, rfl, .inr rfl⟩
  | trip l g _ =>
    unfold Interlock.trip
    constructor <;> simp

/-- What the update of the EVSE leaves alone. -/
structure UpdateFrame (c c' : Interlock) : Prop where
  cp : c'.cp = c.cp
  window : c'.window = c.window
  overTemp : c'.overTemp = c.overTemp
  tripped : c'.tripped = c.tripped
  closed : c'.closed = c.closed

theorem charge_frame (dwellTicks : Nat) (gateOpen : Bool) (c : Interlock) :
    UpdateFrame c (c.charge dwellTicks gateOpen) := by
  unfold charge
  repeat' split
  all_goals constructor <;> simp [move_closed]

theorem update_frame (dwellTicks : Nat) (gateOpen : Bool) (c : Interlock) :
    UpdateFrame c (c.update dwellTicks gateOpen) := by
  have hc := charge_frame dwellTicks gateOpen (c.dropAuth.countDwell dwellTicks)
  unfold update
  split
  · exact ⟨rfl, rfl, rfl, rfl, rfl⟩
  · split
    · split
      · constructor <;> simp [move_closed, dropAuth]
      · exact ⟨rfl, rfl, rfl, rfl, rfl⟩
    · exact ⟨hc.cp, hc.window, hc.overTemp, hc.tripped, hc.closed⟩

theorem resume_frame (c : Interlock) : UpdateFrame c c.resume := by
  unfold resume
  split
  · constructor <;> simp [move_closed]
  · exact ⟨rfl, rfl, rfl, rfl, rfl⟩

/-- What a request leaves alone. -/
structure RequestFrame (c c' : Interlock) : Prop where
  dwell : c'.dwell = c.dwell
  authorized : c'.authorized = c.authorized
  closed : c'.closed = c.closed
  gfci : c'.gfci = c.gfci
  charging : c'.evse = .charging → c.evse = .charging
  cp : c'.cp = c.cp ∨ c'.cp = j1772Init

theorem move_requestFrame {next : EvseState} (hf : next ≠ .fault) (hc : next ≠ .charging) :
    RequestFrame c (c.move next) := by
  constructor <;> simp [move_closed hf, hc]

theorem RequestFrame.refl (c : Interlock) : RequestFrame c c :=
  ⟨rfl, rfl, rfl, rfl, id, .inl rfl⟩

theorem resume_requestFrame (c : Interlock) : RequestFrame c c.resume := by
  unfold resume
  split
  · exact move_requestFrame (by decide) (by decide)
  · exact .refl c

/-- No request starts charging, grants a session, touches the dwell or commands
the contactor; the pilot is left alone or restarted without a committed state. -/
theorem Request.frame {ticks : Nat} {r : SafetyReq} (hr : Request ticks c r c') :
    RequestFrame c c' := by
  cases hr with
  | clear fid latched _ _ =>
    unfold Interlock.clear
    dsimp only
    split
    · constructor <;> simp [move_closed]
    · exact ⟨rfl, rfl, rfl, rfl, id, .inl rfl⟩
  | userPause _ =>
    unfold pause
    split
    · exact move_requestFrame (by decide) (by decide)
    · exact .refl c
  | userResume => exact resume_requestFrame c
  | simulateReplug =>
    unfold replug
    split
    · constructor <;> simp [move_closed]
    · exact .refl c
  | _ => exact .refl c

theorem serviceWindow_requestFrame (c : Interlock) : RequestFrame c c.serviceWindow := by
  have hr := resume_requestFrame c
  unfold serviceWindow
  split
  · exact .refl c
  · split
    · exact ⟨hr.dwell, hr.authorized, hr.closed, hr.gfci, hr.charging, .inr rfl⟩
    · exact ⟨rfl, rfl, rfl, rfl, id, .inl rfl⟩

theorem RequestFrame.trans {c''} (h : RequestFrame c c') (h' : RequestFrame c' c'') :
    RequestFrame c c'' where
  dwell := h'.dwell.trans h.dwell
  authorized := h'.authorized.trans h.authorized
  closed := h'.closed.trans h.closed
  gfci := h'.gfci.trans h.gfci
  charging he := h.charging (h'.charging he)
  cp := by
    rcases h'.cp with hcp | hcp
    · rw [hcp]
      exact h.cp
    · exact .inr hcp

/-- What the over-temperature check leaves alone. -/
structure OverTempFrame (c c' : Interlock) : Prop where
  cp : c'.cp = c.cp
  dwell : c'.dwell = c.dwell
  window : c'.window = c.window
  authorized : c'.authorized = c.authorized
  closed : c'.closed = c.closed
  latched : c'.latched = c.latched
  moves : c'.evse = c.evse ∨ c'.evse = .coolingDown ∨ (c.evse = .coolingDown ∧ c'.evse = .ready)

theorem OverTemp.frame (ho : OverTemp c c') : OverTempFrame c c' := by
  cases ho with
  | hold => exact ⟨rfl, rfl, rfl, rfl, rfl, rfl, .inl rfl⟩
  | trip _ =>
    split
    · exact ⟨rfl, rfl, rfl, rfl, rfl, rfl, .inl rfl⟩
    · constructor <;> simp [move_closed]
  | clear _ =>
    split
    · next he => constructor <;> simp [move_closed, he]
    · exact ⟨rfl, rfl, rfl, rfl, rfl, rfl, .inl rfl⟩

theorem serviceWindow_overTemp (c : Interlock) : c.serviceWindow.overTemp = c.overTemp := by
  unfold serviceWindow
  repeat' split
  · rfl
  · exact (resume_frame c).overTemp
  · rfl

theorem Request.clearFault_cases {ticks fid : Nat} (hr : Request ticks c (.clearFault fid) c') :
    c' = c ∨ ∃ latched, c' = c.clear fid latched := by
  cases hr with
  | clearRefused => exact .inl rfl
  | clear _ latched _ _ => exact .inr ⟨latched, rfl⟩

@[simp] theorem clear_overTemp (fid : Nat) (latched : Bool) :
    (c.clear fid latched).overTemp = (c.overTemp && decide (fid ≠ FaultId.overTemp.code)) := by
  unfold Interlock.clear
  dsimp only
  split <;> simp

/-- FAULT is left by a fault clear that leaves no latched fault, or not at all;
the pilot then starts afresh. -/
theorem Request.of_fault {ticks : Nat} {r : SafetyReq} (hr : Request ticks c r c')
    (hf : c.evse = .fault) :
    c'.evse = .fault ∨
      ((∃ fid, r = .clearFault fid) ∧ c'.latched = false ∧ c'.cp = j1772Init) := by
  cases hr with
  | clear fid latched hle hgfci =>
    cases latched with
    | true => exact .inl (by simp [Interlock.clear, hf])
    | false =>
      exact .inr ⟨⟨fid, rfl⟩, by simp [Interlock.clear, hf], by simp [Interlock.clear, hf]⟩
  | userPause _ => exact .inl (by simp [pause, hf])
  | userResume => exact .inl (by simp [resume, hf])
  | simulateReplug => exact .inl (by simp [replug, ReplugReady, hf])
  | _ => exact .inl hf

end Interlock

end OpenEVCharger
