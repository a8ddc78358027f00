import OpenEVCharger.Lib.Machine
import OpenEVCharger.Ui.Buzzer
import OpenEVCharger.Ui.LedPatterns

/-!
# The IO task

The loop of `tasks/io_task.c`, and the two requests of the comms task that reach its
buzzer and its LEDs. The alarm of the buzzer is chosen where the first latched fault
appears and not looked at again, so that a beep that ends later leaves silence, and a GFCI
fault that joins another fault keeps the other alarm.
-/

namespace OpenEVCharger

/-! ## The task -/

def ioTickMs : UInt32 := 20
def hbToggleMs : UInt32 := 500
def aliveMarkerMs : UInt32 := 60000
def ledBrightnessPct : UInt8 := 60

/-- What the task reads of the safety task's snapshot. -/
structure IoSnapshot where
  evse : EvseState
  j1772 : J1772State
  faultActiveBits : BitVec 32
  advertisedAmps : UInt8
  activeAmpsX10 : UInt16
  deriving DecidableEq, Repr

/-- What one turn of the loop finds: the snapshot, a press of the top button, and whether
the last frame is still being sent. -/
structure IoTick where
  snapshot : IoSnapshot
  topPressed : Bool
  ws2812Busy : Bool
  deriving DecidableEq, Repr

inductive IoInput where
  | buzzerBeep (ms : UInt16)
  | setLedOverride (mode r g b : UInt8)
  | tick (t : IoTick)
  deriving DecidableEq, Repr

/-- What the task posts to other tasks. -/
inductive IoPost where
  | pause (reason : UInt8)
  | resume
  | crashStateReset
  deriving DecidableEq, Repr

/-- The pattern on the LEDs, and the frame drawn of it. -/
structure LedShown where
  pattern : LedPattern
  frame : LedFrame

/-- The locals of the loop, the variables of the buzzer and of the override, and what the
pins and the LEDs show. -/
structure IoState where
  buzzer : BuzzerState
  override : LedOverride
  ms : UInt32
  hbLevel : Bool
  alivePosted : Bool
  bootBuzzArmed : Bool
  prevCharging : Bool
  prevFault : BitVec 32
  buzzerPin : Bool
  shown : Option LedShown
  posted : List IoPost

def ioPowerUp : IoState where
  buzzer := buzzerPowerUp
  override := ledOverridePowerUp
  ms := 0
  hbLevel := false
  alivePosted := false
  bootBuzzArmed := true
  prevCharging := false
  prevFault := 0
  buzzerPin := false
  shown := none
  posted := []

/-- The pause and start toggle of the top button. -/
def topButton (s : IoSnapshot) : List IoPost :=
  match s.evse with
  | .ready | .charging => [.pause 1]
  | .userPaused => [.resume]
  | .boot | .selfTest | .coolingDown | .fault => []

/-- The self-test is over, and its result has not been sounded. -/
def bootResultDue (s : IoSnapshot) (σ : IoState) : Bool :=
  σ.bootBuzzArmed && s.evse != .boot && s.evse != .selfTest

def chargingNow (s : IoSnapshot) : Bool := s.evse == .charging

/-- The sound of the boot result and of the edges of charging. -/
def chimed (s : IoSnapshot) (σ : IoState) : BuzzerState :=
  let z := if bootResultDue s σ then
      buzzerSetPattern (if s.evse = .fault then .bootFail else .bootPass) σ.buzzer
    else σ.buzzer
  let z := if chargingNow s && !σ.prevCharging then buzzerSetPattern .sessionStart z else z
  if !chargingNow s && σ.prevCharging then buzzerSetPattern .sessionEnd z else z

/-- The alarm, on the edges of the latched faults. -/
def faultAlarm (bits : BitVec 32) (prevFault : BitVec 32) (z : BuzzerState) : BuzzerState :=
  if alertingBits bits ≠ 0 ∧ prevFault = 0 then
    buzzerSetPattern (if gfciAlerting bits then .faultGfci else .faultNonGfci) z
  else if alertingBits bits = 0 ∧ prevFault ≠ 0 then buzzerSetPattern .off z
  else z

def ledInputs (s : IoSnapshot) (ov : LedOverride) : LedInputs where
  evse := s.evse
  j1772 := s.j1772
  faultActiveBits := s.faultActiveBits
  commsDegraded := false
  brightnessPct := ledBrightnessPct
  advertisedAmps := s.advertisedAmps
  activeAmpsX10 := s.activeAmpsX10
  override := ov

/-- One turn of the loop. -/
def ioTick (t : IoTick) (σ : IoState) : IoState :=
  let s := t.snapshot
  let played := buzzerTick σ.ms (faultAlarm s.faultActiveBits σ.prevFault (chimed s σ))
  let leds := ledInputs s σ.override
  let alive := !σ.alivePosted && decide (aliveMarkerMs ≤ σ.ms)
  { buzzer := played.2
    override := σ.override
    ms := σ.ms + ioTickMs
    hbLevel := if σ.ms % hbToggleMs = 0 then !σ.hbLevel else σ.hbLevel
    alivePosted := σ.alivePosted || alive
    bootBuzzArmed := σ.bootBuzzArmed && !bootResultDue s σ
    prevCharging := chargingNow s
    prevFault := alertingBits s.faultActiveBits
    buzzerPin := played.1
    shown := if t.ws2812Busy then σ.shown else some ⟨ledPattern leds, ledRender leds σ.ms⟩
    posted := σ.posted ++ (if t.topPressed then topButton s else []) ++
      (if alive then [.crashStateReset] else []) }

def ioStep (i : IoInput) (σ : IoState) : IoState :=
  match i with
  | .buzzerBeep ms => { σ with buzzer := buzzerSetOneshot ms σ.buzzer }
  | .setLedOverride mode r g b => { σ with override := ledOverrideSet mode r g b }
  | .tick t => ioTick t σ

def ioMachine : Machine Unit IoInput IoState where
  boot _ := ioPowerUp
  step := ioStep

def ioRun (ins : ℕ → IoInput) (n : ℕ) : IoState := ioMachine.run () ins n

/-! ## The annunciation -/

/-- The fault alarm plays, that of a GFCI fault when there is one. -/
def AlarmPlays (gfci : Bool) (p : BuzzerPattern) : Prop :=
  p.Alarm ∧ (gfci = true → p = .faultGfci)

def IoState.pattern (σ : IoState) : Option LedPattern := σ.shown.map LedShown.pattern

/-- With a latched fault active, a tick leaves the alarm playing and the fault pattern
shown; where `during` allows it, a beep that is running or an override that is on may
stand in their place. -/
def Annunciated (during : Bool) (i : IoInput) (σ' : IoState) : Prop :=
  match i with
  | .buzzerBeep _ | .setLedOverride _ _ _ _ => True
  | .tick t =>
    let bits := t.snapshot.faultActiveBits
    alertingBits bits ≠ 0 →
      (AlarmPlays (gfciAlerting bits) σ'.buzzer.pattern ∨
        during = true ∧ σ'.buzzer.pattern = .oneshot) ∧
      (σ'.pattern = some (.fault (gfciAlerting bits)) ∨ during = true ∧ σ'.override.mode = 1)

/-- What has been asked of the buzzer since the latched faults appeared, and whether a GFCI
fault was one of them then. -/
structure AlarmHistory where
  beeped : Bool
  gfci : Bool

def nextAlarm (i : IoInput) (σ : IoState) (h : AlarmHistory) : AlarmHistory :=
  match i with
  | .buzzerBeep _ => { h with beeped := true }
  | .setLedOverride _ _ _ _ => h
  | .tick t =>
    let bits := t.snapshot.faultActiveBits
    if alertingBits bits ≠ 0 ∧ σ.prevFault = 0 then ⟨false, gfciAlerting bits⟩ else h

def alarmHistory (ins : ℕ → IoInput) (n : ℕ) : AlarmHistory :=
  ioMachine.history () ins nextAlarm ⟨false, false⟩ n

/-- A tick sounds the boot result or an edge of charging. -/
def Chimes (s : IoSnapshot) (σ : IoState) : Prop :=
  bootResultDue s σ = true ∨ chargingNow s ≠ σ.prevCharging

/-- After the tick that the faults appear in, no chime sounds, no GFCI fault joins them and
no beep has been asked for, or it runs and may. -/
def BuzzerKeeps (during : Bool) (h : AlarmHistory) (s : IoSnapshot) (σ : IoState) : Prop :=
  σ.prevFault ≠ 0 →
    ¬ Chimes s σ ∧ (h.beeped = false ∧ (gfciAlerting s.faultActiveBits = true → h.gfci = true) ∨
      during = true ∧ σ.buzzer.BeepRuns σ.ms)

/-- No override is on, or it may be; and a frame is not drawn only when the fault pattern
is shown already. -/
def LedsKeep (during : Bool) (t : IoTick) (σ : IoState) : Prop :=
  (if t.ws2812Busy then σ.pattern = some (.fault (gfciAlerting t.snapshot.faultActiveBits))
    else σ.override.mode ≠ 1) ∨ during = true ∧ σ.override.mode = 1

def KeepsAlarm (during : Bool) (h : AlarmHistory) (i : IoInput) (σ : IoState) : Prop :=
  match i with
  | .buzzerBeep _ | .setLedOverride _ _ _ _ => True
  | .tick t => alertingBits t.snapshot.faultActiveBits ≠ 0 →
      BuzzerKeeps during h t.snapshot σ ∧ LedsKeep during t σ

/-! ## One tick -/

variable {during : Bool} {h : AlarmHistory} {i : IoInput} {t : IoTick} {s : IoSnapshot}
  {σ : IoState}

theorem chimed_quiet (hquiet : ¬ Chimes s σ) : chimed s σ = σ.buzzer := by
  rw [Chimes, not_or, ne_eq, not_not] at hquiet
  rw [chimed, if_neg hquiet.1, hquiet.2, Bool.and_not_self, Bool.not_and_self]
  rfl

/-- A chime is no alarm and no beep. -/
theorem chimed_pattern (hchimes : Chimes s σ) :
    ¬ (chimed s σ).pattern.Alarm ∧ (chimed s σ).pattern ≠ .oneshot := by
  have hset : ∀ (p : BuzzerPattern) (z : BuzzerState), ¬ p.Alarm ∧ p ≠ .oneshot →
      ¬ (buzzerSetPattern p z).pattern.Alarm ∧ (buzzerSetPattern p z).pattern ≠ .oneshot := by
    intro p z hp
    rw [buzzerSetPattern_pattern]
    exact hp
  rw [chimed]
  split
  · exact hset _ _ (by decide)
  next hend =>
  split
  · exact hset _ _ (by decide)
  next hstart =>
  rcases hchimes with hdue | hedge
  · rw [if_pos hdue]
    refine hset _ _ ?_
    split
    · decide
    · decide
  · -- an edge of charging sounds its own chime
    cases hnow : chargingNow s with
    | false =>
      cases hprev : σ.prevCharging with
      | false => exact absurd (hnow.trans hprev.symm) hedge
      | true => simp [hnow, hprev] at hend
    | true =>
      cases hprev : σ.prevCharging with
      | false => simp [hnow, hprev] at hstart
      | true => exact absurd (hnow.trans hprev.symm) hedge

/-- The alarm that a set of faults starts. -/
def alarmOf (gfci : Bool) : BuzzerPattern := if gfci then .faultGfci else .faultNonGfci

theorem alarmOf_alarm (gfci : Bool) : (alarmOf gfci).Alarm := by
  cases gfci with
  | false => exact .inl rfl
  | true => exact .inr rfl

theorem alarmPlays_alarmOf {gfci started : Bool} :
    AlarmPlays gfci (alarmOf started) ↔ (gfci = true → started = true) := by
  rw [AlarmPlays, and_iff_right (alarmOf_alarm started)]
  cases started with
  | false => exact forall_congr' fun _ => iff_of_false nofun nofun
  | true => exact forall_congr' fun _ => iff_of_true rfl rfl

theorem ioTick_rising (halert : alertingBits t.snapshot.faultActiveBits ≠ 0)
    (hprev : σ.prevFault = 0) :
    (ioTick t σ).buzzer.pattern = alarmOf (gfciAlerting t.snapshot.faultActiveBits) := by
  show (buzzerTick σ.ms _).2.pattern = _
  rw [buzzerTick_alarm (alarmOf_alarm _), faultAlarm, if_pos ⟨halert, hprev⟩,
    buzzerSetPattern_pattern]
  rfl

theorem ioTick_steady (halert : alertingBits t.snapshot.faultActiveBits ≠ 0)
    (hprev : σ.prevFault ≠ 0) :
    (ioTick t σ).buzzer = (buzzerTick σ.ms (chimed t.snapshot σ)).2 := by
  show (buzzerTick σ.ms _).2 = _
  rw [faultAlarm, if_neg fun h => hprev h.2, if_neg fun h => halert h.1]

/-- The fault pattern is shown, or an override allowed, exactly when the LEDs keep it. -/
theorem ioTick_leds (halert : alertingBits t.snapshot.faultActiveBits ≠ 0) :
    ((ioTick t σ).pattern = some (.fault (gfciAlerting t.snapshot.faultActiveBits)) ∨
      during = true ∧ (ioTick t σ).override.mode = 1) ↔ LedsKeep during t σ := by
  refine or_congr_left ?_
  have hshown : (ioTick t σ).shown = if t.ws2812Busy then σ.shown
      else some ⟨ledPattern (ledInputs t.snapshot σ.override), _⟩ := rfl
  rw [IoState.pattern, hshown]
  split
  · exact Iff.rfl
  · rw [Option.map_some, Option.some.injEq]
    exact ledPattern_fault (x := ledInputs t.snapshot σ.override) halert

/-! ## Runs -/

/-- While faults are active, the buzzer plays the alarm that they started, unless a beep has
been asked for. -/
structure AlarmHeld (h : AlarmHistory) (σ : IoState) : Prop where
  started : σ.prevFault ≠ 0 → h.beeped = false → σ.buzzer.pattern = alarmOf h.gfci
  beeped : σ.prevFault ≠ 0 → h.beeped = true → ¬ σ.buzzer.pattern.Alarm

theorem AlarmHeld.buzzer_iff (hheld : AlarmHeld h σ)
    (halert : alertingBits t.snapshot.faultActiveBits ≠ 0) :
    (AlarmPlays (gfciAlerting t.snapshot.faultActiveBits) (ioTick t σ).buzzer.pattern ∨
      during = true ∧ (ioTick t σ).buzzer.pattern = .oneshot) ↔
        BuzzerKeeps during h t.snapshot σ := by
  rw [BuzzerKeeps]
  by_cases hprev : σ.prevFault = 0
  · refine iff_of_true (.inl ?_) fun hne => absurd hprev hne
    rw [ioTick_rising halert hprev, alarmPlays_alarmOf]
    exact id
  rw [ioTick_steady halert hprev, imp_iff_right hprev]
  by_cases hchimes : Chimes t.snapshot σ
  · -- the chime takes the place of the alarm
    obtain ⟨halarm, hbeep⟩ := chimed_pattern hchimes
    refine iff_of_false ?_ fun hk => hk.1 hchimes
    rintro (hplays | ⟨_, hone⟩)
    · exact halarm (((buzzerTick_alarm hplays.1).mp rfl) ▸ hplays.1)
    · exact hbeep (buzzerTick_oneshot.mp hone).1
  rw [chimed_quiet hchimes, and_iff_right hchimes, buzzerTick_oneshot]
  refine or_congr_left ?_
  constructor
  · intro hplays
    have hbefore := (buzzerTick_alarm hplays.1).mp rfl
    have hquiet : h.beeped = false := by
      cases hb : h.beeped with
      | false => rfl
      | true => exact absurd (hbefore ▸ hplays.1) (hheld.beeped hprev hb)
    rw [← hbefore, hheld.started hprev hquiet, alarmPlays_alarmOf] at hplays
    exact ⟨hquiet, hplays⟩
  · rintro ⟨hquiet, hgfci⟩
    have hbefore := hheld.started hprev hquiet
    rw [(buzzerTick_alarm (alarmOf_alarm h.gfci)).mpr hbefore]
    exact alarmPlays_alarmOf.mpr hgfci

/-- A tick annunciates exactly when it keeps the alarm. -/
theorem AlarmHeld.annunciated_iff (hheld : AlarmHeld h σ) :
    Annunciated during i (ioStep i σ) ↔ KeepsAlarm during h i σ := by
  cases i with
  | buzzerBeep ms => exact Iff.rfl
  | setLedOverride mode r g b => exact Iff.rfl
  | tick t =>
    refine forall_congr' fun halert => ?_
    exact and_congr (hheld.buzzer_iff halert) (ioTick_leds halert)

theorem AlarmHeld.step (hheld : AlarmHeld h σ) (hkeeps : KeepsAlarm during h i σ) :
    AlarmHeld (nextAlarm i σ h) (ioStep i σ) := by
  cases i with
  | buzzerBeep ms =>
    refine ⟨fun _ hb => Bool.noConfusion hb, fun _ _ halarm => ?_⟩
    rcases @buzzerSetOneshot_pattern σ.buzzer ms with hp | hp
    · rw [show (ioStep (.buzzerBeep ms) σ).buzzer.pattern = _ from hp] at halarm
      exact absurd halarm (by decide)
    · rw [show (ioStep (.buzzerBeep ms) σ).buzzer.pattern = _ from hp] at halarm
      exact absurd halarm (by decide)
  | setLedOverride mode r g b => exact ⟨hheld.started, hheld.beeped⟩
  | tick t =>
    have hprev' : (ioTick t σ).prevFault = alertingBits t.snapshot.faultActiveBits := rfl
    by_cases halert : alertingBits t.snapshot.faultActiveBits = 0
    · -- no latched fault is left
      exact ⟨fun hne => absurd (hprev'.trans halert) hne, fun hne => absurd (hprev'.trans halert) hne⟩
    by_cases hprev : σ.prevFault = 0
    · have hnext : nextAlarm (.tick t) σ h = ⟨false, gfciAlerting t.snapshot.faultActiveBits⟩ :=
        if_pos ⟨halert, hprev⟩
      rw [hnext]
      exact ⟨fun _ _ => ioTick_rising halert hprev, fun _ hb => Bool.noConfusion hb⟩
    have hnext : nextAlarm (.tick t) σ h = h := if_neg fun hr => hprev hr.2
    obtain ⟨hquiet, hbuzzer⟩ := (hkeeps halert).1 hprev
    have htick : (ioStep (.tick t) σ).buzzer = (buzzerTick σ.ms σ.buzzer).2 := by
      rw [← chimed_quiet hquiet]
      exact ioTick_steady halert hprev
    rw [hnext]
    refine ⟨fun _ hb => ?_, fun _ hb halarm => ?_⟩
    · rw [htick]
      exact (buzzerTick_alarm (alarmOf_alarm _)).mpr (hheld.started hprev hb)
    · rw [htick] at halarm
      have hbefore := (buzzerTick_alarm halarm).mp rfl
      exact hheld.beeped hprev hb (hbefore ▸ halarm)

variable {ins : ℕ → IoInput} {n : ℕ}

theorem alarmHeld_run (hkeeps : ∀ k < n, KeepsAlarm during (alarmHistory ins k) (ins k) (ioRun ins k)) :
    AlarmHeld (alarmHistory ins n) (ioRun ins n) := by
  induction n with
  | zero => exact ⟨fun hne => absurd rfl hne, fun hne => absurd rfl hne⟩
  | succ n ih =>
    have hbefore := ih fun k hk => hkeeps k (Nat.lt_succ_of_lt hk)
    exact hbefore.step (hkeeps n (Nat.lt_succ_self n))

/-- Up to any input of a run, every tick with a latched fault has annunciated it exactly
when every one of them has kept the alarm. -/
theorem fault_annunciated_iff (during : Bool) (ins : ℕ → IoInput) (n : ℕ) :
    (∀ k < n, Annunciated during (ins k) (ioRun ins (k + 1))) ↔
      ∀ k < n, KeepsAlarm during (alarmHistory ins k) (ins k) (ioRun ins k) := by
  constructor
  · intro h k
    induction k using Nat.strong_induction_on with
    | _ k ih =>
      intro hk
      have hheld : AlarmHeld (alarmHistory ins k) (ioRun ins k) :=
        alarmHeld_run fun j hj => ih j hj (Nat.lt_trans hj hk)
      exact hheld.annunciated_iff.mp (h k hk)
  · intro h k hk
    have hheld : AlarmHeld (alarmHistory ins k) (ioRun ins k) :=
      alarmHeld_run fun j hj => h j (Nat.lt_trans hj hk)
    exact hheld.annunciated_iff.mpr (h k hk)

/-! ## Silent faults -/

/-- A turn of the loop with the EVSE in FAULT, or ready before it. -/
def faultTick (bits : BitVec 32) : IoInput :=
  .tick ⟨⟨if bits = 0 then .ready else .fault, .A, bits, 16, 0⟩, false, false⟩

def relayWeldBit : BitVec 32 := 1#32 <<< FaultId.relayWeld.code
def gfciBit : BitVec 32 := 1#32 <<< FaultId.gfci.code

/-- A beep of 20 ms while a fault is active. -/
def beepInFault : ℕ → IoInput
  | 0 => faultTick 0
  | 2 => .buzzerBeep 20
  | _ => faultTick relayWeldBit

/-- A GFCI fault joins another one. -/
def gfciJoins : ℕ → IoInput
  | 0 => faultTick 0
  | 1 => faultTick relayWeldBit
  | _ => faultTick (relayWeldBit ||| gfciBit)

/-- After the beep the buzzer is silent, with the fault active; and the alarm of the fault
that came first plays on when the GFCI fault joins it. -/
theorem fault_silenced :
    ¬ Annunciated true (beepInFault 5) (ioRun beepInFault 6) ∧
      (ioRun beepInFault 6).buzzer.pattern = .off ∧
      ¬ Annunciated true (gfciJoins 2) (ioRun gfciJoins 3) ∧
      (ioRun gfciJoins 3).buzzer.pattern = .faultNonGfci := by
  have hbeep : (ioRun beepInFault 6).buzzer.pattern = .off := by decide
  have hjoin : (ioRun gfciJoins 3).buzzer.pattern = .faultNonGfci := by decide
  refine ⟨fun h => ?_, hbeep, fun h => ?_, hjoin⟩
  · have hsound := (h (by decide)).1
    rw [hbeep] at hsound
    rcases hsound with hplays | ⟨_, hbeeps⟩
    · exact absurd hplays.1 (by decide)
    · cases hbeeps
  · have hsound := (h (by decide)).1
    rw [hjoin] at hsound
    rcases hsound with hplays | ⟨_, hbeeps⟩
    · exact absurd (hplays.2 (by decide)) (by decide)
    · cases hbeeps

end OpenEVCharger
