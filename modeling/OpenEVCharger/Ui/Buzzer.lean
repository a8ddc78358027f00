/-!
# Buzzer patterns

The pattern engine of `ui/buzzer.c`: one pattern at a time, and the later one wins. A
pattern ends by itself or plays until another one is set.
-/

namespace OpenEVCharger

/-- `buzzer_pattern_t`. -/
inductive BuzzerPattern where
  | off
  | bootPass
  | bootFail
  | sessionStart
  | sessionEnd
  | faultNonGfci
  | faultGfci
  | button
  | oneshot
  deriving DecidableEq, Repr

/-- The static variables. A start of 0 is stamped by the next tick. -/
structure BuzzerState where
  pattern : BuzzerPattern
  patternStartMs : UInt32
  oneshotMs : UInt16
  deriving DecidableEq, Repr

def buzzerPowerUp : BuzzerState := ⟨.off, 0, 0⟩

def buzzerSetPattern (p : BuzzerPattern) (s : BuzzerState) : BuzzerState :=
  if p = s.pattern then s else { s with pattern := p, patternStartMs := 0 }

def buzzerSetOneshot (ms : UInt16) (s : BuzzerState) : BuzzerState :=
  if ms = 0 then buzzerSetPattern .off s
  else ⟨.oneshot, 0, if 500 < ms then 500 else ms⟩

/-- The start of the pattern, stamped if it is not. -/
def BuzzerState.started (now : UInt32) (s : BuzzerState) : UInt32 :=
  if s.patternStartMs = 0 then now else s.patternStartMs

/-- Whether a pattern sounds `dt` after its start. -/
def BuzzerPattern.sounds (oneshotMs : UInt16) (dt : UInt32) : BuzzerPattern → Bool
  | .off => false
  | .bootPass => dt < 100
  | .bootFail =>
    let cyc := dt % 2000
    cyc < 100 || (200 ≤ cyc && cyc < 300) || (400 ≤ cyc && cyc < 500)
  | .sessionStart => dt < 200
  | .sessionEnd => dt < 100 || (200 ≤ dt && dt < 300)
  | .faultNonGfci => (dt / 1000) &&& 1 == 0
  | .faultGfci => dt < 5000 || ((dt - 5000) / 1000) &&& 1 == 0
  | .button => dt < 30
  | .oneshot => dt < oneshotMs.toUInt32

/-- Whether a pattern is over `dt` after its start. -/
def BuzzerPattern.over (oneshotMs : UInt16) (dt : UInt32) : BuzzerPattern → Bool
  | .bootPass => 200 ≤ dt
  | .sessionStart => 300 ≤ dt
  | .sessionEnd => 400 ≤ dt
  | .button => 50 ≤ dt
  | .oneshot => oneshotMs.toUInt32 ≤ dt
  | .off | .bootFail | .faultNonGfci | .faultGfci => false

/-- The level of the pin, and the state after the tick. -/
def buzzerTick (now : UInt32) (s : BuzzerState) : Bool × BuzzerState :=
  if s.pattern = .off then (false, s)
  else
    let start := s.started now
    let dt := now - start
    (s.pattern.sounds s.oneshotMs dt,
      ⟨if s.pattern.over s.oneshotMs dt then .off else s.pattern, start, s.oneshotMs⟩)

/-! ## The alarms -/

variable {p : BuzzerPattern} {s : BuzzerState} {now : UInt32} {ms : UInt16}

/-- A pattern that plays as long as a fault is active. -/
def BuzzerPattern.Alarm (p : BuzzerPattern) : Prop := p = .faultNonGfci ∨ p = .faultGfci

instance (p : BuzzerPattern) : Decidable p.Alarm := inferInstanceAs (Decidable (_ ∨ _))

@[simp] theorem buzzerSetPattern_pattern : (buzzerSetPattern p s).pattern = p := by
  rw [buzzerSetPattern]
  split
  · next h => exact h.symm
  · rfl

/-- A one-shot that has not come to its end at the next tick. -/
def BuzzerState.BeepRuns (now : UInt32) (s : BuzzerState) : Prop :=
  s.pattern = .oneshot ∧ now - s.started now < s.oneshotMs.toUInt32

instance (now : UInt32) (s : BuzzerState) : Decidable (s.BeepRuns now) :=
  inferInstanceAs (Decidable (_ ∧ _))

/-- The pattern after a tick. -/
theorem buzzerTick_pattern :
    (buzzerTick now s).2.pattern =
      if s.pattern.over s.oneshotMs (now - s.started now) then .off else s.pattern := by
  rw [buzzerTick]
  split
  · next hoff =>
    rw [hoff]
    rfl
  · rfl

/-- No tick ends an alarm, and none starts one. -/
theorem buzzerTick_alarm (hp : p.Alarm) :
    (buzzerTick now s).2.pattern = p ↔ s.pattern = p := by
  rw [buzzerTick_pattern]
  constructor
  · intro h
    split at h
    · subst h
      rcases hp with h | h
      · cases h
      · cases h
    · exact h
  · rintro rfl
    rw [if_neg]
    rcases hp with h | h
    · rw [h]
      exact nofun
    · rw [h]
      exact nofun

/-- A tick leaves a one-shot running exactly when it has not come to its end. -/
theorem buzzerTick_oneshot : (buzzerTick now s).2.pattern = .oneshot ↔ s.BeepRuns now := by
  rw [buzzerTick_pattern, BuzzerState.BeepRuns]
  constructor
  · intro h
    split at h
    · cases h
    · next hrun =>
      rw [h] at hrun
      exact ⟨h, UInt32.not_le.mp fun hle => hrun (decide_eq_true hle)⟩
  · rintro ⟨hp, hlt⟩
    rw [if_neg, hp]
    rw [hp]
    exact fun hover => absurd (of_decide_eq_true hover) (UInt32.not_le.mpr hlt)

/-- A request leaves a one-shot or silence. -/
theorem buzzerSetOneshot_pattern :
    (buzzerSetOneshot ms s).pattern = .off ∨ (buzzerSetOneshot ms s).pattern = .oneshot := by
  rw [buzzerSetOneshot]
  split
  · exact .inl buzzerSetPattern_pattern
  · exact .inr rfl

end OpenEVCharger
