import Mathlib.Data.List.Induction
import Mathlib.Logic.Function.Basic
import OpenEVCharger.Companion.ChargerState

/-!
# The pilot classifier of the companion

Samples of the control pilot are put into classes, and every sixteenth sample the window of the
last sixteen decides on the pilot state. A window without a clear majority keeps the state, for
as long as such windows go on.
-/

namespace OpenEVCharger

def windowN : ℕ := 16

def pilotByte : PilotState → UInt8
  | .A => 0
  | .B => 1
  | .C => 2
  | .D => 3
  | .transient => 4
  | .F => 5
  | .unknown => 6

theorem decodePilot_pilotByte (s : PilotState) : decodePilot (pilotByte s) = s := by
  cases s <;> rfl

/-! ## Classes -/

def adcClassifySample (v : UInt8) : PilotState :=
  if 232 ≤ v then .A
  else if 207 ≤ v then .B
  else if 188 ≤ v then .C
  else if 170 ≤ v then .D
  else if v ≤ 104 then .F
  else .transient

/-- The classes that a window can decide on, in the order of the source. -/
def voltageClasses : List PilotState := [.A, .B, .C, .D, .F]

/-- Three quarters of `n` samples, rounded up. -/
def thresholdDom (n : ℕ) : ℕ := (n * 3 + 3) / 4

/-- Both rails and nothing in between. -/
def railToRail (samples : List PilotState) : Bool :=
  samples.count .B + samples.count .C + samples.count .D = 0 && 0 < samples.count .A &&
    0 < samples.count .F

def dominant (samples : List PilotState) (s : PilotState) : Bool :=
  thresholdDom samples.length ≤ samples.count s

def adcWindowState (samples : List PilotState) (prev : PilotState) : PilotState :=
  if samples = [] then prev
  else if railToRail samples then .transient
  else (voltageClasses.find? (dominant samples)).getD prev

/-- A window that does not decide. -/
def Ambiguous (samples : List PilotState) : Prop :=
  railToRail samples = false ∧ ∀ s ∈ voltageClasses, dominant samples s = false

instance (samples : List PilotState) : Decidable (Ambiguous samples) := instDecidableAnd

variable {samples : List PilotState} {prev s : PilotState}

theorem adcWindowState_ambiguous (h : Ambiguous samples) : adcWindowState samples prev = prev := by
  rw [adcWindowState]
  split
  · rfl
  · have hnone : voltageClasses.find? (dominant samples) = none := by
      rw [List.find?_eq_none]
      intro s hs hdom
      rw [h.2 s hs] at hdom
      nomatch hdom
    rw [if_neg (by rw [h.1]; exact Bool.false_ne_true), hnone, Option.getD_none]

/-- A window that decides decides on a class that it has samples of, or on no class. -/
theorem adcWindowState_decided (hsome : samples ≠ []) (h : ¬ Ambiguous samples) :
    adcWindowState samples prev = .transient ∨ adcWindowState samples prev ∈ samples := by
  rw [adcWindowState, if_neg hsome]
  split
  · exact .inl rfl
  next hrail =>
  right
  cases hfind : voltageClasses.find? (dominant samples) with
  | none =>
    rw [List.find?_eq_none] at hfind
    exact absurd ⟨Bool.eq_false_iff.mpr hrail, fun s hs => Bool.eq_false_iff.mpr (hfind s hs)⟩ h
  | some s =>
    have hfound : dominant samples s = true := List.find?_some hfind
    have hdom : thresholdDom samples.length ≤ samples.count s := of_decide_eq_true hfound
    have hlen := List.length_pos_iff.mpr hsome
    rw [Option.getD_some]
    apply List.count_pos_iff.mp
    simp only [thresholdDom] at hdom
    omega

/-- A window without samples of a class leaves it only where it decides. -/
theorem adcWindowState_eq_iff (hsome : samples ≠ []) (hs : s ∈ voltageClasses)
    (hleft : s ∉ samples) :
    adcWindowState samples prev = s ↔ prev = s ∧ Ambiguous samples := by
  by_cases hamb : Ambiguous samples
  · rw [adcWindowState_ambiguous hamb, and_iff_left hamb]
  · refine ⟨fun hkeep => ?_, fun h => absurd h.2 hamb⟩
    have hdecided : adcWindowState samples prev = .transient ∨ adcWindowState samples prev ∈ samples :=
      adcWindowState_decided hsome hamb
    rcases hdecided with htrans | hmem
    · rw [← hkeep, htrans] at hs
      exact absurd hs (by decide)
    · rw [hkeep] at hmem
      exact absurd hmem hleft

/-! ## The sampling loop -/

/-- The variables of `adc_personality_run` with the segment it is attached to; `lastPublished`
is `none` as long as it holds 0xff. -/
structure AdcLoop where
  shm : Shmem
  window : List PilotState
  wi : ℕ
  curState : PilotState
  lastPublished : Option PilotState
  publishedCount : ℕ

def adcLoopStart (shm : Shmem) : AdcLoop where
  shm := shm
  window := List.replicate windowN .transient
  wi := 0
  curState := .transient
  lastPublished := none
  publishedCount := 0

def AdcLoop.publish (l : AdcLoop) : AdcLoop :=
  { l with shm := Function.update l.shm offPilotState (pilotByte l.curState) }

/-- A full window: its state is published if it is new, and else every fortieth time. -/
def AdcLoop.windowFull (l : AdcLoop) : AdcLoop :=
  let l := { l with curState := adcWindowState l.window l.curState }
  if some l.curState ≠ l.lastPublished then { l.publish with lastPublished := some l.curState }
  else if 40 ≤ l.publishedCount + 1 then { l.publish with publishedCount := 0 }
  else { l with publishedCount := l.publishedCount + 1 }

/-- One sample. -/
def AdcLoop.sample (l : AdcLoop) (b : UInt8) : AdcLoop :=
  let l := { l with window := l.window.set l.wi (adcClassifySample b)
                    wi := (l.wi + 1) % windowN }
  if l.wi = 0 then l.windowFull else l

/-- A `read` of the device: a sample, nothing for now, or an error that ends the loop. -/
inductive AdcRead
  | sample (b : UInt8)
  | nothing
  | failed

/-- The loop over what its reads return. -/
def AdcLoop.run (l : AdcLoop) : List AdcRead → AdcLoop
  | [] => l
  | .sample b :: reads => (l.sample b).run reads
  | .nothing :: reads => l.run reads
  | .failed :: _ => l

/-- The samples that the loop takes. -/
def samplesRead : List AdcRead → List UInt8
  | [] => []
  | .sample b :: reads => b :: samplesRead reads
  | .nothing :: reads => samplesRead reads
  | .failed :: _ => []

/-- The state that the readers of the segment see, once the loop has published one. -/
def AdcLoop.published (l : AdcLoop) : Option PilotState :=
  l.lastPublished.map fun _ => decodePilot (l.shm offPilotState)

theorem AdcLoop.run_eq (l : AdcLoop) (reads : List AdcRead) :
    l.run reads = (samplesRead reads).foldl AdcLoop.sample l := by
  induction reads generalizing l with
  | nil => rfl
  | cons r reads ih =>
    cases r with
    | sample b => exact ih (l.sample b)
    | nothing => exact ih l
    | failed => rfl

/-! ### Windows -/

variable {l : AdcLoop} {bs w : List UInt8}

/-- Between two windows: what is published is the current state. -/
structure AdcLoop.Between (l : AdcLoop) : Prop where
  window : l.window.length = windowN
  wi : l.wi = 0
  last : l.lastPublished = none ∨ l.lastPublished = some l.curState
  start : l.lastPublished = none → l.curState = .transient
  byte : l.lastPublished ≠ none → l.shm offPilotState = pilotByte l.curState

theorem AdcLoop.between_start (shm : Shmem) : (adcLoopStart shm).Between where
  window := List.length_replicate
  wi := rfl
  last := .inl rfl
  start := fun _ => rfl
  byte := fun h => absurd rfl h

/-- Samples that do not fill the window only go into it. -/
theorem AdcLoop.sample_foldl (h : l.Between) (hlen : bs.length < windowN) :
    bs.foldl AdcLoop.sample l =
      { l with window := bs.map adcClassifySample ++ l.window.drop bs.length, wi := bs.length } := by
  induction bs using List.reverseRecOn with
  | nil =>
    rw [List.foldl_nil, List.map_nil, List.nil_append, List.length_nil, List.drop_zero, ← h.wi]
  | append_singleton bs b ih =>
    rw [List.length_append, List.length_singleton] at hlen
    have hfull : bs.length < l.window.length := by
      rw [h.window]
      omega
    rw [List.foldl_append, ih (by omega), List.foldl_cons, List.foldl_nil, AdcLoop.sample]
    dsimp only
    rw [Nat.mod_eq_of_lt hlen, if_neg (Nat.succ_ne_zero _), List.length_append,
      List.length_singleton, List.map_append, List.drop_eq_getElem_cons hfull, List.map_cons,
      List.map_nil, List.append_assoc, List.singleton_append]
    congr 1
    rw [List.set_append_right _ _ (by rw [List.length_map]), List.length_map, Nat.sub_self]
    rfl

/-- A window of samples is decided on as a whole. -/
theorem AdcLoop.window_foldl (h : l.Between) (hlen : w.length = windowN) :
    w.foldl AdcLoop.sample l = { l with window := w.map adcClassifySample }.windowFull := by
  rcases List.eq_nil_or_concat' w with rfl | ⟨bs, b, rfl⟩
  · nomatch hlen
  rw [List.length_append, List.length_singleton] at hlen
  have hbs : bs.length < windowN := by omega
  have hfull : bs.length < l.window.length := by
    rw [h.window]
    exact hbs
  have hlast : l.window.drop (bs.length + 1) = [] :=
    List.drop_eq_nil_of_le (by rw [h.window, hlen])
  rw [List.foldl_append, AdcLoop.sample_foldl h hbs, List.foldl_cons, List.foldl_nil,
    AdcLoop.sample]
  dsimp only
  rw [hlen, Nat.mod_self, if_pos rfl, List.drop_eq_getElem_cons hfull, hlast,
    List.set_append_right _ _ (by rw [List.length_map]), List.length_map, Nat.sub_self,
    List.set_cons_zero, List.map_append, List.map_cons, List.map_nil, ← h.wi]

theorem AdcLoop.windowFull_spec (l : AdcLoop) :
    l.windowFull.window = l.window ∧ l.windowFull.wi = l.wi ∧
      l.windowFull.curState = adcWindowState l.window l.curState ∧
      l.windowFull.lastPublished = some l.windowFull.curState := by
  rw [AdcLoop.windowFull]
  dsimp only
  split
  · exact ⟨rfl, rfl, rfl, rfl⟩
  next hsame =>
  have hlast := (not_not.mp hsame).symm
  split
  · exact ⟨rfl, rfl, rfl, hlast⟩
  · exact ⟨rfl, rfl, rfl, hlast⟩

theorem AdcLoop.publish_byte (l : AdcLoop) :
    l.publish.shm offPilotState = pilotByte l.curState := by
  simp [AdcLoop.publish]

theorem AdcLoop.Between.windowFull (h : l.Between) {window : List PilotState}
    (hlen : window.length = windowN) : { l with window := window }.windowFull.Between := by
  obtain ⟨hwindow, hwi, hcur, hlast⟩ := AdcLoop.windowFull_spec { l with window := window }
  refine ⟨by rw [hwindow]; exact hlen, by rw [hwi]; exact h.wi, .inr hlast, ?_, ?_⟩
  · intro hnone
    rw [hlast] at hnone
    nomatch hnone
  intro _
  rw [AdcLoop.windowFull]
  dsimp only
  split
  · exact AdcLoop.publish_byte _
  next hsame =>
  have hpub := (not_not.mp hsame).symm
  split
  · exact AdcLoop.publish_byte _
  · -- nothing is written, but the state is the one that was written before
    have hold : l.lastPublished = some l.curState :=
      h.last.resolve_left fun hnone => by rw [hnone] at hpub; nomatch hpub
    have hsome : l.lastPublished ≠ none := by
      rw [hold]
      exact Option.some_ne_none _
    show l.shm offPilotState = pilotByte (adcWindowState window l.curState)
    rw [h.byte hsome]
    exact congrArg pilotByte (Option.some.inj (hold.symm.trans hpub))

theorem AdcLoop.Between.window_of (h : l.Between) (hlen : w.length = windowN) :
    (w.foldl AdcLoop.sample l).Between := by
  rw [AdcLoop.window_foldl h hlen]
  exact h.windowFull (by rw [List.length_map, hlen])

theorem AdcLoop.Between.windows (h : l.Between) {n : ℕ} (hlen : bs.length = windowN * n) :
    (bs.foldl AdcLoop.sample l).Between := by
  induction n generalizing l bs with
  | zero =>
    rw [List.length_eq_zero_iff.mp hlen]
    exact h
  | succ n ih =>
    rw [Nat.mul_succ] at hlen
    rw [← List.take_append_drop windowN bs, List.foldl_append]
    refine ih (h.window_of ?_) ?_
    · rw [List.length_take, hlen]
      omega
    · rw [List.length_drop, hlen]
      omega

/-- Between two windows the readers see the current state. -/
theorem AdcLoop.Between.published_iff (h : l.Between) (hs : s ∈ voltageClasses) :
    l.published = some s ↔ l.curState = s := by
  rw [AdcLoop.published]
  rcases h.last with hnone | hsome
  · rw [hnone, h.start hnone]
    refine ⟨nofun, ?_⟩
    rintro rfl
    exact absurd hs (by decide)
  · rw [h.byte (by rw [hsome]; exact Option.some_ne_none _), decodePilot_pilotByte, hsome]
    exact Option.some_inj

theorem AdcLoop.Between.left_iff (h : l.Between) (hlen : w.length = windowN)
    (hs : s ∈ voltageClasses) (hleft : ∀ b ∈ w, adcClassifySample b ≠ s) :
    (w.foldl AdcLoop.sample l).published = some s ↔
      l.published = some s ∧ Ambiguous (w.map adcClassifySample) := by
  have hsome : w.map adcClassifySample ≠ [] := by
    intro hnil
    rw [List.map_eq_nil_iff] at hnil
    rw [hnil] at hlen
    nomatch hlen
  have hnot : s ∉ w.map adcClassifySample := by
    intro hmem
    obtain ⟨b, hb, rfl⟩ := List.mem_map.mp hmem
    exact hleft b hb rfl
  rw [(h.window_of hlen).published_iff hs, h.published_iff hs, AdcLoop.window_foldl h hlen,
    (AdcLoop.windowFull_spec _).2.2.1]
  exact adcWindowState_eq_iff hsome hs hnot

/-! ## How long a state that the pilot has left survives -/

theorem AdcLoop.Between.windows_iff (h : l.Between) {windows : List (List UInt8)}
    (hlen : ∀ w ∈ windows, w.length = windowN) (hs : s ∈ voltageClasses)
    (hleft : ∀ w ∈ windows, ∀ b ∈ w, adcClassifySample b ≠ s) :
    (windows.flatten.foldl AdcLoop.sample l).published = some s ↔
      l.published = some s ∧ ∀ w ∈ windows, Ambiguous (w.map adcClassifySample) := by
  induction windows generalizing l with
  | nil => simp
  | cons w windows ih =>
    rw [List.forall_mem_cons] at hlen hleft
    rw [List.flatten_cons, List.foldl_append, ih (h.window_of hlen.1) hlen.2 hleft.2,
      h.left_iff hlen.1 hs hleft.1, List.forall_mem_cons, and_assoc]

/-- After windows without a sample of a class the state published is that class exactly if it was
so before them and not one of them decided. -/
theorem pilot_left_iff (shm : Shmem) (reads : List AdcRead) (before : List UInt8)
    (windows : List (List UInt8)) (hreads : samplesRead reads = before ++ windows.flatten)
    (hfull : windowN ∣ before.length) (hlen : ∀ w ∈ windows, w.length = windowN)
    (hs : s ∈ voltageClasses) (hleft : ∀ w ∈ windows, ∀ b ∈ w, adcClassifySample b ≠ s) :
    ((adcLoopStart shm).run reads).published = some s ↔
      (before.foldl AdcLoop.sample (adcLoopStart shm)).published = some s ∧
        ∀ w ∈ windows, Ambiguous (w.map adcClassifySample) := by
  obtain ⟨n, hn⟩ := hfull
  rw [AdcLoop.run_eq, hreads, List.foldl_append]
  exact ((AdcLoop.between_start shm).windows hn).windows_iff hlen hs hleft

/-- A car connected, at 9 V. -/
def pluggedWindow : List UInt8 := List.replicate 16 220

/-- A level between the classes. -/
def betweenWindow : List UInt8 := List.replicate 16 140

/-- A car unplugged, at 12 V. -/
def unpluggedWindow : List UInt8 := List.replicate 16 240

theorem pilot_left_iff_unplugged :
    ((adcLoopStart fun _ => 0).run
        ((pluggedWindow ++ [betweenWindow, unpluggedWindow].flatten).map .sample)).published =
        some .B ↔
      (pluggedWindow.foldl AdcLoop.sample (adcLoopStart fun _ => 0)).published = some .B ∧
        ∀ w ∈ [betweenWindow, unpluggedWindow], Ambiguous (w.map adcClassifySample) :=
  pilot_left_iff (fun _ => 0) _ pluggedWindow [betweenWindow, unpluggedWindow] rfl (by decide)
    (by decide +kernel) (by decide +kernel) (by decide +kernel)

/-- The level has been between the classes for two windows, and the state is still the old one. -/
theorem pilot_left_state_survives :
    ¬ ∀ (shm : Shmem) (before w₁ w₂ : List UInt8) (s : PilotState), s ∈ voltageClasses →
      windowN ∣ before.length → w₁.length = windowN → w₂.length = windowN →
        (∀ b ∈ w₁ ++ w₂, adcClassifySample b ≠ s) →
          ((before ++ w₁ ++ w₂).foldl AdcLoop.sample (adcLoopStart shm)).published ≠ some s := by
  intro hall
  have hplugged := (AdcLoop.between_start fun _ => 0).windows
    (show pluggedWindow.length = windowN * 1 from rfl)
  have hbetween : ∀ w ∈ [betweenWindow, betweenWindow], w.length = windowN := by decide
  have hclass : PilotState.B ∈ voltageClasses := by decide
  have hkept := (hplugged.windows_iff hbetween hclass (by decide +kernel)).mpr ⟨by decide, by decide⟩
  exact hall (fun _ => 0) pluggedWindow betweenWindow betweenWindow .B (by decide) (by decide) rfl rfl
    (by decide +kernel) (by simpa [List.foldl_append] using hkept)

end OpenEVCharger
