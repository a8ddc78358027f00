import OpenEVCharger.Companion.ChargerState
import OpenEVCharger.Lib.Machine

/-!
# The telemetry of the companion

Each turn of the main loop compares the state it reads with the one it read a turn before,
not with the one that was published: a reading that moves by less than the tolerance in
every turn is never published, however far it gets.
-/

namespace OpenEVCharger

/-! ## The MQTT adapter -/

/-- A payload: a number as it is printed, or a text. -/
inductive Payload
  | number (n : ℚ)
  | text (s : String)
  deriving DecidableEq

/-- The payload of a field, as `nb_publish_state` prints it. -/
def statePayload (cs : ChargerState) : StateField → Payload
  | .voltage => .number (decimal 1 cs.voltageV)
  | .current => .number (decimal 2 cs.currentA)
  | .power => .number (decimal 0 cs.powerW)
  | .pilotDuty => .number cs.pilotDutyPct.toNat
  | .ratedAmps => .number cs.ratedAmps.toNat
  | .pilotState => .text (pilotStateStr cs.pilotState)
  | .priState => .number cs.priState.toNat
  | .userState => .number cs.userState.toNat
  | .redLed => .number cs.redLed.toNat
  | .stm32LinkOk => .text (if cs.stm32LinkOk then "ON" else "OFF")
  | .activeFaults => .text (formatFaults cs.faultBits 384)
  | .authorizeState => .text (if 1 ≤ cs.userState then "ON" else "OFF")

/-- What the broker retains under the topic of each field. -/
abbrev Retained := StateField → Option Payload

/-- `nb_publish_state` with what the broker retains after it, where `sent` tells which calls
of `mqtt_client_publish` succeed. -/
def nbPublishState (sent : StateField → Bool) (connected : Bool) (cs : ChargerState)
    (dirty : StateField → Bool) (full : Bool) (retained : Retained) : Retained × Bool :=
  if connected then
    (fun f => if (full || dirty f) && sent f then some (statePayload cs f) else retained f,
      StateField.all.all fun f => !(full || dirty f) || sent f)
  else (retained, false)

/-! ## The main loop -/

def backoffNext (cur : ℕ) : ℕ := min (if cur < 1 then 1 else cur * 2) 60

/-- What one turn finds: the clock, whether a connection can be made, the segment, which
packets are sent, and what the tick returns. -/
structure LoopInput where
  now : ℕ
  initOk : Bool
  sm : Shmem
  sent : StateField → Bool
  tickOk : Bool

structure Bridge where
  adapterUp : Bool
  bo : ℕ
  nextBrokerRetry : ℕ
  prev : ChargerState
  connected : Bool
  retained : Retained

def bridgeBoot (retained : Retained) : Bridge where
  adapterUp := false
  bo := 0
  nextBrokerRetry := 0
  prev := chargerStateInit
  connected := false
  retained := retained

/-- The (re)connect at the head of a turn. -/
def reconnect (i : LoopInput) (s : Bridge) : Bridge :=
  if !s.adapterUp && s.nextBrokerRetry ≤ i.now then
    if i.initOk then
      { s with adapterUp := true, connected := true, bo := 0, prev := chargerStateInit }
    else
      let bo := backoffNext s.bo
      { s with bo := bo, nextBrokerRetry := i.now + bo }
  else s

/-- The test by which the loop tells that nothing has been read on this connection. -/
def fullPublish (prev : ChargerState) : Bool :=
  prev.pilotState = .unknown && prev.voltageV = 0 && prev.currentA = 0

/-- The fields that a turn publishes. -/
def published (prev cur : ChargerState) (f : StateField) : Bool :=
  fullPublish prev || chargerStateDiff prev cur f

def readAndPublish (i : LoopInput) (s : Bridge) : Bridge :=
  if s.adapterUp then
    let cur := chargerStateRead i.sm
    let dirty := chargerStateDiff s.prev cur
    let full := fullPublish s.prev
    let (retained, ok) :=
      if full || StateField.all.any dirty then
        nbPublishState i.sent s.connected cur dirty full s.retained
      else (s.retained, true)
    if ok then { s with retained := retained, prev := cur, adapterUp := i.tickOk }
    else { s with retained := retained, adapterUp := false }
  else s

def bridgeTurn (i : LoopInput) (s : Bridge) : Bridge := readAndPublish i (reconnect i s)

def companion : Machine Retained LoopInput Bridge where
  boot := bridgeBoot
  step := bridgeTurn

/-! ## What a turn publishes -/

variable {i : LoopInput} {s : Bridge} {prev cur : ChargerState} {f : StateField}
  {sent dirty : StateField → Bool} {connected full : Bool} {retained : Retained}

/-- A publish without an error has sent each of its fields. -/
theorem nbPublishState_sent
    (h : (nbPublishState sent connected cur dirty full retained).2 = true) (f : StateField) :
    (nbPublishState sent connected cur dirty full retained).1 f =
      if full || dirty f then some (statePayload cur f) else retained f := by
  rw [nbPublishState] at h ⊢
  split at h
  · next hconn =>
    rw [if_pos hconn]
    have hf := List.all_eq_true.mp h f (StateField.mem_all f)
    by_cases hpub : (full || dirty f) = true
    · have hsent : sent f = true := by simpa [hpub] using hf
      rw [if_pos hpub]
      exact if_pos (by rw [hpub, hsent]; rfl)
    · rw [if_neg hpub]
      exact if_neg (by rw [Bool.eq_false_iff.mpr hpub]; nofun)
  · exact absurd h Bool.false_ne_true

/-- A turn that keeps the link up has published what it had to and remembers what it read. -/
theorem readAndPublish_up (h : (readAndPublish i s).adapterUp = true) :
    s.adapterUp = true ∧ (readAndPublish i s).prev = chargerStateRead i.sm ∧
      ∀ f, (readAndPublish i s).retained f =
        if published s.prev (chargerStateRead i.sm) f then
          some (statePayload (chargerStateRead i.sm) f)
        else s.retained f := by
  rw [readAndPublish] at h ⊢
  split at h
  · next hup =>
    rw [if_pos hup]
    dsimp only at h ⊢
    by_cases hany : (fullPublish s.prev ||
        StateField.all.any (chargerStateDiff s.prev (chargerStateRead i.sm))) = true
    · rw [if_pos hany] at h ⊢
      split at h
      · next hsent =>
        rw [if_pos hsent]
        exact ⟨hup, rfl, nbPublishState_sent hsent⟩
      · exact absurd h Bool.false_ne_true
    · rw [if_neg hany, if_pos rfl]
      refine ⟨hup, rfl, ?_⟩
      intro f
      rw [Bool.or_eq_true, not_or, List.any_eq_true] at hany
      have hclean : chargerStateDiff s.prev (chargerStateRead i.sm) f = false :=
        Bool.eq_false_iff.mpr fun hd => hany.2 ⟨f, StateField.mem_all f, hd⟩
      rw [if_neg (by rw [published, hclean, Bool.or_false]; exact hany.1)]
  · next hdown => exact absurd h hdown

/-- A field without a tolerance that is not dirty has the payload it had. -/
theorem statePayload_clean (hdiscrete : metering cur f = none)
    (hclean : chargerStateDiff prev cur f = false) :
    statePayload prev f = statePayload cur f := by
  cases f with
  | voltage => nomatch hdiscrete
  | current => nomatch hdiscrete
  | power => nomatch hdiscrete
  | _ => simp_all [chargerStateDiff, statePayload]

/-! ## What the broker shows -/

/-- The last published payload of a field is within its tolerance of the reading, and exact
where the field has no tolerance. -/
def Shows (shown : Option Payload) (cur : ChargerState) (f : StateField) : Prop :=
  match metering cur f, shown with
  | some (reading, eps), some (.number n) => |n - reading| ≤ eps
  | some _, _ => False
  | none, shown => shown = some (statePayload cur f)

theorem shows_discrete {shown : Option Payload} (hdiscrete : metering cur f = none) :
    Shows shown cur f ↔ shown = some (statePayload cur f) := by
  unfold Shows
  rw [hdiscrete]

theorem tolerance_ge : (1 / 20 : ℚ) ≤ binary32.round (5 / 100) := by decide +kernel

/-- What is printed of a reading is within the tolerance of it. -/
theorem shows_payload (cur : ChargerState) (f : StateField) :
    Shows (some (statePayload cur f)) cur f := by
  cases f with
  | voltage =>
    have hprint := decimal_near 1 cur.voltageV
    have heps := tolerance_ge
    show |decimal 1 cur.voltageV - cur.voltageV| ≤ binary32.round (5 / 100)
    linarith
  | current =>
    have hprint := decimal_near 2 cur.currentA
    have heps := tolerance_ge
    show |decimal 2 cur.currentA - cur.currentA| ≤ binary32.round (5 / 100)
    linarith
  | power =>
    have hprint := decimal_near 0 cur.powerW
    show |decimal 0 cur.powerW - cur.powerW| ≤ 1
    linarith
  | _ => rfl

/-- The turn leaves a metered field unpublished, as the reading has moved by no more than the
tolerance since the turn before, though it is farther than that from what was published. -/
def Creeps (i : LoopInput) (s : Bridge) (f : StateField) : Prop :=
  let cur := chargerStateRead i.sm
  (metering cur f).isSome ∧ published (reconnect i s).prev cur f = false ∧
    ¬ Shows (s.retained f) cur f

/-- While the link is up the broker shows every exact field of the state read last, unless
all fields are about to be published. -/
def BridgeTracked (s : Bridge) : Prop :=
  s.adapterUp = true → fullPublish s.prev = true ∨
    ∀ f, metering s.prev f = none → s.retained f = some (statePayload s.prev f)

theorem reconnect_tracked (h : BridgeTracked s) : BridgeTracked (reconnect i s) := by
  rw [reconnect]
  split
  · next hdue =>
    have hdown : s.adapterUp = false := by
      rw [Bool.and_eq_true, Bool.not_eq_true'] at hdue
      exact hdue.1
    split
    · intro _
      exact .inl rfl
    · intro hup
      exact absurd hup (by rw [hdown]; exact Bool.false_ne_true)
  · exact h

theorem reconnect_retained : (reconnect i s).retained = s.retained := by
  rw [reconnect]
  split
  · split <;> rfl
  · rfl

/-- Whether a field has a tolerance does not depend on the state. -/
theorem metering_discrete (h : metering prev f = none) (cur : ChargerState) :
    metering cur f = none := by
  cases f with
  | voltage => nomatch h
  | current => nomatch h
  | power => nomatch h
  | _ => rfl

/-- An exact field is shown after every turn that keeps the link up. -/
theorem turn_shows_discrete (h : BridgeTracked s) (hup : (bridgeTurn i s).adapterUp = true)
    (hdiscrete : metering (chargerStateRead i.sm) f = none) :
    (bridgeTurn i s).retained f = some (statePayload (chargerStateRead i.sm) f) := by
  obtain ⟨hlink, -, hretained⟩ := readAndPublish_up hup
  rw [bridgeTurn, hretained f]
  split
  · rfl
  next hskip =>
  rw [published, Bool.or_eq_true, not_or] at hskip
  have hclean := Bool.eq_false_iff.mpr hskip.2
  rcases reconnect_tracked h hlink with hfull | hshown
  · exact absurd hfull hskip.1
  · rw [hshown f (metering_discrete hdiscrete _), statePayload_clean hdiscrete hclean]

theorem turn_tracked (h : BridgeTracked s) : BridgeTracked (bridgeTurn i s) := by
  intro hup
  obtain ⟨-, hprev, -⟩ := readAndPublish_up hup
  refine .inr ?_
  intro f hdiscrete
  rw [bridgeTurn, hprev] at hdiscrete ⊢
  exact turn_shows_discrete h hup hdiscrete

/-- A metered field is shown after a turn that keeps the link up if and only if it does not
creep in that turn. -/
theorem turn_shows_metered (hup : (bridgeTurn i s).adapterUp = true)
    (hmetered : (metering (chargerStateRead i.sm) f).isSome) :
    Shows ((bridgeTurn i s).retained f) (chargerStateRead i.sm) f ↔ ¬ Creeps i s f := by
  obtain ⟨-, -, hretained⟩ := readAndPublish_up hup
  rw [bridgeTurn, hretained f, reconnect_retained]
  cases hpub : published (reconnect i s).prev (chargerStateRead i.sm) f with
  | true =>
    refine iff_of_true (shows_payload _ f) ?_
    rintro ⟨-, hnot, -⟩
    exact absurd (hpub.symm.trans hnot) Bool.noConfusion
  | false =>
    rw [if_neg Bool.false_ne_true]
    constructor
    · intro hshows hcreep
      exact hcreep.2.2 hshows
    · intro hnot
      by_contra hshows
      exact hnot ⟨hmetered, hpub, hshows⟩

/-! ## Runs -/

/-- A segment in which the meter reads `cv` hundredths of a volt below 256 V. -/
def meterAt (cv : ℕ) : Shmem := fun off =>
  if off = offBridgeVoltageCv then UInt8.ofNat cv
  else if off = offBridgeVoltageCv + 1 then UInt8.ofNat (cv / 256)
  else 0

/-- The voltage rises from 230.00 V by 0.04 V a turn. -/
def risingTurn (n : ℕ) : LoopInput where
  now := n
  initOk := true
  sm := meterAt (23000 + 4 * n)
  sent := fun _ => true
  tickOk := true

end OpenEVCharger
