import OpenEVCharger.Comms.Fc41d
import OpenEVCharger.Tasks.SafetyView

/-!
# What the charger tells the FC41D

Every frame that the charger sends is an event, and a state report among them is the snapshot of
the moment. The snapshot is the one of a settled interlock, so whatever part of the stream has
arrived, what the FC41D shows of the contactor, of the pilot and of the faults fits together.
-/

namespace OpenEVCharger

/-! ## Frames sent -/

/-- A frame that tells of an event; if it reports the state, of a state with `P`. -/
def Tells (P : SystemState → Prop) (x : TlvFrame) : Prop :=
  ∃ (e : McuEvent) (seq : UInt8), x = e.frame seq ∧ ∀ s, e = .stateReport s → P s

variable {P : SystemState → Prop} {x : TlvFrame} {xs : List TlvFrame}

theorem Tells.mono {Q : SystemState → Prop} (h : Tells P x) (hPQ : ∀ s, P s → Q s) : Tells Q x := by
  obtain ⟨e, seq, hx, hreport⟩ := h
  exact ⟨e, seq, hx, fun s hs => hPQ s (hreport s hs)⟩

/-- An event other than a report. -/
theorem tells_of_kind {e : McuEvent} (h : e.kind ≠ .stateReport) (seq : UInt8) :
    Tells P (e.frame seq) :=
  ⟨e, seq, rfl, fun _ hs => absurd (congrArg McuEvent.kind hs) h⟩

theorem tells_report {s : SystemState} (h : P s) (seq : UInt8) :
    Tells P ((McuEvent.stateReport s).frame seq) := by
  refine ⟨.stateReport s, seq, rfl, fun s' hs => ?_⟩
  rw [McuEvent.stateReport.injEq] at hs
  exact hs ▸ h

theorem mem_of_mem_transmitted {txFree : ℕ → Bool} (h : x ∈ transmitted txFree xs) : x ∈ xs := by
  obtain ⟨p, hp, rfl⟩ := List.mem_map.mp h
  have hidx : xs[p.2]? = some p.1 :=
    List.mk_mem_zipIdx_iff_getElem?.mp (List.mem_of_mem_filter hp)
  exact List.mem_of_getElem? hidx

/-! ### The safety task -/

theorem tells_of_published {outputs : List Output} (h : x ∈ publishedFrames outputs) :
    Tells P x := by
  obtain ⟨o, _, ho⟩ := List.mem_filterMap.mp h
  cases o with
  | publish e =>
    obtain rfl := Option.some.inj ho
    refine tells_of_kind ?_ 0
    cases e <;> exact EventKind.noConfusion
  | _ => cases ho

/-! ### The persist task -/

theorem tells_of_faultLogLoop (m : NorFlash.Mem) (head : ℕ) (maxCount seq : UInt8)
    (fuel i emitted : ℕ) :
    ∀ ev ∈ (faultLogLoop m head maxCount seq fuel i emitted).1, Tells P ev.frame := by
  induction fuel generalizing i emitted with
  | zero => exact fun _ h => absurd h List.not_mem_nil
  | succ fuel ih =>
    rw [faultLogLoop]
    dsimp only
    split
    · split
      · exact ih _ _
      · next hread =>
        intro ev hev
        rcases List.mem_cons.mp hev with rfl | hev
        · rw [ringReadNth] at hread ⊢
          split
          · next hover => exact absurd (if_pos hover ▸ by decide) hread
          · exact tells_of_kind (e := .faultLogEntry ⟨_, NorFlash.length_read _ _ _⟩)
              EventKind.noConfusion seq
        · exact ih _ _ ev hev
    · exact fun _ h => absurd h List.not_mem_nil

theorem tells_of_persistServe (r : PersistReq) (outcomes : List WriteOutcome) (t : PersistTask) :
    ∀ x ∈ (persistServe r outcomes t).events, Tells P x := by
  have hone : ∀ {e : McuEvent} {seq : UInt8}, e.kind ≠ .stateReport →
      ∀ x ∈ [e.frame seq], Tells P x := by
    intro e seq he x hx
    rw [List.mem_singleton.mp hx]
    exact tells_of_kind he seq
  cases r with
  | getFaultLog maxCount seq =>
    intro x hx
    obtain ⟨ev, hev, rfl⟩ := List.mem_map.mp hx
    rcases List.mem_append.mp hev with hev | hev
    · exact tells_of_faultLogLoop _ _ _ _ _ _ _ ev hev
    · rw [List.mem_singleton.mp hev]
      exact tells_of_kind (e := .faultLogEnd _ _) EventKind.noConfusion seq
  | getLifetimeKwh seq => exact hone EventKind.noConfusion
  | rfidAuthlistGetList seq =>
    intro x hx
    rcases List.mem_append.mp hx with hx | hx
    · obtain ⟨i, _, rfl⟩ := List.mem_map.mp hx
      exact tells_of_kind EventKind.noConfusion seq
    · exact hone EventKind.noConfusion x hx
  | ota r =>
    refine hone ?_
    generalize (t.handleOta r outcomes).reply.event = e
    cases e <;> exact EventKind.noConfusion
  | _ => exact fun _ h => absurd h List.not_mem_nil

/-! ### The comms task -/

/-- Nothing has been sent, or one frame that tells of something. -/
def Sends (P : SystemState → Prop) (old sent : List TlvFrame) : Prop :=
  sent = old ∨ ∃ x, sent = old ++ [x] ∧ Tells P x

theorem sends_send {e : CommsEnv} (h : Tells P x) (σ : CommsState) :
    Sends P σ.sent (σ.send e x).sent := by
  rw [CommsState.send]
  split
  · exact .inl rfl
  split
  · exact .inr ⟨x, rfl, h⟩
  · exact .inl rfl

theorem sends_publishTime (e : CommsEnv) (seq : UInt8) (σ : CommsState) :
    Sends P σ.sent (publishTime e seq σ).sent := by
  refine sends_send ?_ σ
  have hflag : (if σ.time.set then 1 else 0 : UInt8) = flagByte σ.time.set := rfl
  rw [hflag]
  exact tells_of_kind (e := .time (σ.time.now e.tickMs) σ.time.set) EventKind.noConfusion seq

/-- The commands that the comms task answers itself. -/
def answered : List Command := [.ping, .getState, .getBuildInfo, .getDeviceId, .getTime, .setTime]

/-- The handlers of the others hand a request on, or ignore the frame. -/
theorem sent_dispatchCommand {e : CommsEnv} {c : Command} (hc : c ∉ answered) (p : List UInt8)
    (seq : UInt8) (σ : CommsState) : (dispatchCommand e p seq σ c).sent = σ.sent := by
  cases c with
  | ping => exact absurd (by decide) hc
  | getState => exact absurd (by decide) hc
  | getBuildInfo => exact absurd (by decide) hc
  | getDeviceId => exact absurd (by decide) hc
  | getTime => exact absurd (by decide) hc
  | setTime => exact absurd (by decide) hc
  | setAdvertisedAmps =>
    show (handleSetAmps e p σ).sent = σ.sent
    rw [handleSetAmps]
    split <;> rfl
  | clearFault =>
    show (handleClearFault p σ).sent = σ.sent
    rw [handleClearFault]
    split <;> rfl
  | writeCalibration =>
    show (handleWriteCalibration p σ).sent = σ.sent
    rw [handleWriteCalibration]
    dsimp only
    repeat' split
    all_goals rfl
  | writeBl0939Cal =>
    show (handleWriteBl0939Cal p σ).sent = σ.sent
    rw [handleWriteBl0939Cal]
    split <;> rfl
  | setLedOverride =>
    show (handleSetLedOverride p σ).sent = σ.sent
    rw [handleSetLedOverride]
    split <;> rfl
  | buzzerBeep =>
    show (handleBuzzerBeep p σ).sent = σ.sent
    rw [handleBuzzerBeep]
    split <;> rfl
  | rfidRemoveUid =>
    show (handleRfidRemoveUid p σ).sent = σ.sent
    rw [handleRfidRemoveUid]
    split <;> rfl
  | setRequireRfidAuth =>
    show (handleSetRequireRfidAuth p σ).sent = σ.sent
    rw [handleSetRequireRfidAuth]
    split <;> rfl
  | otaBegin =>
    show (handleOtaBeginCmd p seq σ).sent = σ.sent
    rw [handleOtaBeginCmd]
    split <;> rfl
  | otaChunk =>
    show (handleOtaChunkCmd p seq σ).sent = σ.sent
    rw [handleOtaChunkCmd]
    repeat' split
    all_goals rfl
  | otaCommit =>
    show (handleOtaCommitCmd p seq σ).sent = σ.sent
    rw [handleOtaCommitCmd]
    split <;> rfl
  | otaAbort =>
    show (handleOtaAbortCmd p seq σ).sent = σ.sent
    rw [handleOtaAbortCmd]
    split <;> rfl
  | setGfciPolicy =>
    show (handleSetGfciPolicy p σ).sent = σ.sent
    rw [handleSetGfciPolicy]
    split <;> rfl
  | _ => rfl

/-- Every case of the switch. -/
theorem sends_dispatchCommand {e : CommsEnv} (h : P e.snapshot) (p : List UInt8) (seq : UInt8)
    (c : Command) (σ : CommsState) : Sends P σ.sent (dispatchCommand e p seq σ c).sent := by
  by_cases hc : c ∉ answered
  · exact .inl (sent_dispatchCommand hc p seq σ)
  cases c with
  | ping => exact sends_send (tells_of_kind (e := .pingAck) EventKind.noConfusion seq) σ
  | getState => exact sends_send (tells_report h seq) σ
  | getBuildInfo =>
    have hframe : (McuEvent.buildInfo e.version e.gitSha).frame seq =
        ⟨evtBuildInfo, seq, buildInfo e.version e.gitSha ++ [0]⟩ :=
      congrArg (TlvFrame.mk _ _) List.flatten_singleton
    refine sends_send ?_ σ
    rw [← hframe]
    exact tells_of_kind EventKind.noConfusion seq
  | getDeviceId =>
    have hframe : (McuEvent.deviceId e.uid).frame seq = ⟨evtDeviceId, seq, e.uid.bytes⟩ :=
      congrArg (TlvFrame.mk _ _) List.flatten_singleton
    refine sends_send ?_ σ
    rw [← hframe]
    exact tells_of_kind EventKind.noConfusion seq
  | getTime => exact sends_publishTime e seq σ
  | setTime =>
    show Sends P σ.sent (handleSetTime e p seq σ).sent
    rw [handleSetTime]
    split
    · exact .inl rfl
    · dsimp only
      split
      · exact sends_publishTime e seq _
      · exact sends_publishTime e seq _
  | _ => exact absurd (by decide) hc

theorem sends_commsDispatch {e : CommsEnv} (h : P e.snapshot) (x : TlvFrame) (σ : CommsState) :
    Sends P σ.sent (commsDispatch e x σ).sent := by
  rw [commsDispatch]
  split
  · exact .inl rfl
  · cases Command.ofCode x.cmd with
    | none => exact .inl rfl
    | some c => exact sends_dispatchCommand h x.payload x.seq c σ

/-! ### A step -/

namespace Charger

variable {B : ChargerBuild} {i : ChargerInput} {σ : Charger}

/-- What a step sends tells of an event or of the snapshot. -/
theorem sent_step (h : P σ.snapshot) (hx : x ∈ (σ.step B i).sent) : x ∈ σ.sent ∨ Tells P x := by
  have hmore : ∀ {xs}, (∀ y ∈ xs, Tells P y) → x ∈ σ.sent ++ xs → x ∈ σ.sent ∨ Tells P x :=
    fun hxs hx => (List.mem_append.mp hx).imp_right (hxs x)
  cases hr : σ.restarting with
  | true =>
    rw [step_restarting hr] at hx
    exact .inl hx
  | false =>
  unfold step at hx
  rw [if_neg (Bool.eq_false_iff.mp hr)] at hx
  cases i with
  | arrive bytes => exact .inl hx
  | comms r =>
    dsimp only at hx
    rw [commsTurn] at hx
    cases hp : σ.pending with
    | none =>
      rw [hp] at hx
      exact .inl hx
    | some y =>
      rw [hp] at hx
      have hsnap : P (σ.commsEnv B r).snapshot := h
      rcases sends_commsDispatch hsnap y σ.commsState with hsame | ⟨z, hsent, htells⟩
      · left
        have hx' : x ∈ (commsDispatch (σ.commsEnv B r) y σ.commsState).sent := hx
        rw [hsame] at hx'
        exact hx'
      · have hx' : x ∈ (commsDispatch (σ.commsEnv B r) y σ.commsState).sent := hx
        rw [hsent] at hx'
        refine hmore (fun w hw => ?_) hx'
        rw [List.mem_singleton.mp hw]
        exact htells
  | safety r => exact hmore (fun y hy => tells_of_published (mem_of_mem_transmitted hy)) hx
  | io r =>
    dsimp only at hx
    rw [ioTurn] at hx
    cases hs : σ.ioStarted with
    | true =>
      rw [hs] at hx
      exact .inl hx
    | false =>
      rw [hs] at hx
      exact .inl hx
  | persist outcomes txFree =>
    dsimp only at hx
    rw [persistTurn] at hx
    cases hq : σ.queue with
    | nil =>
      rw [hq] at hx
      exact .inl hx
    | cons req rest =>
      rw [hq] at hx
      exact hmore (fun y hy =>
        tells_of_persistServe req outcomes σ.persist y (mem_of_mem_transmitted hy)) hx

/-- A step publishes a snapshot of the safety task as the step leaves it, or none. -/
theorem snapshot_step (i : ChargerInput) (σ : Charger) :
    (σ.step B i).snapshot = σ.snapshot ∨
      ∃ j y, (σ.step B i).snapshot = systemState j y (σ.step B i).safety.task := by
  cases hr : σ.restarting with
  | true =>
    rw [step_restarting hr]
    exact .inl rfl
  | false =>
  unfold step
  rw [if_neg (Bool.eq_false_iff.mp hr)]
  cases i with
  | arrive bytes => exact .inl rfl
  | comms r =>
    dsimp only
    rw [commsTurn]
    cases σ.pending with
    | none => exact .inl rfl
    | some x => exact .inl rfl
  | safety r => exact .inr ⟨_, _, rfl⟩
  | io r =>
    dsimp only
    rw [ioTurn]
    cases σ.ioStarted with
    | true => exact .inl rfl
    | false => exact .inl rfl
  | persist outcomes txFree =>
    dsimp only
    rw [persistTurn]
    cases σ.queue with
    | nil => exact .inl rfl
    | cons r rest => exact .inl rfl

end Charger

/-! ## In every run -/

section Runs

variable {B : ChargerBuild} {b : ChargerBoot} {ins : ℕ → ChargerInput} {n : ℕ}

theorem settled_charger : (view (chargerRun B b ins n).safety.task).Settled := by
  have hruns := (safetySimulation B).related_run b ins n
  rw [show (chargerRun B b ins n).safety.task = _ from hruns.task]
  exact settled_run B.flags _ _ _

theorem consistent_snapshot : (chargerRun B b ins n).snapshot.Consistent := by
  induction n with
  | zero => exact consistent_powerUp
  | succ n ih =>
    rcases Charger.snapshot_step (ins n) (chargerRun B b ins n) with hsame | ⟨j, y, hnew⟩
    · rw [show (chargerRun B b ins (n + 1)).snapshot = _ from hsame]
      exact ih
    · rw [show (chargerRun B b ins (n + 1)).snapshot = _ from hnew]
      have hsettled : (view (chargerRun B b ins (n + 1)).safety.task).Settled := settled_charger
      exact consistent_systemState hsettled j y

/-- Every frame sent tells of an event, and every report among them is consistent. -/
theorem tells_of_sent : ∀ x ∈ (chargerRun B b ins n).sent, Tells SystemState.Consistent x := by
  induction n with
  | zero => exact fun x hx => tells_of_published (mem_of_mem_transmitted hx)
  | succ n ih =>
    intro x hx
    rcases Charger.sent_step consistent_snapshot hx with hbefore | htells
    · exact ih x hbefore
    · exact htells

end Runs

/-! ## At the FC41D -/

/-- A report on the FC41D. -/
def StateReport.Consistent (r : StateReport) : Prop :=
  OpenEVCharger.Consistent r.evseState r.j1772State r.contactorCmd r.faultActiveBits

/-- The FC41D once it has dispatched some frames, at its own times. -/
def Fc41d.handled (ios : ℕ → FcIo) (xs : List TlvFrame) (f : Fc41d) : Fc41d :=
  xs.zipIdx.foldl (fun f p => (f.dispatchFrame (ios p.2) p.1).1) f

theorem state_onOta (io : FcIo) (e : Option OtaEvent) (f : Fc41d) :
    (f.onOta io e).1.state = f.state := by
  cases e <;> rfl

/-- An event other than a report leaves the report alone. -/
theorem state_told (io : FcIo) (e : McuEvent) (f : Fc41d) :
    (f.told io e).1.state = match e with
      | .stateReport s => s.seen 56
      | _ => f.state := by
  cases e with
  | rfidSwipe uid present => cases present <;> rfl
  | ota e => exact state_onOta io _ f
  | _ => rfl

theorem state_dispatchFrame (h : Tells SystemState.Consistent x) (io : FcIo) (f : Fc41d) :
    (f.dispatchFrame io x).1.state = f.state ∨ (f.dispatchFrame io x).1.state.Consistent := by
  obtain ⟨e, seq, rfl, hreport⟩ := h
  rw [dispatchFrame_frame, state_told]
  cases e with
  | stateReport s => exact .inr (hreport s rfl)
  | _ => exact .inl rfl

theorem state_handled (h : ∀ x ∈ xs, Tells SystemState.Consistent x) (ios : ℕ → FcIo)
    (f : Fc41d) :
    (f.handled ios xs).state = f.state ∨ (f.handled ios xs).state.Consistent := by
  induction xs using List.reverseRecOn with
  | nil => exact .inl rfl
  | append_singleton xs x ih =>
    have hlast : f.handled ios (xs ++ [x]) =
        ((f.handled ios xs).dispatchFrame (ios xs.length) x).1 := by
      rw [Fc41d.handled, List.zipIdx_append, List.foldl_append, Nat.zero_add]
      rfl
    have hx : Tells SystemState.Consistent x := h x (List.mem_append_right _ List.mem_cons_self)
    rw [hlast]
    rcases state_dispatchFrame hx (ios xs.length) (f.handled ios xs) with hsame | hnew
    · rw [hsame]
      exact ih fun y hy => h y (List.mem_append_left _ hy)
    · exact .inr hnew

/-- More bytes only add to what has been dispatched. -/
theorem dispatched_prefix (r : Fc41dRx) (bytes : List UInt8) :
    r.dispatched <+: (bytes.foldl fc41dRxByte r).dispatched := by
  induction bytes generalizing r with
  | nil => exact List.prefix_rfl
  | cons c bytes ih => exact (List.prefix_append _ _).trans (ih (fc41dRxByte r c))

theorem dispatched_take (bytes : List UInt8) (k : ℕ) :
    (fc41dRun (bytes.take k)).dispatched <+: (fc41dRun bytes).dispatched := by
  have hsplit : fc41dRun bytes = (bytes.drop k).foldl fc41dRxByte (fc41dRun (bytes.take k)) := by
    rw [fc41dRun, fc41dRun, ← List.foldl_append, List.take_append_drop]
  rw [hsplit]
  exact dispatched_prefix _ _

end OpenEVCharger
