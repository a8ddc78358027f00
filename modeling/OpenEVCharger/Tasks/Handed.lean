import OpenEVCharger.Tasks.Dispatch

/-!
# What the handlers hand on

Every handler of the comms task hands on one request at most, to the persist task or to the
safety task, and which one depends on its frame alone. Whatever the bytes of the frame are, the
request is well formed.
-/

namespace OpenEVCharger

/-! ## Well-formed requests -/

/-- What the persist task may rely on in a request. -/
def PersistReq.Ok : PersistReq → Prop
  | .bootConfigAmps amps => amps ≤ commsHwAmpsMax
  | .calibration a => 0 ≤ a.anchorRaw ∧ a.anchorRaw ≤ 4095 ∧ a.slopeDen ≠ 0
  | .requireRfidAuth enable => enable = 0 ∨ enable = 1
  | _ => True

/-- What a command may hand to the persist task: nothing that records an event or a session, or
adds a card, and nothing but what its payload asks for. -/
def Command.MayPost (c : Command) (p : List UInt8) : PersistReq → Prop
  | .event _ | .session _ | .crashStateReset | .rfidAuthlistAdd _ => False
  | .bootConfigAmps _ => c = .setAdvertisedAmps
  | .calibration _ => c = .writeCalibration
  | .requireRfidAuth enable =>
    c = .setRequireRfidAuth ∧ enable = if p.getD 0 0 ≠ 0 then 1 else 0
  | .rfidAuthlistRemove uid => c = .rfidRemoveUid ∧ uid = le32Load p 0
  | .rfidAuthlistClear => c = .rfidClearList
  | _ => True

/-- What a command may ask of the safety task: the learn window is opened by one of them. -/
def Command.MayAsk (c : Command) : SafetyReq → Prop
  | .rfidLearnArm => c = .rfidLearnNext
  | _ => True

/-! ## One handler -/

/-- What a handler does to the two queues, whatever waits in them. -/
inductive Hands (f : CommsState → CommsState) : List PersistReq → List SafetyReq → Prop
  | nothing (h : ∀ σ, (f σ).persist = σ.persist ∧ (f σ).inbox = σ.inbox) : Hands f [] []
  | post (r : PersistReq)
      (h : ∀ σ, (f σ).persist = persistPost σ.persist r ∧ (f σ).inbox = σ.inbox) : Hands f [r] []
  | ask (r : SafetyReq)
      (h : ∀ σ, (f σ).persist = σ.persist ∧ (f σ).inbox = postSafetyReq σ.inbox r) : Hands f [] [r]

/-- A handler of a command, for a payload. -/
structure HandlerOk (c : Command) (p : List UInt8) (f : CommsState → CommsState)
    (rs : List PersistReq) (ss : List SafetyReq) : Prop where
  hands : Hands f rs ss
  may_post : ∀ r ∈ rs, c.MayPost p r ∧ r.Ok
  may_ask : ∀ r ∈ ss, c.MayAsk r

variable {c : Command} {p : List UInt8} {seq : UInt8} {e : CommsEnv} {f : CommsState → CommsState}
  {rs : List PersistReq} {ss : List SafetyReq}

theorem handlerOk_nothing (h : ∀ σ, (f σ).persist = σ.persist ∧ (f σ).inbox = σ.inbox) :
    ∃ rs ss, HandlerOk c p f rs ss :=
  ⟨[], [], .nothing h, fun _ hr => absurd hr List.not_mem_nil,
    fun _ hr => absurd hr List.not_mem_nil⟩

theorem handlerOk_post {r : PersistReq} (hmay : c.MayPost p r) (hok : r.Ok)
    (h : ∀ σ, (f σ).persist = persistPost σ.persist r ∧ (f σ).inbox = σ.inbox) :
    ∃ rs ss, HandlerOk c p f rs ss := by
  refine ⟨[r], [], .post r h, fun r' hr => ?_, fun _ hr => absurd hr List.not_mem_nil⟩
  rw [List.mem_singleton.mp hr]
  exact ⟨hmay, hok⟩

theorem handlerOk_ask {r : SafetyReq} (hmay : c.MayAsk r)
    (h : ∀ σ, (f σ).persist = σ.persist ∧ (f σ).inbox = postSafetyReq σ.inbox r) :
    ∃ rs ss, HandlerOk c p f rs ss := by
  refine ⟨[], [r], .ask r h, fun _ hr => absurd hr List.not_mem_nil, fun r' hr => ?_⟩
  rw [List.mem_singleton.mp hr]
  exact hmay

theorem queues_send (e : CommsEnv) (x : TlvFrame) (σ : CommsState) :
    (σ.send e x).persist = σ.persist ∧ (σ.send e x).inbox = σ.inbox := by
  rw [CommsState.send]
  split
  · exact ⟨rfl, rfl⟩
  split
  · exact ⟨rfl, rfl⟩
  · exact ⟨rfl, rfl⟩

/-! ### The handlers with checks -/

theorem handlerOk_setAmps : ∃ rs ss, HandlerOk .setAdvertisedAmps p (handleSetAmps e p) rs ss := by
  cases hset : handleSetAdvertisedAmps e.advertisedAmps p with
  | none =>
    refine handlerOk_nothing fun σ => ?_
    rw [handleSetAmps, hset]
    exact ⟨rfl, rfl⟩
  | some amps =>
    refine handlerOk_post (r := .bootConfigAmps amps) rfl ?_ fun σ => ?_
    · show amps ≤ commsHwAmpsMax
      cases p with
      | nil => cases hset
      | cons a p =>
        have hstored : ∀ capped : UInt8,
            (if capped = e.advertisedAmps then none else some capped) = some amps →
              capped = amps := by
          intro capped h
          split at h
          · cases h
          · exact Option.some.inj h
        rw [← hstored _ hset]
        split
        · exact UInt8.le_refl _
        · next hle => exact UInt8.not_lt.mp hle
    · rw [handleSetAmps, hset]
      exact ⟨rfl, rfl⟩

theorem handlerOk_clearFault : ∃ rs ss, HandlerOk .clearFault p (handleClearFault p) rs ss := by
  by_cases hlen : p.length < 4
  · refine handlerOk_nothing fun σ => ?_
    rw [handleClearFault, if_pos hlen]
    exact ⟨rfl, rfl⟩
  · refine handlerOk_ask (r := .clearFault (le32Load p 0).toNat) trivial fun σ => ?_
    rw [handleClearFault, if_neg hlen]
    exact ⟨rfl, rfl⟩

theorem handlerOk_writeCalibration :
    ∃ rs ss, HandlerOk .writeCalibration p (handleWriteCalibration p) rs ss := by
  by_cases hbad : p.length < 6 ∨ (le16Load p 4).toInt16 = 0 ∨
      (le16Load p 0).toInt16 < 0 ∨ 4095 < (le16Load p 0).toInt16
  · refine handlerOk_nothing fun σ => ?_
    rw [handleWriteCalibration]
    dsimp only
    split
    · exact ⟨rfl, rfl⟩
    split
    · exact ⟨rfl, rfl⟩
    split
    · exact ⟨rfl, rfl⟩
    next hlen hden hanchor => exact absurd hbad (not_or.mpr ⟨hlen, not_or.mpr ⟨hden, hanchor⟩⟩)
  · obtain ⟨hlen, hbad⟩ := not_or.mp hbad
    obtain ⟨hden, hanchor⟩ := not_or.mp hbad
    obtain ⟨hlow, hhigh⟩ := not_or.mp hanchor
    refine handlerOk_post (r := .calibration
      ⟨(le16Load p 0).toInt16, (le16Load p 2).toInt16, (le16Load p 4).toInt16⟩) rfl ?_ fun σ => ?_
    · exact ⟨Int16.not_lt.mp hlow, Int16.not_lt.mp hhigh, hden⟩
    · rw [handleWriteCalibration, if_neg hlen]
      dsimp only
      rw [if_neg hden, if_neg hanchor]
      exact ⟨rfl, rfl⟩

theorem handlerOk_writeBl0939Cal :
    ∃ rs ss, HandlerOk .writeBl0939Cal p (handleWriteBl0939Cal p) rs ss := by
  by_cases hlen : p.length < 8
  · refine handlerOk_nothing fun σ => ?_
    rw [handleWriteBl0939Cal, if_pos hlen]
    exact ⟨rfl, rfl⟩
  · refine handlerOk_post (r := .bl0939Cal ⟨(le16Load p 0).toInt16, (le16Load p 2).toInt16,
      (le16Load p 4).toInt16, (le16Load p 6).toInt16,
      if 12 ≤ p.length then (le32Load p 8).toInt32 else 0⟩) trivial trivial fun σ => ?_
    rw [handleWriteBl0939Cal, if_neg hlen]
    exact ⟨rfl, rfl⟩

theorem handlerOk_rfidRemoveUid :
    ∃ rs ss, HandlerOk .rfidRemoveUid p (handleRfidRemoveUid p) rs ss := by
  by_cases hlen : p.length < 4
  · refine handlerOk_nothing fun σ => ?_
    rw [handleRfidRemoveUid, if_pos hlen]
    exact ⟨rfl, rfl⟩
  · refine handlerOk_post (r := .rfidAuthlistRemove (le32Load p 0)) ⟨rfl, rfl⟩ trivial fun σ => ?_
    rw [handleRfidRemoveUid, if_neg hlen]
    exact ⟨rfl, rfl⟩

theorem handlerOk_setRequireRfidAuth :
    ∃ rs ss, HandlerOk .setRequireRfidAuth p (handleSetRequireRfidAuth p) rs ss := by
  by_cases hlen : p.length < 1
  · refine handlerOk_nothing fun σ => ?_
    rw [handleSetRequireRfidAuth, if_pos hlen]
    exact ⟨rfl, rfl⟩
  · refine handlerOk_post (r := .requireFlag (p.getD 0 0)) ⟨rfl, rfl⟩ ?_ fun σ => ?_
    · show (if p.getD 0 0 ≠ 0 then 1 else 0 : UInt8) = 0 ∨
        (if p.getD 0 0 ≠ 0 then 1 else 0 : UInt8) = 1
      split
      · exact .inr rfl
      · exact .inl rfl
    · rw [handleSetRequireRfidAuth, if_neg hlen]
      exact ⟨rfl, rfl⟩

theorem handlerOk_otaBegin : ∃ rs ss, HandlerOk .otaBegin p (handleOtaBeginCmd p seq) rs ss := by
  by_cases hlen : p.length < 12
  · refine handlerOk_nothing fun σ => ?_
    rw [handleOtaBeginCmd, if_pos hlen]
    exact ⟨rfl, rfl⟩
  · refine handlerOk_post
      (r := .ota (.begin ⟨le32Load p 0, le32Load p 4, le32Load p 8, seq⟩)) trivial trivial
      fun σ => ?_
    rw [handleOtaBeginCmd, if_neg hlen]
    exact ⟨rfl, rfl⟩

theorem handlerOk_otaChunk : ∃ rs ss, HandlerOk .otaChunk p (handleOtaChunkCmd p seq) rs ss := by
  by_cases hfits : 8 < p.length ∧ p.length ≤ 8 + 48
  · have hdata : 0 < (p.drop 8).length ∧ (p.drop 8).length ≤ otaChunkMaxData := by
      rw [List.length_drop]
      show 0 < p.length - 8 ∧ p.length - 8 ≤ 48
      omega
    refine handlerOk_post (r := .ota (.chunk ⟨le32Load p 0, le32Load p 4, p.drop 8, seq,
      hdata.1, hdata.2⟩)) trivial trivial fun σ => ?_
    rw [handleOtaChunkCmd, if_neg (by omega), if_neg (by omega), PersistReq.otaChunk,
      dif_pos hdata]
    exact ⟨rfl, rfl⟩
  · refine handlerOk_nothing fun σ => ?_
    rw [handleOtaChunkCmd]
    split
    · exact ⟨rfl, rfl⟩
    split
    · exact ⟨rfl, rfl⟩
    next hlen hnone => exact absurd ⟨by omega, by omega⟩ hfits

theorem handlerOk_otaCommit : ∃ rs ss, HandlerOk .otaCommit p (handleOtaCommitCmd p seq) rs ss := by
  by_cases hlen : p.length < 4
  · refine handlerOk_nothing fun σ => ?_
    rw [handleOtaCommitCmd, if_pos hlen]
    exact ⟨rfl, rfl⟩
  · refine handlerOk_post (r := .ota (.commit ⟨le32Load p 0, seq⟩)) trivial trivial fun σ => ?_
    rw [handleOtaCommitCmd, if_neg hlen]
    exact ⟨rfl, rfl⟩

theorem handlerOk_otaAbort : ∃ rs ss, HandlerOk .otaAbort p (handleOtaAbortCmd p seq) rs ss := by
  by_cases hlen : p.length < 4
  · refine handlerOk_nothing fun σ => ?_
    rw [handleOtaAbortCmd, if_pos hlen]
    exact ⟨rfl, rfl⟩
  · refine handlerOk_post (r := .ota (.abort ⟨le32Load p 0, seq⟩)) trivial trivial fun σ => ?_
    rw [handleOtaAbortCmd, if_neg hlen]
    exact ⟨rfl, rfl⟩

theorem handlerOk_setTime : ∃ rs ss, HandlerOk .setTime p (handleSetTime e p seq) rs ss := by
  refine handlerOk_nothing fun σ => ?_
  rw [handleSetTime]
  split
  · exact ⟨rfl, rfl⟩
  · dsimp only
    rw [publishTime]
    split
    · exact queues_send e _ _
    · exact queues_send e _ _

theorem handlerOk_setGfciPolicy :
    ∃ rs ss, HandlerOk .setGfciPolicy p (handleSetGfciPolicy p) rs ss := by
  by_cases hlen : p.length < 1
  · refine handlerOk_nothing fun σ => ?_
    rw [handleSetGfciPolicy, if_pos hlen]
    exact ⟨rfl, rfl⟩
  · refine handlerOk_post (r := .gfciPolicy (p.getD 0 0)) trivial trivial fun σ => ?_
    rw [handleSetGfciPolicy, if_neg hlen]
    exact ⟨rfl, rfl⟩

/-- Every case of the switch. -/
theorem handlerOk_dispatchCommand (e : CommsEnv) (p : List UInt8) (seq : UInt8) (c : Command) :
    ∃ rs ss, HandlerOk c p (fun σ => dispatchCommand e p seq σ c) rs ss := by
  cases c with
  | ping => exact handlerOk_nothing fun σ => queues_send e _ σ
  | getState => exact handlerOk_nothing fun σ => queues_send e _ σ
  | getBuildInfo => exact handlerOk_nothing fun σ => queues_send e _ σ
  | getDeviceId => exact handlerOk_nothing fun σ => queues_send e _ σ
  | getTime => exact handlerOk_nothing fun σ => queues_send e _ σ
  | setTime => exact handlerOk_setTime
  | restart => exact handlerOk_nothing fun _ => ⟨rfl, rfl⟩
  | setLedOverride =>
    refine handlerOk_nothing fun σ => ?_
    show (handleSetLedOverride p σ).persist = _ ∧ (handleSetLedOverride p σ).inbox = _
    rw [handleSetLedOverride]
    split
    · exact ⟨rfl, rfl⟩
    · exact ⟨rfl, rfl⟩
  | buzzerBeep =>
    refine handlerOk_nothing fun σ => ?_
    show (handleBuzzerBeep p σ).persist = _ ∧ (handleBuzzerBeep p σ).inbox = _
    rw [handleBuzzerBeep]
    split
    · exact ⟨rfl, rfl⟩
    · exact ⟨rfl, rfl⟩
  | setAdvertisedAmps => exact handlerOk_setAmps
  | clearFault => exact handlerOk_clearFault
  | writeCalibration => exact handlerOk_writeCalibration
  | writeBl0939Cal => exact handlerOk_writeBl0939Cal
  | rfidRemoveUid => exact handlerOk_rfidRemoveUid
  | setRequireRfidAuth => exact handlerOk_setRequireRfidAuth
  | otaBegin => exact handlerOk_otaBegin
  | otaChunk => exact handlerOk_otaChunk
  | otaCommit => exact handlerOk_otaCommit
  | otaAbort => exact handlerOk_otaAbort
  | setGfciPolicy => exact handlerOk_setGfciPolicy
  | getFaultLog =>
    exact handlerOk_post (r := .getFaultLog (if 1 ≤ p.length then p.getD 0 0 else 16) seq) trivial
      trivial fun _ => ⟨rfl, rfl⟩
  | getLifetimeKwh =>
    exact handlerOk_post (r := .getLifetimeKwh seq) trivial trivial fun _ => ⟨rfl, rfl⟩
  | rfidClearList => exact handlerOk_post (r := .rfidAuthlistClear) rfl trivial fun _ => ⟨rfl, rfl⟩
  | rfidGetList =>
    exact handlerOk_post (r := .rfidAuthlistGetList seq) trivial trivial fun _ => ⟨rfl, rfl⟩
  | requestStop =>
    exact handlerOk_ask (r := .userPause (if 1 ≤ p.length then (p.getD 0 0).toNat else 0)) trivial
      fun _ => ⟨rfl, rfl⟩
  | requestStartResume => exact handlerOk_ask (r := .userResume) trivial fun _ => ⟨rfl, rfl⟩
  | rfidLearnNext => exact handlerOk_ask (r := .rfidLearnArm) rfl fun _ => ⟨rfl, rfl⟩
  | getRfidConfig => exact handlerOk_ask (r := .publishRfidConfig) trivial fun _ => ⟨rfl, rfl⟩
  | simulateReplug => exact handlerOk_ask (r := .simulateReplug) trivial fun _ => ⟨rfl, rfl⟩
  | runGfciCalTest => exact handlerOk_ask (r := .runGfciCalTest) trivial fun _ => ⟨rfl, rfl⟩
  | getGfciPolicy => exact handlerOk_ask (r := .publishGfciPolicy) trivial fun _ => ⟨rfl, rfl⟩

/-! ## The dispatch of a frame -/

/-- A comms task for which nothing waits. -/
def commsIdle : CommsState :=
  ⟨[], [], [], ledOverridePowerUp, buzzerPowerUp, ⟨0, 0, false⟩, ⟨0, false⟩, false⟩

/-- What the dispatch of a frame hands to the persist task. -/
def handedReqs (e : CommsEnv) (x : TlvFrame) : List PersistReq :=
  (commsDispatch e x commsIdle).persist

/-- What it asks of the safety task. -/
def handedAsks (e : CommsEnv) (x : TlvFrame) : List SafetyReq :=
  (commsDispatch e x commsIdle).inbox

theorem Hands.idle (h : Hands f rs ss) :
    (f commsIdle).persist = rs ∧ (f commsIdle).inbox = ss := by
  cases h with
  | nothing h => exact h commsIdle
  | post r h => exact h commsIdle
  | ask r h => exact h commsIdle

theorem Hands.queues (h : Hands f rs ss) (σ : CommsState) :
    (f σ).persist = rs.foldl persistPost σ.persist ∧
      (f σ).inbox = ss.foldl postSafetyReq σ.inbox := by
  cases h with
  | nothing h => exact h σ
  | post r h => exact h σ
  | ask r h => exact h σ

/-- A frame that is dispatched at all hands on what it hands on whatever waits. -/
theorem commsDispatch_queues (e : CommsEnv) (x : TlvFrame) {σ : CommsState}
    (hup : σ.restarting = false) :
    (commsDispatch e x σ).persist = (handedReqs e x).foldl persistPost σ.persist ∧
      (commsDispatch e x σ).inbox = (handedAsks e x).foldl postSafetyReq σ.inbox := by
  have hidle : commsIdle.restarting = false := rfl
  simp only [handedReqs, handedAsks, commsDispatch, hup, hidle, Bool.false_eq_true, if_false]
  cases Command.ofCode x.cmd with
  | none => exact ⟨rfl, rfl⟩
  | some c =>
    obtain ⟨rs, ss, hok⟩ := handlerOk_dispatchCommand e x.payload x.seq c
    obtain ⟨hreqs, hasks⟩ := hok.hands.idle
    dsimp only at hreqs hasks ⊢
    rw [hreqs, hasks]
    exact hok.hands.queues σ

/-- What a frame hands on is well formed, and one of its command. -/
theorem handed_spec (e : CommsEnv) (x : TlvFrame) :
    (∀ r ∈ handedReqs e x, ∃ c, Command.ofCode x.cmd = some c ∧ c.MayPost x.payload r ∧ r.Ok) ∧
      ∀ r ∈ handedAsks e x, ∃ c, Command.ofCode x.cmd = some c ∧ c.MayAsk r := by
  have hup : commsIdle.restarting = false := rfl
  rw [handedReqs, handedAsks, commsDispatch, hup, if_neg Bool.false_ne_true]
  cases hc : Command.ofCode x.cmd with
  | none => exact ⟨fun _ hr => absurd hr List.not_mem_nil, fun _ hr => absurd hr List.not_mem_nil⟩
  | some c =>
    obtain ⟨rs, ss, hok⟩ := handlerOk_dispatchCommand e x.payload x.seq c
    obtain ⟨hreqs, hasks⟩ := hok.hands.idle
    dsimp only at hreqs hasks ⊢
    rw [hreqs, hasks]
    exact ⟨fun r hr => ⟨c, rfl, hok.may_post r hr⟩, fun r hr => ⟨c, rfl, hok.may_ask r hr⟩⟩

end OpenEVCharger
