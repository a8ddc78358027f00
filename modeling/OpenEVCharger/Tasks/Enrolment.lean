import OpenEVCharger.Persist.AuthlistChanges
import OpenEVCharger.Safety.Authorization
import OpenEVCharger.Tasks.Settings

/-!
# Enrolment

How a card gets on the list that grants sessions. It was there at boot, or the FC41D has opened
the learn window and the card was swiped while it was open; and neither it nor the list has been
removed since. A unit that asks for cards starts charging for such a card alone.
-/

namespace OpenEVCharger

/-! ## A change of the list -/

/-- A card is on the list behind a change because the change adds it, or because it was there and
the change neither removes it nor clears the list, however the store ends. -/
theorem mem_of_change {c : CardChange} {r : RfidAuthlist} {card : UInt32} (h : CardsOk r.cards)
    (d : W25q) (hmem : card ∈ (callAuthlist c.call r d).list.cards) :
    c = .add card ∨ card ∈ r.cards ∧ c ≠ .remove card ∧ c ≠ .clear := by
  cases callAuthlist_changeSpec c h d with
  | refused hstores hlist _ _ =>
    rw [hlist] at hmem
    refine .inr ⟨hmem, ?_, ?_⟩
    · rintro rfl
      refine hstores ⟨fun hzero => h.nonzero (hzero ▸ hmem), ?_⟩
      refine Option.isSome_iff_ne_none.mpr fun hnone => ?_
      exact RfidAuthlist.find_eq_none.mp hnone hmem
    · rintro rfl
      refine hstores fun hzero => ?_
      rw [RfidAuthlist.cards_eq_nil.mpr hzero] at hmem
      exact absurd hmem List.not_mem_nil
  | stored hstores _ hsuccess hfailure =>
    have hlist : card ∈ c.apply r.cards ∨ card ∈ c.failed r.cards := by
      rcases rfidAuthlistStore_rc (c.record r) d with ⟨hrc, -⟩ | ⟨hrc, -⟩
      · rw [(hsuccess hrc).2] at hmem
        exact .inl hmem
      · rw [(hfailure hrc).2] at hmem
        exact .inr hmem
    have herase : ∀ uid, card ∈ r.cards.erase uid → card ∈ r.cards ∧ card ≠ uid := fun uid he =>
      ⟨List.mem_of_mem_erase he, ((h.nodup.mem_erase_iff).mp he).1⟩
    cases c with
    | add uid =>
      have hadds : card ∈ r.cards ∨ card = uid := by
        rcases hlist with happly | hfailed
        · rw [CardChange.apply] at happly
          split at happly
          · exact .inl happly
          · exact (List.mem_append.mp happly).imp_right List.mem_singleton.mp
        · exact .inl hfailed
      rcases hadds with hbefore | rfl
      · exact .inr ⟨hbefore, CardChange.noConfusion, CardChange.noConfusion⟩
      · exact .inl rfl
    | remove uid =>
      have hboth : card ∈ r.cards.erase uid := hlist.elim id id
      obtain ⟨hbefore, hne⟩ := herase uid hboth
      refine .inr ⟨hbefore, fun heq => hne (CardChange.remove.inj heq).symm, ?_⟩
      exact CardChange.noConfusion
    | clear =>
      have hnil : card ∈ ([] : List UInt32) := hlist.elim id id
      exact absurd hnil List.not_mem_nil

/-- The change of the list that a request is. -/
def PersistReq.change : PersistReq → Option CardChange
  | .rfidAuthlistAdd uid => some (.add uid)
  | .rfidAuthlistRemove uid => some (.remove uid)
  | .rfidAuthlistClear => some .clear
  | _ => none

theorem authlist_persistServe (r : PersistReq) (outcomes : List WriteOutcome) (t : PersistTask) :
    (persistServe r outcomes t).task.store.authlist =
      r.change.elim t.store.authlist fun c =>
        (callAuthlist c.call t.store.authlist ⟨t.store.flash, outcomes⟩).list := by
  cases r <;> rfl

namespace Charger

variable {B : ChargerBuild} {i : ChargerInput} {σ : Charger} {card : UInt32} {r : PersistReq}

/-- The cards that grant sessions. -/
def cards (σ : Charger) : List UInt32 := σ.persist.store.authlist.cards

/-- A card is taken off the list, by itself or with all others. -/
def Unlists (card : UInt32) (i : ChargerInput) (σ : Charger) : Prop :=
  Carries (.rfidAuthlistRemove card) i σ ∨ Carries .rfidAuthlistClear i σ

/-- A tick finds a card swiped. -/
def Swipes (B : ChargerBuild) (card : UInt32) (i : ChargerInput) (σ : Charger) : Prop :=
  ∃ t, i = .safety t ∧ σ.restarting = false ∧
    swipedCard (t.input σ.persist.store)
      (beforeRfid B.flags (t.input σ.persist.store) σ.safety).task = some card

theorem cards_step (h : CardsOk σ.cards) : CardsOk (σ.step B i).cards ∧
    ∀ card ∈ (σ.step B i).cards,
      Carries (.rfidAuthlistAdd card) i σ ∨ card ∈ σ.cards ∧ ¬ Unlists card i σ := by
  have hpersist := persist_step (B := B) i σ
  rw [cards, hpersist]
  rcases carries_cases i σ with hnone | ⟨⟨r, outcomes⟩, hone⟩
  · rw [hnone]
    refine ⟨h, fun card hmem => .inr ⟨hmem, ?_⟩⟩
    rintro (⟨o, ho⟩ | ⟨o, ho⟩)
    · rw [hnone] at ho
      exact absurd ho List.not_mem_nil
    · rw [hnone] at ho
      exact absurd ho List.not_mem_nil
  · have honly : ∀ r', Carries r' i σ → r' = r := by
      rintro r' ⟨o, ho⟩
      rw [hone] at ho
      exact congrArg Prod.fst (List.mem_singleton.mp ho)
    rw [hone, List.foldl_cons, List.foldl_nil, authlist_persistServe]
    cases hchange : r.change with
    | none =>
      refine ⟨h, fun card hmem => .inr ⟨hmem, ?_⟩⟩
      rintro (hcarries | hcarries)
      · rw [← honly _ hcarries] at hchange
        cases hchange
      · rw [← honly _ hcarries] at hchange
        cases hchange
    | some c =>
      refine ⟨(callAuthlist_changeSpec c h _).cardsOk h, fun card hmem => ?_⟩
      rcases mem_of_change h _ hmem with rfl | ⟨hbefore, hremove, hclear⟩
      · have hr : r = .rfidAuthlistAdd card := by
          cases r with
          | rfidAuthlistAdd uid =>
            rw [CardChange.add.inj (Option.some.inj hchange)]
          | _ => cases hchange
        exact .inl (hr ▸ carries_of_eq hone)
      · refine .inr ⟨hbefore, ?_⟩
        rintro (hcarries | hcarries)
        · rw [← honly _ hcarries] at hchange
          exact hremove (Option.some.inj hchange).symm
        · rw [← honly _ hcarries] at hchange
          exact hclear (Option.some.inj hchange).symm

end Charger

/-! ## The boot path -/

theorem unlearned_bootTask (fl : BuildFlags) (b : BootInput) :
    Unlearned (safetyTaskInit b.tickCount) (bootTask fl b) := by
  have hcheck : ∀ (failed : Bool) (fid : FaultId) (js : J1772State) (cpMv : ℤ) (u : SafetyTask),
      Unlearned (safetyTaskInit b.tickCount) u →
        Unlearned (safetyTaskInit b.tickCount) (bootCheck failed fid js cpMv u) := by
    intro failed fid js cpMv u hu
    rw [bootCheck]
    split
    · exact hu.toFault fid js cpMv
    · exact hu
  have hpilot : Unlearned (safetyTaskInit b.tickCount)
      (bootPilot b (evseTransition .selfTest (safetyTaskInit b.tickCount))) := by
    have hmove := (Unlearned.refl (safetyTaskInit b.tickCount)).transition .selfTest
    exact hmove
  rw [bootTask]
  generalize bootPilot b (evseTransition .selfTest (safetyTaskInit b.tickCount)) = s at hpilot
  refine Unlearned.publish ?_ _
  have hself := hcheck (decide (0 < runBootSelfTest b.adc (b.cpHighMv 4))) .bootSelfTest
    s.cp.committed (b.cpHighMv 4) s hpilot
  have hgfci := hcheck (fl.gfciCalSelfTest && !b.gfciCalPassed) .gfciSelfTest
    s.cp.committed (b.cpHighMv 4) _ hself
  split
  · exact (unlearned_checkSafeFail hgfci b.crashSafeFail).transition .ready
  · exact unlearned_checkSafeFail hgfci b.crashSafeFail

/-! ## The learn window -/

section Runs

open Charger

variable {B : ChargerBuild} {b : ChargerBoot} {ins : ℕ → ChargerInput} {n : ℕ} {card : UInt32}

theorem tickCount_succ (n : ℕ) : tickCount B b ins (n + 1) = tickCount B b ins n +
    if (chargerRun B b ins n).ticks (ins n) then 1 else 0 := by
  have hcount := (safetySimulation B).count_succ b ins n
  have hlabel : ((safetySimulation B).label (ins n) ((chargerMachine B).run b ins n)
      ((safetySimulation B).log b ins n)).isSome = (chargerRun B b ins n).ticks (ins n) := by
    cases htick : (chargerRun B b ins n).ticks (ins n) with
    | false => exact congrArg Option.isSome (tickLabel_of_not_tick htick)
    | true =>
      obtain ⟨r, hr, hup⟩ := ticks_eq_true.mp htick
      rw [hr] at htick ⊢
      exact congrArg Option.isSome (if_pos htick)
  rw [hlabel] at hcount
  exact hcount

theorem not_tick_of_dispatches {c : Command} {x : TlvFrame} {i : ChargerInput} {σ : Charger}
    (h : Handles c x i σ) : σ.ticks i = false := by
  obtain ⟨_, ⟨r, rfl⟩, _⟩ := h
  exact Bool.and_false _

/-- A learn request has been dispatched at a step. -/
def LearnAsked (B : ChargerBuild) (b : ChargerBoot) (ins : ℕ → ChargerInput) (l : ℕ) : Prop :=
  ∃ x, Handles .rfidLearnNext x (ins l) (chargerRun B b ins l)

/-- A learn request that waits has been dispatched since the last tick. -/
theorem arm_waits (h : .rfidLearnArm ∈ (chargerRun B b ins n).safety.inbox) :
    ∃ l < n, LearnAsked B b ins l ∧ tickCount B b ins l = tickCount B b ins n := by
  induction n with
  | zero => exact absurd h List.not_mem_nil
  | succ n ih =>
    have hstep : (chargerRun B b ins (n + 1)).safety.inbox = _ :=
      step_inbox (B := B) (i := ins n) (σ := chargerRun B b ins n)
    rw [hstep] at h
    rcases Mailbox.mem_of_mem_foldl_post h with hwaits | hasked
    · cases htick : (chargerRun B b ins n).ticks (ins n) with
      | false =>
        rw [htick] at hwaits
        obtain ⟨l, hl, hlearn, hcount⟩ := ih hwaits
        refine ⟨l, Nat.lt_succ_of_lt hl, hlearn, ?_⟩
        rw [tickCount_succ, htick]
        exact hcount
      | true =>
        -- a tick takes as many requests as the inbox holds
        have hroom : (chargerRun B b ins n).safety.inbox.length ≤ drainMax :=
          Mailbox.length_queue (M := safetyMailbox B) ins (Nat.zero_le _) n
        rw [htick, if_pos rfl, List.drop_of_length_le hroom] at hwaits
        exact absurd hwaits List.not_mem_nil
    · obtain ⟨x, hx⟩ := asked_arm hasked
      refine ⟨n, Nat.lt_succ_self n, ⟨x, hx⟩, ?_⟩
      rw [tickCount_succ, not_tick_of_dispatches hx]
      rfl

/-- The window that a tick finds, behind the requests of the tick. -/
theorem window_before {t : TickReading} (ih : 0 < (chargerRun B b ins n).safety.task.rfidLearnTicks →
      ∃ l < n, LearnAsked B b ins l ∧ tickCount B b ins n +
        (chargerRun B b ins n).safety.task.rfidLearnTicks ≤ tickCount B b ins l + rfidLearnTicks)
    (hopen : 0 < (beforeRfid B.flags (t.input (chargerRun B b ins n).persist.store)
      (chargerRun B b ins n).safety).task.rfidLearnTicks) :
    ∃ l < n, LearnAsked B b ins l ∧ tickCount B b ins n +
      (beforeRfid B.flags (t.input (chargerRun B b ins n).persist.store)
        (chargerRun B b ins n).safety).task.rfidLearnTicks ≤
          tickCount B b ins l + rfidLearnTicks := by
  have hwindow := (tickLearns B.flags (t.input (chargerRun B b ins n).persist.store)
    (chargerRun B b ins n).safety).window
  rw [hwindow] at hopen ⊢
  by_cases harm : .rfidLearnArm ∈ received (t.input (chargerRun B b ins n).persist.store)
      (chargerRun B b ins n).safety
  · rw [if_pos harm]
    rw [received_quiet fun _ => rfl] at harm
    obtain ⟨l, hl, hlearn, hcount⟩ := arm_waits (List.mem_of_mem_take harm)
    exact ⟨l, hl, hlearn, by omega⟩
  · rw [if_neg harm] at hopen ⊢
    exact ih hopen

/-- The window is open only as long after a learn request as it is to be. -/
theorem window_open (h : 0 < (chargerRun B b ins n).safety.task.rfidLearnTicks) :
    ∃ l < n, LearnAsked B b ins l ∧ tickCount B b ins n +
      (chargerRun B b ins n).safety.task.rfidLearnTicks ≤
        tickCount B b ins l + rfidLearnTicks := by
  induction n with
  | zero =>
    have hboot : (chargerRun B b ins 0).safety.task.rfidLearnTicks = 0 :=
      (unlearned_bootTask B.flags (b.reading.input b.stores)).ticks
    omega
  | succ n ih =>
    have hcount : tickCount B b ins (n + 1) = tickCount B b ins n +
        if (chargerRun B b ins n).ticks (ins n) then 1 else 0 := tickCount_succ n
    cases htick : (chargerRun B b ins n).ticks (ins n) with
    | false =>
      have hsame : (chargerRun B b ins (n + 1)).safety.task =
          (chargerRun B b ins n).safety.task := task_of_not_tick htick
      rw [hsame] at h ⊢
      rw [hcount, htick]
      obtain ⟨l, hl, hrest⟩ := ih h
      exact ⟨l, Nat.lt_succ_of_lt hl, hrest⟩
    | true =>
      obtain ⟨t, ht, hup⟩ := ticks_eq_true.mp htick
      have hsafety : (chargerRun B b ins (n + 1)).safety =
          tick B.flags (t.input (chargerRun B b ins n).persist.store)
            (chargerRun B b ins n).safety := by
        have hstep : (chargerRun B b ins (n + 1)).safety =
            ((chargerRun B b ins n).step B (ins n)).safety := rfl
        rw [hstep, ht]
        exact step_of_tick hup
      have hcloses := (tickLearns B.flags (t.input (chargerRun B b ins n).persist.store)
        (chargerRun B b ins n).safety).closes
      rw [hsafety] at h ⊢
      rw [hcount, htick, if_pos rfl]
      obtain ⟨l, hl, hlearn, hbound⟩ := window_before ih (t := t) (by omega)
      exact ⟨l, Nat.lt_succ_of_lt hl, hlearn, by omega⟩

/-! ## Cards on the list -/

/-- A card swiped at step `t`, while the window opened by a learn request was open. -/
structure Learned (B : ChargerBuild) (b : ChargerBoot) (ins : ℕ → ChargerInput) (card : UInt32)
    (t : ℕ) : Prop where
  swiped : Swipes B card (ins t) (chargerRun B b ins t)
  asked : ∃ l < t, LearnAsked B b ins l ∧
    tickCount B b ins t < tickCount B b ins l + rfidLearnTicks

/-- The output of a tick that adds a card. -/
theorem learned_of_output {t : TickReading} {uid : ℕ} (ht : ins n = .safety t)
    (hup : (chargerRun B b ins n).restarting = false)
    (h : .postAuthlistAdd uid ∈ (chargerRun B b ins n).tickOutputs B t) :
    Learned B b ins (UInt32.ofNat uid) n := by
  obtain ⟨new, hnew, huids⟩ := (tickLearns B.flags (t.input (chargerRun B b ins n).persist.store)
    (chargerRun B b ins n).safety).adds
  rw [tickOutputs, hnew, List.drop_left] at h
  obtain ⟨hswiped, hopen⟩ := huids uid h
  refine ⟨⟨t, ht, hup, hswiped⟩, ?_⟩
  obtain ⟨l, hl, hlearn, hbound⟩ := window_before window_open hopen
  exact ⟨l, hl, hlearn, by omega⟩

/-- An addition that waits goes back to a card that was learned. -/
theorem learned_of_queued (h : .rfidAuthlistAdd card ∈ (chargerRun B b ins n).queue) :
    ∃ t < n, Learned B b ins card t := by
  rcases queued_from h with hboot | ⟨k, hk, hposted⟩
  · rcases posted_outputs hboot with ⟨e, he⟩ | ⟨e, he⟩ | ⟨uid, huid, _⟩
    · cases he
    · cases he
    · obtain ⟨-, new, hnew, hadds⟩ := unlearned_bootTask B.flags (b.reading.input b.stores)
      have houtputs : (bootTask B.flags (b.reading.input b.stores)).outputs = new := hnew
      rw [houtputs] at huid
      exact absurd (hadds _ huid) Bool.true_eq_false.mp
  · cases hposted with
    | frame c x _ hmay _ => exact absurd hmay id
    | tick t ht hup hr =>
      rcases posted_outputs hr with ⟨e, he⟩ | ⟨e, he⟩ | ⟨uid, huid, heq⟩
      · cases he
      · cases he
      · rw [PersistReq.rfidAuthlistAdd.injEq] at heq
        rw [heq]
        exact ⟨k, hk, learned_of_output ht hup huid⟩
    | io hr =>
      rcases hr with he | ⟨e, he⟩
      · cases he
      · cases he

/-- How a card comes to be on the list: it was there at boot, or it was learned and then added,
and in either case it has not been taken off since. -/
def Enrolled (B : ChargerBuild) (b : ChargerBoot) (ins : ℕ → ChargerInput) (card : UInt32)
    (n : ℕ) : Prop :=
  (card ∈ b.stores.authlist.cards ∧ ∀ k < n, ¬ Unlists card (ins k) (chargerRun B b ins k)) ∨
    ∃ t a, t < a ∧ a < n ∧ Learned B b ins card t ∧
      Carries (.rfidAuthlistAdd card) (ins a) (chargerRun B b ins a) ∧
      ∀ k, a < k → k < n → ¬ Unlists card (ins k) (chargerRun B b ins k)

theorem cardsOk_run (hboot : CardsOk b.stores.authlist.cards) (n : ℕ) :
    CardsOk (chargerRun B b ins n).cards := by
  induction n with
  | zero => exact hboot
  | succ n ih => exact (cards_step ih).1

theorem enrolled_of_listed (hboot : CardsOk b.stores.authlist.cards)
    (h : card ∈ (chargerRun B b ins n).cards) : Enrolled B b ins card n := by
  have hstep : ∀ k < n, card ∈ (chargerRun B b ins (k + 1)).cards →
      Carries (.rfidAuthlistAdd card) (ins k) (chargerRun B b ins k) ∨
        (card ∈ (chargerRun B b ins k).cards ∧
          ¬ Unlists card (ins k) (chargerRun B b ins k)) :=
    fun k _ hk => (cards_step (cardsOk_run hboot k)).2 card hk
  rcases Machine.held_since (m := chargerMachine B) (b := b) (fun σ => card ∈ σ.cards)
    (Carries (.rfidAuthlistAdd card)) (Unlists card) hstep h with hkept | ⟨a, ha, hadds, hkept⟩
  · exact .inl hkept
  · obtain ⟨t, ht, hlearned⟩ := learned_of_queued (queued_of_carries hadds)
    exact .inr ⟨t, a, ht, ha, hlearned, hadds, hkept⟩

/-! ## Charging -/

/-- A tick in which charging starts. -/
def StartsCharging (B : ChargerBuild) (i : ChargerInput) (σ : Charger) : Prop :=
  ∃ t, i = .safety t ∧ σ.restarting = false ∧
    chargingStarts B.flags (t.input σ.persist.store) σ.safety

/-- A tick whose swipe grants a session. -/
def Grants (B : ChargerBuild) (i : ChargerInput) (σ : Charger) : Prop :=
  ∃ t, i = .safety t ∧ σ.restarting = false ∧
    swipeAuthorized (t.input σ.persist.store)
      (beforeRfid B.flags (t.input σ.persist.store) σ.safety).task = true

/-- The EVSE update grants nothing. -/
theorem authorized_of_update {c : Interlock} {d : ℕ} {g : Bool}
    (h : (c.update d g).authorized = true) : c.authorized = true := by
  have hdrop : c.dropAuth.authorized = true → c.authorized = true := by
    intro hkept
    rw [Interlock.dropAuth, Bool.and_eq_true] at hkept
    exact hkept.1
  unfold Interlock.update at h
  split at h
  · exact h
  refine hdrop ?_
  split at h
  · split at h
    · rw [Interlock.move_authorized] at h
      exact h
    · exact h
  · unfold Interlock.charge at h
    split at h
    · rw [Interlock.move_authorized] at h
      exact h
    split at h
    · rw [Interlock.move_authorized] at h
      exact h
    · exact h

theorem authorized_before {fl : BuildFlags} {i : TickInput} {σ : System}
    (h : (afterUpdate fl i σ).sessionAuthorized = true) : σ.task.sessionAuthorized = true := by
  have hview : (view (afterUpdate fl i σ)).authorized = true := h
  rw [view_afterUpdate] at hview
  exact (beforeUpdate_frame fl i σ).authorized.symm.trans (authorized_of_update hview)

/-- A session is granted by a swipe. -/
theorem granted_of_authorized (h : (chargerRun B b ins n).safety.task.sessionAuthorized = true) :
    ∃ j < n, Grants B (ins j) (chargerRun B b ins j) := by
  have hboot : ¬ ((chargerMachine B).boot b).safety.task.sessionAuthorized = true :=
    Bool.eq_false_iff.mp (booted_bootTask B.flags (b.reading.input b.stores)).not_authorized
  have hstep : ∀ k < n, (chargerRun B b ins (k + 1)).safety.task.sessionAuthorized = true →
      Grants B (ins k) (chargerRun B b ins k) ∨
        ((chargerRun B b ins k).safety.task.sessionAuthorized = true ∧ True) := by
    intro k _ hk
    cases htick : (chargerRun B b ins k).ticks (ins k) with
    | false =>
      have hsame : (chargerRun B b ins (k + 1)).safety.task =
          (chargerRun B b ins k).safety.task := task_of_not_tick htick
      rw [hsame] at hk
      exact .inr ⟨hk, trivial⟩
    | true =>
      obtain ⟨t, ht, hup⟩ := ticks_eq_true.mp htick
      have hsafety : (chargerRun B b ins (k + 1)).safety =
          tick B.flags (t.input (chargerRun B b ins k).persist.store)
            (chargerRun B b ins k).safety := by
        have hrun : (chargerRun B b ins (k + 1)).safety =
            ((chargerRun B b ins k).step B (ins k)).safety := rfl
        rw [hrun, ht]
        exact step_of_tick hup
      rw [hsafety] at hk
      rcases authorized_tick hk with hswipe | hkept
      · exact .inl ⟨t, ht, hup, hswipe⟩
      · exact .inr ⟨authorized_before hkept, trivial⟩
  obtain ⟨j, hj, hgrants, _⟩ := Machine.set_since (m := chargerMachine B) (b := b)
    (fun σ => σ.safety.task.sessionAuthorized = true) (Grants B) (fun _ => True) hboot hstep h
  exact ⟨j, hj, hgrants⟩

/-- The swipe that grants a session is one of a card on the list. -/
theorem card_of_grants {i : ChargerInput} {σ : Charger} (h : Grants B i σ) :
    ∃ card ∈ σ.cards, Swipes B card i σ := by
  obtain ⟨t, ht, hup, hswipe⟩ := h
  have hlist : (t.input σ.persist.store).authlist = σ.cards.map UInt32.toNat := rfl
  obtain ⟨card, hcard, hswiped, _⟩ := card_of_swipeAuthorized hlist hswipe
  exact ⟨card, hcard, t, ht, hup, hswiped⟩

theorem requireRfidAuth_not_posted {outputs : List Output} {enable : UInt8} :
    PersistReq.requireRfidAuth enable ∉ postedReqs outputs := by
  intro h
  rcases posted_outputs h with ⟨e, he⟩ | ⟨e, he⟩ | ⟨uid, _, he⟩
  · cases he
  · cases he
  · cases he

/-- A request of that kind comes from a frame alone. -/
theorem enable_of_queued {enable : UInt8}
    (h : .requireRfidAuth enable ∈ (chargerRun B b ins n).queue)
    (hframes : ∀ k < n, ∀ x, Handles .setRequireRfidAuth x (ins k) (chargerRun B b ins k) →
      x.payload.getD 0 0 ≠ 0) : enable = 1 := by
  rcases queued_from h with hboot | ⟨k, hk, hposted⟩
  · exact absurd hboot requireRfidAuth_not_posted
  · cases hposted with
    | frame c x hx hmay _ =>
      obtain ⟨rfl, rfl⟩ := hmay
      exact if_pos (hframes k hk x hx)
    | tick t _ _ hr => exact absurd hr requireRfidAuth_not_posted
    | io hr =>
      rcases hr with he | ⟨e, he⟩
      · cases he
      · cases he

/-- No other request changes whether cards are asked for. -/
theorem requireRfidAuth_apply {s : Settings} {r : PersistReq} (h : s.requireRfidAuth ≠ 0)
    (hr : ∀ enable, r = .requireRfidAuth enable → enable ≠ 0) :
    (s.apply r).requireRfidAuth ≠ 0 := by
  cases r with
  | requireRfidAuth enable =>
    show (if enable ≠ 0 then 1 else 0 : UInt8) ≠ 0
    rw [if_pos (hr enable rfl)]
    decide
  | gfciPolicy policy =>
    rw [Settings.apply]
    split
    · exact h
    · exact h
  | calibration a =>
    rw [Settings.apply]
    split
    · exact h
    · exact h
  | _ => exact h

/-- The unit goes on asking for a card as long as no frame tells it otherwise. -/
theorem require_kept (hboot : b.stores.cfg.requireRfidAuth ≠ 0)
    (hframes : ∀ k < n, ∀ x, Handles .setRequireRfidAuth x (ins k) (chargerRun B b ins k) →
      x.payload.getD 0 0 ≠ 0) : (chargerRun B b ins n).persist.store.cfg.requireRfidAuth ≠ 0 := by
  induction n with
  | zero => exact hboot
  | succ n ih =>
    have hbefore := ih fun k hk => hframes k (Nat.lt_succ_of_lt hk)
    rw [chargerRun_succ, persist_step]
    rcases carries_cases (ins n) (chargerRun B b ins n) with hnone | ⟨⟨r, outcomes⟩, hone⟩
    · rw [hnone]
      exact hbefore
    have hqueued := queued_of_carries (carries_of_eq hone)
    have hflag : ((chargerRun B b ins n).persist.store.settings.apply r).requireRfidAuth ≠ 0 := by
      refine requireRfidAuth_apply hbefore ?_
      rintro enable rfl
      rw [enable_of_queued hqueued fun k hk => hframes k (Nat.lt_succ_of_lt hk)]
      decide
    have hsettings := settings_persistServe r outcomes (chargerRun B b ins n).persist
    rw [← hsettings] at hflag
    rw [hone, List.foldl_cons, List.foldl_nil]
    exact hflag

end Runs

/-- In every run from a boot with a well-formed list and with cards asked for, as long as no
frame tells the unit to stop asking: when charging starts, an enrolled card has been swiped
before, on the list at boot or learned in the thirty seconds behind a learn request and added
then, and not taken off between that and its swipe. -/
theorem charging_needs_enrolled_card (B : ChargerBuild) (b : ChargerBoot)
    (ins : ℕ → ChargerInput) (n : ℕ) (hcards : CardsOk b.stores.authlist.cards)
    (hrequire : b.stores.cfg.requireRfidAuth ≠ 0)
    (hframes : ∀ k < n, ∀ x,
      Charger.Handles .setRequireRfidAuth x (ins k) (chargerRun B b ins k) →
        x.payload.getD 0 0 ≠ 0)
    (hstart : StartsCharging B (ins n) (chargerRun B b ins n)) :
    ∃ j < n, ∃ card, Charger.Swipes B card (ins j) (chargerRun B b ins j) ∧
      Enrolled B b ins card j := by
  obtain ⟨t, _, _, hstart⟩ := hstart
  have hasks := require_kept hrequire hframes
  have hmay := (startConditions_of_chargingStarts hstart).mayStart
  have hinput : (t.input (chargerRun B b ins n).persist.store).requireRfidAuth = true :=
    decide_eq_true hasks
  rw [sessionMayStart, hinput, Bool.not_true, Bool.false_or] at hmay
  have hauthorized : (chargerRun B b ins n).safety.task.sessionAuthorized = true :=
    (beforeUpdate_frame B.flags _ _).authorized.symm.trans hmay
  obtain ⟨j, hj, hgrants⟩ := granted_of_authorized hauthorized
  obtain ⟨card, hlisted, hswipes⟩ := card_of_grants hgrants
  exact ⟨j, hj, card, hswipes, enrolled_of_listed hcards hlisted⟩

/-! ### A run of ticks -/

/-- As long as the safety task alone is run, the stores stay and its loop goes on by itself. -/
theorem run_of_ticks (B : ChargerBuild) (b : ChargerBoot) (rs : ℕ → TickReading) (n : ℕ) :
    let σ := chargerRun B b (fun k => .safety (rs k)) n
    σ.restarting = false ∧ σ.persist.store = b.stores ∧
      σ.safety = safetyRun B.flags (b.reading.input b.stores) (fun k => (rs k).input b.stores) n := by
  induction n with
  | zero => exact ⟨rfl, rfl, rfl⟩
  | succ n ih =>
    obtain ⟨hup, hstore, hsafety⟩ := ih
    have hstep : (chargerRun B b (fun k => .safety (rs k)) n).step B (.safety (rs n)) =
        (chargerRun B b (fun k => .safety (rs k)) n).safetyTurn B (rs n) := by
      unfold Charger.step
      exact if_neg (Bool.eq_false_iff.mp hup)
    refine ⟨?_, ?_, ?_⟩
    · rw [chargerRun_succ, hstep]
      exact hup
    · rw [chargerRun_succ, hstep]
      exact hstore
    · rw [chargerRun_succ, Charger.step_of_tick hup, hstore, hsafety]
      rfl

/-- A flash with cards asked for and one card on the list. -/
def listedFlash : NorFlash.Mem :=
  (rfidAuthlistAdd 0x12345678 (.zero 128)
    (bootConfigSetRequireRfidAuth 1 .zero ⟨fun _ => NorFlash.blank, []⟩).chip).chip.mem

def listedMain : MainBoot where
  flash := listedFlash
  bank0 := fun _ => NorFlash.blank
  applyEnabled := true
  w25qOk := true
  outcomes := fun _ => []
  wasCrash := false
  rtc := ⟨0, false⟩

/-- The records of that flash, with no update pending. -/
def listedStores : PersistState :=
  listedMain.logs { listedMain.loads with
    cfg := listedMain.loads.cfg
    flash := listedMain.loads.flash }

theorem listedMain_stores : listedMain.stores = some listedStores := by
  have hnone : listedMain.loads.cfg.pendingOtaFlag = 0 := by decide +kernel
  have hpending : listedMain.pendingOta =
      .returned 0 listedMain.loads.cfg ⟨listedMain.loads.flash, []⟩ := by
    rw [MainBoot.pendingOta]
    exact if_pos hnone
  have hstores := MainBoot.stores_of_returned (b := listedMain) rfl hpending
  rw [hstores, listedStores]

theorem listedStores_read :
    listedStores.crash.safeFail = false ∧ listedStores.cfg.requireRfidAuth = 1 ∧
      listedStores.cfg.gfciFaultPolicy = 0 ∧ listedStores.cfg.fc41dAdvertisedAmps = 0 ∧
      listedStores.cal.cal.bl0939.iaNaPerRaw = 0 ∧ listedStores.cal.cal.bl0939.paUwPerRaw = 0 ∧
      calibrationBl0939FreqConst listedStores.cal = 271900 ∧
      listedStores.authlist.cards = [0x12345678] := by
  decide +kernel

def listedBoot : ChargerBoot where
  main := listedMain
  stores := listedStores
  main_stores := listedMain_stores
  reading := ⟨0, fun _ => 6000, (quietBoot 6000).adc, true⟩
  txFree := fun _ => true

/-- A car that asks for current, and the card swiped in the first tick. -/
def listedReading (k : ℕ) : TickReading :=
  let i := swipeFirstRun k
  ⟨i.tickCount, i.cpHighMv, i.adc, i.gfciFaultActive, i.gfciInHandshakeWindow, i.dip1Closed,
    i.bl0939, i.rfidRx, ⟨0, 0⟩, fun _ => true⟩

theorem listedReading_input (k : ℕ) : (listedReading k).input listedStores = swipeFirstRun k := by
  obtain ⟨hcrash, hrequire, hpolicy, hamps, hia, hpa, hfreq, hcards⟩ := listedStores_read
  have hposts : (fun _ => []) = (swipeFirstRun k).posts := funext fun j => (ite_self []).symm
  rw [TickReading.input, hcrash, hrequire, hpolicy, hamps, hia, hpa, hfreq, hcards, hposts]
  rfl

set_option maxRecDepth 4000 in
/-- The card on the list is swiped, and charging starts once the dwell is over. -/
theorem charging_needs_enrolled_card_first :
    let B : ChargerBuild := ⟨defaultFlags, [], [], .zero 12⟩
    let ins := fun k => ChargerInput.safety (listedReading k)
    ∃ j < 49, ∃ card, Charger.Swipes B card (ins j) (chargerRun B listedBoot ins j) ∧
      Enrolled B listedBoot ins card j := by
  intro B ins
  obtain ⟨hcrash, hrequire, _, _, _, _, _, hcards⟩ := listedStores_read
  have hasks : listedBoot.stores.cfg.requireRfidAuth ≠ 0 := by
    rw [show listedBoot.stores.cfg.requireRfidAuth = 1 from hrequire]
    decide
  obtain ⟨hup, hstore, hsafety⟩ := run_of_ticks B listedBoot listedReading 49
  refine charging_needs_enrolled_card B listedBoot ins 49 ?_ hasks ?_ ?_
  · show CardsOk listedStores.authlist.cards
    rw [hcards]
    exact ⟨by decide, List.nodup_singleton _, by decide⟩
  · rintro k _ x ⟨_, ⟨r, hr⟩, _⟩
    cases hr
  · refine ⟨listedReading 49, rfl, hup, ?_⟩
    have hinput : (fun k => (listedReading k).input listedStores) = swipeFirstRun :=
      funext listedReading_input
    have hboot : listedBoot.reading.input listedStores = quietBoot 6000 := by
      rw [BootReading.input, hcrash]
      rfl
    rw [hstore, hsafety]
    show chargingStarts defaultFlags ((listedReading 49).input listedStores)
      (safetyRun defaultFlags (listedBoot.reading.input listedStores)
        (fun k => (listedReading k).input listedStores) 49)
    rw [hinput, hboot, listedReading_input]
    decide +kernel

end OpenEVCharger
