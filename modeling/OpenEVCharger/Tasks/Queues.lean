import OpenEVCharger.Tasks.Charger
import OpenEVCharger.Tasks.Handed

/-!
# The queues of the charger

The queue of the persist task and the inbox of the safety task are mailboxes of the charger:
what a task accepts it serves once and in order, the persist task within eight of its turns
and the safety task in its next tick, whatever turns come between.
-/

namespace OpenEVCharger

open NorFlash (Mem)

/-! ## The inbox of a tick -/

/-- With nothing posted during a tick, the drain takes what waits. -/
theorem receiveLoop_quiet {i : TickInput} {k : ℕ} (h : ∀ j, k ≤ j → i.posts j = []) (left : ℕ)
    (inbox : List SafetyReq) :
    receiveLoop i left k inbox = (inbox.take left, inbox.drop left) := by
  induction left generalizing k inbox with
  | zero => rfl
  | succ left ih =>
    rw [receiveLoop, h k (Nat.le_refl k), List.foldl_nil]
    cases inbox with
    | nil => rfl
    | cons r inbox =>
      dsimp only
      rw [ih fun j hj => h j (Nat.le_of_succ_le hj)]
      rfl

theorem received_quiet {i : TickInput} (h : ∀ k, i.posts k = []) (σ : System) :
    received i σ = σ.inbox.take drainMax := by
  rw [received, receiveLoop_quiet fun k _ => h k]

/-- What the swipe of a tick asks of the safety task itself. -/
def swipeAsks (i : TickInput) (s : SafetyTask) : List SafetyReq := (rfidStep i ⟨s, []⟩).inbox

theorem inbox_rfidGrant (i : TickInput) (s : SafetyTask) (inbox : List SafetyReq) :
    (rfidGrant i ⟨s, inbox⟩).2.inbox =
      (rfidGrant i ⟨s, []⟩).2.inbox.foldl postSafetyReq inbox := by
  rw [rfidGrant, rfidGrant]
  dsimp only
  cases s.evse <;> rfl

theorem inbox_rfidCard (i : TickInput) (uid : ℕ) (s : SafetyTask) (inbox : List SafetyReq) :
    (rfidCard i uid ⟨s, inbox⟩).2.inbox =
      (rfidCard i uid ⟨s, []⟩).2.inbox.foldl postSafetyReq inbox := by
  rw [rfidCard, rfidCard]
  dsimp only
  by_cases hopen : 0 < s.rfidLearnTicks
  · rw [if_pos hopen, if_pos hopen]
    split
    · rfl
    · rfl
  rw [if_neg hopen, if_neg hopen]
  by_cases hin : i.authlist.contains uid = true
  · rw [if_pos hin, if_pos hin]
    exact inbox_rfidGrant i s inbox
  · rw [if_neg hin, if_neg hin]
    rfl

/-- The swipe asks for the same whatever waits. -/
theorem inbox_rfidStep (i : TickInput) (s : SafetyTask) (inbox : List SafetyReq) :
    (rfidStep i ⟨s, inbox⟩).inbox = (swipeAsks i s).foldl postSafetyReq inbox := by
  have hedge : ∀ a s, (rfidEdge i a ⟨s, inbox⟩).inbox =
      (rfidEdge i a ⟨s, []⟩).inbox.foldl postSafetyReq inbox := by
    intro a s
    rw [rfidEdge, rfidEdge]
    dsimp only
    split
    · exact inbox_rfidCard i a.uid _ inbox
    · rfl
  rw [swipeAsks, rfidStep, rfidStep]
  dsimp only
  rw [rfidReceive, rfidReceive]
  dsimp only
  split
  · rfl
  split
  · exact hedge _ _
  · rfl

/-- The inbox behind a tick during which no other task posts. -/
theorem inbox_tick {i : TickInput} (h : ∀ k, i.posts k = []) (fl : BuildFlags) (σ : System) :
    (tick fl i σ).inbox = (swipeAsks i (beforeRfid fl i σ).task).foldl postSafetyReq
      (σ.inbox.drop drainMax) := by
  have hinbox : (beforeRfid fl i σ).inbox = σ.inbox.drop drainMax := by
    rw [beforeRfid]
    dsimp only
    rw [h drainMax, List.foldl_nil, drainInbox, drainLoop_eq,
      receiveLoop_quiet fun k _ => h k]
    rfl
  rw [tick, ← hinbox]
  generalize beforeRfid fl i σ = τ
  exact inbox_rfidStep i τ.task τ.inbox

/-! ## What a step posts -/

namespace Charger

variable (B : ChargerBuild) (i : ChargerInput) (σ : Charger)

/-- What a step hands to the persist task. -/
def posts : List PersistReq :=
  if σ.restarting then []
  else
    match i with
    | .arrive _ => []
    | .comms r =>
      match σ.pending with
      | none => []
      | some x => handedReqs (σ.commsEnv B r) x
    | .safety r => postedReqs (σ.tickOutputs B r)
    | .io r =>
      if σ.ioStarted then ioReqs (σ.ioPosts r)
      else [.event (ioStartupRecord r.tickCount r.cpHighMv)]
    | .persist _ _ => []

/-- What a step asks of the safety task. -/
def asks : List SafetyReq :=
  if σ.restarting then []
  else
    match i with
    | .arrive _ => []
    | .comms r =>
      match σ.pending with
      | none => []
      | some x => handedAsks (σ.commsEnv B r) x
    | .safety r =>
      swipeAsks (r.input σ.persist.store)
        (beforeRfid B.flags (r.input σ.persist.store) σ.safety).task
    | .io r => if σ.ioStarted then ioAsks (σ.ioPosts r) else []
    | .persist outcomes _ =>
      match σ.queue with
      | [] => []
      | r :: _ => (persistServe r outcomes σ.persist).asks

/-- A turn of the persist task asks for a request. -/
def persistServes : ℕ :=
  if σ.restarting then 0
  else
    match i with
    | .persist _ _ => 1
    | _ => 0

/-- A tick of the safety task. -/
def ticks : Bool :=
  !σ.restarting &&
    match i with
    | .safety _ => true
    | _ => false

variable {B i σ}

theorem step_restarting (h : σ.restarting = true) : σ.step B i = σ := if_pos h

theorem step_queue :
    (σ.step B i).queue = (σ.posts B i).foldl persistPost (σ.queue.drop (σ.persistServes i)) := by
  cases hr : σ.restarting with
  | true =>
    rw [step_restarting hr]
    unfold posts persistServes
    rw [if_pos hr, if_pos hr]
    rfl
  | false =>
  have hup : ¬ σ.restarting = true := Bool.eq_false_iff.mp hr
  unfold step posts persistServes
  rw [if_neg hup, if_neg hup, if_neg hup]
  cases i with
  | arrive bytes => rfl
  | comms r =>
    dsimp only
    rw [commsTurn]
    cases σ.pending with
    | none => rfl
    | some x => exact (commsDispatch_queues (σ.commsEnv B r) x (σ := σ.commsState) hr).1
  | safety r => rfl
  | io r =>
    dsimp only
    rw [ioTurn]
    cases σ.ioStarted with
    | true => rfl
    | false => rfl
  | persist outcomes txFree =>
    dsimp only
    rw [persistTurn]
    cases hq : σ.queue with
    | nil => exact hq
    | cons r rest => rfl

theorem step_inbox :
    (σ.step B i).safety.inbox =
      (σ.asks B i).foldl postSafetyReq
        (σ.safety.inbox.drop (if σ.ticks i then drainMax else 0)) := by
  cases hr : σ.restarting with
  | true =>
    rw [step_restarting hr]
    unfold asks ticks
    rw [if_pos hr, hr]
    rfl
  | false =>
  have hup : ¬ σ.restarting = true := Bool.eq_false_iff.mp hr
  unfold step asks ticks
  rw [if_neg hup, if_neg hup, hr]
  cases i with
  | arrive bytes => rfl
  | comms r =>
    dsimp only
    rw [commsTurn]
    cases σ.pending with
    | none => rfl
    | some x => exact (commsDispatch_queues (σ.commsEnv B r) x (σ := σ.commsState) hr).2
  | safety r => exact inbox_tick (fun _ => rfl) B.flags σ.safety
  | io r =>
    dsimp only
    rw [ioTurn]
    cases σ.ioStarted with
    | true => rfl
    | false => rfl
  | persist outcomes txFree =>
    dsimp only
    rw [persistTurn]
    cases σ.queue with
    | nil => rfl
    | cons r rest => rfl

end Charger

/-! ## The mailboxes -/

def persistMailbox (B : ChargerBuild) :
    Mailbox (chargerMachine B) PersistReq persistQueueDepth where
  queue := Charger.queue
  posts i σ := σ.posts B i
  serves i σ := σ.persistServes i
  step_queue _ _ := Charger.step_queue

def safetyMailbox (B : ChargerBuild) :
    Mailbox (chargerMachine B) SafetyReq safetyInboxDepth where
  queue σ := σ.safety.inbox
  posts i σ := σ.asks B i
  serves i σ := if σ.ticks i then drainMax else 0
  step_queue _ _ := Charger.step_inbox

/-! ## What is served -/

namespace Charger

/-- The request that a step carries out, with how its writes end. -/
def carries (i : ChargerInput) (σ : Charger) : List (PersistReq × List WriteOutcome) :=
  match i with
  | .persist outcomes _ => (σ.queue.take (σ.persistServes i)).map fun r => (r, outcomes)
  | _ => []

/-- A step carries out a request. -/
def Carries (r : PersistReq) (i : ChargerInput) (σ : Charger) : Prop :=
  ∃ outcomes, (r, outcomes) ∈ σ.carries i

/-- The requests that a tick processes. -/
def processes (i : ChargerInput) (σ : Charger) : List SafetyReq :=
  match i with
  | .safety r => if σ.ticks i then received (r.input σ.persist.store) σ.safety else []
  | _ => []

variable (B : ChargerBuild) (b : ChargerBoot) (ins : ℕ → ChargerInput)

/-- The requests carried out in the first `n` steps. -/
def carried (n : ℕ) : List (PersistReq × List WriteOutcome) :=
  (chargerMachine B).history b ins (fun i σ l => l ++ σ.carries i) [] n

/-- The requests processed in the first `n` steps. -/
def processed (n : ℕ) : List SafetyReq :=
  (chargerMachine B).history b ins (fun i σ l => l ++ σ.processes i) [] n

variable {i : ChargerInput} {σ : Charger}

theorem carries_take : (σ.carries i).map Prod.fst = σ.queue.take (σ.persistServes i) := by
  unfold carries
  cases i with
  | persist outcomes txFree =>
    rw [List.map_map]
    exact List.map_id _
  | _ =>
    unfold persistServes
    dsimp only
    rw [ite_self]
    rfl

theorem queued_of_carries {r : PersistReq} (h : Carries r i σ) : r ∈ σ.queue := by
  obtain ⟨outcomes, hmem⟩ := h
  have htaken : r ∈ (σ.carries i).map Prod.fst := List.mem_map_of_mem hmem
  rw [carries_take] at htaken
  exact List.mem_of_mem_take htaken

theorem carries_of_eq {r : PersistReq} {outcomes : List WriteOutcome}
    (h : σ.carries i = [(r, outcomes)]) : Carries r i σ :=
  ⟨outcomes, h ▸ List.mem_singleton_self _⟩

/-- A step carries out one request, or none. -/
theorem carries_cases (i : ChargerInput) (σ : Charger) :
    σ.carries i = [] ∨ ∃ p, σ.carries i = [p] := by
  cases i with
  | persist outcomes txFree =>
    have hone : σ.persistServes (.persist outcomes txFree) ≤ 1 := by
      unfold persistServes
      split
      · exact Nat.zero_le 1
      · exact Nat.le_refl 1
    unfold carries
    dsimp only
    rcases Nat.le_one_iff_eq_zero_or_eq_one.mp hone with hzero | hserves
    · rw [hzero]
      exact .inl rfl
    · rw [hserves]
      cases σ.queue with
      | nil => exact .inl rfl
      | cons r rest => exact .inr ⟨_, rfl⟩
  | _ => exact .inl rfl

theorem processes_takes : σ.processes i = (safetyMailbox B).takes i σ := by
  show _ = σ.safety.inbox.take (if σ.ticks i then drainMax else 0)
  unfold processes
  cases i with
  | safety r =>
    dsimp only
    split
    · exact received_quiet (fun _ => rfl) σ.safety
    · rfl
  | _ =>
    unfold ticks
    dsimp only
    rw [Bool.and_false]
    rfl

variable {B b ins}

theorem carried_succ (n : ℕ) : carried B b ins (n + 1) =
    carried B b ins n ++ (chargerRun B b ins n).carries (ins n) := rfl

theorem carried_taken (n : ℕ) :
    (carried B b ins n).map Prod.fst = (persistMailbox B).taken b ins n := by
  induction n with
  | zero => rfl
  | succ n ih =>
    have htakes : (persistMailbox B).takes (ins n) (chargerRun B b ins n) =
        ((chargerRun B b ins n).carries (ins n)).map Prod.fst := carries_take.symm
    rw [(persistMailbox B).taken_succ, ← ih]
    exact List.map_append.trans (congrArg _ htakes.symm)

theorem processed_taken (n : ℕ) : processed B b ins n = (safetyMailbox B).taken b ins n := by
  induction n with
  | zero => rfl
  | succ n ih =>
    rw [(safetyMailbox B).taken_succ, ← ih, ← processes_takes]
    rfl

theorem length_boot_queue (b : ChargerBoot) : (boot B b).queue.length ≤ persistQueueDepth :=
  Mailbox.length_foldl_post (Nat.zero_le _)

/-- Only a turn of the persist task touches what that task owns. -/
theorem persist_step (i : ChargerInput) (σ : Charger) :
    (σ.step B i).persist =
      (σ.carries i).foldl (fun t p => (persistServe p.1 p.2 t).task) σ.persist := by
  cases hr : σ.restarting with
  | true =>
    have hnone : σ.carries i = [] := by
      unfold carries persistServes
      rw [if_pos hr]
      cases i with
      | persist outcomes txFree => rfl
      | _ => rfl
    rw [step_restarting hr, hnone]
    rfl
  | false =>
  have hup : ¬ σ.restarting = true := Bool.eq_false_iff.mp hr
  unfold step
  rw [if_neg hup]
  cases i with
  | arrive bytes => rfl
  | comms r =>
    dsimp only
    rw [commsTurn]
    cases σ.pending with
    | none => rfl
    | some x => rfl
  | safety r => rfl
  | io r =>
    dsimp only
    rw [ioTurn]
    cases σ.ioStarted with
    | true => rfl
    | false => rfl
  | persist outcomes txFree =>
    dsimp only
    rw [persistTurn]
    unfold carries persistServes
    dsimp only
    rw [if_neg hup]
    cases σ.queue with
    | nil => rfl
    | cons r rest => rfl

theorem persist_run (n : ℕ) :
    (chargerRun B b ins n).persist =
      (carried B b ins n).foldl (fun t p => (persistServe p.1 p.2 t).task)
        (boot B b).persist := by
  induction n with
  | zero => rfl
  | succ n ih =>
    rw [carried_succ, List.foldl_append, ← ih]
    exact persist_step (ins n) (chargerRun B b ins n)

end Charger

section Served

open Charger (boot carried processed persist_run carried_taken processed_taken length_boot_queue)

variable (B : ChargerBuild) (b : ChargerBoot) (ins : ℕ → ChargerInput) (n : ℕ)

/-- In every run the requests that the persist queue accepts are carried out once each and in
their order, and have been after eight turns of the task; what the task owns is what they make
of it, one behind the other; and a request is dropped only when eight others wait. -/
theorem persist_requests_served :
    (boot B b).queue ++ (persistMailbox B).accepted b ins n =
        (carried B b ins n).map Prod.fst ++ (chargerRun B b ins n).queue ∧
      (chargerRun B b ins n).queue.length ≤ persistQueueDepth ∧
      (chargerRun B b ins n).persist =
        (carried B b ins n).foldl (fun t p => (persistServe p.1 p.2 t).task) (boot B b).persist ∧
      ∀ k ≤ n, (persistMailbox B).served b ins k + persistQueueDepth ≤
          (persistMailbox B).served b ins n →
        (boot B b).queue ++ (persistMailbox B).accepted b ins k <+:
          (carried B b ins n).map Prod.fst := by
  have hboot : ((persistMailbox B).queue ((chargerMachine B).boot b)).length ≤
      persistQueueDepth := length_boot_queue b
  rw [carried_taken]
  exact ⟨(persistMailbox B).conserved b ins n, Mailbox.length_queue ins hboot n, persist_run n,
    fun k hk hserved => Mailbox.taken_within hboot hk hserved⟩

/-- In every run the requests that the inbox of the safety task accepts are processed once each
and in their order, all that wait by the next tick; and a request is dropped only when four
others wait. -/
theorem safety_requests_processed :
    (safetyMailbox B).accepted b ins n =
        processed B b ins n ++ (chargerRun B b ins n).safety.inbox ∧
      (chargerRun B b ins n).safety.inbox.length ≤ safetyInboxDepth ∧
      ∀ k m, k ≤ m → m < n → (chargerRun B b ins m).ticks (ins m) = true →
        (safetyMailbox B).accepted b ins k <+: processed B b ins n := by
  have hboot : ((safetyMailbox B).queue ((chargerMachine B).boot b)).length ≤
      safetyInboxDepth := Nat.zero_le _
  rw [processed_taken]
  refine ⟨(safetyMailbox B).conserved b ins n, Mailbox.length_queue ins hboot n, ?_⟩
  intro k m hkm hmn htick
  have hm : (safetyMailbox B).served b ins k + safetyInboxDepth ≤
      (safetyMailbox B).served b ins (m + 1) := by
    have hserves : (safetyMailbox B).serves (ins m) ((chargerMachine B).run b ins m) =
        safetyInboxDepth := if_pos htick
    have hk : (safetyMailbox B).served b ins k ≤ (safetyMailbox B).served b ins m :=
      Finset.sum_le_sum_of_subset (Finset.range_mono hkm)
    have hsucc : (safetyMailbox B).served b ins (m + 1) =
        (safetyMailbox B).served b ins m +
          (safetyMailbox B).serves (ins m) ((chargerMachine B).run b ins m) :=
      Finset.sum_range_succ _ m
    omega
  have htaken := Mailbox.taken_within hboot (Nat.le_succ_of_le hkm) hm
  have hnil : (safetyMailbox B).queue ((chargerMachine B).boot b) = [] := rfl
  rw [hnil, List.nil_append] at htaken
  exact htaken.trans ((safetyMailbox B).taken_mono b ins hmn)

end Served

end OpenEVCharger
