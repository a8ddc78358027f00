import OpenEVCharger.Tasks.SafetyView

/-!
# Where a request comes from

A request of either queue goes back to the frame that asked for it, to a tick of the safety
task, or to the buttons. Settings are changed and the learn window is opened by frames alone, a
card is added by a tick alone, and every request is well formed.
-/

namespace OpenEVCharger

/-! ## Requests that a task makes -/

/-- A swipe pauses a session or resumes one. -/
theorem mem_swipeAsks {i : TickInput} {s : SafetyTask} {r : SafetyReq} (h : r ∈ swipeAsks i s) :
    r = .userPause 0xFF ∨ r = .userResume := by
  have hgrant : ∀ s : SafetyTask, r ∈ (rfidGrant i ⟨s, []⟩).2.inbox →
      r = .userPause 0xFF ∨ r = .userResume := by
    intro s h
    rw [rfidGrant] at h
    dsimp only at h
    cases hevse : s.evse with
    | charging =>
      rw [hevse] at h
      exact .inl (List.mem_singleton.mp h)
    | userPaused =>
      rw [hevse] at h
      exact .inr (List.mem_singleton.mp h)
    | _ =>
      rw [hevse] at h
      exact absurd h List.not_mem_nil
  have hcard : ∀ (uid : ℕ) (s : SafetyTask), r ∈ (rfidCard i uid ⟨s, []⟩).2.inbox →
      r = .userPause 0xFF ∨ r = .userResume := by
    intro uid s h
    rw [rfidCard] at h
    dsimp only at h
    split at h
    · split at h
      · exact absurd h List.not_mem_nil
      · exact absurd h List.not_mem_nil
    split at h
    · exact hgrant s h
    · exact absurd h List.not_mem_nil
  have hedge : ∀ (a : RfidAction) (s : SafetyTask), r ∈ (rfidEdge i a ⟨s, []⟩).inbox →
      r = .userPause 0xFF ∨ r = .userResume := by
    intro a s h
    rw [rfidEdge] at h
    dsimp only at h
    split at h
    · exact hcard _ _ h
    · exact absurd h List.not_mem_nil
  rw [swipeAsks, rfidStep] at h
  dsimp only at h
  rw [rfidReceive] at h
  split at h
  · exact absurd h List.not_mem_nil
  dsimp only at h
  split at h
  · exact hedge _ _ h
  · exact absurd h List.not_mem_nil

/-- The persist task asks for the new configuration to be told. -/
theorem mem_served_asks {req : PersistReq} {outcomes : List WriteOutcome} {t : PersistTask}
    {r : SafetyReq} (h : r ∈ (persistServe req outcomes t).asks) :
    r = .publishRfidConfig ∨ r = .publishGfciPolicy := by
  cases req with
  | requireRfidAuth enable =>
    dsimp only [persistServe] at h
    split at h
    · exact absurd h List.not_mem_nil
    · exact .inl (List.mem_singleton.mp h)
  | gfciPolicy policy => exact .inr (List.mem_singleton.mp h)
  | _ => exact absurd h List.not_mem_nil

namespace Charger

variable {B : ChargerBuild} {i : ChargerInput} {σ : Charger} {r : PersistReq}

/-- A turn of the comms task dispatches a frame of a command. -/
def Handles (c : Command) (x : TlvFrame) (i : ChargerInput) (σ : Charger) : Prop :=
  σ.restarting = false ∧ (∃ r, i = .comms r) ∧ σ.pending = some x ∧ Command.ofCode x.cmd = some c

/-! ## Requests of the persist task -/

/-- What may have posted a request. -/
inductive PostedBy (B : ChargerBuild) (i : ChargerInput) (σ : Charger) (r : PersistReq) : Prop
  | frame (c : Command) (x : TlvFrame) (hx : Handles c x i σ) (hmay : c.MayPost x.payload r)
      (hok : r.Ok)
  | tick (t : TickReading) (hi : i = .safety t) (hup : σ.restarting = false)
      (hr : r ∈ postedReqs (σ.tickOutputs B t))
  | io (hr : r = .crashStateReset ∨ ∃ e, r = .event e)

theorem postedBy (h : r ∈ σ.posts B i) : PostedBy B i σ r := by
  unfold posts at h
  cases hr : σ.restarting with
  | true =>
    rw [if_pos hr] at h
    exact absurd h List.not_mem_nil
  | false =>
  rw [if_neg (Bool.eq_false_iff.mp hr)] at h
  cases i with
  | arrive bytes => exact absurd h List.not_mem_nil
  | comms t =>
    dsimp only at h
    cases hp : σ.pending with
    | none =>
      rw [hp] at h
      exact absurd h List.not_mem_nil
    | some x =>
      rw [hp] at h
      obtain ⟨c, hc, hmay, hok⟩ := (handed_spec (σ.commsEnv B t) x).1 r h
      exact .frame c x ⟨hr, ⟨t, rfl⟩, hp, hc⟩ hmay hok
  | safety t => exact .tick t rfl hr h
  | io t =>
    refine .io ?_
    dsimp only at h
    split at h
    · obtain ⟨post, _, hpost⟩ := List.mem_filterMap.mp h
      cases post with
      | crashStateReset => exact .inl (Option.some.inj hpost).symm
      | _ => cases hpost
    · exact .inr ⟨_, List.mem_singleton.mp h⟩
  | persist outcomes txFree => exact absurd h List.not_mem_nil

/-- A tick posts events, sessions and the cards that its outputs add. -/
theorem posted_outputs {outputs : List Output} (h : r ∈ postedReqs outputs) :
    (∃ e, r = .event e) ∨ (∃ e, r = .session e) ∨
      ∃ uid, .postAuthlistAdd uid ∈ outputs ∧ r = .rfidAuthlistAdd (UInt32.ofNat uid) := by
  obtain ⟨o, ho, hpost⟩ := List.mem_filterMap.mp h
  cases o with
  | postEvent e => exact .inl ⟨_, (Option.some.inj hpost).symm⟩
  | postSession e => exact .inr (.inl ⟨_, (Option.some.inj hpost).symm⟩)
  | postAuthlistAdd uid => exact .inr (.inr ⟨uid, ho, (Option.some.inj hpost).symm⟩)
  | _ => cases hpost

theorem ok_of_output {outputs : List Output} (h : r ∈ postedReqs outputs) : r.Ok := by
  rcases posted_outputs h with ⟨e, rfl⟩ | ⟨e, rfl⟩ | ⟨uid, _, rfl⟩
  · trivial
  · trivial
  · trivial

theorem PostedBy.ok (h : PostedBy B i σ r) : r.Ok := by
  cases h with
  | frame c x _ _ hok => exact hok
  | tick t _ _ hr => exact ok_of_output hr
  | io hr =>
    rcases hr with rfl | ⟨e, rfl⟩
    · trivial
    · trivial

/-! ## Requests of the safety task -/

/-- The learn window is opened by a request of the comms task alone. -/
theorem asked_arm (h : SafetyReq.rfidLearnArm ∈ σ.asks B i) :
    ∃ x, Handles .rfidLearnNext x i σ := by
  unfold asks at h
  cases hr : σ.restarting with
  | true =>
    rw [if_pos hr] at h
    exact absurd h List.not_mem_nil
  | false =>
  rw [if_neg (Bool.eq_false_iff.mp hr)] at h
  cases i with
  | arrive bytes => exact absurd h List.not_mem_nil
  | comms t =>
    dsimp only at h
    cases hp : σ.pending with
    | none =>
      rw [hp] at h
      exact absurd h List.not_mem_nil
    | some x =>
      rw [hp] at h
      obtain ⟨c, hc, hmay⟩ := (handed_spec (σ.commsEnv B t) x).2 _ h
      obtain rfl : c = .rfidLearnNext := hmay
      exact ⟨x, hr, ⟨t, rfl⟩, hp, hc⟩
  | safety t =>
    rcases mem_swipeAsks h with harm | harm
    · cases harm
    · cases harm
  | io t =>
    dsimp only at h
    split at h
    · obtain ⟨post, _, hpost⟩ := List.mem_filterMap.mp h
      cases post <;> cases hpost
    · exact absurd h List.not_mem_nil
  | persist outcomes txFree =>
    dsimp only at h
    cases hq : σ.queue with
    | nil =>
      rw [hq] at h
      exact absurd h List.not_mem_nil
    | cons req rest =>
      rw [hq] at h
      rcases mem_served_asks h with harm | harm
      · cases harm
      · cases harm

end Charger

/-! ## In every run -/

section Runs

open Charger

variable {B : ChargerBuild} {b : ChargerBoot} {ins : ℕ → ChargerInput} {n : ℕ} {r : PersistReq}

/-- A request that waits was posted in the boot path of the safety task, or by a step. -/
theorem queued_from (h : r ∈ (chargerRun B b ins n).queue) :
    r ∈ postedReqs (bootTask B.flags (b.reading.input b.stores)).outputs ∨
      ∃ k < n, PostedBy B (ins k) (chargerRun B b ins k) r := by
  rcases Mailbox.mem_queue (M := persistMailbox B) h with hboot | ⟨k, hk, hposted⟩
  · rcases Mailbox.mem_of_mem_foldl_post hboot with hnil | hposted
    · exact absurd hnil List.not_mem_nil
    · exact .inl hposted
  · exact .inr ⟨k, hk, postedBy hposted⟩

theorem ok_of_queued (h : r ∈ (chargerRun B b ins n).queue) : r.Ok := by
  rcases queued_from h with hboot | ⟨k, _, hposted⟩
  · exact ok_of_output hboot
  · exact hposted.ok

/-- Every request carried out has waited. -/
theorem queued_of_carried {p : PersistReq × List WriteOutcome}
    (h : p ∈ carried B b ins n) : ∃ k < n, p.1 ∈ (chargerRun B b ins k).queue := by
  induction n with
  | zero => exact absurd h List.not_mem_nil
  | succ n ih =>
    rw [carried_succ, List.mem_append] at h
    rcases h with hbefore | hnow
    · obtain ⟨k, hk, hp⟩ := ih hbefore
      exact ⟨k, Nat.lt_succ_of_lt hk, hp⟩
    · refine ⟨n, Nat.lt_succ_self n, ?_⟩
      have htaken : p.1 ∈ ((chargerRun B b ins n).carries (ins n)).map Prod.fst :=
        List.mem_map_of_mem hnow
      rw [carries_take] at htaken
      exact List.mem_of_mem_take htaken

end Runs

end OpenEVCharger
