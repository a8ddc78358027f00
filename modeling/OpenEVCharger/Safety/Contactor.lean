import OpenEVCharger.Safety.Run

/-!
# The contactor and the fault latch

The two guarantees everything else rests on: the contactor is commanded closed
exactly in CHARGING, with the pilot in state C and nothing latched; and FAULT,
once entered, is left only by a fault clear that leaves no latched fault, which
never happens after a ground fault.
-/

namespace OpenEVCharger

open Interlock (Detected)

theorem not_latched_iff (f : FaultState) :
    faultAnyLatchedActive f = false ↔
      ∀ id, faultIsLatchedKind id = true → faultIsActive f id = false := by
  constructor
  · intro h id hid
    simp only [faultIsLatchedKind, Bool.and_eq_true, decide_eq_true_eq] at hid
    by_contra hact
    rw [faultAnyLatchedActive_of hid.2 (by simpa using hact)] at h
    exact absurd h (by decide)
  · intro h
    by_contra hany
    obtain ⟨id, hid, hact⟩ := (faultAnyLatchedActive_iff f).mp (by simpa using hany)
    have hok : fidOk id = true := fidOk_iff.mpr (faultIsActive_lt hact)
    have hkind : faultIsLatchedKind id = true := by simp [faultIsLatchedKind, hok, hid]
    rw [h id hkind] at hact
    exact absurd hact (by decide)

/-- At the end of every tick the contactor is commanded closed exactly in
CHARGING, and then the tick committed state C, no latching fault is active and
the force-open latch is not armed. -/
theorem contactor_closed_iff_charging (fl : BuildFlags) (b : BootInput) (ins : ℕ → TickInput)
    (n : ℕ) :
    let s := (safetyRun fl b ins (n + 1)).task
    (s.mainCmd = true ↔ s.evse = .charging) ∧
      (s.mainCmd = true → s.cp.committed = .C ∧
        (∀ id, faultIsLatchedKind id = true → faultIsActive s.faults id = false) ∧
        s.forceOpen = false) := by
  intro s
  have hset : (view s).Settled := settled_run fl b ins (n + 1)
  refine ⟨hset.closed_iff, fun hclosed => ?_⟩
  have hev : s.evse = .charging := hset.closed_iff.mp hclosed
  have hnf : s.evse ≠ .fault := by simp [hev]
  have hlatched : faultAnyLatchedActive s.faults = false :=
    Bool.eq_false_iff.mpr fun ht => hnf (hset.fault_of_latched ht)
  have hforce : s.forceOpen = false :=
    Bool.eq_false_iff.mpr fun ht => hnf (hset.forceOpen_iff.mp ht)
  exact ⟨hset.stateC hev, (not_latched_iff s.faults).mp hlatched, hforce⟩

/-! ## FAULT -/

theorem serviceWindow_fault {c : Interlock} (h : c.evse = .fault) :
    c.serviceWindow.evse = .fault := by
  have hres : c.resume = c := by simp [Interlock.resume, h]
  unfold Interlock.serviceWindow
  rw [hres]
  repeat' split
  all_goals exact h

theorem detected_fault {c c' : Interlock} (hd : Detected c c') (h : c.evse = .fault) :
    c'.evse = .fault := by
  cases hd with
  | quiet => exact h
  | trip l g _ => exact Interlock.trip_evse l g

theorem update_fault {c : Interlock} {d : Nat} {g : Bool} (h : c.evse = .fault) :
    (c.update d g).evse = .fault := by
  simp [Interlock.update, h]

/-- After the inbox nothing takes the EVSE out of FAULT. -/
theorem stable_fault : Stable (fun c => c.evse = .fault) where
  serviceWindow _ h := serviceWindow_fault h
  samplePilot _ _ h := h
  detected _ _ hd h := detected_fault hd h
  overTemp _ _ ho h := Interlock.overTemp_of_fault ho h
  update _ _ h := update_fault h
  outputs _ h := h
  authorize _ _ h := h

/-- A ground fault: its bit is set and the EVSE is in FAULT. -/
def GroundFault (c : Interlock) : Prop := c.gfci = true ∧ c.evse = .fault

theorem detected_gfci {c c' : Interlock} (hd : Detected c c') (h : c.gfci = true) :
    c'.gfci = true := by
  cases hd with
  | quiet => exact h
  | trip l g _ => simp [Interlock.trip, h]

theorem stable_groundFault : Stable GroundFault where
  serviceWindow c h := ⟨(Interlock.serviceWindow_requestFrame c).gfci.trans h.1, serviceWindow_fault h.2⟩
  samplePilot _ _ h := h
  detected _ _ hd h := ⟨detected_gfci hd h.1, detected_fault hd h.2⟩
  overTemp _ _ ho h := by
    refine ⟨?_, Interlock.overTemp_of_fault ho h.2⟩
    cases ho <;> simp [h.1, h.2]
  update _ _ h := by simpa [GroundFault, Interlock.update, h.2] using h
  outputs _ h := h
  authorize _ _ h := h

/-- No request ends a ground fault: it keeps a latched fault active. -/
theorem groundFault_processRequest {i : TickInput} {r : SafetyReq} {s : SafetyTask}
    (h : (view s).Safe ∧ GroundFault (view s)) :
    (view (processRequest i r s)).Safe ∧ GroundFault (view (processRequest i r s)) := by
  have hreq := request_processRequest i r s
  have hsafe := h.1.request hreq
  have hg : (view (processRequest i r s)).gfci = true := hreq.frame.gfci.trans h.2.1
  refine ⟨hsafe, hg, ?_⟩
  exact hsafe.fault_of_latched (hsafe.latched_of_gfci hg)

theorem groundFault_tick {fl : BuildFlags} {i : TickInput} {σ : System}
    (h : (view σ.task).Safe ∧ GroundFault (view σ.task)) :
    (view (tick fl i σ).task).Safe ∧ GroundFault (view (tick fl i σ).task) := by
  have hdrain : (view (drainInbox i σ).task).Safe ∧ GroundFault (view (drainInbox i σ).task) :=
    view_drain_kept (P := fun c => c.Safe ∧ GroundFault c)
      (fun _ _ hp => groundFault_processRequest hp) h
  exact ⟨stable_safe.tick hdrain.1, stable_groundFault.tick hdrain.2⟩

/-- The fault latch, over every run. A latching fault means FAULT, and FAULT is
exactly where the force-open latch is armed; a request takes the EVSE out of
FAULT only if it is a `CLEAR_FAULT` after which no latching fault is active, and
the rest of the tick never does; a ground fault stays for good. -/
theorem fault_latch_holds (fl : BuildFlags) (b : BootInput) (ins : ℕ → TickInput) :
    (∀ n, let s := (safetyRun fl b ins n).task
      (∀ id, faultIsLatchedKind id = true → faultIsActive s.faults id = true →
        s.evse = .fault) ∧
      (s.forceOpen = true ↔ s.evse = .fault)) ∧
    (∀ n, ∀ p ∈ requestTrace (ins n) (safetyRun fl b ins n),
      p.1.evse = .fault → (processRequest (ins n) p.2 p.1).evse ≠ .fault →
        (∃ fid, p.2 = .clearFault fid) ∧
        ∀ id, faultIsLatchedKind id = true →
          faultIsActive (processRequest (ins n) p.2 p.1).faults id = false) ∧
    (∀ n, (drainInbox (ins n) (safetyRun fl b ins n)).task.evse = .fault →
      (beforeUpdate fl (ins n) (safetyRun fl b ins n)).evse = .fault ∧
      (afterUpdate fl (ins n) (safetyRun fl b ins n)).evse = .fault ∧
      (safetyRun fl b ins (n + 1)).task.evse = .fault) ∧
    (∀ m n, m ≤ n →
      faultIsActive (safetyRun fl b ins m).task.faults FaultId.gfci.code = true →
      faultIsActive (safetyRun fl b ins n).task.faults FaultId.gfci.code = true ∧
        (safetyRun fl b ins n).task.evse = .fault) := by
  refine ⟨fun n => ?_, fun n p _ hf hne => ?_, fun n hf => ?_, fun m n hmn hg => ?_⟩
  · have hset := settled_run fl b ins n
    refine ⟨fun id hid hact => hset.fault_of_latched ?_, hset.forceOpen_iff⟩
    simp only [faultIsLatchedKind, Bool.and_eq_true, decide_eq_true_eq] at hid
    exact faultAnyLatchedActive_of hid.2 hact
  · obtain hstay | ⟨hclear, hnone, _⟩ := (request_processRequest (ins n) p.2 p.1).of_fault hf
    · exact absurd hstay hne
    · exact ⟨hclear, (not_latched_iff _).mp hnone⟩
  · exact ⟨stable_fault.beforeUpdate hf, stable_fault.afterUpdate hf, stable_fault.tick hf⟩
  · have hsafe := (settled_run fl b ins m).toSafe
    have hstart : GroundFault (view (safetyRun fl b ins m).task) :=
      ⟨hg, hsafe.fault_of_latched (hsafe.latched_of_gfci hg)⟩
    have hend : (view (safetyRun fl b ins n).task).Safe ∧
        GroundFault (view (safetyRun fl b ins n).task) :=
      Machine.kept_between (P := fun σ : System => (view σ.task).Safe ∧ GroundFault (view σ.task))
        hmn (fun _ _ _ h => groundFault_tick h) ⟨hsafe, hstart⟩
    exact hend.2

end OpenEVCharger
