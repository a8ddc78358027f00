import OpenEVCharger.Safety.Sessions

/-!
# Received and kept readings

A poll that fails leaves the readings of the poll before and their validity in place, and the
detectors look at what is there: a kept reading counts like one that was received.
-/

namespace OpenEVCharger

/-! ## The detectors of the metering block -/

inductive MeterDetector
  | acAbsent | relayWeld | relayStuckOpen | hardOverCurrent | softOverCurrent
  deriving DecidableEq, Repr

namespace MeterDetector

def need : MeterDetector → Nat
  | .acAbsent => bl0939DetectorPersist
  | .relayWeld => bl0939DetectorPersist
  | .relayStuckOpen => bl0939StuckOpenPersist
  | .hardOverCurrent => bl0939HocPersistPolls
  | .softOverCurrent => bl0939SocPersistPolls

def fault : MeterDetector → FaultId
  | .acAbsent => .acAbsent
  | .relayWeld => .relayWeld
  | .relayStuckOpen => .relayStuckOpen
  | .hardOverCurrent => .hardOverCurrent
  | .softOverCurrent => .softOverCurrent

def streak (s : SafetyTask) : MeterDetector → Nat
  | .acAbsent => s.acAbsentStreak
  | .relayWeld => s.weldBlStreak
  | .relayStuckOpen => s.stuckOpenBlStreak
  | .hardOverCurrent => s.hocStreak
  | .softOverCurrent => s.socStreak

def check (i : TickInput) (bl : Bl0939Readings) (js : J1772State) (s : SafetyTask) :
    MeterDetector → SafetyTask
  | .acAbsent => checkAcAbsent bl js i.cpHighMv s
  | .relayWeld => checkRelayWeldBl0939 i bl js i.cpHighMv s
  | .relayStuckOpen => checkRelayStuckOpenBl0939 i bl js i.cpHighMv s
  | .hardOverCurrent => checkHardOverCurrent i bl js i.cpHighMv s
  | .softOverCurrent => checkSoftOverCurrent i bl js i.cpHighMv s

/-- The poll received the register the detector looks at. -/
def received (p : Bl0939Poll) : MeterDetector → Bool
  | .acAbsent => p.v.ok
  | _ => p.ia.ok

/-- The readings meet the fault condition of the detector, in a state in which it looks at
them. -/
def meets (i : TickInput) (bl : Bl0939Readings) (s : SafetyTask) : MeterDetector → Bool
  | .acAbsent => bl.vRms < bl0939VRmsAcPresentRaw
  | .relayWeld =>
    0 < i.iaNaPerRaw && weldSettleArmed s = 0 && !s.mainCmd && 500 ≤ iaMilliamps bl i.iaNaPerRaw
  | .relayStuckOpen =>
    0 < i.iaNaPerRaw && s.evse = .charging && s.mainCmd && iaMilliamps bl i.iaNaPerRaw < 500
  | .hardOverCurrent =>
    0 < i.iaNaPerRaw && effectiveAdvertisedAmps i s ≠ 0 &&
      hocThresholdMa (effectiveAdvertisedAmps i s) < iaMilliamps bl i.iaNaPerRaw
  | .softOverCurrent =>
    0 < i.iaNaPerRaw && effectiveAdvertisedAmps i s ≠ 0 &&
      socThresholdMa (effectiveAdvertisedAmps i s) < iaMilliamps bl i.iaNaPerRaw

/-- The soft over-current detector derates instead of counting. -/
def ramps (i : TickInput) (s : SafetyTask) : MeterDetector → Bool
  | .softOverCurrent =>
    bl0939SocPersistPolls ≤ s.socStreak && socDerateFloorA < effectiveAdvertisedAmps i s
  | _ => false

/-- The detectors in the order of the metering block. -/
def order : List MeterDetector :=
  [.acAbsent, .relayWeld, .relayStuckOpen, .hardOverCurrent, .softOverCurrent]

/-- The state a detector is run in, in a block that starts its checks in `s`. -/
def before (i : TickInput) (bl : Bl0939Readings) (js : J1772State) (s : SafetyTask)
    (d : MeterDetector) : SafetyTask :=
  (order.takeWhile (· ≠ d)).foldl (fun s d => d.check i bl js s) s

def setStreak (n : Nat) (s : SafetyTask) : MeterDetector → SafetyTask
  | .acAbsent => { s with acAbsentStreak := n }
  | .relayWeld => { s with weldBlStreak := n }
  | .relayStuckOpen => { s with stuckOpenBlStreak := n }
  | .hardOverCurrent => { s with hocStreak := n }
  | .softOverCurrent => { s with socStreak := n }

/-- The streak that a check of the readings `bl` leaves. -/
def nextStreak (i : TickInput) (bl : Bl0939Readings) (s : SafetyTask) (d : MeterDetector) : Nat :=
  if bl.valid = false then d.streak s
  else if d.meets i bl s = true then
    if d.ramps i s = true then 0 else bump d.need (d.streak s)
  else 0

end MeterDetector

/-! ## One check -/

variable {i : TickInput} {bl : Bl0939Readings} {js : J1772State} {s s' : SafetyTask}
  {d : MeterDetector} {fid : FaultId} {cpMv : Int} {u : SafetyTask} {n : Nat}

theorem streak_congr (h : meterView s' = meterView s) (d : MeterDetector) :
    d.streak s' = d.streak s := by
  rw [meterView, meterView, MeterView.mk.injEq] at h
  cases d with
  | acAbsent => exact h.1
  | relayWeld => exact h.2.1
  | relayStuckOpen => exact h.2.2.1
  | hardOverCurrent => exact h.2.2.2.1
  | softOverCurrent => exact h.2.2.2.2.1

theorem readings_congr (h : meterView s' = meterView s) : s'.readings = s.readings :=
  congrArg MeterView.readings h

theorem pollDiv_congr (h : meterView s' = meterView s) : s'.bl0939PollDiv = s.bl0939PollDiv :=
  congrArg MeterView.bl0939PollDiv h

theorem meterView_raiseFault (fid : FaultId) (js : J1772State) (cpMv : Int) (s : SafetyTask) :
    meterView (raiseFault fid js cpMv s) = meterView s :=
  congrArg CoreView.meter (coreView_raiseFault fid js cpMv s)

theorem meterView_raiseToFault (fid : FaultId) (js : J1772State) (cpMv : Int) (s : SafetyTask) :
    meterView (raiseToFault fid js cpMv s) = meterView s :=
  (through_raiseToFault rfl).meter

theorem meterView_latchAfter (need streak : Nat) (fid : FaultId) (js : J1772State) (cpMv : Int)
    (s : SafetyTask) : meterView (latchAfter need streak fid js cpMv s) = meterView s :=
  (through_latchAfter rfl).meter

theorem streak_setStreak (n : Nat) (s : SafetyTask) (d d' : MeterDetector) :
    d'.streak (d.setStreak n s) = if d' = d then n else d'.streak s := by
  cases d <;> cases d' <;> rfl

theorem not_not_true : ¬ (!true) = true := Bool.false_ne_true

theorem true_ne_false : ¬ true = false := Bool.noConfusion

theorem meterView_checkAcAbsent (i : TickInput) (bl : Bl0939Readings) (js : J1772State) (cpMv : Int)
    (s : SafetyTask) : meterView (checkAcAbsent bl js cpMv s) =
      meterView (MeterDetector.acAbsent.setStreak (MeterDetector.acAbsent.nextStreak i bl s) s) := by
  rw [checkAcAbsent, MeterDetector.nextStreak]
  cases hvalid : bl.valid with
  | false => rfl
  | true =>
    rw [if_neg not_not_true, if_neg true_ne_false]
    by_cases hlow : bl.vRms < bl0939VRmsAcPresentRaw
    · have hmeets : MeterDetector.acAbsent.meets i bl s = true := decide_eq_true hlow
      have hramps : MeterDetector.acAbsent.ramps i s = false := rfl
      rw [if_pos hlow, if_pos hmeets, hramps, if_neg Bool.false_ne_true]
      dsimp only
      split
      · exact meterView_raiseFault ..
      · rfl
    · have hmeets : MeterDetector.acAbsent.meets i bl s = false := decide_eq_false hlow
      rw [if_neg hlow, hmeets, if_neg Bool.false_ne_true]
      dsimp only
      split
      · rfl
      · rfl

theorem meterView_checkRelayWeldBl0939 (i : TickInput) (bl : Bl0939Readings) (js : J1772State)
    (cpMv : Int) (s : SafetyTask) : meterView (checkRelayWeldBl0939 i bl js cpMv s) =
      meterView (MeterDetector.relayWeld.setStreak
        (MeterDetector.relayWeld.nextStreak i bl s) s) := by
  rw [checkRelayWeldBl0939, MeterDetector.nextStreak, MeterDetector.meets]
  cases hvalid : bl.valid with
  | false => rfl
  | true =>
    rw [if_neg not_not_true, if_neg true_ne_false]
    by_cases hscale : i.iaNaPerRaw ≤ 0
    · have hnot : ¬ 0 < i.iaNaPerRaw := not_lt.mpr hscale
      rw [if_pos hscale, decide_eq_false hnot]
      rfl
    have hpos : 0 < i.iaNaPerRaw := not_le.mp hscale
    rw [if_neg hscale, decide_eq_true hpos, Bool.true_and]
    dsimp only
    by_cases hsettle : 0 < weldSettleArmed s
    · rw [if_pos hsettle, decide_eq_false (Nat.pos_iff_ne_zero.mp hsettle)]
      rfl
    · rw [if_neg hsettle, meterView_latchAfter,
        decide_eq_true (Nat.eq_zero_of_not_pos hsettle), Bool.true_and, Bool.and_comm]
      rfl

theorem meterView_checkRelayStuckOpenBl0939 (i : TickInput) (bl : Bl0939Readings)
    (js : J1772State) (cpMv : Int) (s : SafetyTask) :
    meterView (checkRelayStuckOpenBl0939 i bl js cpMv s) =
      meterView (MeterDetector.relayStuckOpen.setStreak
        (MeterDetector.relayStuckOpen.nextStreak i bl s) s) := by
  rw [checkRelayStuckOpenBl0939, MeterDetector.nextStreak, MeterDetector.meets]
  cases hvalid : bl.valid with
  | false => rfl
  | true =>
    rw [if_neg not_not_true, if_neg true_ne_false]
    by_cases hscale : i.iaNaPerRaw ≤ 0
    · have hnot : ¬ 0 < i.iaNaPerRaw := not_lt.mpr hscale
      rw [if_pos hscale, decide_eq_false hnot]
      rfl
    have hpos : 0 < i.iaNaPerRaw := not_le.mp hscale
    rw [if_neg hscale, decide_eq_true hpos, Bool.true_and]
    by_cases hidle : s.evse ≠ .charging ∨ s.mainCmd = false
    · have hno : (decide (s.evse = .charging) && s.mainCmd) = false := by
        rcases hidle with hevse | hopen
        · rw [decide_eq_false hevse, Bool.false_and]
        · rw [hopen, Bool.and_false]
      rw [if_pos hidle, hno]
      rfl
    · have hyes : (decide (s.evse = .charging) && s.mainCmd) = true := by
        rw [not_or, not_not, Bool.not_eq_false] at hidle
        rw [decide_eq_true hidle.1, hidle.2, Bool.true_and]
      rw [if_neg hidle, meterView_latchAfter, hyes, Bool.true_and]
      simp only [decide_eq_true_eq]
      rfl

theorem meterView_checkHardOverCurrent (i : TickInput) (bl : Bl0939Readings) (js : J1772State)
    (cpMv : Int) (s : SafetyTask) : meterView (checkHardOverCurrent i bl js cpMv s) =
      meterView (MeterDetector.hardOverCurrent.setStreak
        (MeterDetector.hardOverCurrent.nextStreak i bl s) s) := by
  rw [checkHardOverCurrent, MeterDetector.nextStreak, MeterDetector.meets]
  cases hvalid : bl.valid with
  | false => rfl
  | true =>
    rw [if_neg not_not_true, if_neg true_ne_false]
    by_cases hscale : i.iaNaPerRaw ≤ 0
    · have hnot : ¬ 0 < i.iaNaPerRaw := not_lt.mpr hscale
      rw [if_pos hscale, decide_eq_false hnot]
      rfl
    have hpos : 0 < i.iaNaPerRaw := not_le.mp hscale
    rw [if_neg hscale, decide_eq_true hpos, Bool.true_and]
    by_cases hadv : effectiveAdvertisedAmps i s = 0
    · rw [if_pos hadv, hadv]
      rfl
    · rw [if_neg hadv, meterView_latchAfter, decide_eq_true hadv, Bool.true_and]
      simp only [decide_eq_true_eq]
      rfl

theorem meterView_clearSoftOverCurrent (s : SafetyTask) :
    meterView (clearSoftOverCurrent s) = meterView { s with socStreak := 0 } := by
  rw [clearSoftOverCurrent]
  dsimp only
  split
  · split
    · rfl
    · rfl
  · rfl

theorem meterView_checkSoftOverCurrent (i : TickInput) (bl : Bl0939Readings) (js : J1772State)
    (cpMv : Int) (s : SafetyTask) : meterView (checkSoftOverCurrent i bl js cpMv s) =
      meterView (MeterDetector.softOverCurrent.setStreak
        (MeterDetector.softOverCurrent.nextStreak i bl s) s) := by
  rw [checkSoftOverCurrent, MeterDetector.nextStreak, MeterDetector.meets, MeterDetector.ramps]
  cases hvalid : bl.valid with
  | false => rfl
  | true =>
    rw [if_neg not_not_true, if_neg true_ne_false]
    by_cases hscale : i.iaNaPerRaw ≤ 0
    · have hnot : ¬ 0 < i.iaNaPerRaw := not_lt.mpr hscale
      rw [if_pos hscale, decide_eq_false hnot]
      rfl
    have hpos : 0 < i.iaNaPerRaw := not_le.mp hscale
    rw [if_neg hscale, decide_eq_true hpos, Bool.true_and]
    by_cases hadv : effectiveAdvertisedAmps i s = 0
    · rw [if_pos hadv, hadv]
      rfl
    rw [if_neg hadv, decide_eq_true hadv, Bool.true_and]
    simp only [decide_eq_true_eq]
    by_cases hunder : iaMilliamps bl i.iaNaPerRaw ≤ socThresholdMa (effectiveAdvertisedAmps i s)
    · rw [if_pos hunder, if_neg (not_lt.mpr hunder)]
      exact meterView_clearSoftOverCurrent s
    rw [if_neg hunder, if_pos (not_le.mp hunder)]
    by_cases hcount : s.socStreak < bl0939SocPersistPolls
    · have hbump : bump bl0939SocPersistPolls s.socStreak = s.socStreak + 1 := if_pos hcount
      rw [if_pos hcount, decide_eq_false (not_le.mpr hcount), Bool.false_and, if_neg Bool.false_ne_true]
      show _ = meterView (MeterDetector.softOverCurrent.setStreak
        (bump bl0939SocPersistPolls s.socStreak) s)
      rw [hbump]
      rfl
    · have hbump : bump bl0939SocPersistPolls s.socStreak = s.socStreak := if_neg hcount
      rw [if_neg hcount, decide_eq_true (not_lt.mp hcount), Bool.true_and, rampSoftOverCurrent]
      by_cases hfloor : socDerateFloorA < effectiveAdvertisedAmps i s
      · rw [if_pos hfloor, if_pos (decide_eq_true hfloor)]
        rfl
      · rw [if_neg hfloor, decide_eq_false hfloor, if_neg Bool.false_ne_true]
        show _ = meterView (MeterDetector.softOverCurrent.setStreak
          (bump bl0939SocPersistPolls s.socStreak) s)
        rw [hbump]
        split
        · rfl
        · exact meterView_raiseFault ..

/-- A check touches the streak of its own detector and nothing else of the block. -/
theorem meterView_check (i : TickInput) (bl : Bl0939Readings) (js : J1772State) (s : SafetyTask)
    (d : MeterDetector) :
    meterView (d.check i bl js s) = meterView (d.setStreak (d.nextStreak i bl s) s) := by
  cases d with
  | acAbsent => exact meterView_checkAcAbsent ..
  | relayWeld => exact meterView_checkRelayWeldBl0939 ..
  | relayStuckOpen => exact meterView_checkRelayStuckOpenBl0939 ..
  | hardOverCurrent => exact meterView_checkHardOverCurrent ..
  | softOverCurrent => exact meterView_checkSoftOverCurrent ..

theorem streak_check (i : TickInput) (bl : Bl0939Readings) (js : J1772State) (s : SafetyTask)
    (d d' : MeterDetector) :
    d'.streak (d.check i bl js s) = if d' = d then d.nextStreak i bl s else d'.streak s := by
  rw [streak_congr (meterView_check i bl js s d), streak_setStreak]

/-! ## The fault of a check -/

theorem faults_raiseFault (fid : FaultId) (js : J1772State) (cpMv : Int) (s : SafetyTask) :
    (raiseFault fid js cpMv s).faults = (faultRaise s.faults fid.code).2 := by
  rw [raiseFault]
  split
  · rw [postFaultEvent]
    dsimp only
    split
    · rfl
    · rfl
  · rfl

theorem MeterDetector.fault_ok (d : MeterDetector) : fidOk d.fault.code = true := by
  cases d <;> rfl

/-- What a check can do to the faults: nothing, raise its own once the streak it leaves is long
enough, or clear its own. -/
inductive Checked (d : MeterDetector) (s s' : SafetyTask) : Prop
  | kept (h : s'.faults = s.faults)
  | raised (hneed : d.need ≤ d.streak s') (h : s'.faults = (faultRaise s.faults d.fault.code).2)
  | cleared (h : s'.faults = (faultClear s.faults d.fault.code).2)

theorem checked_latchAfter (h : u.faults = s.faults) (hstreak : d.streak u = n) :
    Checked d s (latchAfter d.need n d.fault js cpMv u) := by
  rw [latchAfter]
  split
  · next hlatch =>
    refine .raised ?_ ?_
    · rw [streak_congr (meterView_raiseToFault ..), hstreak]
      exact hlatch.1
    · rw [raiseToFault, faults_evseTransition, faults_raiseFault, h]
  · exact .kept h

theorem checked_checkAcAbsent (i : TickInput) (bl : Bl0939Readings) (js : J1772State)
    (s : SafetyTask) : Checked .acAbsent s (checkAcAbsent bl js i.cpHighMv s) := by
  rw [checkAcAbsent]
  dsimp only
  split
  · exact .kept rfl
  split
  · split
    · next hlatch =>
      refine .raised ?_ (faults_raiseFault ..)
      rw [streak_congr (meterView_raiseFault ..)]
      exact hlatch.1
    · exact .kept rfl
  · split
    · exact .cleared rfl
    · exact .kept rfl

theorem checked_checkSoftOverCurrent (i : TickInput) (bl : Bl0939Readings) (js : J1772State)
    (s : SafetyTask) : Checked .softOverCurrent s (checkSoftOverCurrent i bl js i.cpHighMv s) := by
  rw [checkSoftOverCurrent]
  dsimp only
  split
  · exact .kept rfl
  split
  · exact .kept rfl
  split
  · exact .kept rfl
  split
  · rw [clearSoftOverCurrent]
    dsimp only
    split
    · split
      · exact .cleared rfl
      · exact .cleared rfl
    · exact .kept rfl
  split
  · exact .kept rfl
  · next hcount =>
    rw [rampSoftOverCurrent]
    split
    · exact .kept rfl
    split
    · exact .kept rfl
    · refine .raised ?_ (faults_raiseFault ..)
      rw [streak_congr (meterView_raiseFault ..)]
      exact not_lt.mp hcount

theorem checked_check (i : TickInput) (bl : Bl0939Readings) (js : J1772State) (s : SafetyTask)
    (d : MeterDetector) : Checked d s (d.check i bl js s) := by
  cases d with
  | acAbsent => exact checked_checkAcAbsent i bl js s
  | relayWeld =>
    show Checked _ _ (checkRelayWeldBl0939 i bl js i.cpHighMv s)
    rw [checkRelayWeldBl0939]
    dsimp only
    split
    · exact .kept rfl
    split
    · exact .kept rfl
    split
    · exact .kept rfl
    · exact checked_latchAfter rfl rfl
  | relayStuckOpen =>
    show Checked _ _ (checkRelayStuckOpenBl0939 i bl js i.cpHighMv s)
    rw [checkRelayStuckOpenBl0939]
    dsimp only
    split
    · exact .kept rfl
    split
    · exact .kept rfl
    split
    · exact .kept rfl
    · exact checked_latchAfter rfl rfl
  | hardOverCurrent =>
    show Checked _ _ (checkHardOverCurrent i bl js i.cpHighMv s)
    rw [checkHardOverCurrent]
    dsimp only
    split
    · exact .kept rfl
    split
    · exact .kept rfl
    split
    · exact .kept rfl
    · exact checked_latchAfter rfl rfl
  | softOverCurrent => exact checked_checkSoftOverCurrent i bl js s

theorem Checked.other {id : Nat} (h : Checked d s s') (hid : id ≠ d.fault.code) :
    faultIsActive s'.faults id = faultIsActive s.faults id := by
  cases h with
  | kept h => rw [h]
  | raised _ h => rw [h, faultIsActive_raise _ d.fault_ok, decide_eq_false hid, Bool.or_false]
  | cleared h => rw [h, faultIsActive_clear_ne _ hid]

/-- A fault that a check raises has its streak behind it. -/
theorem Checked.need_le (h : Checked d s s') (hoff : faultIsActive s.faults d.fault.code = false)
    (hon : faultIsActive s'.faults d.fault.code = true) : d.need ≤ d.streak s' := by
  cases h with
  | kept h =>
    rw [h, hoff] at hon
    cases hon
  | raised hneed _ => exact hneed
  | cleared h =>
    rw [h, faultIsActive_clear, hoff, Bool.false_and] at hon
    cases hon

/-! ## The checks of a poll -/

/-- The checks of a list of detectors, one after the other. -/
def runChecks (i : TickInput) (bl : Bl0939Readings) (js : J1772State) (ds : List MeterDetector)
    (s : SafetyTask) : SafetyTask :=
  ds.foldl (fun s d => d.check i bl js s) s

theorem runChecks_append (ds ds' : List MeterDetector) :
    runChecks i bl js (ds ++ ds') s = runChecks i bl js ds' (runChecks i bl js ds s) :=
  List.foldl_append

theorem streak_runChecks {ds : List MeterDetector} (h : d ∉ ds) :
    d.streak (runChecks i bl js ds s) = d.streak s := by
  induction ds generalizing s with
  | nil => rfl
  | cons d' ds ih =>
    rw [List.mem_cons, not_or] at h
    have hrest := ih (s := d'.check i bl js s) h.2
    rw [streak_check, if_neg h.1] at hrest
    exact hrest

theorem MeterDetector.fault_injective {d d' : MeterDetector} (h : d.fault.code = d'.fault.code) :
    d = d' := by
  cases d <;> cases d' <;> first | rfl | cases h

theorem active_runChecks {ds : List MeterDetector} (h : d ∉ ds) :
    faultIsActive (runChecks i bl js ds s).faults d.fault.code =
      faultIsActive s.faults d.fault.code := by
  induction ds generalizing s with
  | nil => rfl
  | cons d' ds ih =>
    rw [List.mem_cons, not_or] at h
    have hother : d.fault.code ≠ d'.fault.code := fun heq => h.1 (MeterDetector.fault_injective heq)
    have hrest := ih (s := d'.check i bl js s) h.2
    rw [(checked_check i bl js s d').other hother] at hrest
    exact hrest

/-- Every detector is checked once. -/
theorem order_split (d : MeterDetector) : ∃ ds, d ∉ MeterDetector.order.takeWhile (· ≠ d) ∧
    d ∉ ds ∧ MeterDetector.order = MeterDetector.order.takeWhile (· ≠ d) ++ d :: ds := by
  refine ⟨(MeterDetector.order.dropWhile (· ≠ d)).tail, ?_⟩
  cases d <;> decide

theorem readings_runChecks (ds : List MeterDetector) :
    (runChecks i bl js ds s).readings = s.readings ∧
      (runChecks i bl js ds s).bl0939PollDiv = s.bl0939PollDiv := by
  induction ds generalizing s with
  | nil => exact ⟨rfl, rfl⟩
  | cons d ds ih =>
    have hview := meterView_check i bl js s d
    obtain ⟨hread, hdiv⟩ := ih (s := d.check i bl js s)
    have hset : (d.setStreak (d.nextStreak i bl s) s).readings = s.readings ∧
        (d.setStreak (d.nextStreak i bl s) s).bl0939PollDiv = s.bl0939PollDiv := by
      cases d <;> exact ⟨rfl, rfl⟩
    exact ⟨hread.trans ((readings_congr hview).trans hset.1),
      hdiv.trans ((pollDiv_congr hview).trans hset.2)⟩

/-- The streak a poll leaves is the one of the detector's own check. -/
theorem streak_polled (i : TickInput) (bl : Bl0939Readings) (js : J1772State) (s : SafetyTask)
    (d : MeterDetector) :
    d.streak (runChecks i bl js MeterDetector.order s) =
      d.nextStreak i bl (d.before i bl js s) := by
  obtain ⟨ds, -, hafter, hsplit⟩ := order_split d
  rw [hsplit, runChecks_append]
  show d.streak (runChecks i bl js ds (d.check i bl js (d.before i bl js s))) = _
  rw [streak_runChecks hafter, streak_check, if_pos rfl]

theorem streak_before (i : TickInput) (bl : Bl0939Readings) (js : J1772State) (s : SafetyTask)
    (d : MeterDetector) : d.streak (d.before i bl js s) = d.streak s := by
  obtain ⟨ds, hbefore, -, -⟩ := order_split d
  exact streak_runChecks hbefore

/-- A fault that the checks of a poll raise has its streak behind it. -/
theorem need_le_polled (hoff : faultIsActive s.faults d.fault.code = false)
    (hon : faultIsActive (runChecks i bl js MeterDetector.order s).faults d.fault.code = true) :
    d.need ≤ d.streak (runChecks i bl js MeterDetector.order s) := by
  obtain ⟨ds, hbefore, hafter, hsplit⟩ := order_split d
  rw [hsplit, runChecks_append] at hon ⊢
  have hstart := @active_runChecks i bl js s d _ hbefore
  rw [hoff] at hstart
  generalize runChecks i bl js (MeterDetector.order.takeWhile (· ≠ d)) s = u at hon hstart ⊢
  have hcheck : runChecks i bl js (d :: ds) u = runChecks i bl js ds (d.check i bl js u) := rfl
  rw [hcheck, active_runChecks hafter] at hon
  rw [hcheck, streak_runChecks hafter]
  exact (checked_check i bl js u d).need_le hstart hon

/-! ## The operations around the metering block -/

theorem meterView_beforeMetering (fl : BuildFlags) (i : TickInput) (σ : System) :
    meterView (beforeMetering fl i σ) = meterView σ.task := by
  rw [← foldl_controlOps]
  have hops := through_controlOps fl i σ
  generalize controlOps fl i σ = fs at hops
  generalize σ.task = s
  induction fs generalizing s with
  | nil => rfl
  | cons f fs ih =>
    have hrest := ih (fun g hg => hops g (List.mem_cons_of_mem _ hg)) (f s)
    exact hrest.trans (hops f (List.mem_cons_self ..) s).meter

theorem meterView_integrateEnergy (i : TickInput) (bl : Bl0939Readings) (s : SafetyTask) :
    meterView (integrateEnergy i bl s) = meterView s := by
  rw [integrateEnergy]
  split
  · dsimp only
    split
    · rfl
    · rfl
  · rfl

theorem meterView_bootTask (fl : BuildFlags) (b : BootInput) :
    meterView (bootTask fl b) = meterView (safetyTaskInit b.tickCount) := by
  have hcheck : ∀ failed fid js cpMv s, meterView (bootCheck failed fid js cpMv s) = meterView s := by
    intro failed fid js cpMv s
    rw [bootCheck]
    split
    · exact meterView_raiseToFault ..
    · rfl
  have hready : ∀ s, meterView (if s.evse ≠ .fault then evseTransition .ready s else s) =
      meterView s := by
    intro s
    split
    · exact meterView_evseTransition ..
    · rfl
  have htest := meterView_evseTransition .selfTest (safetyTaskInit b.tickCount)
  rw [bootTask]
  exact (hready _).trans ((through_checkSafeFail ..).meter.trans
    ((hcheck ..).trans ((hcheck ..).trans htest)))

/-! ## One tick -/

variable {fl : BuildFlags} {σ : System}

/-- The tick polls the metering chip. -/
def Polls (fl : BuildFlags) (i : TickInput) (σ : System) : Prop :=
  bl0939PollTicks ≤ (beforeMetering fl i σ).bl0939PollDiv + 1

instance (fl : BuildFlags) (i : TickInput) (σ : System) : Decidable (Polls fl i σ) :=
  inferInstanceAs (Decidable (_ ≤ _))

/-- The readings the poll of the tick leaves. -/
def polledReadings (fl : BuildFlags) (i : TickInput) (σ : System) : Bl0939Readings :=
  bl0939Poll i.freqConst i.bl0939 (beforeMetering fl i σ).readings

/-- The state the checks start from. -/
def polledTask (fl : BuildFlags) (i : TickInput) (σ : System) : SafetyTask :=
  { beforeMetering fl i σ with bl0939PollDiv := 0, readings := polledReadings fl i σ }

/-- The state a detector is run in. -/
def detectorTask (fl : BuildFlags) (i : TickInput) (σ : System) (d : MeterDetector) : SafetyTask :=
  d.before i (polledReadings fl i σ) (afterUpdate fl i σ).cp.committed (polledTask fl i σ)

/-- The state behind the checks, which the energy is integrated in. -/
def checkedTask (fl : BuildFlags) (i : TickInput) (σ : System) : SafetyTask :=
  runChecks i (polledReadings fl i σ) (afterUpdate fl i σ).cp.committed MeterDetector.order
    (polledTask fl i σ)

/-- The state behind the metering block. -/
def afterMetering (fl : BuildFlags) (i : TickInput) (σ : System) : SafetyTask :=
  meteringStep i (afterUpdate fl i σ).cp.committed i.cpHighMv (beforeMetering fl i σ)

/-- The readings of the poll meet the condition of the detector. -/
def MetBy (fl : BuildFlags) (i : TickInput) (σ : System) (d : MeterDetector) : Prop :=
  d.meets i (polledReadings fl i σ) (detectorTask fl i σ d) = true

instance (fl : BuildFlags) (i : TickInput) (σ : System) (d : MeterDetector) :
    Decidable (MetBy fl i σ d) := inferInstanceAs (Decidable (_ = true))

theorem afterMetering_polls (h : Polls fl i σ) :
    afterMetering fl i σ = integrateEnergy i (polledReadings fl i σ) (checkedTask fl i σ) := by
  have hpoll : ¬ (beforeMetering fl i σ).bl0939PollDiv + 1 < bl0939PollTicks := not_lt.mpr h
  rw [afterMetering, meteringStep, if_neg hpoll]
  rfl

theorem streak_afterMetering (h : Polls fl i σ) (d : MeterDetector) :
    d.streak (afterMetering fl i σ) =
      d.nextStreak i (polledReadings fl i σ) (detectorTask fl i σ d) := by
  rw [afterMetering_polls h, streak_congr (meterView_integrateEnergy ..), checkedTask,
    streak_polled]
  rfl

theorem faults_withReadings (s : SafetyTask) (div : Nat) (bl : Bl0939Readings) :
    ({ s with bl0939PollDiv := div, readings := bl } : SafetyTask).faults = s.faults := rfl

theorem streak_withReadings (s : SafetyTask) (div : Nat) (bl : Bl0939Readings) (d : MeterDetector) :
    d.streak { s with bl0939PollDiv := div, readings := bl } = d.streak s := by
  cases d <;> rfl

theorem streak_detectorTask (fl : BuildFlags) (i : TickInput) (σ : System) (d : MeterDetector) :
    d.streak (detectorTask fl i σ d) = d.streak σ.task := by
  rw [detectorTask, streak_before, ← streak_congr (meterView_beforeMetering fl i σ)]
  exact streak_withReadings ..

theorem meterView_tick (fl : BuildFlags) (i : TickInput) (σ : System) :
    meterView (tick fl i σ).task = meterView (afterMetering fl i σ) := by
  rw [tick, (through_rfidStep i (beforeRfid fl i σ)).meter, beforeRfid_task, ← beforeMetering,
    afterMetering]

theorem streak_tick_polls (h : Polls fl i σ) (d : MeterDetector) :
    d.streak (tick fl i σ).task =
      d.nextStreak i (polledReadings fl i σ) (detectorTask fl i σ d) := by
  rw [streak_congr (meterView_tick fl i σ), streak_afterMetering h]

theorem streak_tick_idle (h : ¬ Polls fl i σ) (d : MeterDetector) :
    d.streak (tick fl i σ).task = d.streak σ.task ∧
      (tick fl i σ).task.readings = σ.task.readings := by
  have hlt : (beforeMetering fl i σ).bl0939PollDiv + 1 < bl0939PollTicks := not_le.mp h
  have hbefore := meterView_beforeMetering fl i σ
  have htick := meterView_tick fl i σ
  rw [afterMetering] at htick
  generalize beforeMetering fl i σ = u at hlt hbefore htick
  have hidle : ∀ js, meteringStep i js i.cpHighMv u =
      { u with bl0939PollDiv := u.bl0939PollDiv + 1, readings := u.readings } := by
    intro js
    rw [meteringStep, if_pos hlt]
  rw [hidle] at htick
  constructor
  · rw [streak_congr htick, streak_withReadings, streak_congr hbefore]
  · have hread := readings_congr htick
    have hstart := readings_congr hbefore
    rw [hread, ← hstart]

theorem readings_tick_polls (h : Polls fl i σ) :
    (tick fl i σ).task.readings = polledReadings fl i σ := by
  have htick := meterView_tick fl i σ
  rw [afterMetering_polls h, meterView_integrateEnergy] at htick
  exact (readings_congr htick).trans (readings_runChecks _).1

/-- A reading that was valid stays so. -/
theorem valid_polled (h : (polledReadings fl i σ).valid = false) :
    σ.task.readings.valid = false := by
  rw [← readings_congr (meterView_beforeMetering fl i σ)]
  rw [polledReadings, bl0939Poll] at h
  dsimp only at h
  split at h
  · cases h
  · exact h

/-! ## The derating -/

theorem effectiveAdvertisedAmps_le (i : TickInput) (s : SafetyTask) :
    effectiveAdvertisedAmps i s ≤ hwAmpsMax := by
  rw [effectiveAdvertisedAmps]
  dsimp only [hwAmpsMax, dip1AmpsClosed, dip1AmpsOpen, socDerateFloorA]
  repeat' split
  all_goals omega

/-- A reading that meets the condition behind a full streak is one to ramp on. -/
theorem checkSoftOverCurrent_over (hvalid : bl.valid = true)
    (hmeets : MeterDetector.softOverCurrent.meets i bl s = true)
    (hstreak : bl0939SocPersistPolls ≤ s.socStreak) :
    checkSoftOverCurrent i bl js cpMv s =
      rampSoftOverCurrent (effectiveAdvertisedAmps i s) js cpMv s := by
  rw [MeterDetector.meets, Bool.and_eq_true, Bool.and_eq_true, decide_eq_true_eq,
    decide_eq_true_eq, decide_eq_true_eq] at hmeets
  obtain ⟨⟨hscale, hadv⟩, hover⟩ := hmeets
  rw [checkSoftOverCurrent, hvalid, if_neg not_not_true, if_neg (not_le.mpr hscale), if_neg hadv]
  dsimp only
  rw [if_neg (not_le.mpr hover), if_neg (not_lt.mpr hstreak)]

/-- The check moves the derating only where it ramps. -/
theorem derate_checkSoftOverCurrent (i : TickInput) (bl : Bl0939Readings) (js : J1772State)
    (cpMv : Int) (s : SafetyTask) :
    (checkSoftOverCurrent i bl js cpMv s).socDerateAmps = s.socDerateAmps ∨
      bl.valid = true ∧ MeterDetector.softOverCurrent.meets i bl s = true ∧
        bl0939SocPersistPolls ≤ s.socStreak ∧ socDerateFloorA < effectiveAdvertisedAmps i s := by
  rw [checkSoftOverCurrent]
  dsimp only
  split
  · exact .inl rfl
  split
  · exact .inl rfl
  split
  · exact .inl rfl
  split
  · rw [clearSoftOverCurrent]
    dsimp only
    split
    · split
      · exact .inl rfl
      · exact .inl rfl
    · exact .inl rfl
  split
  · exact .inl rfl
  · next hvalid hscale hadv hover hcount =>
    rw [rampSoftOverCurrent]
    split
    · next hfloor =>
      have hmeets : MeterDetector.softOverCurrent.meets i bl s = true := by
        rw [MeterDetector.meets, decide_eq_true (not_le.mp hscale), decide_eq_true hadv,
          decide_eq_true (not_le.mp hover)]
        rfl
      refine .inr ⟨?_, hmeets, not_lt.mp hcount, hfloor⟩
      cases hbl : bl.valid with
      | true => rfl
      | false =>
        rw [hbl] at hvalid
        exact absurd rfl hvalid
    split
    · exact .inl rfl
    · exact .inl (congrArg CoreView.derate (coreView_raiseFault ..))

/-- A reading that does not meet the condition leaves the derating alone. -/
theorem derate_kept (h : bl.valid = false ∨ MeterDetector.softOverCurrent.meets i bl s = false) :
    (checkSoftOverCurrent i bl js cpMv s).socDerateAmps = s.socDerateAmps := by
  rcases derate_checkSoftOverCurrent i bl js cpMv s with hkept | ⟨hvalid, hmeets, -, -⟩
  · exact hkept
  · rw [hvalid, hmeets] at h
    rcases h with h | h
    · cases h
    · cases h

theorem ramps_iff (i : TickInput) (s : SafetyTask) :
    MeterDetector.softOverCurrent.ramps i s = true ↔
      bl0939SocPersistPolls ≤ s.socStreak ∧ socDerateFloorA < effectiveAdvertisedAmps i s := by
  rw [MeterDetector.ramps, Bool.and_eq_true, decide_eq_true_eq, decide_eq_true_eq]

/-- A ramp moves the derating. -/
theorem derate_ramped (hvalid : bl.valid = true)
    (hmeets : MeterDetector.softOverCurrent.meets i bl s = true)
    (hramps : MeterDetector.softOverCurrent.ramps i s = true) :
    (checkSoftOverCurrent i bl js cpMv s).socDerateAmps ≠ s.socDerateAmps := by
  obtain ⟨hstreak, hfloor⟩ := (ramps_iff i s).mp hramps
  rw [checkSoftOverCurrent_over hvalid hmeets hstreak, rampSoftOverCurrent, if_pos hfloor]
  have hmax := effectiveAdvertisedAmps_le i s
  generalize effectiveAdvertisedAmps i s = adv at hfloor hmax
  dsimp only [hwAmpsMax] at hmax ⊢
  have hstep : 1 ≤ (if 10 ≤ adv then adv / 10 else 1) ∧ (if 10 ≤ adv then adv / 10 else 1) ≤ 4 := by
    split <;> omega
  omega

/-! ## Runs -/

variable {b : BootInput} {ins : ℕ → TickInput}

/-- Counts the polls in a row that received the register of the detector and met its
condition. -/
def receivedNext (fl : BuildFlags) (d : MeterDetector) (i : TickInput) (σ : System) (h : ℕ) : ℕ :=
  if Polls fl i σ then
    if d.received i.bl0939 = true ∧ MetBy fl i σ d then h + 1 else 0
  else h

def receivedInARow (fl : BuildFlags) (b : BootInput) (ins : ℕ → TickInput) (d : MeterDetector) :
    ℕ → ℕ :=
  (safetyMachine fl).history b ins (receivedNext fl d) 0

/-- What the metering block makes of its polls: the streaks count polls in a row that received
what they look at, a fault is raised behind as many as it needs, the derating moves and energy
is added only in a poll that received the register. -/
structure PollsCounted (fl : BuildFlags) (b : BootInput) (ins : ℕ → TickInput) : Prop where
  streak : ∀ n d, d.streak (safetyRun fl b ins n).task ≤ receivedInARow fl b ins d n
  raised : ∀ n d,
    faultIsActive (beforeMetering fl (ins n) (safetyRun fl b ins n)).faults d.fault.code = false →
    faultIsActive (afterMetering fl (ins n) (safetyRun fl b ins n)).faults d.fault.code = true →
    d.need ≤ receivedInARow fl b ins d (n + 1)
  derate : ∀ n, let s := detectorTask fl (ins n) (safetyRun fl b ins n) .softOverCurrent
    Polls fl (ins n) (safetyRun fl b ins n) → (ins n).bl0939.ia.ok = false →
    (checkSoftOverCurrent (ins n) (polledReadings fl (ins n) (safetyRun fl b ins n))
      (afterUpdate fl (ins n) (safetyRun fl b ins n)).cp.committed (ins n).cpHighMv
      s).socDerateAmps = s.socDerateAmps
  energy : ∀ n, Polls fl (ins n) (safetyRun fl b ins n) → (ins n).bl0939.aw.ok = false →
    (afterMetering fl (ins n) (safetyRun fl b ins n)).session.mwsAccum =
      (checkedTask fl (ins n) (safetyRun fl b ins n)).session.mwsAccum

/-- A poll finds a kept reading that meets the condition of a detector, or a kept power while
energy is counted. -/
def CountsKept (fl : BuildFlags) (i : TickInput) (σ : System) : Prop :=
  Polls fl i σ ∧
    ((∃ d : MeterDetector, d.received i.bl0939 = false ∧
        (polledReadings fl i σ).valid = true ∧ MetBy fl i σ d) ∨
      i.bl0939.aw.ok = false ∧ (checkedTask fl i σ).session.active = true ∧
        (checkedTask fl i σ).mainCmd = true ∧ 0 < pollEnergy i (polledReadings fl i σ))

theorem mwsAccum_integrateEnergy (i : TickInput) (bl : Bl0939Readings) (s : SafetyTask) :
    (integrateEnergy i bl s).session.mwsAccum = s.session.mwsAccum ↔
      ¬ (s.session.active = true ∧ s.mainCmd = true ∧ 0 < pollEnergy i bl) := by
  rw [integrateEnergy, pollEnergy]
  dsimp only [bl0939PollTicks, safetyTaskPeriodMs]
  by_cases hgate : (s.session.active && s.mainCmd && decide (i.paUwPerRaw ≠ 0)) = true
  · rw [if_pos hgate]
    rw [Bool.and_eq_true, Bool.and_eq_true] at hgate
    rw [hgate.1.1, hgate.1.2]
    by_cases hpower : 0 < bl.aWatt * i.paUwPerRaw
    · rw [if_pos hpower, max_eq_right hpower.le]
      simp only [true_and]
      omega
    · rw [if_neg hpower, max_eq_left (not_lt.mp hpower)]
      simp
  · rw [if_neg hgate]
    simp only [true_iff]
    rintro ⟨hactive, hclosed, henergy⟩
    rw [hactive, hclosed, Bool.true_and, Bool.true_and, decide_eq_true_eq, not_not] at hgate
    rw [hgate, mul_zero, max_self] at henergy
    cases henergy

theorem receivedInARow_succ (fl : BuildFlags) (b : BootInput) (ins : ℕ → TickInput)
    (d : MeterDetector) (n : ℕ) : receivedInARow fl b ins d (n + 1) =
      receivedNext fl d (ins n) (safetyRun fl b ins n) (receivedInARow fl b ins d n) := rfl

theorem bump_pos {cap streak : Nat} (h : 0 < cap) : 0 < bump cap streak := by
  rw [bump]
  split
  · exact Nat.succ_pos _
  · omega

theorem MeterDetector.need_pos (d : MeterDetector) : 0 < d.need := by
  cases d <;> decide

/-- The streaks of readings that were never valid are zero, and no streak is ahead of the polls
that received what it counts. -/
structure StreaksOk (s : SafetyTask) (row : MeterDetector → ℕ) : Prop where
  received : ∀ d : MeterDetector, d.streak s ≤ row d
  fresh : s.readings.valid = false → ∀ d : MeterDetector, d.streak s = 0

theorem streaksOk_tick {row : MeterDetector → ℕ} {i : TickInput} (h : StreaksOk σ.task row)
    (hkept : ¬ CountsKept fl i σ) :
    StreaksOk (tick fl i σ).task fun d => receivedNext fl d i σ (row d) := by
  by_cases hpolls : Polls fl i σ
  · have hrow : ∀ d, receivedNext fl d i σ (row d) =
        if d.received i.bl0939 = true ∧ MetBy fl i σ d then row d + 1 else 0 :=
      fun d => if_pos hpolls
    have hstreak : ∀ d : MeterDetector, d.streak (tick fl i σ).task =
        d.nextStreak i (polledReadings fl i σ) (detectorTask fl i σ d) :=
      fun d => streak_tick_polls hpolls d
    cases hvalid : (polledReadings fl i σ).valid with
    | false =>
      have hzero : ∀ d : MeterDetector, d.streak (tick fl i σ).task = 0 := by
        intro d
        rw [hstreak, MeterDetector.nextStreak, if_pos hvalid, streak_detectorTask]
        exact h.fresh (valid_polled hvalid) d
      exact ⟨fun d => by rw [hzero d]; exact Nat.zero_le _, fun _ => hzero⟩
    | true =>
      refine ⟨fun d => ?_, fun hoff => ?_⟩
      · rw [hstreak, hrow, MeterDetector.nextStreak, hvalid, if_neg true_ne_false]
        by_cases hmet : MetBy fl i σ d
        · have hreceived : d.received i.bl0939 = true := by
            by_contra hstale
            exact hkept ⟨hpolls, .inl ⟨d, Bool.eq_false_iff.mpr hstale, hvalid, hmet⟩⟩
          have hcount : (if d.received i.bl0939 = true ∧ MetBy fl i σ d then row d + 1 else 0) =
              row d + 1 := if_pos ⟨hreceived, hmet⟩
          rw [if_pos (show d.meets i _ _ = true from hmet), hcount]
          split
          · exact Nat.zero_le _
          · rw [streak_detectorTask]
            exact (bump_le _ _).trans (Nat.succ_le_succ (h.received d))
        · rw [if_neg (show ¬ d.meets i _ _ = true from hmet)]
          exact Nat.zero_le _
      · rw [readings_tick_polls hpolls, hvalid] at hoff
        cases hoff
  · have hrow : ∀ d, receivedNext fl d i σ (row d) = row d := fun d => if_neg hpolls
    have hidle := streak_tick_idle hpolls
    refine ⟨fun d => ?_, fun hoff d => ?_⟩
    · rw [hrow, (hidle d).1]
      exact h.received d
    · rw [(hidle d).1]
      rw [(hidle d).2] at hoff
      exact h.fresh hoff d

theorem streaksOk_run (hkept : ∀ n, ¬ CountsKept fl (ins n) (safetyRun fl b ins n)) (n : ℕ) :
    StreaksOk (safetyRun fl b ins n).task fun d => receivedInARow fl b ins d n := by
  induction n with
  | zero =>
    have hboot : meterView (bootTask fl b) = meterView (safetyTaskInit b.tickCount) :=
      meterView_bootTask fl b
    have hzero : ∀ d : MeterDetector, d.streak (bootTask fl b) = 0 := by
      intro d
      rw [streak_congr hboot]
      cases d <;> rfl
    exact ⟨fun d => (hzero d).le, fun _ => hzero⟩
  | succ n ih => exact streaksOk_tick ih (hkept n)

theorem afterMetering_idle_faults (h : ¬ Polls fl i σ) :
    (afterMetering fl i σ).faults = (beforeMetering fl i σ).faults := by
  have hlt : (beforeMetering fl i σ).bl0939PollDiv + 1 < bl0939PollTicks := not_le.mp h
  rw [afterMetering, meteringStep, if_pos hlt]

theorem faults_integrateEnergy (i : TickInput) (bl : Bl0939Readings) (s : SafetyTask) :
    (integrateEnergy i bl s).faults = s.faults := by
  rw [integrateEnergy]
  split
  · dsimp only
    split
    · rfl
    · rfl
  · rfl

/-- A fault that the metering block raises has its streak behind it. -/
theorem need_le_tick
    (hoff : faultIsActive (beforeMetering fl i σ).faults d.fault.code = false)
    (hon : faultIsActive (afterMetering fl i σ).faults d.fault.code = true) :
    d.need ≤ d.streak (tick fl i σ).task := by
  by_cases hpolls : Polls fl i σ
  · have hstart : faultIsActive (polledTask fl i σ).faults d.fault.code = false := by
      rw [polledTask, faults_withReadings, hoff]
    rw [afterMetering_polls hpolls, faults_integrateEnergy] at hon
    have hneed := need_le_polled hstart hon
    rw [streak_congr (meterView_tick fl i σ), afterMetering_polls hpolls,
      streak_congr (meterView_integrateEnergy ..)]
    exact hneed
  · rw [afterMetering_idle_faults hpolls, hoff] at hon
    cases hon

/-- A poll that counts a kept reading is one that the block does not treat as it should. -/
theorem not_countsKept (h : PollsCounted fl b ins) (n : ℕ) :
    ¬ CountsKept fl (ins n) (safetyRun fl b ins n) := by
  rintro ⟨hpolls, ⟨d, hstale, hvalid, hmet⟩ | ⟨hstale, hcharging⟩⟩
  · have hnone : receivedInARow fl b ins d (n + 1) = 0 := by
      rw [receivedInARow_succ, receivedNext, if_pos hpolls, hstale, if_neg]
      rintro ⟨hreceived, -⟩
      cases hreceived
    have hstreak := h.streak (n + 1) d
    have hnext : d.streak (safetyRun fl b ins (n + 1)).task = _ := streak_tick_polls hpolls d
    rw [hnone, hnext, MeterDetector.nextStreak, hvalid, if_neg true_ne_false,
      if_pos (show d.meets (ins n) _ _ = true from hmet)] at hstreak
    cases hramps : d.ramps (ins n) (detectorTask fl (ins n) (safetyRun fl b ins n) d) with
    | false =>
      rw [hramps, if_neg Bool.false_ne_true] at hstreak
      exact absurd (bump_pos d.need_pos) (Nat.not_lt.mpr hstreak)
    | true =>
      cases d with
      | softOverCurrent => exact derate_ramped hvalid hmet hramps (h.derate n hpolls hstale)
      | _ => cases hramps
  · have henergy := h.energy n hpolls hstale
    rw [afterMetering_polls hpolls, mwsAccum_integrateEnergy] at henergy
    exact henergy hcharging

/-- In a run the metering block counts received readings only exactly when no poll finds a
kept reading that meets the condition of a detector, or a kept power while energy is
counted. -/
theorem polls_counted_iff (fl : BuildFlags) (b : BootInput) (ins : ℕ → TickInput) :
    PollsCounted fl b ins ↔ ∀ n, ¬ CountsKept fl (ins n) (safetyRun fl b ins n) := by
  constructor
  · exact not_countsKept
  · intro hkept
    have hstreak : ∀ n d, MeterDetector.streak (safetyRun fl b ins n).task d ≤
        receivedInARow fl b ins d n := fun n d => (streaksOk_run hkept n).received d
    refine ⟨hstreak, ?_, ?_, ?_⟩
    · intro n d hoff hon
      exact (need_le_tick hoff hon).trans (hstreak (n + 1) d)
    · intro n s hpolls hstale
      refine derate_kept ?_
      by_contra hcounted
      rw [not_or, Bool.not_eq_false, Bool.not_eq_false] at hcounted
      exact hkept n ⟨hpolls, .inl ⟨.softOverCurrent, hstale, hcounted.1, hcounted.2⟩⟩
    · intro n hpolls hstale
      rw [afterMetering_polls hpolls, mwsAccum_integrateEnergy]
      exact fun hcharging => hkept n ⟨hpolls, .inr ⟨hstale, hcharging⟩⟩

/-- The mains is away for the first poll, and then the chip does not answer any more. -/
def mainsAwayOnce (k : ℕ) : TickInput :=
  if k < 20 then
    { quietTick 9000 2000 [] with
      bl0939 := ⟨⟨true, 0⟩, ⟨true, 0⟩, ⟨true, 0⟩, ⟨true, 0⟩, ⟨true, 453⟩⟩ }
  else
    { quietTick 9000 2000 [] with
      bl0939 := ⟨⟨false, 0⟩, ⟨false, 0⟩, ⟨false, 0⟩, ⟨false, 0⟩, ⟨false, 0⟩⟩ }

set_option maxRecDepth 4000 in
/-- The third poll raises AC_ABSENT on one reading that was received. -/
theorem kept_reading_raises : ¬ PollsCounted defaultFlags (quietBoot 9000) mainsAwayOnce := by
  intro h
  have hoff : faultIsActive (beforeMetering defaultFlags (mainsAwayOnce 59)
      (safetyRun defaultFlags (quietBoot 9000) mainsAwayOnce 59)).faults
      FaultId.acAbsent.code = false := by decide +kernel
  have hon : faultIsActive (afterMetering defaultFlags (mainsAwayOnce 59)
      (safetyRun defaultFlags (quietBoot 9000) mainsAwayOnce 59)).faults
      FaultId.acAbsent.code = true := by decide +kernel
  have hrow : receivedInARow defaultFlags (quietBoot 9000) mainsAwayOnce .acAbsent 60 < 3 := by
    decide +kernel
  have hneed := h.raised 59 .acAbsent hoff hon
  exact absurd hneed (Nat.not_le.mpr hrow)

end OpenEVCharger
