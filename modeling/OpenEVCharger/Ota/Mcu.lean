import OpenEVCharger.Lib.Machine
import OpenEVCharger.Ota.Apply
import OpenEVCharger.Ota.Session

/-!
# The MCU during updates

The OTA handlers and the boot path as one machine: it takes the OTA requests in
any order and is reset at any time, and every write of its flash ends as its input
says. Beside a run goes its history, the bytes that the session's chunks brought.
-/

namespace OpenEVCharger

open NorFlash (Mem Agree Erased)

/-- The RAM and the two flashes. After an overwrite the MCU is down until it is
reset. -/
structure OtaMcu where
  session : OtaSession
  cfg : BootConfig
  flash : Mem
  bank0 : Mem
  up : Bool

/-- A request taken from the queue, or a reset, during which an overwrite gets the
first `fmcDone` of its operations done. -/
inductive OtaAction where
  | request (r : OtaRequest)
  | reset (fmcDone : ℕ)
  deriving DecidableEq, Repr

/-- An action, and how the writes it does to the chip end. -/
structure OtaInput where
  action : OtaAction
  outcomes : List WriteOutcome

/-- What the MCU finds when it is first powered. -/
structure OtaPowerUp where
  flash : Mem
  bank0 : Mem
  outcomes : List WriteOutcome

/-- The MCU when the boot path has ended. -/
def OtaMcu.afterBoot (fmcDone : ℕ) (flash bank0 : Mem) : ApplyOutcome → OtaMcu
  | .returned _ cfg chip => ⟨otaSessionBoot, cfg, chip.mem, bank0, true⟩
  | .overwrite buf =>
    ⟨otaSessionBoot, BootConfig.zero, flash,
      runFmc ((flashOverwriteBank0 buf).take fmcDone) bank0, false⟩

def otaReset (applyEnabled : Bool) (fmcDone : ℕ) (outcomes : List WriteOutcome)
    (flash bank0 : Mem) : OtaMcu :=
  .afterBoot fmcDone flash bank0 (otaBoot applyEnabled bank0 ⟨flash, outcomes⟩)

def OtaMcu.handle (r : OtaRequest) (outcomes : List WriteOutcome) (σ : OtaMcu) : OtaHandled :=
  handleOta r σ.session σ.cfg ⟨σ.flash, outcomes⟩

/-- The MCU after a request it handles. -/
def OtaMcu.after (r : OtaRequest) (outcomes : List WriteOutcome) (σ : OtaMcu) : OtaMcu :=
  { σ with
    session := (σ.handle r outcomes).session
    cfg := (σ.handle r outcomes).cfg
    flash := (σ.handle r outcomes).chip.mem }

def otaStep (applyEnabled : Bool) (i : OtaInput) (σ : OtaMcu) : OtaMcu :=
  match i.action with
  | .request r => if σ.up then σ.after r i.outcomes else σ
  | .reset fmcDone => otaReset applyEnabled fmcDone i.outcomes σ.flash σ.bank0

/-- The reply to an input, if it is a request that is handled. -/
def otaReply (i : OtaInput) (σ : OtaMcu) : Option OtaReply :=
  match i.action with
  | .request r => if σ.up then some (σ.handle r i.outcomes).reply else none
  | .reset _ => none

def otaMachine (applyEnabled : Bool) : Machine OtaPowerUp OtaInput OtaMcu where
  boot b := otaReset applyEnabled 0 b.outcomes b.flash b.bank0
  step := otaStep applyEnabled

def otaRun (applyEnabled : Bool) (b : OtaPowerUp) (ins : ℕ → OtaInput) (n : ℕ) : OtaMcu :=
  (otaMachine applyEnabled).run b ins n

/-! ## History -/

/-- The bytes of the chunks accepted since the last BEGIN that was, in order, and
whether none of them has failed to be written. -/
structure OtaHistory where
  accepted : List UInt8
  clean : Bool
  deriving DecidableEq, Repr

def OtaHistory.record (r : OtaRequest) (status : OtaStatus) (h : OtaHistory) : OtaHistory :=
  match r with
  | .begin _ => if status = .ok then ⟨[], true⟩ else h
  | .chunk k =>
    if status = .ok then { h with accepted := h.accepted ++ k.data }
    else if status = .writeError then { h with clean := false }
    else h
  | _ => h

def OtaHistory.next (i : OtaInput) (σ : OtaMcu) (h : OtaHistory) : OtaHistory :=
  match i.action with
  | .request r =>
    if σ.up then h.record r (σ.handle r i.outcomes).reply.event.status else h
  | .reset _ => h

def otaHistory (applyEnabled : Bool) (b : OtaPowerUp) (ins : ℕ → OtaInput) (n : ℕ) :
    OtaHistory :=
  (otaMachine applyEnabled).history b ins OtaHistory.next ⟨[], true⟩ n

/-! ## Steps -/

variable {applyEnabled : Bool} {b : OtaPowerUp} {ins : ℕ → OtaInput} {n : ℕ} {σ : OtaMcu}
  {r : OtaRequest} {outcomes : List WriteOutcome}

theorem otaRun_zero :
    otaRun applyEnabled b ins 0 = otaReset applyEnabled 0 b.outcomes b.flash b.bank0 := by
  rw [otaRun, Machine.run_zero, otaMachine]

theorem otaRun_succ :
    otaRun applyEnabled b ins (n + 1) =
      otaStep applyEnabled (ins n) (otaRun applyEnabled b ins n) := by
  rw [otaRun, Machine.run_succ, otaMachine]
  rfl

theorem otaStep_request (hup : σ.up = true) :
    otaStep applyEnabled ⟨.request r, outcomes⟩ σ = σ.after r outcomes := by
  simp only [otaStep, hup, if_true]

theorem otaStep_down (hdown : σ.up = false) :
    otaStep applyEnabled ⟨.request r, outcomes⟩ σ = σ := by
  simp only [otaStep, hdown, Bool.false_eq_true, if_false]

theorem otaReply_request (hup : σ.up = true) :
    otaReply ⟨.request r, outcomes⟩ σ = some (σ.handle r outcomes).reply := by
  simp only [otaReply, hup, if_true]

theorem otaReply_down (hdown : σ.up = false) : otaReply ⟨.request r, outcomes⟩ σ = none := by
  simp only [otaReply, hdown, Bool.false_eq_true, if_false]

theorem OtaMcu.session_afterBoot (k : ℕ) (flash bank0 : Mem) (o : ApplyOutcome) :
    (OtaMcu.afterBoot k flash bank0 o).session = otaSessionBoot := by
  cases o with
  | returned rc cfg chip => rfl
  | overwrite buf => rfl

/-- A reset ends every session. -/
theorem otaReset_session (applyEnabled : Bool) (k : ℕ) (outcomes : List WriteOutcome)
    (flash bank0 : Mem) :
    (otaReset applyEnabled k outcomes flash bank0).session = otaSessionBoot := by
  rw [otaReset]
  exact OtaMcu.session_afterBoot _ _ _ _

theorem not_otaInSession_boot : ¬ otaInSession otaSessionBoot := not_not.mpr rfl

theorem not_otaInSession_reset : ¬ otaInSession otaSessionReset := not_not.mpr rfl

/-! ## A sample image -/

/-- A chip and a bank fresh from the factory. -/
def blankPowerUp : OtaPowerUp := ⟨fun _ => NorFlash.blank, fun _ => NorFlash.blank, []⟩

def sampleImage : List UInt8 := [1, 2, 3, 4]

def sampleBegin : OtaRequest := .begin ⟨4, crc32 sampleImage, 7, 0⟩
def sampleChunk : OtaRequest := .chunk ⟨7, 0, sampleImage, 1, by decide, by decide⟩
def sampleCommit : OtaAbortArgs := ⟨7, 2⟩

/-- The sample image uploaded and committed, with the outcomes of every step. -/
def sampleUpload (outcomes : ℕ → List WriteOutcome) (k : ℕ) : OtaInput :=
  match k with
  | 0 => ⟨.request sampleBegin, outcomes 0⟩
  | 1 => ⟨.request sampleChunk, outcomes 1⟩
  | k => ⟨.request (.commit sampleCommit), outcomes k⟩

end OpenEVCharger
