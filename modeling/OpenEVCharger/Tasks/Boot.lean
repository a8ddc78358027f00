import OpenEVCharger.Ota.Apply
import OpenEVCharger.Persist.FlashMap
import OpenEVCharger.Safety.Run
import OpenEVCharger.Tasks.Dispatch

/-!
# The boot

`main` up to the start of the scheduler: the clock out of the backup domain, the records out
of the flash, the pending update, the logs and the crash state. A boot that goes on to
overwrite the image never reaches the tasks.
-/

namespace OpenEVCharger

open NorFlash (Mem)

/-- What `main` finds: the two flashes, whether the chip answers, how the writes of its calls
end, the cause of the reset, and the backup domain behind `rtc_init`. -/
structure MainBoot where
  flash : Mem
  bank0 : Mem
  applyEnabled : Bool
  w25qOk : Bool
  outcomes : ℕ → List WriteOutcome
  wasCrash : Bool
  rtc : Rtc

namespace MainBoot

variable (b : MainBoot)

/-- `rtc_load_unix`, and the clock that `main` seeds from it. -/
def time : SystemTime :=
  if b.rtc.magic ∧ b.rtc.counter ≠ 0 then systemTimeSet b.rtc.counter 0 else ⟨0, 0, false⟩

def bootCount : UInt32 := (bootCountIncrement ⟨b.flash, b.outcomes 0⟩).1

/-- The boot count and the three records. -/
def loads : PersistState :=
  let σ := persistStep ⟨.bootCountIncrement, b.outcomes 0⟩ (persistPowerUp b.flash)
  let σ := persistStep ⟨.bootConfigLoad, b.outcomes 1⟩ σ
  let σ := persistStep ⟨.calibrationLoad, b.outcomes 2⟩ σ
  persistStep ⟨.authlist .load, b.outcomes 3⟩ σ

/-- The check for a pending update. -/
def pendingOta : ApplyOutcome :=
  let d : W25q := ⟨b.loads.flash, b.outcomes 4⟩
  if b.loads.cfg.pendingOtaFlag = 0 then .returned 0 b.loads.cfg d
  else if b.applyEnabled then flashApplyPendingOtaImage b.bank0 b.loads.cfg d
  else returnCleared 0 b.loads.cfg d

/-- The logs and the crash state. -/
def logs (σ : PersistState) : PersistState :=
  let σ := persistStep ⟨.event .init, []⟩ σ
  let σ := persistStep ⟨.event (.setBootCount b.bootCount.toUInt16), []⟩ σ
  let σ := persistStep ⟨.session .init, []⟩ σ
  let σ := persistStep ⟨.session (.setBootCount b.bootCount.toUInt16), []⟩ σ
  persistStep ⟨.crash (.bootIncrement b.wasCrash), b.outcomes 5⟩ σ

/-- The stores that the tasks find, if they are started. -/
def stores : Option PersistState :=
  if !b.w25qOk then some (persistPowerUp b.flash)
  else
    match b.pendingOta with
    | .returned _ cfg chip => some (b.logs { b.loads with cfg := cfg, flash := chip.mem })
    | .overwrite _ => none

theorem stores_of_returned {b : MainBoot} {rc : ℤ} {cfg : BootConfig} {chip : W25q}
    (hok : b.w25qOk = true) (h : b.pendingOta = .returned rc cfg chip) :
    b.stores = some (b.logs { b.loads with cfg := cfg, flash := chip.mem }) := by
  rw [stores, hok, h]
  rfl

end MainBoot

/-- What the safety task reads in its boot path. -/
structure BootReading where
  tickCount : UInt32
  cpHighMv : ℕ → ℤ
  adc : AdcScan
  gfciCalPassed : Bool

def BootReading.input (r : BootReading) (σ : PersistState) : BootInput where
  tickCount := r.tickCount
  cpHighMv := r.cpHighMv
  adc := r.adc
  gfciCalPassed := r.gfciCalPassed
  crashSafeFail := σ.crash.safeFail

/-- A boot that starts the tasks. -/
structure ChargerBoot where
  main : MainBoot
  stores : PersistState
  main_stores : main.stores = some stores
  reading : BootReading
  txFree : ℕ → Bool

end OpenEVCharger
