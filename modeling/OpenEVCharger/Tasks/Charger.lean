import OpenEVCharger.Comms.Receiver
import OpenEVCharger.Safety.Learning
import OpenEVCharger.Tasks.Boot
import OpenEVCharger.Tasks.PersistTask
import OpenEVCharger.Tasks.Snapshot

/-!
# The charger

The four tasks of the firmware over the queues between them. A step is one turn of a task, or
bytes that arrive from the FC41D; the turns come in any order. What the other tasks do while a
turn is pre-empted or waits for the transmitter counts as done before it or after it.
-/

namespace OpenEVCharger

/-! ## Turns -/

/-- What the build and the chip fix. -/
structure ChargerBuild where
  flags : BuildFlags
  version : List UInt8
  gitSha : List UInt8
  uid : Packed 12

/-- What a tick of the safety task reads of the hardware. `txFree k` tells whether the
transmitter is free for the `k`-th frame of the turn. -/
structure TickReading where
  tickCount : UInt32
  cpHighMv : ℤ
  adc : AdcScan
  gfciFaultActive : Bool
  gfciInHandshakeWindow : Bool
  dip1Closed : Bool
  bl0939 : Bl0939Poll
  rfidRx : List UInt8
  shown : SnapshotReading
  txFree : ℕ → Bool

structure CommsReading where
  tickMs : UInt32
  txFree : Bool
  rtcWaits : Bool × Bool

structure IoReading where
  tickCount : UInt32
  cpHighMv : ℤ
  topPressed : Bool
  ws2812Busy : Bool

inductive ChargerInput where
  | arrive (bytes : List UInt8)
  | comms (r : CommsReading)
  | safety (r : TickReading)
  | io (r : IoReading)
  | persist (outcomes : List WriteOutcome) (txFree : ℕ → Bool)

/-- The tasks, the queues and what lies between them: the snapshot, the bytes and the frames of
the link, of which `handled` have been dispatched, and the clocks. -/
structure Charger where
  safety : System
  snapshot : SystemState
  rx : CommsRx
  handled : ℕ
  persist : PersistTask
  queue : List PersistReq
  io : IoState
  ioStarted : Bool
  time : SystemTime
  rtc : Rtc
  sent : List TlvFrame
  restarting : Bool

/-! ## The safety task -/

/-- A tick reads the copies of the persisted configuration. -/
def TickReading.input (r : TickReading) (σ : PersistState) : TickInput where
  tickCount := r.tickCount
  cpHighMv := r.cpHighMv
  adc := r.adc
  gfciFaultActive := r.gfciFaultActive
  gfciInHandshakeWindow := r.gfciInHandshakeWindow
  crashSafeFail := σ.crash.safeFail
  requireRfidAuth := decide (σ.cfg.requireRfidAuth ≠ 0)
  gfciFaultPolicy := σ.cfg.gfciFaultPolicy.toNat
  advertisedAmps := σ.cfg.fc41dAdvertisedAmps.toNat
  dip1Closed := r.dip1Closed
  iaNaPerRaw := σ.cal.cal.bl0939.iaNaPerRaw.toInt
  paUwPerRaw := σ.cal.cal.bl0939.paUwPerRaw.toInt
  freqConst := (calibrationBl0939FreqConst σ.cal).toInt
  bl0939 := r.bl0939
  rfidRx := r.rfidRx
  authlist := σ.authlist.cards.map UInt32.toNat
  posts := fun _ => []

/-- The requests of the persist task among some outputs. -/
def postedReqs (outputs : List Output) : List PersistReq :=
  outputs.filterMap fun
    | .postEvent r => some (.event r.record)
    | .postSession r => some (.session r.record)
    | .postAuthlistAdd uid => some (.rfidAuthlistAdd (UInt32.ofNat uid))
    | _ => none

/-- The frames among some outputs; an event that no request asked for has the number zero. -/
def publishedFrames (outputs : List Output) : List TlvFrame :=
  outputs.filterMap fun
    | .publish e => some (e.event.frame 0)
    | _ => none

/-- The frames of a turn that get the transmitter. -/
def transmitted (txFree : ℕ → Bool) (xs : List TlvFrame) : List TlvFrame :=
  (xs.zipIdx.filter fun p => txFree p.2).map Prod.fst

namespace Charger

variable (B : ChargerBuild) (σ : Charger)

/-- What a tick has put out. -/
def tickOutputs (r : TickReading) : List Output :=
  (tick B.flags (r.input σ.persist.store) σ.safety).task.outputs.drop
    σ.safety.task.outputs.length

def safetyTurn (r : TickReading) : Charger :=
  let i := r.input σ.persist.store
  let after := tick B.flags i σ.safety
  { σ with
    safety := after
    snapshot := systemState i r.shown after.task
    queue := (postedReqs (σ.tickOutputs B r)).foldl persistPost σ.queue
    sent := σ.sent ++ transmitted r.txFree (publishedFrames (σ.tickOutputs B r)) }

/-! ## The comms task -/

def commsEnv (r : CommsReading) : CommsEnv where
  tickMs := r.tickMs
  advertisedAmps := σ.persist.store.cfg.fc41dAdvertisedAmps
  snapshot := σ.snapshot
  version := B.version
  gitSha := B.gitSha
  uid := B.uid
  txFree := r.txFree
  rtcWaits := r.rtcWaits

/-- What the handlers work on. -/
def commsState : CommsState :=
  ⟨σ.queue, σ.safety.inbox, σ.sent, σ.io.override, σ.io.buzzer, σ.time, σ.rtc, σ.restarting⟩

def withComms (c : CommsState) : Charger :=
  { σ with
    queue := c.persist
    safety := { σ.safety with inbox := c.inbox }
    sent := c.sent
    io := { σ.io with override := c.led, buzzer := c.buzzer }
    time := c.time
    rtc := c.rtc
    restarting := c.restarting }

/-- The next frame to dispatch. -/
def pending : Option TlvFrame := (σ.rx.dispatched.drop σ.handled).head?

/-- A turn dispatches the next frame; once there is none it pops what has arrived. -/
def commsTurn (r : CommsReading) : Charger :=
  match σ.pending with
  | none => { σ with rx := commsRxTurn σ.rx [] }
  | some x =>
    { σ.withComms (commsDispatch (σ.commsEnv B r) x σ.commsState) with handled := σ.handled + 1 }

/-! ## The IO task -/

/-- The event that the task posts before its loop. -/
def ioStartupRecord (tickCount : UInt32) (cpHighMv : ℤ) : LogRecord :=
  (((((Packed.zero 32).setWord 0 tickCount).setHalf 6 0xB001).setByte 8 0xA0).setByte 9
    0xB1).setHalf 10 (Int16.ofInt cpHighMv).toUInt16

/-- What the task hands to the persist task and to the safety task. -/
def ioReqs (posts : List IoPost) : List PersistReq :=
  posts.filterMap fun
    | .crashStateReset => some .crashStateReset
    | _ => none

def ioAsks (posts : List IoPost) : List SafetyReq :=
  posts.filterMap fun
    | .pause reason => some (.userPause reason.toNat)
    | .resume => some .userResume
    | .crashStateReset => none

def ioTicked (r : IoReading) : IoState :=
  ioTick ⟨σ.snapshot.io, r.topPressed, r.ws2812Busy⟩ σ.io

/-- What a turn of the loop has posted. -/
def ioPosts (r : IoReading) : List IoPost := (σ.ioTicked r).posted.drop σ.io.posted.length

def ioTurn (r : IoReading) : Charger :=
  if σ.ioStarted then
    { σ with
      io := σ.ioTicked r
      queue := (ioReqs (σ.ioPosts r)).foldl persistPost σ.queue
      safety := { σ.safety with
        inbox := (ioAsks (σ.ioPosts r)).foldl postSafetyReq σ.safety.inbox } }
  else
    { σ with
      ioStarted := true
      queue := persistPost σ.queue (.event (ioStartupRecord r.tickCount r.cpHighMv)) }

/-! ## The persist task -/

def persistTurn (outcomes : List WriteOutcome) (txFree : ℕ → Bool) : Charger :=
  match σ.queue with
  | [] => σ
  | r :: rest =>
    let s := persistServe r outcomes σ.persist
    { σ with
      persist := s.task
      queue := rest
      safety := { σ.safety with inbox := s.asks.foldl postSafetyReq σ.safety.inbox }
      sent := σ.sent ++ transmitted txFree s.events }

/-! ## The machine -/

/-- A step. A core that is about to reset does nothing any more. -/
def step (i : ChargerInput) : Charger :=
  if σ.restarting then σ
  else
    match i with
    | .arrive bytes => { σ with rx := { σ.rx with ring := σ.rx.ring ++ bytes } }
    | .comms r => σ.commsTurn B r
    | .safety r => σ.safetyTurn B r
    | .io r => σ.ioTurn r
    | .persist outcomes txFree => σ.persistTurn outcomes txFree

/-- The charger when the safety task, which is the first to run, has reached its loop. -/
def boot (b : ChargerBoot) : Charger :=
  let task := bootTask B.flags (b.reading.input b.stores)
  { safety := ⟨task, []⟩
    snapshot := systemStatePowerUp
    rx := commsRxStart
    handled := 0
    persist := ⟨b.stores, otaSessionBoot⟩
    queue := (postedReqs task.outputs).foldl persistPost []
    io := ioPowerUp
    ioStarted := false
    time := b.main.time
    rtc := b.main.rtc
    sent := transmitted b.txFree (publishedFrames task.outputs)
    restarting := false }

end Charger

def chargerMachine (B : ChargerBuild) : Machine ChargerBoot ChargerInput Charger where
  boot := Charger.boot B
  step i σ := σ.step B i

def chargerRun (B : ChargerBuild) (b : ChargerBoot) (ins : ℕ → ChargerInput) (n : ℕ) : Charger :=
  (chargerMachine B).run b ins n

theorem chargerRun_succ (B : ChargerBuild) (b : ChargerBoot) (ins : ℕ → ChargerInput) (n : ℕ) :
    chargerRun B b ins (n + 1) = (chargerRun B b ins n).step B (ins n) := rfl

end OpenEVCharger
