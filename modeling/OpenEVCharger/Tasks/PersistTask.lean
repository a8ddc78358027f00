import OpenEVCharger.Comms.Events
import OpenEVCharger.Persist.AuthlistChanges
import OpenEVCharger.Persist.FaultLog
import OpenEVCharger.Persist.FlashMap
import OpenEVCharger.Persist.Lifetime

/-!
# The persist task

The loop of `tasks/persist_task.c`: one request off the queue at a time, carried out on the
copies in RAM and on the flash, and answered over the link where an answer is due.
-/

namespace OpenEVCharger

open NorFlash (Mem)

/-! ## One request -/

/-- What the task owns: the stores and the session of the update. -/
structure PersistTask where
  store : PersistState
  ota : OtaSession

/-- What a request leaves behind, the events it publishes and the requests it makes of the
safety task. -/
structure PersistServed where
  task : PersistTask
  events : List TlvFrame
  asks : List SafetyReq

/-- `handle_rfid_get_list`: one entry a card, and the end. -/
def handleRfidGetList (seq : UInt8) (r : RfidAuthlist) : List TlvFrame :=
  ((List.range r.count.toNat).map fun i =>
      (McuEvent.rfidListEntry (UInt8.ofNat i) r.count (r.uid i)).frame seq) ++
    [(McuEvent.rfidListEnd r.count).frame seq]

/-- An event as a frame of the link. -/
def SeqEvent.frame (e : SeqEvent) : TlvFrame := ⟨e.cmd, e.seq, e.payload⟩

def OtaReply.frame (r : OtaReply) : TlvFrame := (McuEvent.ota r.event).frame r.seq

namespace PersistTask

variable (t : PersistTask)

/-- An operation on the stores. -/
def operate (op : PersistOp) (outcomes : List WriteOutcome) : PersistTask :=
  { t with store := persistStep ⟨op, outcomes⟩ t.store }

/-- A setter called on the boot configuration, and what it returns. -/
def setterRc (call : SetterCall) (outcomes : List WriteOutcome) : Int :=
  (callSetter ⟨call, outcomes⟩ ⟨t.store.cfg, t.store.cal, t.store.flash⟩).rc

/-- A request of the update. -/
def handleOta (r : OtaRequest) (outcomes : List WriteOutcome) : OtaHandled :=
  OpenEVCharger.handleOta r t.ota t.store.cfg ⟨t.store.flash, outcomes⟩

def updated (h : OtaHandled) : PersistTask :=
  { store := { t.store with cfg := h.cfg, flash := h.chip.mem }, ota := h.session }

end PersistTask

/-- A turn of the loop. Its writes end as `outcomes` has them. -/
def persistServe (r : PersistReq) (outcomes : List WriteOutcome) (t : PersistTask) :
    PersistServed :=
  match r with
  | .event r => ⟨t.operate (.event (.append r)) outcomes, [], []⟩
  | .session r => ⟨t.operate (.session (.append r)) outcomes, [], []⟩
  | .crashStateReset => ⟨t.operate (.crash .resetAlive) outcomes, [], []⟩
  | .bootConfigAmps amps => ⟨t.operate (.setter (.advertisedAmps amps)) outcomes, [], []⟩
  | .calibration a => ⟨t.operate (.setter (.cp a)) outcomes, [], []⟩
  | .bl0939Cal a => ⟨t.operate (.setter (.bl0939 a)) outcomes, [], []⟩
  | .getFaultLog maxCount seq =>
    ⟨t, (handleGetFaultLog maxCount seq t.store.eventRing t.store.flash).map SeqEvent.frame, []⟩
  | .getLifetimeKwh seq =>
    ⟨t, [(McuEvent.lifetimeKwh (handleGetLifetimeKwh t.store.flash)).frame seq], []⟩
  | .rfidAuthlistAdd uid => ⟨t.operate (.authlist (.add uid)) outcomes, [], []⟩
  | .rfidAuthlistRemove uid => ⟨t.operate (.authlist (.remove uid)) outcomes, [], []⟩
  | .rfidAuthlistClear => ⟨t.operate (.authlist .clear) outcomes, [], []⟩
  | .rfidAuthlistGetList seq => ⟨t, handleRfidGetList seq t.store.authlist, []⟩
  | .requireRfidAuth enable =>
    ⟨t.operate (.setter (.requireRfidAuth enable)) outcomes, [],
      if t.setterRc (.requireRfidAuth enable) outcomes < 0 then [] else [.publishRfidConfig]⟩
  | .gfciPolicy policy =>
    ⟨t.operate (.setter (.gfciFaultPolicy policy)) outcomes, [], [.publishGfciPolicy]⟩
  | .ota r =>
    let h := t.handleOta r outcomes
    ⟨t.updated h, [h.reply.frame], []⟩

end OpenEVCharger
