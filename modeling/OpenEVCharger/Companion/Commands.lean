import OpenEVCharger.Companion.ChargerState
import OpenEVCharger.Companion.WebConfig
import OpenEVCharger.Lib.Machine

/-!
# Commands

The bounded writes to shared memory behind the MQTT commands and the HTTP controls. Both
front ends hand the payload to the same handlers, each after a copy of its own.
-/

namespace OpenEVCharger

/-! ## The attached segment -/

/-- `struct shmem`: the bytes at `base`, none if nothing is attached. -/
structure ShmemSegment where
  base : Option Shmem
  size : ℕ
  writable : Bool

/-- The segment that `writable_ptr` lets a write of `width` bytes at `off` into. -/
def writablePtr (sm : ShmemSegment) (off width : ℕ) : Option Shmem :=
  match sm.base with
  | none => none
  | some base =>
    if sm.writable = false then none
    else if sm.size < off + width then none
    else some base

def shmemWriteU8 (off : ℕ) (v : UInt8) (sm : ShmemSegment) : Option ShmemSegment :=
  (writablePtr sm off 1).map fun base => { sm with base := some (Function.update base off v) }

def shmemWriteU32Le (off : ℕ) (v : UInt32) (sm : ShmemSegment) : Option ShmemSegment :=
  (writablePtr sm off 4).map fun base =>
    let base := Function.update base off v.toUInt8
    let base := Function.update base (off + 1) (v >>> 8).toUInt8
    let base := Function.update base (off + 2) (v >>> 16).toUInt8
    { sm with base := some (Function.update base (off + 3) (v >>> 24).toUInt8) }

/-! ## Command handlers -/

/-- Why a command did nothing. `invalid` is the return value -1 of a handler and `unavailable`
is -2; the others end in the front end. -/
inductive CommandError
  | unknown
  | missing (field : String)
  | invalid (msg : String)
  | unavailable (msg : String)
  deriving DecidableEq, Repr

inductive CommandDone
  | ratedAmps (amps : ℤ)
  | authorize (on : Bool)
  | clearFaults
  deriving DecidableEq, Repr

/-- What a command answers, and the segment it leaves; no segment is a null pointer. -/
abbrev CommandResult := Except CommandError CommandDone × Option ShmemSegment

/-- White space that is trimmed behind a number. -/
def tailBlank (c : Char) : Bool := c = ' ' || c = '\t' || c = '\r' || c = '\n'

def trimTail (s : List Char) : List Char := s.rdropWhile tailBlank

/-- `parse_int_payload`: the copy is trimmed at its end, and `strtol` sees it up to the first
terminator. -/
def parseIntPayload (payload : List Char) (lo hi : ℤ) : Option ℤ :=
  if payload = [] || 31 < payload.length then none
  else
    let buf := trimTail payload
    if buf = [] then none
    else
      let (v, rest) := strtol (cString buf)
      if rest ≠ [] then none
      else if v < lo || hi < v then none
      else some v

/-- The write at the end of each handler, behind the check for write access. -/
def gatedWrite (write : ShmemSegment → Option ShmemSegment) (done : CommandDone)
    (sm : Option ShmemSegment) : CommandResult :=
  match sm with
  | none => (.error (.unavailable "write disabled (write_enable=false)"), none)
  | some seg =>
    if seg.writable = false then
      (.error (.unavailable "write disabled (write_enable=false)"), some seg)
    else
      match write seg with
      | none => (.error (.unavailable "shmem write failed"), some seg)
      | some seg => (.ok done, some seg)

def csApplyRatedAmpsWrite (payload : List Char) (sm : Option ShmemSegment) : CommandResult :=
  match parseIntPayload payload 6 30 with
  | none => (.error (.invalid "amps must be int 6..30"), sm)
  | some v => gatedWrite (shmemWriteU8 offRatedAmps (UInt8.ofInt v)) (.ratedAmps v) sm

def csApplyAuthorizeWrite (payload : List Char) (sm : Option ShmemSegment) : CommandResult :=
  if payload = "ON".toList then gatedWrite (shmemWriteU8 offUserState 1) (.authorize true) sm
  else if payload = "OFF".toList then
    gatedWrite (shmemWriteU8 offUserState 0) (.authorize false) sm
  else (.error (.invalid "state must be ON or OFF"), sm)

def csApplyClearFaultsWrite (sm : Option ShmemSegment) : CommandResult :=
  gatedWrite (shmemWriteU32Le offAlarmBitmap 0) .clearFaults sm

/-! ## The front ends -/

/-- The bytes of a packet as text. -/
def bytesText (bs : List UInt8) : List Char := bs.map fun b => Char.ofNat b.toNat

/-- `on_command`: the command is the last segment of the topic. -/
def onCommand (topic payload : List UInt8) (sm : Option ShmemSegment) : CommandResult :=
  let text := bytesText topic
  let suffix := text.rtakeWhile (· ≠ '/')
  if '/' ∉ text then (.error .unknown, sm)
  else if suffix = "rated_amps".toList then csApplyRatedAmpsWrite (bytesText payload) sm
  else if suffix = "authorize".toList then csApplyAuthorizeWrite (bytesText payload) sm
  else if suffix = "clear_faults".toList then csApplyClearFaultsWrite sm
  else (.error .unknown, sm)

/-- `web_form_next` on one piece, into a key and a value of the given sizes. -/
def webFormPair (keyCap valCap : ℕ) (piece : List Char) (behind : Char) :
    Option (List Char × List Char) :=
  let key := piece.takeWhile (· ≠ '=')
  let val := (piece.dropWhile (· ≠ '=')).tail
  match webUrldecode (if '=' ∈ piece then '=' else behind) keyCap key [],
    webUrldecode behind valCap val [] with
  | some key, some val => some (cString key, cString val)
  | _, _ => none

/-- The first value of a field; a pair that cannot be decoded ends the search. -/
def formField (name : String) : List (List Char × Char) → Option (List Char)
  | [] => none
  | (piece, behind) :: pieces =>
    match webFormPair 32 64 piece behind with
    | none => none
    | some (key, val) => if key = name.toList then some val else formField name pieces

/-- A handler behind the field of the form it takes its payload from. -/
def handlePost (field : String) (behind : Char) (body : List Char)
    (apply : List Char → Option ShmemSegment → CommandResult) (sm : Option ShmemSegment) :
    CommandResult :=
  match formField field (formPieces behind body) with
  | none => (.error (.missing field), sm)
  | some val => apply val sm

def handlePostRatedAmps (behind : Char) (body : List Char) (sm : Option ShmemSegment) :
    CommandResult := handlePost "amps" behind body csApplyRatedAmpsWrite sm

def handlePostAuthorize (behind : Char) (body : List Char) (sm : Option ShmemSegment) :
    CommandResult := handlePost "state" behind body csApplyAuthorizeWrite sm

/-- The controls among the routes of a POST; `behind` is the byte after the body. -/
def postControl (path : List Char) (behind : Char) (body : List Char)
    (sm : Option ShmemSegment) : CommandResult :=
  if path = "/api/control/rated_amps".toList then handlePostRatedAmps behind body sm
  else if path = "/api/control/authorize".toList then handlePostAuthorize behind body sm
  else if path = "/api/control/clear_faults".toList then csApplyClearFaultsWrite sm
  else (.error .unknown, sm)

/-- The status of the response to a control. -/
def controlStatus : Except CommandError CommandDone → ℕ
  | .ok _ => 200
  | .error .unknown => 404
  | .error (.missing _) => 400
  | .error (.invalid _) => 400
  | .error (.unavailable _) => 503

/-- A command on its way in: a PUBLISH packet or a POST. -/
inductive Delivery
  | mqtt (topic payload : List UInt8)
  | http (path : List Char) (behind : Char) (body : List Char)

def Delivery.handle : Delivery → Option ShmemSegment → CommandResult
  | .mqtt topic payload => onCommand topic payload
  | .http path behind body => postControl path behind body

def deliver (d : Delivery) (sm : Option ShmemSegment) : Option ShmemSegment := (d.handle sm).2

/-! ## What a command changes -/

/-- A byte of the segment. -/
def shmemByte (sm : Option ShmemSegment) (off : ℕ) : Option UInt8 :=
  (sm.bind ShmemSegment.base).map (· off)

/-- The bytes that commands write: the user state, the rated amps and the alarm bitmap. -/
def commandOffsets : List ℕ := [0x0a00, 0x0a24, 0x0a74, 0x0a75, 0x0a76, 0x0a77]

/-- Writing is enabled. -/
def WriteEnabled (sm : Option ShmemSegment) : Prop := ∃ seg, sm = some seg ∧ seg.writable = true

/-- Between two segments only bytes at `offs` differ, and only with writing enabled. -/
structure WritesOnly (offs : List ℕ) (sm sm' : Option ShmemSegment) : Prop where
  present : sm'.map (fun seg => (seg.base.isSome, seg.size, seg.writable)) =
    sm.map (fun seg => (seg.base.isSome, seg.size, seg.writable))
  bytes : ∀ off, shmemByte sm' off ≠ shmemByte sm off → WriteEnabled sm ∧ off ∈ offs

variable {offs offs' : List ℕ} {sm sm' sm'' : Option ShmemSegment} {seg seg' : ShmemSegment}
  {write : ShmemSegment → Option ShmemSegment} {done : CommandDone} {off : ℕ}

theorem WritesOnly.refl : WritesOnly offs sm sm := ⟨rfl, fun _ h => absurd rfl h⟩

theorem WritesOnly.mono (h : WritesOnly offs sm sm') (hsub : offs ⊆ offs') :
    WritesOnly offs' sm sm' :=
  ⟨h.present, fun off hne => ⟨(h.bytes off hne).1, hsub (h.bytes off hne).2⟩⟩

theorem WritesOnly.writeEnabled (h : WritesOnly offs sm sm') :
    WriteEnabled sm' ↔ WriteEnabled sm := by
  have hwritable : sm'.map ShmemSegment.writable = sm.map ShmemSegment.writable := by
    have hpresent := congrArg (Option.map fun t => t.2.2) h.present
    rw [Option.map_map, Option.map_map] at hpresent
    exact hpresent
  have hiff : ∀ t : Option ShmemSegment,
      WriteEnabled t ↔ t.map ShmemSegment.writable = some true := by
    intro t
    rw [Option.map_eq_some_iff]
    rfl
  rw [hiff, hiff, hwritable]

theorem WritesOnly.trans (h : WritesOnly offs sm sm') (h' : WritesOnly offs sm' sm'') :
    WritesOnly offs sm sm'' := by
  refine ⟨h'.present.trans h.present, fun off hne => ?_⟩
  by_cases hfirst : shmemByte sm' off = shmemByte sm off
  · rw [← hfirst] at hne
    obtain ⟨henabled, hoff⟩ := h'.bytes off hne
    exact ⟨h.writeEnabled.mp henabled, hoff⟩
  · exact h.bytes off hfirst

theorem writablePtr_some {base : Shmem} {width : ℕ} (h : writablePtr seg off width = some base) :
    seg.base = some base ∧ seg.writable = true := by
  rw [writablePtr] at h
  split at h
  · nomatch h
  next base' hbase =>
  split at h
  · nomatch h
  next hwritable =>
  split at h
  · nomatch h
  cases h
  exact ⟨hbase, eq_true_of_ne_false hwritable⟩

theorem shmemWriteU8_only {v : UInt8} (h : shmemWriteU8 off v seg = some seg') :
    WritesOnly [off] (some seg) (some seg') ∧ shmemByte (some seg') off = some v := by
  obtain ⟨base, hptr, rfl⟩ := Option.map_eq_some_iff.mp h
  obtain ⟨hbase, hwritable⟩ := writablePtr_some hptr
  refine ⟨⟨?_, fun x hne => ⟨⟨seg, rfl, hwritable⟩, List.mem_singleton.mpr ?_⟩⟩, ?_⟩
  · simp [hbase]
  · by_contra hx
    refine hne ?_
    simp [shmemByte, hbase, Function.update_of_ne hx]
  · simp [shmemByte]

theorem shmemWriteU32Le_only {v : UInt32} (h : shmemWriteU32Le off v seg = some seg') :
    WritesOnly [off, off + 1, off + 2, off + 3] (some seg) (some seg') := by
  obtain ⟨base, hptr, rfl⟩ := Option.map_eq_some_iff.mp h
  obtain ⟨hbase, hwritable⟩ := writablePtr_some hptr
  refine ⟨?_, fun x hne => ⟨⟨seg, rfl, hwritable⟩, ?_⟩⟩
  · simp [hbase]
  · by_contra hx
    simp only [List.mem_cons, List.not_mem_nil, or_false, not_or] at hx
    refine hne ?_
    simp [shmemByte, hbase, Function.update_of_ne hx.1, Function.update_of_ne hx.2.1,
      Function.update_of_ne hx.2.2.1, Function.update_of_ne hx.2.2.2]

/-- A gated write that fails leaves the segment as it was. -/
theorem gatedWrite_cases (write : ShmemSegment → Option ShmemSegment) (done : CommandDone)
    (sm : Option ShmemSegment) :
    (∃ msg, gatedWrite write done sm = (.error (.unavailable msg), sm)) ∨
      ∃ seg seg', sm = some seg ∧ write seg = some seg' ∧
        gatedWrite write done sm = (.ok done, some seg') := by
  cases sm with
  | none => exact .inl ⟨_, rfl⟩
  | some seg =>
    simp only [gatedWrite]
    split
    · exact .inl ⟨_, rfl⟩
    split
    · exact .inl ⟨_, rfl⟩
    · next seg' hwrite => exact .inr ⟨seg, seg', rfl, hwrite, rfl⟩

/-- What a command is held to, in the segment it finds: an error changes nothing, and a write
goes to the bytes of the command, the rated amps within their bounds. -/
structure CommandOk (sm : Option ShmemSegment) (r : CommandResult) : Prop where
  error : ∀ e, r.1 = .error e → r.2 = sm
  frame : WritesOnly commandOffsets sm r.2
  amps : ∀ v, r.1 = .ok (.ratedAmps v) →
    6 ≤ v ∧ v ≤ 30 ∧ shmemByte r.2 offRatedAmps = some (UInt8.ofInt v)
  other : (∀ v, r.1 ≠ .ok (.ratedAmps v)) →
    shmemByte r.2 offRatedAmps = shmemByte sm offRatedAmps

theorem CommandOk.refused (e : CommandError) : CommandOk sm (.error e, sm) :=
  ⟨fun _ _ => rfl, .refl, nofun, fun _ => rfl⟩

/-- A write elsewhere leaves the rated amps alone. -/
theorem CommandOk.gated (hdone : ∀ v, done ≠ .ratedAmps v) (hsub : offs ⊆ commandOffsets)
    (hoff : offRatedAmps ∉ offs)
    (hwrite : ∀ seg seg', write seg = some seg' → WritesOnly offs (some seg) (some seg')) :
    CommandOk sm (gatedWrite write done sm) := by
  rcases gatedWrite_cases write done sm with ⟨msg, heq⟩ | ⟨seg, seg', rfl, hseg, heq⟩
  · rw [heq]
    exact .refused _
  · rw [heq]
    have honly := hwrite seg seg' hseg
    refine ⟨nofun, honly.mono hsub, fun v h => ?_, fun _ => ?_⟩
    · cases h
      exact absurd rfl (hdone v)
    · by_contra hne
      exact hoff (honly.bytes _ hne).2

theorem parseIntPayload_eq_some {payload : List Char} {lo hi v : ℤ} :
    parseIntPayload payload lo hi = some v ↔ (payload ≠ [] ∧ payload.length ≤ 31) ∧
      trimTail payload ≠ [] ∧ strtol (cString (trimTail payload)) = (v, []) ∧ lo ≤ v ∧ v ≤ hi := by
  rw [parseIntPayload]
  dsimp only
  cases hread : strtol (cString (trimTail payload)) with
  | mk w rest =>
    dsimp only
    split
    · next hlen =>
      simp only [Bool.or_eq_true, decide_eq_true_eq] at hlen
      refine iff_of_false nofun fun h => ?_
      rcases hlen with hnil | hlong
      · exact h.1.1 hnil
      · omega
    next hlen =>
    simp only [Bool.or_eq_true, decide_eq_true_eq, not_or, not_lt] at hlen
    split
    · next hblank => exact iff_of_false nofun fun h => h.2.1 hblank
    next hblank =>
    split
    · next hrest => exact iff_of_false nofun fun h => hrest (Prod.mk.inj h.2.2.1).2
    next hrest =>
    split
    · next hbounds =>
      simp only [Bool.or_eq_true, decide_eq_true_eq] at hbounds
      refine iff_of_false nofun fun h => ?_
      have hw := (Prod.mk.inj h.2.2.1).1
      omega
    next hbounds =>
    simp only [Bool.or_eq_true, decide_eq_true_eq, not_or, not_lt] at hbounds
    rw [Option.some.injEq, Prod.mk.injEq]
    constructor
    · rintro rfl
      exact ⟨hlen, hblank, ⟨rfl, not_not.mp hrest⟩, hbounds⟩
    · exact fun h => h.2.2.1.1

theorem commandOk_ratedAmps (payload : List Char) (sm : Option ShmemSegment) :
    CommandOk sm (csApplyRatedAmpsWrite payload sm) := by
  rw [csApplyRatedAmpsWrite]
  split
  · exact .refused _
  next v hv =>
  obtain ⟨-, -, -, hlo, hhi⟩ := parseIntPayload_eq_some.mp hv
  rcases gatedWrite_cases (shmemWriteU8 offRatedAmps (UInt8.ofInt v)) (.ratedAmps v) sm with
    ⟨msg, heq⟩ | ⟨seg, seg', rfl, hseg, heq⟩
  · rw [heq]
    exact .refused _
  · rw [heq]
    obtain ⟨honly, hbyte⟩ := shmemWriteU8_only hseg
    refine ⟨nofun, honly.mono (by decide), fun w h => ?_, fun h => absurd rfl (h v)⟩
    cases h
    exact ⟨hlo, hhi, hbyte⟩

theorem commandOk_authorize (payload : List Char) (sm : Option ShmemSegment) :
    CommandOk sm (csApplyAuthorizeWrite payload sm) := by
  have hgated : ∀ (v : UInt8) (on : Bool),
      CommandOk sm (gatedWrite (shmemWriteU8 offUserState v) (.authorize on) sm) :=
    fun _ _ => .gated nofun (by decide) (by decide : offRatedAmps ∉ [offUserState])
      fun _ _ h => (shmemWriteU8_only h).1
  rw [csApplyAuthorizeWrite]
  split
  · exact hgated 1 true
  split
  · exact hgated 0 false
  · exact .refused _

theorem commandOk_clearFaults (sm : Option ShmemSegment) :
    CommandOk sm (csApplyClearFaultsWrite sm) := by
  refine CommandOk.gated nofun ?_ ?_ fun _ _ h => shmemWriteU32Le_only h
  · decide
  · decide

theorem commandOk_onCommand (topic payload : List UInt8) (sm : Option ShmemSegment) :
    CommandOk sm (onCommand topic payload sm) := by
  rw [onCommand]
  split
  · exact .refused _
  split
  · exact commandOk_ratedAmps ..
  split
  · exact commandOk_authorize ..
  split
  · exact commandOk_clearFaults ..
  · exact .refused _

theorem commandOk_handlePost (field : String) (behind : Char) (body : List Char)
    {apply : List Char → Option ShmemSegment → CommandResult}
    (h : ∀ payload, CommandOk sm (apply payload sm)) :
    CommandOk sm (handlePost field behind body apply sm) := by
  rw [handlePost]
  split
  · exact .refused _
  · exact h _

theorem commandOk_postControl (path : List Char) (behind : Char) (body : List Char)
    (sm : Option ShmemSegment) : CommandOk sm (postControl path behind body sm) := by
  rw [postControl]
  split
  · exact commandOk_handlePost _ _ _ fun payload => commandOk_ratedAmps payload sm
  split
  · exact commandOk_handlePost _ _ _ fun payload => commandOk_authorize payload sm
  split
  · exact commandOk_clearFaults sm
  · exact .refused _

theorem commandOk_handle (d : Delivery) (sm : Option ShmemSegment) :
    CommandOk sm (d.handle sm) := by
  cases d with
  | mqtt topic payload => exact commandOk_onCommand topic payload sm
  | http path behind body => exact commandOk_postControl path behind body sm

/-- From any segment, over any sequence of payloads from either side: every command is held to
`CommandOk` where it runs, and together they write only the bytes of the commands, with
writing enabled. -/
theorem commands_write_only (sm : Option ShmemSegment) (ds : List Delivery) :
    (∀ p ∈ foldTrace deliver sm ds, CommandOk p.1 (p.2.handle p.1)) ∧
      WritesOnly commandOffsets sm (ds.foldl (fun sm d => deliver d sm) sm) := by
  refine ⟨fun p _ => commandOk_handle p.2 p.1, ?_⟩
  refine foldTrace_kept (f := deliver) (P := WritesOnly commandOffsets sm) ds sm ?_ .refl
  exact fun p _ hkept => hkept.trans (commandOk_handle p.2 p.1).frame

end OpenEVCharger
