import Mathlib.Data.List.Basic
import Mathlib.Logic.Function.Basic
import Mathlib.Tactic.Common

/-!
# The meter of the companion

The registers of the chip are read over a serial line. A reply has neither a tag nor a checksum,
and the receive buffer is never flushed: a byte that comes after its read has given up is taken
for the start of the next reply.
-/

namespace OpenEVCharger

/-! ## Commands and replies -/

/-- A `35 LL OO`. -/
structure ReadCommand where
  op0 : UInt8
  op1 : UInt8
  op2 : UInt8

/-- The registers that are polled, in the order of the cycle. -/
inductive PolledRegister
  | vrms | irms | power | energy
  deriving DecidableEq, Repr

def PolledRegister.cmd : PolledRegister → ReadCommand
  | .vrms => ⟨0x35, 0x02, 0x27⟩
  | .irms => ⟨0x35, 0x02, 0x1c⟩
  | .power => ⟨0x35, 0x03, 0x1a⟩
  | .energy => ⟨0x35, 0x03, 0x10⟩

def meterRespLenForCmd (op0 op1 : UInt8) : Option ℕ :=
  if op0 ≠ 0x35 then none else some (op1.toNat + 1)

/-- `meter_parse_response`; up to four bytes, the low one first. -/
def meterParseResponse (op1 : UInt8) (resp : List UInt8) : Option UInt32 :=
  if op1.toNat + 1 ≠ resp.length then none
  else some ((resp.take 4).zipIdx.foldl
    (fun v (b, i) => v ||| b.toUInt32 <<< (UInt32.ofNat (i * 8))) 0)

/-! ## The serial line -/

/-- A byte from the chip, with the number of the read it answers. -/
structure RxByte where
  value : UInt8
  request : ℕ
  deriving DecidableEq, Repr

/-- What comes of a call of `read`. -/
inductive ReadCall
  /-- These bytes have come by the time it returns; it times out if it has none at all. -/
  | bytes (arriving : List RxByte)
  /-- `EINTR` or `EAGAIN`. -/
  | interrupted
  | failed

/-- `read_exact`, with the bytes in the receive buffer and those that it has. When the calls are
over no more bytes come. -/
def readExact (n : ℕ) : List ReadCall → List RxByte → List RxByte →
    Option (List RxByte) × List RxByte
  | [], rx, got => (some (got ++ rx.take (n - got.length)), rx.drop (n - got.length))
  | call :: calls, rx, got =>
    if n ≤ got.length then (some got, rx)
    else
      match call with
      | .interrupted => readExact n calls rx got
      | .failed => (none, rx)
      | .bytes arriving =>
        let rx := rx ++ arriving
        if rx = [] then (some got, [])
        else readExact n calls (rx.drop (n - got.length)) (got ++ rx.take (n - got.length))

/-- The line around one read: what comes before the command is written, whether that succeeds,
and the calls of `read` after it. -/
structure ReadTiming where
  between : List RxByte
  written : Bool
  calls : List ReadCall

/-- A decoded register, with the bytes it was decoded from. -/
structure Reading where
  raw : UInt32
  source : List RxByte

def doReadRegister (cmd : ReadCommand) (t : ReadTiming) (rx : List RxByte) :
    Option Reading × List RxByte :=
  let rx := rx ++ t.between
  match meterRespLenForCmd cmd.op0 cmd.op1 with
  | none => (none, rx)
  | some want =>
    if t.written = false then (none, rx)
    else
      match readExact want t.calls rx [] with
      | (none, rx) => (none, rx)
      | (some resp, rx) =>
        if resp.length ≠ want then (none, rx)
        else
          match meterParseResponse cmd.op1 (resp.map RxByte.value) with
          | none => (none, rx)
          | some v => (some ⟨v, resp⟩, rx)

/-! ## The task -/

/-- The reads of the initialisation, and whether its writes succeed. -/
structure InitTiming where
  chipId : ReadTiming
  read26 : ReadTiming
  read2e : ReadTiming
  configured : Bool

/-- A read whose reply is not looked at. -/
def initRead (want : ℕ) (t : ReadTiming) (rx : List RxByte) : Option (List RxByte) :=
  if t.written then some (readExact want t.calls (rx ++ t.between) []).2 else none

def meterChipInit (t : InitTiming) (rx : List RxByte) : Option (List RxByte) := do
  let rx ← initRead 2 t.chipId rx
  let rx ← initRead 3 t.read26 rx
  let rx ← initRead 3 t.read2e rx
  if t.configured then some rx else none

/-- The readings that a cycle publishes, and the number of reads before that cycle. -/
structure PublishedCycle where
  before : ℕ
  readings : PolledRegister → Reading

/-- The loop of `meter_personality_run`; `sent` counts the reads. -/
structure MeterTask where
  rx : List RxByte
  sent : ℕ
  ok : ℕ
  readings : PolledRegister → Reading
  published : List PublishedCycle

def pollRegister (reg : PolledRegister) (t : ReadTiming) (m : MeterTask) : MeterTask :=
  match doReadRegister reg.cmd t m.rx with
  | (some r, rx) =>
    { m with rx := rx, sent := m.sent + 1, ok := m.ok + 1,
             readings := Function.update m.readings reg r }
  | (none, rx) => { m with rx := rx, sent := m.sent + 1 }

/-- The line around the four reads of a cycle. -/
abbrev CycleTiming := PolledRegister → ReadTiming

def pollCycle (t : CycleTiming) (m : MeterTask) : MeterTask :=
  pollRegister .energy (t .energy) (pollRegister .power (t .power)
    (pollRegister .irms (t .irms) (pollRegister .vrms (t .vrms) { m with ok := 0 })))

def meterCycle (t : CycleTiming) (m : MeterTask) : MeterTask :=
  let m' := pollCycle t m
  if m'.ok = 4 then { m' with published := m'.published ++ [⟨m.sent, m'.readings⟩] } else m'

def meterStart (rx : List RxByte) : MeterTask where
  rx := rx
  sent := 3
  ok := 0
  readings := fun _ => ⟨0, []⟩
  published := []

/-- What `meter_personality_run` publishes; `opened` is in the buffer when the port is opened. -/
def meterPersonalityRun (opened : List RxByte) (init : InitTiming) (cycles : List CycleTiming) :
    List PublishedCycle :=
  match meterChipInit init opened with
  | none => []
  | some rx => (cycles.foldl (fun m t => meterCycle t m) (meterStart rx)).published

/-! ## Replies in time -/

/-- The number of bytes that the read of a register asks for. -/
def PolledRegister.want : PolledRegister → ℕ
  | .vrms | .irms => 3
  | .power | .energy => 4

/-- The place of a register in the cycle. -/
def PolledRegister.position : PolledRegister → ℕ
  | .vrms => 1
  | .irms => 2
  | .power => 3
  | .energy => 4

/-- A reading that was decoded from the reply to a read, and from nothing else. -/
structure Reading.Own (r : Reading) (reg : PolledRegister) (request : ℕ) : Prop where
  bytes : ∀ b ∈ r.source, b.request = request
  decoded : meterParseResponse reg.cmd.op1 (r.source.map RxByte.value) = some r.raw

/-- Each value of a cycle is from the reply to the read of that register in that cycle. -/
def PublishedCycle.Own (c : PublishedCycle) : Prop :=
  ∀ reg, (c.readings reg).Own reg (c.before + reg.position)

def ReadCall.arriving : ReadCall → List RxByte
  | .bytes arriving => arriving
  | .interrupted | .failed => []

/-- Nothing comes but the reply to this read, as long as its calls last. The reply may be short
or missing. -/
structure ReadTiming.Timely (t : ReadTiming) (request want : ℕ) : Prop where
  noneLate : t.between = []
  own : ∀ b ∈ t.calls.flatMap ReadCall.arriving, b.request = request
  asked : (t.calls.flatMap ReadCall.arriving).length ≤ want

/-- A run in which what has not come when a read gives up does not come any more. -/
structure TimelyRun (opened : List RxByte) (init : InitTiming) (cycles : List CycleTiming) :
    Prop where
  quiet : opened = []
  chipId : init.chipId.Timely 1 2
  read26 : init.read26.Timely 2 3
  read2e : init.read2e.Timely 3 3
  cycles : ∀ k (t : CycleTiming), cycles[k]? = some t → ∀ reg,
    (t reg).Timely (3 + 4 * k + reg.position) reg.want

variable {n request : ℕ} {calls : List ReadCall} {got rx : List RxByte} {t : ReadTiming}
  {reg : PolledRegister} {m : MeterTask}

/-- A read that starts on an empty buffer and is only sent its own reply leaves an empty one. -/
theorem readExact_timely (hown : ∀ b ∈ calls.flatMap ReadCall.arriving, b.request = request)
    (hlen : got.length + (calls.flatMap ReadCall.arriving).length ≤ n)
    (hgot : ∀ b ∈ got, b.request = request) :
    (readExact n calls [] got).2 = [] ∧
      ∀ resp, (readExact n calls [] got).1 = some resp → ∀ b ∈ resp, b.request = request := by
  induction calls generalizing got with
  | nil =>
    rw [readExact, List.take_nil, List.drop_nil, List.append_nil]
    refine ⟨rfl, ?_⟩
    rintro resp ⟨⟩
    exact hgot
  | cons call calls ih =>
    rw [List.flatMap_cons, List.length_append] at hlen
    rw [List.flatMap_cons] at hown
    rw [readExact.eq_def]
    dsimp only
    split
    · refine ⟨rfl, ?_⟩
      rintro resp ⟨⟩
      exact hgot
    cases call with
    | interrupted =>
      rw [ReadCall.arriving, List.length_nil, Nat.zero_add] at hlen
      exact ih hown hlen hgot
    | failed => exact ⟨rfl, nofun⟩
    | bytes arriving =>
      dsimp only [List.nil_append]
      rw [ReadCall.arriving] at hown hlen
      split
      · refine ⟨rfl, ?_⟩
        rintro resp ⟨⟩
        exact hgot
      · -- all that came is taken, since no more comes than is asked for
        rw [List.drop_of_length_le (by omega), List.take_of_length_le (by omega)]
        refine ih (fun b hb => hown b (List.mem_append_right _ hb)) ?_ ?_
        · rw [List.length_append]
          omega
        · intro b hb
          rcases List.mem_append.mp hb with hold | hnew
          · exact hgot b hold
          · exact hown b (List.mem_append_left _ hnew)

theorem readExact_empty {want : ℕ} (h : t.Timely request want) :
    (readExact want t.calls [] []).2 = [] ∧ ∀ resp, (readExact want t.calls [] []).1 = some resp →
      ∀ b ∈ resp, b.request = request := by
  refine readExact_timely h.own ?_ nofun
  rw [List.length_nil, Nat.zero_add]
  exact h.asked

theorem initRead_timely {want : ℕ} (h : t.Timely request want) {rx : List RxByte}
    (hrx : initRead want t [] = some rx) : rx = [] := by
  rw [initRead, h.noneLate, List.append_nil] at hrx
  split at hrx
  · cases hrx
    exact (readExact_empty h).1
  · nomatch hrx

theorem doReadRegister_timely (h : t.Timely request reg.want) :
    (doReadRegister reg.cmd t []).2 = [] ∧
      ∀ r, (doReadRegister reg.cmd t []).1 = some r → r.Own reg request := by
  have hwant : meterRespLenForCmd reg.cmd.op0 reg.cmd.op1 = some reg.want := by
    cases reg <;> rfl
  obtain ⟨hempty, hresp⟩ := readExact_empty h
  rw [doReadRegister, h.noneLate, List.append_nil, hwant]
  dsimp only
  split
  · exact ⟨rfl, nofun⟩
  cases hread : readExact reg.want t.calls [] [] with
  | mk result rx =>
    rw [hread] at hempty hresp
    obtain rfl : rx = [] := hempty
    cases result with
    | none => exact ⟨rfl, nofun⟩
    | some resp =>
      dsimp only
      split
      · exact ⟨rfl, nofun⟩
      cases hparse : meterParseResponse reg.cmd.op1 (resp.map RxByte.value) with
      | none => exact ⟨rfl, nofun⟩
      | some v =>
        refine ⟨rfl, ?_⟩
        rintro r ⟨⟩
        exact ⟨hresp resp rfl, hparse⟩

/-- A cycle up to a place: the buffer is empty, and if every read so far succeeded each reading
so far is its own. -/
structure CyclePolled (before n : ℕ) (m : MeterTask) : Prop where
  empty : m.rx = []
  sent : m.sent = before + n
  count : m.ok ≤ n
  own : m.ok = n → ∀ reg, reg.position ≤ n → (m.readings reg).Own reg (before + reg.position)

theorem CyclePolled.step {before : ℕ} (h : CyclePolled before n m) (hreg : reg.position = n + 1)
    (ht : t.Timely (before + reg.position) reg.want) :
    CyclePolled before (n + 1) (pollRegister reg t m) := by
  obtain ⟨hempty, hown⟩ := doReadRegister_timely ht
  have hsent : m.sent + 1 = before + (n + 1) := by rw [h.sent, Nat.add_assoc]
  rw [pollRegister, h.empty]
  cases hread : doReadRegister reg.cmd t [] with
  | mk result rx =>
    rw [hread] at hempty hown
    cases result with
    | none =>
      refine ⟨hempty, hsent, Nat.le_succ_of_le h.count, fun hok => ?_⟩
      exact absurd hok (Nat.ne_of_lt (Nat.lt_succ_of_le h.count))
    | some r =>
      refine ⟨hempty, hsent, Nat.succ_le_succ h.count, fun hok reg' hpos => ?_⟩
      by_cases hsame : reg' = reg
      · subst hsame
        dsimp only
        rw [Function.update_self]
        exact hown r rfl
      · dsimp only
        rw [Function.update_of_ne hsame]
        refine h.own (Nat.succ.inj hok) reg' ?_
        have hplace : reg'.position ≠ reg.position := by
          intro heq
          exact hsame (by cases reg' <;> cases reg <;> first | rfl | nomatch heq)
        omega

theorem pollRegister_published (reg : PolledRegister) (t : ReadTiming) (m : MeterTask) :
    (pollRegister reg t m).published = m.published := by
  rw [pollRegister]
  split <;> rfl

/-- Between two cycles the buffer is empty, and all that was published is its own. -/
structure MeterInv (k : ℕ) (m : MeterTask) : Prop where
  empty : m.rx = []
  sent : m.sent = 3 + 4 * k
  own : ∀ c ∈ m.published, c.Own

theorem MeterInv.step {k : ℕ} (h : MeterInv k m) {t : CycleTiming}
    (ht : ∀ reg, (t reg).Timely (3 + 4 * k + reg.position) reg.want) :
    MeterInv (k + 1) (meterCycle t m) := by
  have hstart : CyclePolled m.sent 0 { m with ok := 0 } := by
    refine ⟨h.empty, rfl, Nat.le_refl 0, fun _ reg hpos => ?_⟩
    cases reg <;> exact absurd hpos (by decide)
  rw [← h.sent] at ht
  have hpolled : CyclePolled m.sent 4 (pollCycle t m) :=
    (((hstart.step rfl (ht .vrms)).step rfl (ht .irms)).step rfl (ht .power)).step rfl (ht .energy)
  have hpublished : (pollCycle t m).published = m.published := by
    rw [pollCycle]
    simp only [pollRegister_published]
  have hsent : (pollCycle t m).sent = 3 + 4 * (k + 1) := by
    rw [hpolled.sent, h.sent]
    omega
  rw [meterCycle]
  split
  · next hok =>
    refine ⟨hpolled.empty, hsent, fun c hc => ?_⟩
    rw [hpublished] at hc
    rcases List.mem_append.mp hc with hold | hnew
    · exact h.own c hold
    · rw [List.mem_singleton.mp hnew]
      exact fun reg => hpolled.own hok reg (by cases reg <;> decide)
  · refine ⟨hpolled.empty, hsent, fun c hc => h.own c ?_⟩
    rw [← hpublished]
    exact hc

theorem MeterInv.run {k : ℕ} (h : MeterInv k m) {cycles : List CycleTiming}
    (ht : ∀ j (t : CycleTiming), cycles[j]? = some t → ∀ reg,
      (t reg).Timely (3 + 4 * (k + j) + reg.position) reg.want) :
    MeterInv (k + cycles.length) (cycles.foldl (fun m t => meterCycle t m) m) := by
  induction cycles generalizing k m with
  | nil => exact h
  | cons t cycles ih =>
    have hlater := ih (h.step (ht 0 t rfl)) fun j t' hj reg => by
      have hnext := ht (j + 1) t' hj reg
      rwa [show k + (j + 1) = k + 1 + j by omega] at hnext
    rwa [show k + 1 + cycles.length = k + (t :: cycles).length by
      rw [List.length_cons]; omega] at hlater

/-- In every run in which no byte comes late, each cycle that publishes is its own. -/
theorem published_own (opened : List RxByte) (init : InitTiming) (cycles : List CycleTiming)
    (h : TimelyRun opened init cycles) :
    ∀ c ∈ meterPersonalityRun opened init cycles, c.Own := by
  rw [meterPersonalityRun]
  cases hinit : meterChipInit init opened with
  | none => exact nofun
  | some rx =>
    have hempty : rx = [] := by
      rw [h.quiet] at hinit
      obtain ⟨rx1, h1, hinit⟩ := Option.bind_eq_some_iff.mp hinit
      obtain rfl := initRead_timely h.chipId h1
      obtain ⟨rx2, h2, hinit⟩ := Option.bind_eq_some_iff.mp hinit
      obtain rfl := initRead_timely h.read26 h2
      obtain ⟨rx3, h3, hinit⟩ := Option.bind_eq_some_iff.mp hinit
      obtain rfl := initRead_timely h.read2e h3
      split at hinit
      · cases hinit
        rfl
      · nomatch hinit
    have hstart : MeterInv 0 (meterStart rx) := ⟨hempty, rfl, nofun⟩
    refine (hstart.run fun j t hj reg => ?_).own
    rw [Nat.zero_add]
    exact h.cycles j t hj reg

/-- A line on which nothing is read. -/
def silentRead : ReadTiming := ⟨[], true, []⟩

def silentInit : InitTiming := ⟨silentRead, silentRead, silentRead, true⟩

/-- The reply to a read, all of whose bytes are the same. -/
def replyTo (request n : ℕ) (value : UInt8) : List RxByte := List.replicate n ⟨value, request⟩

def readOf (arriving : List RxByte) : ReadTiming := ⟨[], true, [.bytes arriving]⟩

/-- A cycle with each reply in time. -/
def timelyCycle : CycleTiming
  | .vrms => readOf (replyTo 4 3 1)
  | .irms => readOf (replyTo 5 3 2)
  | .power => readOf (replyTo 6 4 3)
  | .energy => readOf (replyTo 7 4 4)

theorem published_own_timelyCycle :
    (meterPersonalityRun [] silentInit [timelyCycle]).length = 1 ∧
      ∀ c ∈ meterPersonalityRun [] silentInit [timelyCycle], c.Own := by
  have hsilent : ∀ request want, silentRead.Timely request want :=
    fun _ _ => ⟨rfl, nofun, Nat.zero_le _⟩
  refine ⟨by decide, ?_⟩
  refine published_own [] silentInit [timelyCycle]
    ⟨rfl, hsilent 1 2, hsilent 2 3, hsilent 3 3, fun k t hk reg => ?_⟩
  cases k with
  | zero =>
    cases hk
    cases reg <;> exact ⟨rfl, by decide, by decide⟩
  | succ k => nomatch hk

/-- A cycle whose first read gives up before its reply comes, so that each later read has the
reply to the one before it. -/
def lateCycle : CycleTiming
  | .vrms => readOf []
  | .irms => readOf (replyTo 4 3 1)
  | .power => readOf (replyTo 5 3 2 ++ replyTo 6 4 3)
  | .energy => readOf (replyTo 7 4 4)

/-- The cycle after it, with each reply in time. -/
def shiftedCycle : CycleTiming
  | .vrms => readOf (replyTo 8 3 5)
  | .irms => readOf (replyTo 9 3 6)
  | .power => readOf (replyTo 10 4 7)
  | .energy => readOf (replyTo 11 4 8)

/-- The voltage of the second cycle is what is left of the energy of the first. -/
theorem published_late : ¬ ∀ opened init cycles,
    ∀ c ∈ meterPersonalityRun opened init cycles, c.Own := by
  intro hclaim
  have hmem : ∃ c ∈ meterPersonalityRun [] silentInit [lateCycle, shiftedCycle],
      c.before = 7 ∧ (c.readings .vrms).source = replyTo 7 3 4 :=
    ⟨_, List.mem_singleton_self _, by decide, by decide⟩
  obtain ⟨c, hc, hbefore, hsource⟩ := hmem
  have hown := (hclaim _ _ _ c hc .vrms).bytes ⟨4, 7⟩ (by rw [hsource]; decide)
  rw [hbefore] at hown
  exact absurd hown (by decide)

end OpenEVCharger
