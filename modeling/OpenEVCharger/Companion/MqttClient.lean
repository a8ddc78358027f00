import Mathlib.Data.List.Induction
import OpenEVCharger.Companion.MqttCodec
import OpenEVCharger.Lib.Framing

/-!
# The inbound side of the MQTT client

`mqtt_client_tick` reads all that the kernel has queued before it takes packets off the
front, so that what is queued at a tick has to fit the buffer together with the packet that
has begun, whatever packets it is made of. The keepalive at the end of the tick is left out.
-/

namespace OpenEVCharger

abbrev mqttClientRxBuf : ℕ := 1024

/-! ## One packet -/

/-- `try_consume_one`, with the packet that the callback gets. -/
def tryConsumeOne (rx : List UInt8) : Peeled MqttPublish :=
  if rx.length < 2 then .more
  else
    match mqttDecodeRemlen rx.tail with
    | none => if 4 ≤ rx.length - 1 then .fail else .more
    | some (remlen, rlConsumed) =>
      let pktTotal := 1 + rlConsumed + remlen
      if mqttClientRxBuf < pktTotal then .fail
      else if rx.length < pktTotal then .more
      else if rx.getD 0 0 &&& 0xF0 = 0x30 then
        .take pktTotal (mqttDecodePublish (rx.take pktTotal))
      else .take pktTotal none

variable {rx more : List UInt8} {n k : ℕ} {out : Option MqttPublish}

/-- What has been decided of a packet is decided again with more bytes behind. -/
theorem tryConsumeOne_append (h : tryConsumeOne rx ≠ .more) :
    tryConsumeOne (rx ++ more) = tryConsumeOne rx := by
  have hlen : (rx ++ more).length = rx.length + more.length := List.length_append
  rw [tryConsumeOne] at h
  rw [tryConsumeOne, tryConsumeOne]
  split at h
  · exact absurd rfl h
  next hmin =>
  have htail : (rx ++ more).tail = rx.tail ++ more :=
    List.tail_append_of_ne_nil (List.ne_nil_of_length_pos (by omega))
  have hcount : rx.tail.length = rx.length - 1 := List.length_tail
  have hfirst : (rx ++ more).getD 0 0 = rx.getD 0 0 := by
    rw [List.getD_eq_getElem?_getD, List.getElem?_append_left (by omega),
      ← List.getD_eq_getElem?_getD]
  rw [if_neg (by omega), if_neg hmin, htail, hfirst]
  cases hdecode : mqttDecodeRemlen rx.tail with
  | none =>
    rw [hdecode] at h
    dsimp only at h
    split at h
    · next hfour =>
      rw [mqttDecodeRemlen] at hdecode ⊢
      rw [decodeRemlenFrom_none hdecode (by omega)]
      dsimp only
      rw [if_pos hfour, if_pos (by omega)]
    · exact absurd rfl h
  | some r =>
    obtain ⟨remlen, rlConsumed⟩ := r
    rw [hdecode] at h
    dsimp only at h
    rw [mqttDecodeRemlen] at hdecode ⊢
    rw [decodeRemlenFrom_append hdecode]
    dsimp only
    split
    · rfl
    next hfits =>
    rw [if_neg hfits] at h
    split at h
    · exact absurd rfl h
    next hwhole =>
    rw [if_neg (by omega), if_neg hwhole, List.take_append_of_le_length (by omega)]

theorem tryConsumeOne_take (h : tryConsumeOne rx = .take n out) : 0 < n ∧ n ≤ rx.length := by
  rw [tryConsumeOne] at h
  split at h
  · cases h
  cases hdecode : mqttDecodeRemlen rx.tail with
  | none =>
    rw [hdecode] at h
    dsimp only at h
    split at h
    · cases h
    · cases h
  | some r =>
    rw [hdecode] at h
    dsimp only at h
    split at h
    · cases h
    split at h
    · cases h
    next hwhole =>
    split at h
    · cases h
      omega
    · cases h
      omega

def mqttFraming : Framing UInt8 MqttPublish where
  peel := tryConsumeOne
  take_bounds := tryConsumeOne_take
  take_append := by
    intro l n out l' h
    rw [tryConsumeOne_append, h]
    rw [h]
    exact nofun
  fail_append := by
    intro l l' h
    rw [tryConsumeOne_append, h]
    rw [h]
    exact nofun

/-! ## The tick -/

/-- The receive buffer, the packets given to the callback, and whether the link is up. -/
structure MqttRx where
  rx : List UInt8
  delivered : List MqttPublish
  up : Bool
  deriving DecidableEq, Repr

def mqttConnected : MqttRx := ⟨[], [], true⟩

/-- The reads of a tick until the kernel has nothing more queued; `none` when one finds the
buffer full. A chunk that does not fit fills it, so that the next read does. -/
def recvAll (rx : List UInt8) : List (List UInt8) → Option (List UInt8)
  | [] => if mqttClientRxBuf ≤ rx.length then none else some rx
  | chunk :: chunks =>
    if mqttClientRxBuf ≤ rx.length then none
    else if chunk.length ≤ mqttClientRxBuf - rx.length then recvAll (rx ++ chunk) chunks
    else none

/-- One tick, and what its reads find. -/
def mqttClientTick (σ : MqttRx) (reads : List (List UInt8)) : MqttRx :=
  if σ.up = false then σ
  else
    match recvAll σ.rx reads with
    | none => ⟨[], σ.delivered, false⟩
    | some rx =>
      let d := mqttFraming.drain rx
      if d.failed then ⟨[], σ.delivered ++ d.out, false⟩ else ⟨d.rest, σ.delivered ++ d.out, true⟩

def mqttRun (ticks : List (List (List UInt8))) : MqttRx := ticks.foldl mqttClientTick mqttConnected

/-! ## Packets -/

/-- A packet of a stream: a PUBLISH of quality of service 0, or one that the client does not
pass on. -/
inductive MqttPacket where
  | publish (first : UInt8) (p : MqttPublish)
      (hfirst : first &&& 0xF6 = 0x30) (htopic : p.topic.length < 65536)
  | other (first : UInt8) (body : List UInt8) (hfirst : first &&& 0xF6 ≠ 0x30)

namespace MqttPacket

def body : MqttPacket → List UInt8
  | publish _ p _ _ =>
    UInt8.ofNat (p.topic.length / 256) :: UInt8.ofNat (p.topic.length % 256) :: (p.topic ++ p.payload)
  | other _ body _ => body

def first : MqttPacket → UInt8
  | publish first _ _ _ => first
  | other first _ _ => first

/-- The packet on the wire, unless it is too long for one. -/
def bytes (p : MqttPacket) : Option (List UInt8) :=
  (mqttEncodeRemlen p.body.length).map fun rl => p.first :: (rl ++ p.body)

def published : MqttPacket → List MqttPublish
  | publish _ p _ _ => [p]
  | other _ _ _ => []

end MqttPacket

/-- The bytes of some packets, each of which fits the receive buffer. -/
inductive MqttStream : List MqttPacket → List UInt8 → Prop where
  | nil : MqttStream [] []
  | cons {p : MqttPacket} {ps : List MqttPacket} {bs stream : List UInt8} (h : p.bytes = some bs)
      (hfits : bs.length ≤ mqttClientRxBuf) (hs : MqttStream ps stream) :
      MqttStream (p :: ps) (bs ++ stream)

theorem first_bits_nat : ∀ m < 256, (UInt8.ofNat m &&& 0xF6 = 0x30 ↔
    UInt8.ofNat m &&& 0xF0 = 0x30 ∧ UInt8.ofNat m &&& 0x06 = 0) := by
  decide +kernel

theorem first_bits (b : UInt8) : b &&& 0xF6 = 0x30 ↔ b &&& 0xF0 = 0x30 ∧ b &&& 0x06 = 0 := by
  have h := first_bits_nat b.toNat b.toNat_lt
  rw [UInt8.ofNat_toNat] at h
  exact h

theorem topicLen_bytes (h : n < 65536) :
    (UInt8.ofNat (n / 256)).toNat * 256 + (UInt8.ofNat (n % 256)).toNat = n := by
  rw [UInt8.toNat_ofNat_of_lt' (show n / 256 < 2 ^ 8 by omega),
    UInt8.toNat_ofNat_of_lt' (show n % 256 < 2 ^ 8 by omega)]
  omega

variable {p : MqttPacket} {ps : List MqttPacket} {bs stream : List UInt8}

theorem bytes_eq (h : p.bytes = some bs) : ∃ rl, bs = p.first :: (rl ++ p.body) ∧
    bs.length = 1 + rl.length + p.body.length ∧
    ∀ more, mqttDecodeRemlen ((bs ++ more).tail) = some (p.body.length, rl.length) := by
  rw [MqttPacket.bytes] at h
  cases hrl : mqttEncodeRemlen p.body.length with
  | none =>
    rw [hrl] at h
    cases h
  | some rl =>
    rw [hrl] at h
    cases h
    refine ⟨rl, rfl, ?_, fun more => ?_⟩
    · rw [List.length_cons, List.length_append]
      omega
    · rw [List.cons_append, List.tail_cons, List.append_assoc]
      exact mqttDecodeRemlen_encode hrl

/-- A PUBLISH packet is decoded as what it carries. -/
theorem mqttDecodePublish_bytes {first : UInt8} {x : MqttPublish} (hfirst : first &&& 0xF6 = 0x30)
    (htopic : x.topic.length < 65536) (h : (MqttPacket.publish first x hfirst htopic).bytes = some bs) :
    mqttDecodePublish bs = some x := by
  obtain ⟨rl, hbs, hlen, hremlen⟩ := bytes_eq h
  obtain ⟨hnibble, hqos⟩ := (first_bits first).mp hfirst
  have hbody : (MqttPacket.publish first x hfirst htopic).body.length =
      2 + x.topic.length + x.payload.length := by
    rw [MqttPacket.body, List.length_cons, List.length_cons, List.length_append]
    omega
  have hget : bs.getD 0 0 = first := by
    rw [hbs]
    rfl
  have htail := hremlen []
  have hdrop : bs.drop (1 + rl.length) = (MqttPacket.publish first x hfirst htopic).body := by
    rw [hbs, Nat.add_comm, List.drop_succ_cons, List.drop_left]
  rw [List.append_nil] at htail
  rw [mqttDecodePublish, if_neg (by omega), hget, if_neg (not_not.mpr hnibble),
    if_neg (not_not.mpr hqos), htail]
  dsimp only
  rw [if_neg (by omega), hdrop, if_neg (by omega), MqttPacket.body, List.getD_cons_zero,
    List.getD_cons_succ, List.getD_cons_zero, topicLen_bytes htopic]
  rw [MqttPacket.body] at hbody
  rw [hbody, if_neg (by omega), Nat.add_comm 2, List.drop_succ_cons, List.drop_succ_cons,
    List.drop_succ_cons, List.drop_succ_cons, List.drop_zero, List.take_left, List.drop_left,
    List.take_of_length_le (by omega)]

/-- A packet that fits the buffer is taken off the front whole, and given to the callback if
it is a PUBLISH. -/
theorem tryConsumeOne_packet (h : p.bytes = some bs) (hfits : bs.length ≤ mqttClientRxBuf) :
    tryConsumeOne (bs ++ more) = .take bs.length p.published.head? := by
  obtain ⟨rl, hbs, hlen, hremlen⟩ := bytes_eq h
  have hrl : 0 < rl.length := (decodeRemlenFrom_consumed (hremlen [])).1
  have hget : (bs ++ more).getD 0 0 = p.first := by
    rw [hbs]
    rfl
  have htotal : (bs ++ more).length = bs.length + more.length := List.length_append
  rw [tryConsumeOne, if_neg (by omega), hremlen more]
  dsimp only
  rw [← hlen, if_neg (Nat.not_lt.mpr hfits), if_neg (by omega), hget, List.take_left]
  cases p with
  | publish first x hfirst htopic =>
    have hnibble : first &&& 0xF0 = 0x30 := ((first_bits first).mp hfirst).1
    show (if first &&& 0xF0 = 0x30 then _ else _) = _
    rw [if_pos hnibble, mqttDecodePublish_bytes hfirst htopic h]
    rfl
  | other first body hfirst =>
    show (if first &&& 0xF0 = 0x30 then _ else _) = _
    split
    · next hnibble =>
      -- a PUBLISH of another quality of service is dropped by the decoder
      have hqos : ¬ first &&& 0x06 = 0 := fun hqos => hfirst ((first_bits first).mpr ⟨hnibble, hqos⟩)
      have hget' : bs.getD 0 0 = first := by
        rw [hbs]
        rfl
      rw [mqttDecodePublish, if_neg (by omega), hget', if_neg (not_not.mpr hnibble), if_pos hqos]
      rfl
    · rfl

/-- A stream of packets that fit gives its PUBLISH packets, and leaves nothing. -/
theorem drain_stream (h : MqttStream ps stream) :
    mqttFraming.drain stream = ⟨ps.flatMap MqttPacket.published, [], false⟩ := by
  induction h with
  | nil => exact Framing.drain_more rfl
  | @cons p ps bs stream h hfits hs ih =>
    have hpeel : mqttFraming.peel (bs ++ stream) = .take bs.length p.published.head? :=
      tryConsumeOne_packet h hfits
    have hout : p.published.head?.toList = p.published := by
      cases p with
      | publish first x hfirst htopic => rfl
      | other first body hfirst => rfl
    rw [Framing.drain_take hpeel, List.drop_left, ih, hout, List.flatMap_cons]

/-! ## Runs -/

variable {σ : MqttRx} {reads : List (List UInt8)} {ticks : List (List (List UInt8))}
  {seen : List UInt8}

/-- The reads of a tick find the buffer full exactly when what is queued does not leave a
byte of it free. -/
theorem recvAll_eq (rx : List UInt8) (reads : List (List UInt8)) :
    recvAll rx reads =
      if rx.length + reads.flatten.length < mqttClientRxBuf then some (rx ++ reads.flatten)
      else none := by
  induction reads generalizing rx with
  | nil =>
    rw [recvAll, List.flatten_nil, List.append_nil, List.length_nil, Nat.add_zero]
    split
    · next hfull => rw [if_neg (Nat.not_lt.mpr hfull)]
    · next hroom => rw [if_pos (Nat.not_le.mp hroom)]
  | cons chunk chunks ih =>
    have hlen : (rx ++ chunk).length = rx.length + chunk.length := List.length_append
    have hflat : (chunk ++ chunks.flatten).length = chunk.length + chunks.flatten.length :=
      List.length_append
    rw [recvAll, List.flatten_cons, hflat]
    split
    · rw [if_neg (by omega)]
    · split
      · rw [ih, hlen, Nat.add_assoc, List.append_assoc]
      · rw [if_neg (by omega)]

/-- The link is up, and the buffer is drained of what has been read. -/
structure MqttHeld (seen : List UInt8) (σ : MqttRx) : Prop where
  up : σ.up = true
  rx : σ.rx = (mqttFraming.drain seen).rest
  delivered : σ.delivered = (mqttFraming.drain seen).out

/-- What is queued at a tick leaves a byte of the buffer free. -/
def Room (σ : MqttRx) (reads : List (List UInt8)) : Prop :=
  σ.rx.length + reads.flatten.length < mqttClientRxBuf

instance (σ : MqttRx) (reads : List (List UInt8)) : Decidable (Room σ reads) :=
  inferInstanceAs (Decidable (_ < _))

theorem recvAll_room (hroom : Room σ reads) : recvAll σ.rx reads = some (σ.rx ++ reads.flatten) := by
  rw [recvAll_eq]
  exact if_pos hroom

theorem recvAll_full (hroom : ¬ Room σ reads) : recvAll σ.rx reads = none := by
  rw [recvAll_eq]
  exact if_neg hroom

theorem MqttHeld.tick (h : MqttHeld seen σ) (hroom : Room σ reads)
    (hgood : (mqttFraming.drain (seen ++ reads.flatten)).failed = false)
    (hbefore : (mqttFraming.drain seen).failed = false) :
    MqttHeld (seen ++ reads.flatten) (mqttClientTick σ reads) := by
  have hfeed := @Framing.feed_drain _ _ mqttFraming _ reads.flatten hbefore
  rw [Framing.feed, ← h.rx, ← h.delivered] at hfeed
  rw [mqttClientTick, if_neg (by rw [h.up]; exact Bool.noConfusion), recvAll_room hroom]
  dsimp only
  rw [← hfeed] at hgood
  rw [if_neg (by rw [hgood]; exact Bool.false_ne_true)]
  refine ⟨rfl, ?_, ?_⟩
  · rw [← hfeed]
  · rw [← hfeed]

theorem tick_full (hroom : ¬ Room σ reads) : (mqttClientTick σ reads).up = false := by
  rw [mqttClientTick]
  split
  · next hdown => exact hdown
  · rw [recvAll_full hroom]

theorem down_stays (h : σ.up = false) : (ticks.foldl mqttClientTick σ).up = false := by
  induction ticks generalizing σ with
  | nil => exact h
  | cons reads ticks ih =>
    rw [List.foldl_cons]
    refine ih ?_
    rw [mqttClientTick, if_pos h]
    exact h

/-- A part of a stream of packets is drained without a failure. -/
theorem part_not_failed (h : MqttStream ps stream) {later : List UInt8}
    (hpart : seen ++ later = stream) : (mqttFraming.drain seen).failed = false := by
  cases hfailed : (mqttFraming.drain seen).failed with
  | false => rfl
  | true =>
    have hall := (@Framing.drain_failed_append _ _ _ _ later hfailed).1
    rw [hpart, drain_stream h] at hall
    cases hall

/-- While there is room at every tick, the buffer is drained of what has been read. -/
theorem mqttHeld_run (h : MqttStream ps stream) {later : List UInt8}
    (hpart : ticks.flatten.flatten ++ later = stream)
    (hroom : ∀ before reads after, ticks = before ++ reads :: after → Room (mqttRun before) reads) :
    MqttHeld ticks.flatten.flatten (mqttRun ticks) := by
  induction ticks using List.reverseRecOn generalizing later with
  | nil =>
    have hnil : mqttFraming.drain [] = ⟨[], [], false⟩ := Framing.drain_more rfl
    refine ⟨rfl, ?_, ?_⟩
    · rw [List.flatten_nil, List.flatten_nil, hnil]
      rfl
    · rw [List.flatten_nil, List.flatten_nil, hnil]
      rfl
  | append_singleton ticks reads ih =>
    have hflat : (ticks ++ [reads]).flatten.flatten = ticks.flatten.flatten ++ reads.flatten := by
      rw [List.flatten_append, List.flatten_singleton, List.flatten_append]
    have hbefore := @part_not_failed _ _ ticks.flatten.flatten
      h (reads.flatten ++ later) (by rw [← List.append_assoc, ← hflat, hpart])
    have hgood := @part_not_failed _ _ _ h later hpart
    rw [hflat] at hgood ⊢
    have hheld : MqttHeld ticks.flatten.flatten (mqttRun ticks) := by
      refine @ih (reads.flatten ++ later) (by rw [← List.append_assoc, ← hflat, hpart]) ?_
      rintro before reads' after rfl
      exact hroom before reads' (after ++ [reads]) (by rw [List.append_assoc]; rfl)
    rw [mqttRun, List.foldl_append, List.foldl_cons, List.foldl_nil, ← mqttRun]
    exact hheld.tick (hroom ticks reads [] rfl) hgood hbefore

/-- However a stream of packets that fit the buffer is split into reads, the ticks deliver
its PUBLISH packets and keep the link exactly when at every tick what is queued leaves a
byte of the buffer free behind the packet that has begun. -/
theorem mqtt_ticks_deliver_iff (ps : List MqttPacket) (ticks : List (List (List UInt8)))
    (h : MqttStream ps ticks.flatten.flatten) :
    ((mqttRun ticks).up = true ∧ (mqttRun ticks).delivered = ps.flatMap MqttPacket.published) ↔
      ∀ before reads after, ticks = before ++ reads :: after → Room (mqttRun before) reads := by
  constructor
  · rintro ⟨hup, _⟩ before reads after rfl
    by_contra hfull
    have hdown : (mqttRun (before ++ reads :: after)).up = false := by
      rw [mqttRun, List.foldl_append, List.foldl_cons]
      exact down_stays (tick_full hfull)
    rw [hup] at hdown
    cases hdown
  · intro hroom
    have hheld := @mqttHeld_run _ _ _ h [] (List.append_nil _) hroom
    refine ⟨hheld.up, ?_⟩
    rw [hheld.delivered, drain_stream h]

/-! ## A burst -/

/-- A PINGRESP. -/
def pingresp : MqttPacket := .other 0xD0 [] (by decide)

theorem mqttStream_pingresps (n : ℕ) :
    MqttStream (List.replicate n pingresp) (List.replicate n [0xD0, 0x00]).flatten := by
  induction n with
  | zero => exact .nil
  | succ n ih => exact .cons (p := pingresp) rfl (by decide) ih

theorem mqtt_ticks_deliver_one :
    (mqttRun [[[0xD0], [0x00]]]).up = true ∧ (mqttRun [[[0xD0], [0x00]]]).delivered = [] := by
  refine (mqtt_ticks_deliver_iff [pingresp] [[[0xD0], [0x00]]] (mqttStream_pingresps 1)).mpr ?_
  intro before reads after hticks
  cases before with
  | nil =>
    cases hticks
    decide
  | cons t before =>
    have hlen := congrArg List.length hticks
    simp at hlen

/-- A first read that fills the buffer drops the link. -/
theorem full_read {chunk : List UInt8} (h : chunk.length = mqttClientRxBuf) :
    (mqttRun [[chunk]]).up = false := by
  have hroom : ¬ Room mqttConnected [chunk] := by
    rw [Room, List.flatten_singleton, h]
    decide
  exact tick_full hroom

theorem length_pingresps (n : ℕ) : (List.replicate n [(0xD0 : UInt8), 0x00]).flatten.length = n * 2 := by
  induction n with
  | zero => rfl
  | succ n ih =>
    rw [List.replicate_succ, List.flatten_cons, List.length_append, ih, Nat.succ_mul, Nat.add_comm]
    rfl

/-- 512 of them at one tick drop the link, each of which is two bytes long. -/
theorem burst_drops_link :
    MqttStream (List.replicate 512 pingresp) (List.replicate 512 [0xD0, 0x00]).flatten ∧
      (mqttRun [[(List.replicate 512 [0xD0, 0x00]).flatten]]).up = false :=
  ⟨mqttStream_pingresps 512, full_read (length_pingresps 512)⟩

end OpenEVCharger
