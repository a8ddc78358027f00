import OpenEVCharger.Companion.MqttClient

/-!
# Encoding a PUBLISH

The encoder lays a packet out five bytes into its buffer, as if its remaining length always took
four bytes, and moves it to its place at the end. So it wants room for the longest header, also
where the header is shorter.
-/

namespace OpenEVCharger

/-- `put_str`: a string behind its length. -/
def putStr (room : ℕ) (s : List UInt8) : Option (List UInt8) :=
  if 0xFFFF < s.length ∨ room < s.length + 2 then none
  else some (UInt8.ofNat (s.length / 256) :: UInt8.ofNat (s.length % 256) :: s)

/-- `finalize`: the header in front of what has been laid out. -/
def finalize (cap : ℕ) (typeFlags : UInt8) (payload : List UInt8) : Option (List UInt8) :=
  match mqttEncodeRemlen payload.length with
  | none => none
  | some rl =>
    if cap < 1 + rl.length + payload.length then none else some (typeFlags :: (rl ++ payload))

def publishFirst (retain : Bool) : UInt8 := if retain then 0x31 else 0x30

/-- `mqtt_encode_publish` into `cap` bytes, `none` where it returns -1. -/
def mqttEncodePublish (cap : ℕ) (topic payload : List UInt8) (retain : Bool) :
    Option (List UInt8) :=
  if cap < 8 then none
  else
    let room := cap - 5
    match putStr room topic with
    | none => none
    | some p =>
      if room - p.length < payload.length then none
      else finalize cap (publishFirst retain) (p ++ payload)

/-! ## The packet -/

theorem publishFirst_bits (retain : Bool) : publishFirst retain &&& 0xF6 = 0x30 := by
  cases retain <;> decide

/-- The complete packet; none has a topic, or a body, that is too long for its length field. -/
def publishPacket (topic payload : List UInt8) (retain : Bool) : Option (List UInt8) :=
  if htopic : topic.length < 65536 then
    (MqttPacket.publish (publishFirst retain) ⟨topic, payload⟩ (publishFirst_bits retain)
      htopic).bytes
  else none

/-- The bytes that a remaining length takes. -/
def remlenBytes (value : ℕ) : ℕ :=
  if value < 128 then 1 else if value < 16384 then 2 else if value < 2097152 then 3 else 4

/-- The packet fits, and the encoder has not the room that it wants. -/
def TightFit (cap : ℕ) (topic payload : List UInt8) : Prop :=
  let body := 2 + topic.length + payload.length
  topic.length < 65536 ∧ body < 2 ^ 28 ∧ 1 + remlenBytes body + body ≤ cap ∧
    (cap < 8 ∨ cap < 5 + body)

/-- An error is returned exactly if the complete packet is longer than the buffer, and else the
packet is decoded as what it was encoded from. -/
def PublishCodes (cap : ℕ) (topic payload : List UInt8) (retain : Bool) : Prop :=
  (mqttEncodePublish cap topic payload retain = none ↔
      ∀ bs, publishPacket topic payload retain = some bs → cap < bs.length) ∧
    ∀ bs, mqttEncodePublish cap topic payload retain = some bs →
      mqttDecodePublish bs = some ⟨topic, payload⟩

/-- No byte that ends a remaining length among the first four. -/
def MalformedRemlen (bs : List UInt8) : Prop := ∀ b ∈ bs.take 4, b &&& 0x80 ≠ 0

variable {cap n value : ℕ} {topic payload bs rl : List UInt8} {retain : Bool}

/-! ## The remaining length -/

theorem length_encodeRemlenFrom (h : value < 2 ^ 28) :
    (encodeRemlenFrom 4 value).length = remlenBytes value := by
  simp only [encodeRemlenFrom, remlenBytes]
  split_ifs <;> simp only [List.length_cons, List.length_nil] <;> omega

theorem remlenBytes_le (value : ℕ) : remlenBytes value ≤ 4 := by
  rw [remlenBytes]
  split_ifs <;> omega

theorem mqttEncodeRemlen_of_lt (h : value < 2 ^ 28) :
    mqttEncodeRemlen value = some (encodeRemlenFrom 4 value) :=
  if_neg (by omega)

theorem mqttEncodeRemlen_of_le (h : 2 ^ 28 ≤ value) : mqttEncodeRemlen value = none :=
  if_pos (by omega)

theorem decodeRemlenFrom_eq_none_iff {i shift value : ℕ} :
    decodeRemlenFrom n i shift value bs = none ↔ ∀ b ∈ bs.take n, b &&& 0x80 ≠ 0 := by
  induction n generalizing i shift value bs with
  | zero => simp [decodeRemlenFrom]
  | succ n ih =>
    cases bs with
    | nil => simp [decodeRemlenFrom]
    | cons b bs =>
      rw [decodeRemlenFrom, List.take_succ_cons, List.forall_mem_cons]
      split
      · next hlast => simp [hlast]
      · next hgoes => simp [hgoes, ih]

/-! ## The encoder -/

/-- What is laid out: the topic behind its length, and the payload. -/
def publishBody (topic payload : List UInt8) : List UInt8 :=
  UInt8.ofNat (topic.length / 256) :: UInt8.ofNat (topic.length % 256) :: (topic ++ payload)

theorem length_publishBody :
    (publishBody topic payload).length = 2 + topic.length + payload.length := by
  rw [publishBody, List.length_cons, List.length_cons, List.length_append]
  omega

theorem publishPacket_eq (htopic : topic.length < 65536) :
    publishPacket topic payload retain =
      (mqttEncodeRemlen (2 + topic.length + payload.length)).map fun rl =>
        publishFirst retain :: (rl ++ publishBody topic payload) := by
  rw [publishPacket, dif_pos htopic, ← length_publishBody]
  rfl

theorem publishPacket_length (h : publishPacket topic payload retain = some bs) :
    topic.length < 65536 ∧ 2 + topic.length + payload.length < 2 ^ 28 ∧
      bs.length = 1 + remlenBytes (2 + topic.length + payload.length) +
        (2 + topic.length + payload.length) := by
  by_cases htopic : topic.length < 65536
  · rw [publishPacket_eq htopic] at h
    by_cases hbody : 2 + topic.length + payload.length < 2 ^ 28
    · rw [mqttEncodeRemlen_of_lt hbody] at h
      cases h
      refine ⟨htopic, hbody, ?_⟩
      rw [List.length_cons, List.length_append, length_encodeRemlenFrom hbody, length_publishBody]
      omega
    · rw [mqttEncodeRemlen_of_le (Nat.le_of_not_lt hbody)] at h
      nomatch h
  · rw [publishPacket, dif_neg htopic] at h
    nomatch h

theorem publishPacket_isSome (htopic : topic.length < 65536)
    (hbody : 2 + topic.length + payload.length < 2 ^ 28) (retain : Bool) :
    ∃ bs, publishPacket topic payload retain = some bs := by
  rw [publishPacket_eq htopic, mqttEncodeRemlen_of_lt hbody]
  exact ⟨_, rfl⟩

/-- The header never takes more than the five bytes left for it. -/
theorem finalize_eq (hroom : 5 + (2 + topic.length + payload.length) ≤ cap)
    (htopic : topic.length < 65536) :
    finalize cap (publishFirst retain) (publishBody topic payload) =
      publishPacket topic payload retain := by
  rw [publishPacket_eq htopic, finalize, length_publishBody]
  by_cases hbody : 2 + topic.length + payload.length < 2 ^ 28
  · rw [mqttEncodeRemlen_of_lt hbody]
    dsimp only
    have hle := remlenBytes_le (2 + topic.length + payload.length)
    rw [length_encodeRemlenFrom hbody, if_neg (by omega)]
    rfl
  · rw [mqttEncodeRemlen_of_le (Nat.le_of_not_lt hbody)]
    rfl

/-- The encoder gives the packet where it has the room that it wants. -/
theorem mqttEncodePublish_eq (cap : ℕ) (topic payload : List UInt8) (retain : Bool) :
    mqttEncodePublish cap topic payload retain =
      if 8 ≤ cap ∧ 5 + (2 + topic.length + payload.length) ≤ cap then
        publishPacket topic payload retain
      else none := by
  rw [mqttEncodePublish]
  by_cases hcap : cap < 8
  · rw [if_pos hcap, if_neg (by omega)]
  rw [if_neg hcap]
  dsimp only
  rw [putStr]
  by_cases htopic : topic.length < 65536
  · by_cases hroom : cap - 5 < topic.length + 2
    · rw [if_pos (.inr hroom), if_neg (by omega)]
    · rw [if_neg (by omega)]
      dsimp only
      rw [List.length_cons, List.length_cons]
      by_cases hpayload : cap - 5 - (topic.length + 1 + 1) < payload.length
      · rw [if_pos hpayload, if_neg (by omega)]
      · have hroom' : 5 + (2 + topic.length + payload.length) ≤ cap := by omega
        rw [if_neg hpayload, if_pos (by omega), ← finalize_eq hroom' htopic]
        rfl
  · rw [if_pos (.inl (by omega)), publishPacket, dif_neg htopic, ite_self]

theorem mqttDecodePublish_packet (h : publishPacket topic payload retain = some bs) :
    mqttDecodePublish bs = some ⟨topic, payload⟩ := by
  have htopic := (publishPacket_length h).1
  rw [publishPacket, dif_pos htopic] at h
  exact mqttDecodePublish_bytes (publishFirst_bits retain) htopic h

theorem publishCodes_iff (cap : ℕ) (topic payload : List UInt8) (retain : Bool) :
    PublishCodes cap topic payload retain ↔ ¬ TightFit cap topic payload := by
  have hdecode : ∀ bs, mqttEncodePublish cap topic payload retain = some bs →
      mqttDecodePublish bs = some ⟨topic, payload⟩ := by
    intro bs hbs
    rw [mqttEncodePublish_eq] at hbs
    split at hbs
    · exact mqttDecodePublish_packet hbs
    · nomatch hbs
  rw [PublishCodes, and_iff_left hdecode, mqttEncodePublish_eq]
  constructor
  · rintro hexact ⟨htopic, hbody, hfits, htight⟩
    obtain ⟨bs, hbs⟩ := publishPacket_isSome htopic hbody retain
    have hlong := hexact.mp (if_neg (by omega)) bs hbs
    have hlen := (publishPacket_length hbs).2.2
    omega
  · intro hloose
    split
    · next hroom =>
      constructor
      · intro hnone bs hbs
        rw [hnone] at hbs
        nomatch hbs
      · intro hlong
        cases hbs : publishPacket topic payload retain with
        | none => rfl
        | some bs =>
          obtain ⟨-, -, hlen⟩ := publishPacket_length hbs
          have hle := remlenBytes_le (2 + topic.length + payload.length)
          have := hlong bs hbs
          omega
    · next hroom =>
      refine iff_of_true rfl fun bs hbs => ?_
      obtain ⟨htopic, hbody, hlen⟩ := publishPacket_length hbs
      by_contra hfits
      exact hloose ⟨htopic, hbody, by omega, by omega⟩

/-- The codec there and back: remaining lengths, PUBLISH packets unless they fit too tightly, and
malformed remaining lengths. -/
theorem mqtt_codec_iff (cap : ℕ) (topic payload : List UInt8) (retain : Bool) :
    (∀ value < 2 ^ 28, ∃ out, mqttEncodeRemlen value = some out ∧
        ∀ more, mqttDecodeRemlen (out ++ more) = some (value, out.length)) ∧
      (∀ bs, mqttDecodeRemlen bs = none ↔ MalformedRemlen bs) ∧
      (PublishCodes cap topic payload retain ↔ ¬ TightFit cap topic payload) := by
  refine ⟨?_, fun bs => decodeRemlenFrom_eq_none_iff, publishCodes_iff cap topic payload retain⟩
  intro value hvalue
  have hout := mqttEncodeRemlen_of_lt hvalue
  exact ⟨_, hout, fun more => mqttDecodeRemlen_encode hout⟩

/-- A packet of 7 bytes is refused by a buffer of 7. -/
theorem exact_fit_refused :
    ¬ ∀ (cap : ℕ) (topic payload : List UInt8) (retain : Bool),
      PublishCodes cap topic payload retain := by
  intro hall
  have htight : TightFit 7 [0x61, 0x2F, 0x62] [] := by
    refine ⟨by decide, by decide, by decide, by decide⟩
  exact (publishCodes_iff 7 [0x61, 0x2F, 0x62] [] false).mp (hall _ _ _ _) htight

end OpenEVCharger
