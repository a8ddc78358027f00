import OpenEVCharger.Companion.LogJson

/-!
# Home Assistant discovery

Each discovery document is printed into 640 bytes piece by piece, with the topics and the device
id as they are. The device block is left out when it does not fit; what stands behind it is cut.
-/

namespace OpenEVCharger

open Json

/-! ## Topics -/

/-- What the discovery documents need of the adapter: the availability topic is printed when the
adapter is created, the other two are read whenever documents are sent. -/
structure AdapterCtx where
  topicPrefix : List Char
  deviceId : List Char
  availabilityTopic : List Char
  writeEnable : Bool
  rfidEnable : Bool

def topicRoom : ℕ := 159

def AdapterCtx.stateTopic (a : AdapterCtx) (field : String) : List Char :=
  (a.topicPrefix ++ '/' :: (a.deviceId ++ '/' :: field.toList)).take topicRoom

def AdapterCtx.commandTopic (a : AdapterCtx) (field : String) : List Char :=
  (a.topicPrefix ++ '/' :: (a.deviceId ++ ("/set/".toList ++ field.toList))).take topicRoom

def AdapterCtx.discoveryTopic (a : AdapterCtx) (component field : String) : List Char :=
  ("homeassistant/".toList ++ (component.toList ++ ("/delta_".toList ++ (a.deviceId ++
    '_' :: (field.toList ++ "/config".toList))))).take topicRoom

/-- `mqtt_adapter_create`. -/
def mqttAdapterCreate (topicPrefix deviceId : List Char) (writeEnable rfidEnable : Bool) :
    AdapterCtx where
  topicPrefix := topicPrefix
  deviceId := deviceId
  availabilityTopic :=
    (topicPrefix ++ '/' :: (deviceId ++ "/availability".toList)).take topicRoom
  writeEnable := writeEnable
  rfidEnable := rfidEnable

/-! ## Payloads -/

def payloadCap : ℕ := 640

/-- `snprintf` behind `n` bytes of the payload: the text, and the bytes counted. -/
def payloadPrint (p : List Char × ℕ) (piece : List Char) : List Char × ℕ :=
  ((p.1.take p.2 ++ piece).take (payloadCap - 1), p.2 + piece.length)

/-- A piece that is printed while the count is within the buffer. -/
def payloadAppend (p : List Char × ℕ) (piece : List Char) : List Char × ℕ :=
  if p.2 < payloadCap then payloadPrint p piece else p

/-- The format of `append_device_block` with its values put in. -/
def deviceBlock (a : AdapterCtx) : List (List Char) :=
  [",\"device\":\x7b\"identifiers\":[\"delta_".toList, a.deviceId,
    "\"],\"name\":\"Delta EVMU30 (".toList, a.deviceId,
    ")\",\"manufacturer\":\"Delta\",\"model\":\"EVMU30\"\x7d".toList]

/-- `append_device_block`, which counts nothing when the block does not fit. -/
def appendDeviceBlock (a : AdapterCtx) (p : List Char × ℕ) : List Char × ℕ :=
  let q := payloadPrint p (deviceBlock a).flatten
  if q.2 < payloadCap then q else (q.1, p.2)

/-- What a function that publishes a discovery document prints: the topic, the format in front of
the device block, and the pieces behind it. -/
structure DiscoveryMessage where
  topic : List Char
  first : List (List Char)
  rest : List (List Char)

/-- The payload, unless the first part does not fit. -/
def DiscoveryMessage.payload (a : AdapterCtx) (m : DiscoveryMessage) : Option (List Char) :=
  let first := payloadPrint ([], 0) m.first.flatten
  if payloadCap ≤ first.2 then none
  else some ((m.rest ++ [['\x7d']]).foldl payloadAppend (appendDeviceBlock a first)).1

def unitPiece (u : String) : List Char :=
  List.flatten [",\"unit_of_measurement\":\"".toList, u.toList, ['\x22']]

def deviceClassPiece (c : String) : List Char :=
  List.flatten [",\"device_class\":\"".toList, c.toList, ['\x22']]

def stateClassPiece (c : String) : List Char :=
  List.flatten [",\"state_class\":\"".toList, c.toList, ['\x22']]

def publishDiscovery (a : AdapterCtx) (component field name : String)
    (unit deviceClass stateClass : Option String) : DiscoveryMessage where
  topic := a.discoveryTopic component field
  first := ["\x7b\"name\":\"".toList, name.toList, "\",\"state_topic\":\"".toList,
    a.stateTopic field, "\",\"unique_id\":\"delta_".toList, a.deviceId, "_".toList, field.toList,
    "\",\"availability_topic\":\"".toList, a.availabilityTopic, "\"".toList]
  rest := unit.toList.map unitPiece ++ deviceClass.toList.map deviceClassPiece ++
    stateClass.toList.map stateClassPiece

def publishDiscoverySetCurrent (a : AdapterCtx) : DiscoveryMessage where
  topic := a.discoveryTopic "number" "set_current"
  first := ["\x7b\"name\":\"Set Current\",\"command_topic\":\"".toList,
    a.commandTopic "rated_amps", "\",\"state_topic\":\"".toList, a.stateTopic "rated_amps",
    "\",\"unique_id\":\"delta_".toList, a.deviceId,
    "_set_current\",\"availability_topic\":\"".toList, a.availabilityTopic,
    "\",\"min\":6,\"max\":30,\"step\":1,\"mode\":\"slider\",".toList,
    "\"unit_of_measurement\":\"A\",\"device_class\":\"current\",\"optimistic\":false".toList]
  rest := []

def publishDiscoveryAuthorize (a : AdapterCtx) : DiscoveryMessage where
  topic := a.discoveryTopic "switch" "authorize"
  first := ["\x7b\"name\":\"Authorize\",\"command_topic\":\"".toList, a.commandTopic "authorize",
    "\",\"state_topic\":\"".toList, a.stateTopic "authorize_state",
    "\",\"unique_id\":\"delta_".toList, a.deviceId, "_authorize\",\"availability_topic\":\"".toList,
    a.availabilityTopic, "\",\"payload_on\":\"ON\",\"payload_off\":\"OFF\",".toList,
    "\"state_on\":\"ON\",\"state_off\":\"OFF\",\"optimistic\":false".toList]
  rest := []

def publishDiscoveryLastUid (a : AdapterCtx) : DiscoveryMessage where
  topic := a.discoveryTopic "sensor" "last_uid"
  first := ["\x7b\"name\":\"Last RFID Scan\",\"state_topic\":\"".toList,
    a.stateTopic "rfid/last_uid", "\",\"unique_id\":\"delta_".toList, a.deviceId,
    "_last_uid\",\"availability_topic\":\"".toList, a.availabilityTopic,
    "\",\"icon\":\"mdi:nfc-variant\"".toList]
  rest := []

def publishDiscoveryScanEvent (a : AdapterCtx) : DiscoveryMessage where
  topic := a.discoveryTopic "event" "scan"
  first := ["\x7b\"name\":\"RFID Scan Event\",\"state_topic\":\"".toList,
    a.stateTopic "rfid/scan_event", "\",\"unique_id\":\"delta_".toList, a.deviceId,
    "_scan_event\",\"availability_topic\":\"".toList, a.availabilityTopic,
    "\",\"event_types\":[\"card_scanned\"],\"icon\":\"mdi:nfc-tap\"".toList]
  rest := []

def publishDiscoveryClearFaults (a : AdapterCtx) : DiscoveryMessage where
  topic := a.discoveryTopic "button" "clear_faults"
  first := ["\x7b\"name\":\"Clear Faults\",\"command_topic\":\"".toList,
    a.commandTopic "clear_faults", "\",\"unique_id\":\"delta_".toList, a.deviceId,
    "_clear_faults\",\"availability_topic\":\"".toList, a.availabilityTopic, "\"".toList]
  rest := []

/-- The entities that are announced. -/
inductive Entity
  | plain (component field name : String) (unit deviceClass stateClass : Option String)
  | setCurrent | authorize | lastUid | scanEvent | clearFaults

def Entity.message (a : AdapterCtx) : Entity → DiscoveryMessage
  | .plain component field name unit deviceClass stateClass =>
    publishDiscovery a component field name unit deviceClass stateClass
  | .setCurrent => publishDiscoverySetCurrent a
  | .authorize => publishDiscoveryAuthorize a
  | .lastUid => publishDiscoveryLastUid a
  | .scanEvent => publishDiscoveryScanEvent a
  | .clearFaults => publishDiscoveryClearFaults a

/-- `publish_all_discovery`. -/
def publishAllDiscovery (a : AdapterCtx) : List Entity :=
  [.plain "sensor" "voltage" "Voltage" (some "V") (some "voltage") (some "measurement"),
    .plain "sensor" "current" "Current" (some "A") (some "current") (some "measurement"),
    .plain "sensor" "power" "Power" (some "W") (some "power") (some "measurement"),
    .plain "sensor" "pilot_duty" "Pilot Duty" (some "%") none (some "measurement")] ++
  (if a.writeEnable then []
    else [.plain "sensor" "rated_amps" "Rated Amps" (some "A") (some "current") none]) ++
  [.plain "sensor" "pilot_state" "Pilot State" none none none,
    .plain "sensor" "pri_state" "Pri State" none none none,
    .plain "sensor" "user_state" "User State" none none none,
    .plain "sensor" "red_led" "Red LED" none none none,
    .plain "binary_sensor" "stm32_link_ok" "STM32 Link" none (some "connectivity") none,
    .plain "sensor" "active_faults" "Active Faults" none none none] ++
  (if a.writeEnable then [.setCurrent, .authorize, .clearFaults] else []) ++
  (if a.rfidEnable then [.lastUid, .scanEvent] else [])

/-! ## What is printed -/

variable {a : AdapterCtx} {p : List Char × ℕ} {whole piece : List Char}

/-- The count is that of the whole text as long as it fits; then nothing more is printed. -/
def Counts (p : List Char × ℕ) (whole : List Char) : Prop :=
  (p.1.take p.2 = whole ∧ p.2 = whole.length ∧ whole.length < payloadCap) ∨
    (p.1 = whole.take (payloadCap - 1) ∧ payloadCap ≤ p.2 ∧ payloadCap ≤ whole.length)

theorem counts_of_fits {text : List Char} (htext : text = whole.take (payloadCap - 1))
    (hlen : whole.length < payloadCap) : Counts (text, whole.length) whole := by
  have hfits : whole.length ≤ payloadCap - 1 := Nat.le_sub_one_of_lt hlen
  refine .inl ⟨?_, rfl, hlen⟩
  rw [htext, List.take_of_length_le hfits, List.take_length]

/-- A piece goes to the end of the text, as far as there is room. -/
theorem counts_payloadAppend (h : Counts p whole) (piece : List Char) :
    Counts (payloadAppend p piece) (whole ++ piece) ∧
      (payloadAppend p piece).1 = (whole ++ piece).take (payloadCap - 1) := by
  obtain ⟨htake, hcount, hlen⟩ | ⟨htext, hcount, hlen⟩ := h
  · rw [payloadAppend, if_pos (hcount ▸ hlen), payloadPrint, htake, hcount, ← List.length_append]
    refine ⟨?_, rfl⟩
    by_cases hfits : (whole ++ piece).length < payloadCap
    · exact counts_of_fits rfl hfits
    · exact .inr ⟨rfl, Nat.le_of_not_lt hfits, Nat.le_of_not_lt hfits⟩
  · have hcut : (whole ++ piece).take (payloadCap - 1) = whole.take (payloadCap - 1) :=
      List.take_append_of_le_length (Nat.le_trans (Nat.sub_le ..) hlen)
    rw [payloadAppend, if_neg (Nat.not_lt.mpr hcount), hcut]
    exact ⟨.inr ⟨by rw [hcut]; exact htext, hcount,
      by rw [List.length_append]; exact Nat.le_add_right_of_le hlen⟩, htext⟩

/-- The pieces behind the device block go to the end of the text, down to the brace. -/
theorem foldl_payloadAppend (h : Counts p whole) (pieces : List (List Char)) :
    ((pieces ++ [['\x7d']]).foldl payloadAppend p).1 =
      (whole ++ (pieces.flatten ++ ['\x7d'])).take (payloadCap - 1) := by
  induction pieces generalizing p whole with
  | nil => exact (counts_payloadAppend h ['\x7d']).2
  | cons piece pieces ih =>
    rw [List.cons_append, List.foldl_cons, ih (counts_payloadAppend h piece).1, List.flatten_cons,
      List.append_assoc, List.append_assoc]

/-- The device block is in the text when it fits. -/
def devicePart (a : AdapterCtx) (first : List Char) : List (List Char) :=
  if first.length + (deviceBlock a).flatten.length < payloadCap then deviceBlock a else []

theorem counts_appendDeviceBlock (h : whole.length < payloadCap) :
    Counts (appendDeviceBlock a (payloadPrint ([], 0) whole))
      (whole ++ (devicePart a whole).flatten) := by
  have hfits : whole.length ≤ payloadCap - 1 := Nat.le_sub_one_of_lt h
  have hfirst : payloadPrint ([], 0) whole = (whole, whole.length) := by
    rw [payloadPrint, List.take_zero, List.nil_append, List.take_of_length_le hfits, Nat.zero_add]
  rw [hfirst, appendDeviceBlock, devicePart]
  simp only [payloadPrint, List.take_length]
  split
  · next hroom =>
    rw [← List.length_append]
    rw [← List.length_append] at hroom
    exact counts_of_fits rfl hroom
  · rw [List.flatten_nil, List.append_nil]
    refine .inl ⟨?_, rfl, h⟩
    rw [List.take_take, Nat.min_eq_left hfits, List.take_left]

/-- The text of a document with nothing cut off. -/
def DiscoveryMessage.document (a : AdapterCtx) (m : DiscoveryMessage) : List Char :=
  m.first.flatten ++ ((devicePart a m.first.flatten).flatten ++ (m.rest.flatten ++ ['\x7d']))

/-- The payload is the document, cut to what the buffer holds. -/
theorem payload_eq {m : DiscoveryMessage} {text : List Char} (h : m.payload a = some text) :
    text = (m.document a).take (payloadCap - 1) := by
  rw [DiscoveryMessage.payload] at h
  split at h
  · cases h
  · next hfits =>
    have hlen : m.first.flatten.length < payloadCap := by
      have hcount : (payloadPrint ([], 0) m.first.flatten).2 = m.first.flatten.length :=
        Nat.zero_add _
      rw [hcount] at hfits
      exact Nat.lt_of_not_le hfits
    rw [foldl_payloadAppend (counts_appendDeviceBlock hlen), List.append_assoc] at h
    exact (Option.some.inj h).symm

/-! ## What is meant -/

def uniqueId (a : AdapterCtx) (field : String) : List Char :=
  "delta_".toList ++ (a.deviceId ++ '_' :: field.toList)

def deviceIdentifier (a : AdapterCtx) : List Char := "delta_".toList ++ (a.deviceId ++ [])

def deviceName (a : AdapterCtx) : List Char := "Delta EVMU30 (".toList ++ (a.deviceId ++ [')'])

theorem deviceIdentifier_eq (a : AdapterCtx) :
    deviceIdentifier a = "delta_".toList ++ (a.deviceId ++ []) := rfl

theorem deviceName_eq (a : AdapterCtx) :
    deviceName a = "Delta EVMU30 (".toList ++ (a.deviceId ++ [')']) := rfl

def deviceMeant (a : AdapterCtx) : Value :=
  .obj [("identifiers".toList, .arr [.str (deviceIdentifier a)]),
    ("name".toList, .str (deviceName a)), ("manufacturer".toList, .str "Delta".toList),
    ("model".toList, .str "EVMU30".toList)]

/-- The members in front of the device block. -/
def Entity.firstMeant (a : AdapterCtx) : Entity → List (List Char × Value)
  | .plain _ field name _ _ _ =>
    [("name".toList, .str name.toList), ("state_topic".toList, .str (a.stateTopic field)),
      ("unique_id".toList, .str (uniqueId a field)),
      ("availability_topic".toList, .str a.availabilityTopic)]
  | .setCurrent =>
    [("name".toList, .str "Set Current".toList),
      ("command_topic".toList, .str (a.commandTopic "rated_amps")),
      ("state_topic".toList, .str (a.stateTopic "rated_amps")),
      ("unique_id".toList, .str (uniqueId a "set_current")),
      ("availability_topic".toList, .str a.availabilityTopic),
      ("min".toList, .num (printInt 6)), ("max".toList, .num (printInt 30)),
      ("step".toList, .num (printInt 1)), ("mode".toList, .str "slider".toList),
      ("unit_of_measurement".toList, .str "A".toList),
      ("device_class".toList, .str "current".toList), ("optimistic".toList, .bool false)]
  | .authorize =>
    [("name".toList, .str "Authorize".toList),
      ("command_topic".toList, .str (a.commandTopic "authorize")),
      ("state_topic".toList, .str (a.stateTopic "authorize_state")),
      ("unique_id".toList, .str (uniqueId a "authorize")),
      ("availability_topic".toList, .str a.availabilityTopic),
      ("payload_on".toList, .str "ON".toList), ("payload_off".toList, .str "OFF".toList),
      ("state_on".toList, .str "ON".toList), ("state_off".toList, .str "OFF".toList),
      ("optimistic".toList, .bool false)]
  | .lastUid =>
    [("name".toList, .str "Last RFID Scan".toList),
      ("state_topic".toList, .str (a.stateTopic "rfid/last_uid")),
      ("unique_id".toList, .str (uniqueId a "last_uid")),
      ("availability_topic".toList, .str a.availabilityTopic),
      ("icon".toList, .str "mdi:nfc-variant".toList)]
  | .scanEvent =>
    [("name".toList, .str "RFID Scan Event".toList),
      ("state_topic".toList, .str (a.stateTopic "rfid/scan_event")),
      ("unique_id".toList, .str (uniqueId a "scan_event")),
      ("availability_topic".toList, .str a.availabilityTopic),
      ("event_types".toList, .arr [.str "card_scanned".toList]),
      ("icon".toList, .str "mdi:nfc-tap".toList)]
  | .clearFaults =>
    [("name".toList, .str "Clear Faults".toList),
      ("command_topic".toList, .str (a.commandTopic "clear_faults")),
      ("unique_id".toList, .str (uniqueId a "clear_faults")),
      ("availability_topic".toList, .str a.availabilityTopic)]

/-- The members behind the device block. -/
def Entity.restMeant : Entity → List (List Char × Value)
  | .plain _ _ _ unit deviceClass stateClass =>
    unit.toList.map (fun u => ("unit_of_measurement".toList, .str u.toList)) ++
      deviceClass.toList.map (fun c => ("device_class".toList, .str c.toList)) ++
      stateClass.toList.map (fun c => ("state_class".toList, .str c.toList))
  | _ => []

/-- The document says where the entity is found; the device, when there is room for it. -/
def Entity.meant (a : AdapterCtx) (e : Entity) : Value :=
  .obj (e.firstMeant a ++
    ((if devicePart a (e.message a).first.flatten = [] then []
      else [("device".toList, deviceMeant a)]) ++ e.restMeant))

/-- The topics that the document of an entity names. -/
def Entity.topics (a : AdapterCtx) : Entity → List (List Char)
  | .plain _ field _ _ _ _ => [a.stateTopic field]
  | .setCurrent => [a.commandTopic "rated_amps", a.stateTopic "rated_amps"]
  | .authorize => [a.commandTopic "authorize", a.stateTopic "authorize_state"]
  | .lastUid => [a.stateTopic "rfid/last_uid"]
  | .scanEvent => [a.stateTopic "rfid/scan_event"]
  | .clearFaults => [a.commandTopic "clear_faults"]

/-- The whole document fits, and the topics and the device id need no escape. -/
def Entity.Sound (a : AdapterCtx) (e : Entity) : Prop :=
  ((e.message a).document a).length < payloadCap ∧
    ∀ s ∈ a.deviceId :: a.availabilityTopic :: e.topics a, Plain s ∧ Utf8 s

/-! ### The members -/

def uniqueMember (a : AdapterCtx) (field : String) : Member :=
  .raw "unique_id".toList (uniqueId a field)

def availabilityMember (a : AdapterCtx) : Member :=
  .raw "availability_topic".toList a.availabilityTopic

def stateMember (a : AdapterCtx) (field : String) : Member :=
  .raw "state_topic".toList (a.stateTopic field)

def commandMember (a : AdapterCtx) (field : String) : Member :=
  .raw "command_topic".toList (a.commandTopic field)

def deviceMember (a : AdapterCtx) : Member :=
  .object "device".toList (.list "identifiers".toList (deviceIdentifier a))
    [.raw "name".toList (deviceName a), .raw "manufacturer".toList "Delta".toList,
      .raw "model".toList "EVMU30".toList]

def Entity.head : Entity → Member
  | .plain _ _ name _ _ _ => .raw "name".toList name.toList
  | .setCurrent => .raw "name".toList "Set Current".toList
  | .authorize => .raw "name".toList "Authorize".toList
  | .lastUid => .raw "name".toList "Last RFID Scan".toList
  | .scanEvent => .raw "name".toList "RFID Scan Event".toList
  | .clearFaults => .raw "name".toList "Clear Faults".toList

def Entity.members (a : AdapterCtx) : Entity → List Member
  | .plain _ field _ _ _ _ => [stateMember a field, uniqueMember a field, availabilityMember a]
  | .setCurrent =>
    [commandMember a "rated_amps", stateMember a "rated_amps", uniqueMember a "set_current",
      availabilityMember a, .int "min".toList 6, .int "max".toList 30, .int "step".toList 1,
      .raw "mode".toList "slider".toList, .raw "unit_of_measurement".toList "A".toList,
      .raw "device_class".toList "current".toList, .boolean "optimistic".toList false]
  | .authorize =>
    [commandMember a "authorize", stateMember a "authorize_state", uniqueMember a "authorize",
      availabilityMember a, .raw "payload_on".toList "ON".toList,
      .raw "payload_off".toList "OFF".toList, .raw "state_on".toList "ON".toList,
      .raw "state_off".toList "OFF".toList, .boolean "optimistic".toList false]
  | .lastUid =>
    [stateMember a "rfid/last_uid", uniqueMember a "last_uid", availabilityMember a,
      .raw "icon".toList "mdi:nfc-variant".toList]
  | .scanEvent =>
    [stateMember a "rfid/scan_event", uniqueMember a "scan_event", availabilityMember a,
      .list "event_types".toList "card_scanned".toList, .raw "icon".toList "mdi:nfc-tap".toList]
  | .clearFaults =>
    [commandMember a "clear_faults", uniqueMember a "clear_faults", availabilityMember a]

def unitMember (u : String) : Member := .raw "unit_of_measurement".toList u.toList

def deviceClassMember (c : String) : Member := .raw "device_class".toList c.toList

def stateClassMember (c : String) : Member := .raw "state_class".toList c.toList

def Entity.more : Entity → List Member
  | .plain _ _ _ unit deviceClass stateClass =>
    unit.toList.map unitMember ++ deviceClass.toList.map deviceClassMember ++
      stateClass.toList.map stateClassMember
  | _ => []

def deviceMembers (a : AdapterCtx) (first : List Char) : List Member :=
  if devicePart a first = [] then [] else [deviceMember a]

set_option maxRecDepth 4000 in
theorem first_eq (a : AdapterCtx) (e : Entity) :
    (e.message a).first.flatten = openText e.head (e.members a) := by
  have hsix : printInt 6 = ['6'] := rfl
  have hthirty : printInt 30 = ['3', '0'] := rfl
  have hone : printInt 1 = ['1'] := rfl
  cases e <;>
    simp only [Entity.message, publishDiscovery, publishDiscoverySetCurrent,
      publishDiscoveryAuthorize, publishDiscoveryLastUid, publishDiscoveryScanEvent,
      publishDiscoveryClearFaults, Entity.head, Entity.members, stateMember, commandMember,
      uniqueMember, availabilityMember, uniqueId, openText, nextMembers, Member.print, Member.raw,
      Member.list, Member.int, Member.number, Member.boolean, quoted, hsix, hthirty, hone,
      Bool.false_eq_true, if_false, List.flatten_cons, List.flatten_nil, List.flatMap_cons,
      List.flatMap_nil, List.append_assoc, List.cons_append, List.nil_append, List.append_nil,
      String.reduceToList]

theorem unitPiece_eq (u : String) : unitPiece u = ',' :: (unitMember u).print := rfl

theorem deviceClassPiece_eq (c : String) :
    deviceClassPiece c = ',' :: (deviceClassMember c).print := rfl

theorem stateClassPiece_eq (c : String) :
    stateClassPiece c = ',' :: (stateClassMember c).print := rfl

theorem flatten_map_pieces {α : Type} (l : List α) {piece : α → List Char} {member : α → Member}
    (h : ∀ x, piece x = ',' :: (member x).print) :
    (l.map piece).flatten = nextMembers (l.map member) := by
  induction l with
  | nil => rfl
  | cons x l ih => rw [List.map_cons, List.flatten_cons, ih, h, List.map_cons, nextMembers_cons,
      List.cons_append]

theorem rest_eq (a : AdapterCtx) (e : Entity) :
    (e.message a).rest.flatten = nextMembers e.more := by
  cases e with
  | plain component field name unit deviceClass stateClass =>
    rw [Entity.message, publishDiscovery, Entity.more, List.flatten_append, List.flatten_append,
      nextMembers_append, nextMembers_append, flatten_map_pieces _ unitPiece_eq,
      flatten_map_pieces _ deviceClassPiece_eq, flatten_map_pieces _ stateClassPiece_eq]
  | setCurrent => rfl
  | authorize => rfl
  | lastUid => rfl
  | scanEvent => rfl
  | clearFaults => rfl

set_option maxRecDepth 4000 in
theorem deviceBlock_flatten (a : AdapterCtx) :
    (deviceBlock a).flatten = nextMembers [deviceMember a] := by
  simp only [deviceBlock, deviceMember, deviceIdentifier_eq, deviceName_eq, nextMembers, Member.print,
    Member.object, Member.list, Member.raw, objText, openText, quoted, List.flatten_cons,
    List.flatten_nil, List.flatMap_cons, List.flatMap_nil, List.append_assoc, List.cons_append,
    List.nil_append, List.append_nil, String.reduceToList]

theorem devicePart_flatten (a : AdapterCtx) (first : List Char) :
    (devicePart a first).flatten = nextMembers (deviceMembers a first) := by
  rw [deviceMembers]
  split
  · next hnone =>
    rw [hnone]
    rfl
  · next hsome =>
    rw [devicePart] at hsome ⊢
    split at hsome
    · next hroom =>
      rw [if_pos hroom]
      exact deviceBlock_flatten a
    · exact absurd rfl hsome

/-- The members of the document behind the first. -/
def Entity.others (a : AdapterCtx) (e : Entity) : List Member :=
  e.members a ++ (deviceMembers a (e.message a).first.flatten ++ e.more)

theorem document_eq (a : AdapterCtx) (e : Entity) :
    (e.message a).document a = objText e.head (e.others a) := by
  rw [DiscoveryMessage.document, devicePart_flatten, rest_eq, objText, openText, Entity.others,
    nextMembers_append, nextMembers_append, first_eq, openText]
  simp only [List.cons_append, List.append_assoc]

theorem meant_eq (a : AdapterCtx) (e : Entity) : e.meant a = objValue e.head (e.others a) := by
  have hdevice : (deviceMembers a (e.message a).first.flatten).map Member.entry =
      if devicePart a (e.message a).first.flatten = [] then []
      else [("device".toList, deviceMeant a)] := by
    rw [deviceMembers]
    split
    · rfl
    · rfl
  have hfirst : e.firstMeant a = (e.head :: e.members a).map Member.entry := by
    cases e <;> rfl
  have hrest : e.restMeant = e.more.map Member.entry := by
    cases e with
    | plain component field name unit deviceClass stateClass =>
      rw [Entity.restMeant, Entity.more, List.map_append, List.map_append, List.map_map,
        List.map_map, List.map_map]
      rfl
    | setCurrent => rfl
    | authorize => rfl
    | lastUid => rfl
    | scanEvent => rfl
    | clearFaults => rfl
  rw [Entity.meant, objValue, Entity.others, List.map_cons, List.map_append, List.map_append,
    hdevice, hfirst, hrest, List.map_cons, List.cons_append]

/-! ### When they are sound -/

/-- The strings that the entity itself gives need no escape. -/
def Entity.Fixed : Entity → Prop
  | .plain _ field name unit deviceClass stateClass =>
    Bare field.toList ∧ Bare name.toList ∧
      ∀ s ∈ unit.toList ++ (deviceClass.toList ++ stateClass.toList), Bare s.toList
  | _ => True

instance (e : Entity) : Decidable e.Fixed :=
  match e with
  | .plain _ field name unit deviceClass stateClass =>
    inferInstanceAs (Decidable (Bare field.toList ∧ Bare name.toList ∧
      ∀ s ∈ unit.toList ++ (deviceClass.toList ++ stateClass.toList), Bare s.toList))
  | .setCurrent | .authorize | .lastUid | .scanEvent | .clearFaults => instDecidableTrue

theorem fixed_publishAllDiscovery (a : AdapterCtx) : ∀ e ∈ publishAllDiscovery a, e.Fixed := by
  rw [publishAllDiscovery]
  cases a.writeEnable <;> cases a.rfidEnable <;> decide +kernel

theorem sound_uniqueMember {field : String} (hfield : Bare field.toList) :
    (uniqueMember a field).Sound ↔ Plain a.deviceId ∧ Utf8 a.deviceId := by
  have hend : Bare ('_' :: field.toList) := List.forall_mem_cons.mpr ⟨by decide, hfield⟩
  rw [uniqueMember, sound_raw, uniqueId, sound_between (by decide +kernel) hend]

theorem sound_deviceMember (a : AdapterCtx) :
    (deviceMember a).Sound ↔ Plain a.deviceId ∧ Utf8 a.deviceId := by
  have hidentifier : (Plain (deviceIdentifier a) ∧ Utf8 (deviceIdentifier a)) ↔
      Plain a.deviceId ∧ Utf8 a.deviceId := by
    rw [deviceIdentifier_eq]
    exact sound_between (by decide +kernel) nofun
  have hname : (Plain (deviceName a) ∧ Utf8 (deviceName a)) ↔
      Plain a.deviceId ∧ Utf8 a.deviceId := by
    rw [deviceName_eq]
    exact sound_between (by decide +kernel) (by decide)
  have hmaker : Plain "Delta".toList ∧ Utf8 "Delta".toList := Bare.sound (by decide +kernel)
  have hmodel : Plain "EVMU30".toList ∧ Utf8 "EVMU30".toList := Bare.sound (by decide +kernel)
  simp only [deviceMember, sound_object, List.forall_mem_cons, sound_list, sound_raw, hidentifier,
    hname, hmaker, hmodel, List.not_mem_nil, false_implies, implies_true, and_true, and_self]

theorem sound_deviceMembers {first : List Char} (h : Plain a.deviceId ∧ Utf8 a.deviceId) :
    ∀ x ∈ deviceMembers a first, x.Sound := by
  rw [deviceMembers]
  split
  · exact nofun
  · exact List.forall_mem_singleton.mpr ((sound_deviceMember a).mpr h)

theorem sound_head {e : Entity} (h : e.Fixed) : e.head.Sound := by
  cases e with
  | plain component field name unit deviceClass stateClass => exact (sound_raw _).mpr h.2.1.sound
  | setCurrent => exact (sound_raw _).mpr (Bare.sound (by decide +kernel))
  | authorize => exact (sound_raw _).mpr (Bare.sound (by decide +kernel))
  | lastUid => exact (sound_raw _).mpr (Bare.sound (by decide +kernel))
  | scanEvent => exact (sound_raw _).mpr (Bare.sound (by decide +kernel))
  | clearFaults => exact (sound_raw _).mpr (Bare.sound (by decide +kernel))

theorem sound_more {e : Entity} (h : e.Fixed) : ∀ x ∈ e.more, x.Sound := by
  cases e with
  | plain component field name unit deviceClass stateClass =>
    obtain ⟨-, -, hstrings⟩ := h
    simp only [List.forall_mem_append] at hstrings
    obtain ⟨hunit, hclass, hstate⟩ := hstrings
    simp only [Entity.more, List.forall_mem_append, List.forall_mem_map]
    exact ⟨⟨fun u hu => (sound_raw _).mpr (hunit u hu).sound,
      fun c hc => (sound_raw _).mpr (hclass c hc).sound⟩,
      fun c hc => (sound_raw _).mpr (hstate c hc).sound⟩
  | setCurrent => exact nofun
  | authorize => exact nofun
  | lastUid => exact nofun
  | scanEvent => exact nofun
  | clearFaults => exact nofun

/-- The members in front of the device block name the topics and the device id. -/
theorem sound_members {e : Entity} (h : e.Fixed) :
    (∀ x ∈ e.members a, x.Sound) ↔
      ∀ s ∈ a.deviceId :: a.availabilityTopic :: e.topics a, Plain s ∧ Utf8 s := by
  cases e with
  | plain component field name unit deviceClass stateClass =>
    simp only [Entity.members, Entity.topics, List.forall_mem_cons, List.not_mem_nil,
      false_implies, implies_true, and_true, sound_uniqueMember h.1, stateMember,
      availabilityMember, sound_raw]
    tauto
  | setCurrent =>
    have hfield : Bare "set_current".toList := by decide +kernel
    have hmode : Plain "slider".toList ∧ Utf8 "slider".toList := Bare.sound (by decide +kernel)
    have hunit : Plain "A".toList ∧ Utf8 "A".toList := Bare.sound (by decide +kernel)
    have hclass : Plain "current".toList ∧ Utf8 "current".toList :=
      Bare.sound (by decide +kernel)
    simp only [Entity.members, Entity.topics, List.forall_mem_cons, List.not_mem_nil,
      false_implies, implies_true, and_true, sound_uniqueMember hfield, commandMember,
      stateMember, availabilityMember, sound_raw, sound_int, sound_boolean, hmode, hunit, hclass]
    tauto
  | authorize =>
    have hfield : Bare "authorize".toList := by decide +kernel
    have hon : Plain "ON".toList ∧ Utf8 "ON".toList := Bare.sound (by decide +kernel)
    have hoff : Plain "OFF".toList ∧ Utf8 "OFF".toList := Bare.sound (by decide +kernel)
    simp only [Entity.members, Entity.topics, List.forall_mem_cons, List.not_mem_nil,
      false_implies, implies_true, and_true, sound_uniqueMember hfield, commandMember,
      stateMember, availabilityMember, sound_raw, sound_boolean, hon, hoff]
    tauto
  | lastUid =>
    have hfield : Bare "last_uid".toList := by decide +kernel
    have hicon : Plain "mdi:nfc-variant".toList ∧ Utf8 "mdi:nfc-variant".toList :=
      Bare.sound (by decide +kernel)
    simp only [Entity.members, Entity.topics, List.forall_mem_cons, List.not_mem_nil,
      false_implies, implies_true, and_true, sound_uniqueMember hfield, stateMember,
      availabilityMember, sound_raw, hicon]
    tauto
  | scanEvent =>
    have hfield : Bare "scan_event".toList := by decide +kernel
    have htypes : Plain "card_scanned".toList ∧ Utf8 "card_scanned".toList :=
      Bare.sound (by decide +kernel)
    have hicon : Plain "mdi:nfc-tap".toList ∧ Utf8 "mdi:nfc-tap".toList :=
      Bare.sound (by decide +kernel)
    simp only [Entity.members, Entity.topics, List.forall_mem_cons, List.not_mem_nil,
      false_implies, implies_true, and_true, sound_uniqueMember hfield, stateMember,
      availabilityMember, sound_raw, sound_list, htypes, hicon]
    tauto
  | clearFaults =>
    have hfield : Bare "clear_faults".toList := by decide +kernel
    simp only [Entity.members, Entity.topics, List.forall_mem_cons, List.not_mem_nil,
      false_implies, implies_true, and_true, sound_uniqueMember hfield, commandMember,
      availabilityMember, sound_raw]
    tauto

theorem text_payload_iff {e : Entity} {text : List Char} (h : e.Fixed)
    (hsent : (e.message a).payload a = some text) : Text text (e.meant a) ↔ e.Sound a := by
  rw [payload_eq hsent, document_eq, meant_eq, text_take_iff, Entity.Sound, document_eq]
  refine and_congr (Nat.le_sub_one_iff_lt (by decide)) ?_
  rw [Entity.others, List.forall_mem_cons, List.forall_mem_append, List.forall_mem_append,
    and_iff_right (sound_head h), sound_members h, and_iff_left_iff_imp]
  intro hstrings
  exact ⟨sound_deviceMembers (hstrings _ (List.mem_cons_self ..)), sound_more h⟩

end OpenEVCharger
