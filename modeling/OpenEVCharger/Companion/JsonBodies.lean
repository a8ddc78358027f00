import OpenEVCharger.Companion.CardReader
import OpenEVCharger.Companion.ChargerState
import OpenEVCharger.Companion.ConfigJson
import OpenEVCharger.Companion.WebRequest
import OpenEVCharger.Lib.JsonDoc

/-!
# The JSON bodies of the web server

The state is printed with the device id and the last UID as they are, the configuration with
every string escaped, and the log with its lines escaped but not the path of the file.
-/

namespace OpenEVCharger

open Json

/-! ## Escaped strings -/

section Escaped

variable {c : Char} {s rest : List Char} {owed : List (ℕ × ℕ)}

/-- The ways in which `json_quote` prints a byte. -/
theorem jsonEscape_cases (c : Char) :
    (∃ e, jsonEscape c = ['\\', e] ∧ e ≠ 'u' ∧ e.toNat < 0x80 ∧ simpleEscape e = some c ∧
        c.toNat < 0x80) ∨
      (c.toNat < 0x20 ∧ jsonEscape c =
        ['\\', 'u', '0', '0', Nat.digitChar (c.toNat / 16), Nat.digitChar (c.toNat % 16)]) ∨
      (jsonEscape c = [c] ∧ c ≠ '\x22' ∧ c ≠ '\\' ∧ 0x20 ≤ c.toNat) := by
  rw [jsonEscape]
  split_ifs with hquote hback hnewline hreturn htab hlow
  · subst hquote
    exact .inl ⟨'\x22', by decide⟩
  · subst hback
    exact .inl ⟨'\\', by decide⟩
  · subst hnewline
    exact .inl ⟨'n', by decide⟩
  · subst hreturn
    exact .inl ⟨'r', by decide⟩
  · subst htab
    exact .inl ⟨'t', by decide⟩
  · exact .inr (.inl ⟨hlow, rfl⟩)
  · exact .inr (.inr ⟨rfl, hquote, hback, Nat.not_lt.mp hlow⟩)

theorem digitChar_ascii : ∀ d < 16, (Nat.digitChar d).toNat < 0x80 := by decide

/-- What is printed for a byte is read as that byte. -/
theorem scanString_jsonEscape (c : Char) (rest : List Char) :
    scanString .plain (jsonEscape c ++ rest) =
      (scanString .plain rest).map fun p => (c :: p.1, p.2) := by
  obtain ⟨e, he, hne, -, hsimple, -⟩ | ⟨hlow, he⟩ | ⟨he, hc⟩ := jsonEscape_cases c
  · have hback : stringStep .plain '\\' = some (.go .escape []) := rfl
    have hescape : stringStep .escape e = some (.go .plain [c]) := by
      rw [stringStep, if_neg hne, hsimple]
      rfl
    rw [he, List.cons_append, List.singleton_append, scanString_cons_silent hback,
      scanString_cons_go hescape]
    rfl
  · have hhigh : c.toNat / 16 < 16 := by omega
    have hlast : c.toNat % 16 < 16 := Nat.mod_lt _ (by decide)
    have hvalue : 16 * (c.toNat / 16) + c.toNat % 16 = c.toNat := Nat.div_add_mod ..
    have hfour : stringStep (.hex 2 0 none) (Nat.digitChar (c.toNat / 16)) =
        some (.go (.hex 1 (c.toNat / 16) none) []) := by
      simp only [stringStep, hexNibble_digitChar _ hhigh, Nat.mul_zero, Nat.zero_add]
      rfl
    have hunit : stringStep (.hex 1 (c.toNat / 16) none) (Nat.digitChar (c.toNat % 16)) =
        some (.go .plain [c]) := by
      simp only [stringStep, hexNibble_digitChar _ hlast, hvalue, decodeUnit]
      rw [if_neg (by decide), if_neg (by omega), if_neg (by omega), utf8Encode,
        if_pos (by omega), Char.ofNat_toNat]
    have hu : stringStep .escape 'u' = some (.go (.hex 4 0 none) []) := rfl
    have hone : stringStep (.hex 4 0 none) '0' = some (.go (.hex 3 0 none) []) := rfl
    have htwo : stringStep (.hex 3 0 none) '0' = some (.go (.hex 2 0 none) []) := rfl
    simp only [he, List.cons_append, List.nil_append]
    rw [scanString_cons_silent (show stringStep .plain '\\' = some (.go .escape []) from rfl),
      scanString_cons_silent hu, scanString_cons_silent hone, scanString_cons_silent htwo,
      scanString_cons_silent hfour, scanString_cons_go hunit]
    rfl
  · rw [he, List.singleton_append, scanString_cons_go (stringStep_plain hc)]
    rfl

theorem scanString_escaped (s rest : List Char) :
    scanString .plain (s.flatMap jsonEscape ++ '\x22' :: rest) = some (s, rest) := by
  induction s with
  | nil => exact scanString_quote rest
  | cons c s ih =>
    rw [List.flatMap_cons, List.append_assoc, scanString_jsonEscape, ih]
    rfl

theorem jsonEscape_ascii (hc : c.toNat < 0x80) :
    ∃ b bs, jsonEscape c = b :: bs ∧ b.toNat < 0x80 ∧ ∀ d ∈ bs, d.toNat < 0x80 := by
  obtain ⟨e, he, -, hascii, -⟩ | ⟨hlow, he⟩ | ⟨he, -⟩ := jsonEscape_cases c
  · exact ⟨'\\', [e], he, by decide, List.forall_mem_singleton.mpr hascii⟩
  · refine ⟨'\\', _, he, by decide, ?_⟩
    simp only [List.forall_mem_cons, List.not_mem_nil, false_implies, implies_true, and_true]
    exact ⟨by decide, by decide, by decide, digitChar_ascii _ (by omega),
      digitChar_ascii _ (Nat.mod_lt _ (by decide))⟩
  · exact ⟨c, [], he, hc, nofun⟩

theorem jsonEscape_high (hc : 0x80 ≤ c.toNat) : jsonEscape c = [c] := by
  obtain ⟨e, -, -, -, -, hlow⟩ | ⟨hlow, -⟩ | ⟨he, -⟩ := jsonEscape_cases c
  · omega
  · omega
  · exact he

/-- Escaping keeps the characters beyond ASCII as they are. -/
theorem utf8From_escaped (howed : ∀ p ∈ owed, 0x80 ≤ p.1) :
    utf8From owed (s.flatMap jsonEscape) = utf8From owed s := by
  induction s generalizing owed with
  | nil => rfl
  | cons c s ih =>
    rw [List.flatMap_cons]
    by_cases hc : c.toNat < 0x80
    · obtain ⟨b, bs, he, hb, hbs⟩ := jsonEscape_ascii hc
      have hnone : ∀ p ∈ ([] : List (ℕ × ℕ)), 0x80 ≤ p.1 := nofun
      have hleft := utf8From_append_cons (a := []) (b := bs ++ s.flatMap jsonEscape) hb howed
      have hright := utf8From_append_cons (a := []) (b := s) hc howed
      have htail : utf8From [] (bs ++ s.flatMap jsonEscape) = utf8From [] s :=
        (Bool.eq_iff_iff.mpr (utf8_ascii_append hbs)).trans (ih hnone)
      rw [List.nil_append] at hleft hright
      rw [he, List.cons_append, hleft, hright, htail]
    · rw [jsonEscape_high (Nat.le_of_not_lt hc), List.singleton_append]
      cases owed with
      | nil =>
        rw [utf8From_start, utf8From_start]
        cases howed' : utf8Owed c.toNat with
        | none => rfl
        | some owed => exact ih (le_of_utf8Owed howed')
      | cons p owed =>
        obtain ⟨lo, hi⟩ := p
        rw [utf8From_owed, utf8From_owed, ih fun q hq => howed q (List.mem_cons_of_mem _ hq)]

theorem utf8_jsonQuoted : Utf8 (jsonQuoted s) ↔ Utf8 s := by
  have hescaped : utf8From [] (s.flatMap jsonEscape) = utf8From [] s := utf8From_escaped nofun
  rw [jsonQuoted, utf8_cons (by decide), utf8_append_cons (by decide), Utf8, Utf8, hescaped]
  exact and_iff_left rfl

/-- A string that `json_quote` prints. -/
def escapedMember (key s : List Char) (hkey : Bare key := by decide +kernel) : Member where
  key := key
  text := jsonQuoted s
  value := .str s
  ok := True
  bare := hkey
  shows_value := shows_of_reads (reads_string (scanString_escaped s))

@[simp] theorem sound_escapedMember {key : List Char} (hkey : Bare key) :
    (escapedMember key s hkey).Sound ↔ Utf8 s :=
  (and_iff_right trivial).trans utf8_jsonQuoted

end Escaped

/-! ## The configuration -/

section Configuration

variable {c : Config}

/-- What the configuration document says: the passwords are masked. -/
def configMeant (c : Config) : Value :=
  .obj [("broker_host".toList, .str (c.str .brokerHost).chars),
    ("broker_port".toList, .num (printInt (c.num .brokerPort))),
    ("broker_user".toList, .str (c.str .brokerUser).chars),
    ("broker_pass".toList, .str (maskPw (c.str .brokerPass).chars)),
    ("topic_prefix".toList, .str (c.str .topicPrefix).chars),
    ("device_id".toList, .str (c.str .deviceId).chars),
    ("poll_hz".toList, .num (printInt (c.num .pollHz))),
    ("write_enable".toList, .bool (c.flag .writeEnable)),
    ("web_enable".toList, .bool (c.flag .webEnable)),
    ("web_port".toList, .num (printInt (c.num .webPort))),
    ("web_user".toList, .str (c.str .webUser).chars),
    ("web_pass".toList, .str (maskPw (c.str .webPass).chars)),
    ("log_level".toList, .str (c.str .logLevel).chars),
    ("log_path".toList, .str (c.str .logPath).chars),
    ("rfid_enable".toList, .bool (c.flag .rfidEnable)),
    ("rfid_port".toList, .str (c.str .rfidPort).chars),
    ("meter_v_scale".toList, .num (printFixed 3 c.meterVScale))]

def configHead (c : Config) : Member :=
  escapedMember "broker_host".toList (c.str .brokerHost).chars

def configMembers (c : Config) : List Member :=
  [.int "broker_port".toList (c.num .brokerPort),
    escapedMember "broker_user".toList (c.str .brokerUser).chars,
    escapedMember "broker_pass".toList (maskPw (c.str .brokerPass).chars),
    escapedMember "topic_prefix".toList (c.str .topicPrefix).chars,
    escapedMember "device_id".toList (c.str .deviceId).chars,
    .int "poll_hz".toList (c.num .pollHz),
    .boolean "write_enable".toList (c.flag .writeEnable),
    .boolean "web_enable".toList (c.flag .webEnable),
    .int "web_port".toList (c.num .webPort),
    escapedMember "web_user".toList (c.str .webUser).chars,
    escapedMember "web_pass".toList (maskPw (c.str .webPass).chars),
    escapedMember "log_level".toList (c.str .logLevel).chars,
    escapedMember "log_path".toList (c.str .logPath).chars,
    .boolean "rfid_enable".toList (c.flag .rfidEnable),
    escapedMember "rfid_port".toList (c.str .rfidPort).chars,
    .fixed "meter_v_scale".toList 3 c.meterVScale]

theorem configMeant_eq (c : Config) : configMeant c = objValue (configHead c) (configMembers c) := rfl

set_option maxRecDepth 4000 in
theorem configDocument_eq (c : Config) :
    configDocument c = objText (configHead c) (configMembers c) := by
  simp only [configDocument, configAppends, JsonAppend.text, List.flatMap_cons, List.flatMap_nil,
    objText, openText, configHead, configMembers, nextMembers, Member.print, quoted, escapedMember,
    Member.int, Member.fixed, Member.number, Member.boolean, printBool,
    List.append_assoc, List.cons_append, List.nil_append, List.append_nil, String.reduceToList]

/-- The strings that the configuration document shows as they are. -/
def ConfigUtf8 (c : Config) : Prop :=
  ∀ k : StrKey, k ≠ .brokerPass → k ≠ .webPass → Utf8 (c.str k).chars

theorem utf8_maskPw (s : List Char) : Utf8 (maskPw s) := by
  rw [maskPw]
  split
  · rfl
  · exact utf8_ascii (Bare.ascii (show Bare "********".toList by decide +kernel))

theorem text_configDocument_iff (c : Config) :
    Text (configDocument c) (configMeant c) ↔ ConfigUtf8 c := by
  rw [configDocument_eq, configMeant_eq, text_objText_iff]
  simp only [configHead, configMembers, List.forall_mem_cons, sound_escapedMember, sound_int,
    sound_fixed, sound_boolean, List.not_mem_nil, false_implies, implies_true, utf8_maskPw,
    true_and, and_true]
  constructor
  · rintro ⟨hhost, huser, hprefix, hid, hwebUser, hlevel, hpath, hport⟩ k hbroker hweb
    cases k
    case brokerPass => exact absurd rfl hbroker
    case webPass => exact absurd rfl hweb
    all_goals assumption
  · intro h
    refine ⟨h _ ?_ ?_, h _ ?_ ?_, h _ ?_ ?_, h _ ?_ ?_, h _ ?_ ?_, h _ ?_ ?_, h _ ?_ ?_, h _ ?_ ?_⟩
    all_goals decide

end Configuration

/-! ## The state -/

section State

/-- What the MQTT adapter keeps of the last card: its UID, empty before the first, and the
milliseconds since. -/
structure LastScan where
  uid : List UInt8
  msAgo : ℤ

/-- The text in `last_uid`, which has 32 bytes. -/
def LastScan.text (scan : LastScan) : List Char := (scan.uid.flatMap byteHex).take 31

/-- The faults as the state document lists them. -/
def webFaults (bits : ℕ) : List Char :=
  if bits = 0 then "none".toList
  else (joinFaults bits 384 (List.zip (List.range 32) faultNames) "").1.toList

/-- The state that the web server reads: from the segment when it is attached. -/
def webState (ws : WebServer) : ChargerState :=
  match ws.shm.bind ShmemSegment.base with
  | none => chargerStateInit
  | some base => chargerStateRead base

def webFaultRaw (ws : WebServer) : UInt8 :=
  match ws.shm.bind ShmemSegment.base with
  | none => 0
  | some base => base offStm32Fault

def webOnline (ws : WebServer) : Bool :=
  match ws.shm.bind ShmemSegment.base with
  | none => false
  | some base => (chargerStateRead base).stm32LinkOk

def availability (ws : WebServer) : List Char :=
  if webOnline ws then "online".toList else "offline".toList

def webDeviceId (ws : WebServer) : List Char :=
  if (ws.cfg.str .deviceId).chars = [] then "evmu30".toList else (ws.cfg.str .deviceId).chars

/-- The format of `build_state_json` with its values put in. -/
def statePieces (ws : WebServer) (scan : LastScan) : List (List Char) :=
  let cs := webState ws
  ["\x7b\"availability\":\"".toList, availability ws,
    "\",\"device_id\":\"".toList, webDeviceId ws,
    "\",\"voltage\":".toList, printFixed 2 cs.voltageV,
    ",\"current\":".toList, printFixed 2 cs.currentA,
    ",\"power\":".toList, printInt (roundHalfEven cs.powerW),
    ",\"pilot_duty\":".toList, printInt cs.pilotDutyPct.toNat,
    ",\"rated_amps\":".toList, printInt cs.ratedAmps.toNat,
    ",\"pilot_state\":\"".toList, (pilotStateStr cs.pilotState).toList,
    "\",\"pri_state\":".toList, printInt cs.priState.toNat,
    ",\"user_state\":".toList, printInt cs.userState.toNat,
    ",\"red_led\":".toList, printInt cs.redLed.toNat,
    ",\"stm32_link_ok\":".toList, printBool cs.stm32LinkOk,
    ",\"stm32_fault_raw\":".toList, printInt (webFaultRaw ws).toNat,
    ",\"fault_bits\":".toList, printInt cs.faultBits,
    ",\"active_faults\":\"".toList, webFaults cs.faultBits,
    "\",\"last_uid\":\"".toList, scan.text, "\"".toList]

/-- The piece of `build_state_json` for a card that was seen. -/
def putLastScan (cap : ℕ) (scan : LastScan) (out : List Char) : Option (List Char) :=
  if scan.text = [] then some out
  else jsonPut cap out (",\"last_scan_ms_ago\":".toList ++ printInt scan.msAgo)

/-- `build_state_json` into `cap` bytes; `none` is its 0. -/
def buildStateJson (cap : ℕ) (ws : WebServer) (scan : LastScan) : Option (List Char) := do
  let out ← jsonPut cap [] (statePieces ws scan).flatten
  let out ← putLastScan cap scan out
  jsonPut cap out ['\x7d']

/-- What the state document says. -/
def stateMeant (ws : WebServer) (scan : LastScan) : Value :=
  let cs := webState ws
  .obj ([("availability".toList, .str (availability ws)),
    ("device_id".toList, .str (webDeviceId ws)),
    ("voltage".toList, .num (printFixed 2 cs.voltageV)),
    ("current".toList, .num (printFixed 2 cs.currentA)),
    ("power".toList, .num (printInt (roundHalfEven cs.powerW))),
    ("pilot_duty".toList, .num (printInt cs.pilotDutyPct.toNat)),
    ("rated_amps".toList, .num (printInt cs.ratedAmps.toNat)),
    ("pilot_state".toList, .str (pilotStateStr cs.pilotState).toList),
    ("pri_state".toList, .num (printInt cs.priState.toNat)),
    ("user_state".toList, .num (printInt cs.userState.toNat)),
    ("red_led".toList, .num (printInt cs.redLed.toNat)),
    ("stm32_link_ok".toList, .bool cs.stm32LinkOk),
    ("stm32_fault_raw".toList, .num (printInt (webFaultRaw ws).toNat)),
    ("fault_bits".toList, .num (printInt cs.faultBits)),
    ("active_faults".toList, .str (webFaults cs.faultBits)),
    ("last_uid".toList, .str scan.text)] ++
    if scan.text = [] then [] else [("last_scan_ms_ago".toList, .num (printInt scan.msAgo))])

def stateHead (ws : WebServer) : Member := .raw "availability".toList (availability ws)

def stateMembers (ws : WebServer) (scan : LastScan) : List Member :=
  let cs := webState ws
  [.raw "device_id".toList (webDeviceId ws),
    .fixed "voltage".toList 2 cs.voltageV,
    .fixed "current".toList 2 cs.currentA,
    .int "power".toList (roundHalfEven cs.powerW),
    .int "pilot_duty".toList cs.pilotDutyPct.toNat,
    .int "rated_amps".toList cs.ratedAmps.toNat,
    .raw "pilot_state".toList (pilotStateStr cs.pilotState).toList,
    .int "pri_state".toList cs.priState.toNat,
    .int "user_state".toList cs.userState.toNat,
    .int "red_led".toList cs.redLed.toNat,
    .boolean "stm32_link_ok".toList cs.stm32LinkOk,
    .int "stm32_fault_raw".toList (webFaultRaw ws).toNat,
    .int "fault_bits".toList cs.faultBits,
    .raw "active_faults".toList (webFaults cs.faultBits),
    .raw "last_uid".toList scan.text]

/-- The time since the last scan, when there was one. -/
def scanMembersOf (scan : LastScan) : List Member :=
  if scan.text = [] then [] else [.int "last_scan_ms_ago".toList scan.msAgo]

variable {ws : WebServer} {scan : LastScan} {cap : ℕ} {text : List Char}

theorem stateMeant_eq (ws : WebServer) (scan : LastScan) :
    stateMeant ws scan = objValue (stateHead ws) (stateMembers ws scan ++ scanMembersOf scan) := by
  have hscan : (scanMembersOf scan).map Member.entry =
      if scan.text = [] then []
      else [("last_scan_ms_ago".toList, .num (printInt scan.msAgo))] := by
    rw [scanMembersOf]
    split
    · rfl
    · rfl
  rw [objValue, List.map_cons, List.map_append, hscan]
  rfl

set_option maxRecDepth 4000 in
theorem statePieces_flatten (ws : WebServer) (scan : LastScan) :
    (statePieces ws scan).flatten = openText (stateHead ws) (stateMembers ws scan) := by
  simp only [statePieces, openText, stateHead, stateMembers, nextMembers, Member.print, quoted,
    Member.raw, Member.int, Member.fixed, Member.number, Member.boolean, printBool,
    List.flatten_cons, List.flatten_nil, List.flatMap_cons, List.flatMap_nil, List.append_assoc,
    List.cons_append, List.nil_append,
    List.append_nil, String.reduceToList]

theorem scanMembersOf_print (scan : LastScan) :
    nextMembers (scanMembersOf scan) = if scan.text = [] then []
      else ",\"last_scan_ms_ago\":".toList ++ printInt scan.msAgo := by
  rw [scanMembersOf]
  split
  · rfl
  · exact List.append_nil _

theorem eq_of_jsonPut {out piece out' : List Char} (h : jsonPut cap out piece = some out') :
    out' = out ++ piece := by
  rw [jsonPut] at h
  split at h
  · exact (Option.some.inj h).symm
  · cases h

theorem eq_of_putLastScan {out out' : List Char} (h : putLastScan cap scan out = some out') :
    out' = out ++ nextMembers (scanMembersOf scan) := by
  rw [scanMembersOf_print]
  rw [putLastScan] at h
  split at h
  · next hnone =>
    rw [if_pos hnone, List.append_nil]
    exact (Option.some.inj h).symm
  · next hseen =>
    rw [if_neg hseen]
    exact eq_of_jsonPut h

/-- A document that is built is the whole document. -/
theorem buildStateJson_some (h : buildStateJson cap ws scan = some text) :
    text = objText (stateHead ws) (stateMembers ws scan ++ scanMembersOf scan) := by
  obtain ⟨out, hfirst, h⟩ := Option.bind_eq_some_iff.mp h
  obtain ⟨out', hscan, hlast⟩ := Option.bind_eq_some_iff.mp h
  rw [eq_of_jsonPut hlast, eq_of_putLastScan hscan, eq_of_jsonPut hfirst, List.nil_append,
    statePieces_flatten, objText, openText, openText, nextMembers_append, List.cons_append,
    List.append_assoc (Member.print _)]

/-! ### Strings of the charger -/

theorem bare_hexDigit : ∀ v < 16, Bare [hexDigit v] := by decide +kernel

theorem bare_byteHex (b : UInt8) : Bare (byteHex b) :=
  bare_append.mpr ⟨bare_hexDigit _ (Nat.mod_lt _ (by decide)), bare_hexDigit _ (Nat.mod_lt _ (by decide))⟩

theorem bare_lastScan (scan : LastScan) : Bare scan.text := by
  intro c hc
  obtain ⟨b, -, hb⟩ := List.mem_flatMap.mp (List.mem_of_mem_take hc)
  exact bare_byteHex b c hb

theorem bare_pilotStateStr (p : PilotState) : Bare (pilotStateStr p).toList := by
  cases p <;> decide +kernel

theorem bare_joinFaults (bits cap : ℕ) {names : List (ℕ × String)} {out : String}
    (hnames : ∀ p ∈ names, Bare p.2.toList) (hout : Bare out.toList) :
    Bare (joinFaults bits cap names out).1.toList := by
  induction names generalizing out with
  | nil => exact hout
  | cons p names ih =>
    obtain ⟨i, name⟩ := p
    obtain ⟨hname, hrest⟩ := List.forall_mem_cons.mp hnames
    rw [joinFaults]
    split
    · have hpiece : Bare ((if out.length ≠ 0 then "," else "") ++ name).toList := by
        rw [String.toList_append, bare_append]
        refine ⟨?_, hname⟩
        split
        · exact show Bare ",".toList by decide +kernel
        · exact show Bare "".toList by decide +kernel
      dsimp only
      generalize (if out.length ≠ 0 then "," else "") ++ name = piece at hpiece ⊢
      split
      · rw [String.appendSlice_eq, String.toList_append, bare_append, String.toList_copy_take]
        exact ⟨hout, fun c hc => hpiece c (List.mem_of_mem_take hc)⟩
      · refine ih hrest ?_
        rw [String.toList_append, bare_append]
        exact ⟨hout, hpiece⟩
    · exact ih hrest hout

theorem bare_faultNames : ∀ name ∈ faultNames, Bare name.toList := by decide +kernel

theorem bare_webFaults (bits : ℕ) : Bare (webFaults bits) := by
  rw [webFaults]
  split
  · decide +kernel
  · refine bare_joinFaults bits 384 (fun p hp => ?_) (by decide +kernel)
    exact bare_faultNames p.2 (List.of_mem_zip hp).2

theorem bare_availability (ws : WebServer) : Bare (availability ws) := by
  rw [availability]
  split
  · decide +kernel
  · decide +kernel

theorem text_buildStateJson_iff (h : buildStateJson cap ws scan = some text) :
    Text text (stateMeant ws scan) ↔ Plain (webDeviceId ws) ∧ Utf8 (webDeviceId ws) := by
  have hscan : ∀ x ∈ scanMembersOf scan, x.Sound := by
    rw [scanMembersOf]
    split
    · exact nofun
    · exact List.forall_mem_singleton.mpr (sound_int ..)
  rw [buildStateJson_some h, stateMeant_eq, text_objText_iff]
  simp only [stateHead, stateMembers, List.forall_mem_cons, List.forall_mem_append, sound_raw,
    sound_int, sound_fixed, sound_boolean, List.not_mem_nil, false_implies, implies_true,
    (bare_availability ws).sound, (bare_webFaults _).sound, (bare_lastScan scan).sound,
    (bare_pilotStateStr _).sound, true_and, and_true]
  exact and_iff_left hscan

end State

end OpenEVCharger
