import OpenEVCharger.Companion.Config

/-!
# The configuration as JSON

`build_config_json` appends literal text and quoted strings to a bounded buffer, and gives up
where a piece does not fit with the terminator behind it. Passwords are masked.
-/

namespace OpenEVCharger

/-! ## Pieces -/

/-- One piece of a document, which has to leave room for the terminator. -/
def jsonPut (cap : ℕ) (out piece : List Char) : Option (List Char) :=
  if out.length + piece.length < cap then some (out ++ piece) else none

/-- What `json_quote` puts for one byte. -/
def jsonEscape (c : Char) : List Char :=
  if c = '\x22' then ['\\', '\x22']
  else if c = '\\' then ['\\', '\\']
  else if c = '\n' then ['\\', 'n']
  else if c = '\r' then ['\\', 'r']
  else if c = '\t' then ['\\', 't']
  else if c.toNat < 0x20 then
    ['\\', 'u', '0', '0', Nat.digitChar (c.toNat / 16), Nat.digitChar (c.toNat % 16)]
  else [c]

/-- `json_quote` at the end of `out`. -/
def jsonQuote (cap : ℕ) (out s : List Char) : Option (List Char) := do
  let out ← jsonPut cap out ['\x22']
  let out ← (s.map jsonEscape).foldlM (jsonPut cap) out
  jsonPut cap out ['\x22']

/-- One call of `json_append_fmt` or `json_append_str`. -/
inductive JsonAppend
  | fmt (text : List Char)
  | str (s : List Char)

def JsonAppend.append (cap : ℕ) (out : List Char) : JsonAppend → Option (List Char)
  | .fmt text => jsonPut cap out text
  | .str s => jsonQuote cap out s

/-! ## The document -/

/-- `mask_pw`. -/
def maskPw (s : List Char) : List Char := if s = [] then [] else "********".toList

/-- The calls of `build_config_json` in their order, down to the closing brace. -/
def configAppends (c : Config) : List JsonAppend :=
  [.fmt "\x7b\"broker_host\":".toList,
    .str (c.str .brokerHost).chars,
    .fmt (",\"broker_port\":".toList ++ printInt (c.num .brokerPort) ++
      ",\"broker_user\":".toList),
    .str (c.str .brokerUser).chars,
    .fmt ",\"broker_pass\":".toList,
    .str (maskPw (c.str .brokerPass).chars),
    .fmt ",\"topic_prefix\":".toList,
    .str (c.str .topicPrefix).chars,
    .fmt ",\"device_id\":".toList,
    .str (c.str .deviceId).chars,
    .fmt (",\"poll_hz\":".toList ++ printInt (c.num .pollHz) ++ ",\"write_enable\":".toList ++
      printBool (c.flag .writeEnable) ++ ",\"web_enable\":".toList ++
      printBool (c.flag .webEnable) ++ ",\"web_port\":".toList ++ printInt (c.num .webPort) ++
      ",\"web_user\":".toList),
    .str (c.str .webUser).chars,
    .fmt ",\"web_pass\":".toList,
    .str (maskPw (c.str .webPass).chars),
    .fmt ",\"log_level\":".toList,
    .str (c.str .logLevel).chars,
    .fmt ",\"log_path\":".toList,
    .str (c.str .logPath).chars,
    .fmt (",\"rfid_enable\":".toList ++ printBool (c.flag .rfidEnable) ++
      ",\"rfid_port\":".toList),
    .str (c.str .rfidPort).chars,
    .fmt (",\"meter_v_scale\":".toList ++ printFixed 3 c.meterVScale),
    .fmt ['\x7d']]

/-- `build_config_json` into `cap` bytes; `none` is its 0. -/
def buildConfigJson (cap : ℕ) (c : Config) : Option (List Char) :=
  (configAppends c).foldlM (JsonAppend.append cap) []

/-! ## Room -/

/-- A string as `json_quote` prints it. -/
def jsonQuoted (s : List Char) : List Char := '\x22' :: (s.flatMap jsonEscape ++ ['\x22'])

def JsonAppend.text : JsonAppend → List Char
  | .fmt text => text
  | .str s => jsonQuoted s

variable {cap : ℕ} {out s text : List Char} {c : Config}

theorem jsonPut_bind (cap : ℕ) (out text : List Char) (k : List Char → Option (List Char)) :
    (jsonPut cap out text >>= k) =
      if out.length + text.length < cap then k (out ++ text) else none := by
  rw [jsonPut]
  split
  · rfl
  · rfl

/-- Pieces are put one by one as they are put together. -/
theorem jsonPut_jsonPut (cap : ℕ) (out text text' : List Char) :
    (jsonPut cap out text >>= fun out => jsonPut cap out text') =
      jsonPut cap out (text ++ text') := by
  rw [jsonPut_bind, jsonPut, jsonPut, List.length_append, List.length_append, List.append_assoc,
    Nat.add_assoc]
  split
  · rfl
  · next hshort => rw [if_neg (by omega)]

theorem foldlM_jsonPut (cap : ℕ) (pieces : List (List Char)) (h : out.length < cap) :
    pieces.foldlM (jsonPut cap) out = jsonPut cap out pieces.flatten := by
  induction pieces generalizing out with
  | nil =>
    rw [List.foldlM_nil, List.flatten_nil, jsonPut, List.append_nil]
    exact (if_pos h).symm
  | cons piece pieces ih =>
    rw [List.foldlM_cons, List.flatten_cons, ← jsonPut_jsonPut, jsonPut_bind, jsonPut_bind]
    split
    · next hroom => exact ih (by rw [List.length_append]; exact hroom)
    · rfl

/-- `json_quote` fails exactly when the quoted string does not fit. -/
theorem jsonQuote_eq (cap : ℕ) (out s : List Char) :
    jsonQuote cap out s = jsonPut cap out (jsonQuoted s) := by
  have hquoted : jsonQuoted s = ['\x22'] ++ ((s.map jsonEscape).flatten ++ ['\x22']) := by
    rw [← List.flatMap_def]
    rfl
  rw [jsonQuote, hquoted, ← jsonPut_jsonPut, jsonPut_bind, jsonPut_bind]
  split
  · next hroom =>
    rw [foldlM_jsonPut cap _ (by rw [List.length_append]; exact hroom), jsonPut_jsonPut]
  · rfl

theorem append_eq (cap : ℕ) (out : List Char) (a : JsonAppend) :
    a.append cap out = jsonPut cap out a.text := by
  cases a with
  | fmt text => rfl
  | str s => exact jsonQuote_eq cap out s

/-- A document is built when it fits as a whole. -/
theorem foldlM_append (cap : ℕ) (as : List JsonAppend) (h : out.length < cap) :
    as.foldlM (JsonAppend.append cap) out = jsonPut cap out (as.flatMap JsonAppend.text) := by
  have happend : JsonAppend.append cap = fun out a => jsonPut cap out (JsonAppend.text a) := by
    funext out a
    exact append_eq cap out a
  rw [happend, List.flatMap_def, ← foldlM_jsonPut cap _ h, List.foldlM_map]

/-- The document that `build_config_json` prints. -/
def configDocument (c : Config) : List Char := (configAppends c).flatMap JsonAppend.text

theorem buildConfigJson_eq (h : 0 < cap) :
    buildConfigJson cap c =
      if (configDocument c).length < cap then some (configDocument c) else none := by
  rw [buildConfigJson, foldlM_append cap _ (show ([] : List Char).length < cap from h), jsonPut,
    List.length_nil, Nat.zero_add, List.nil_append]
  rfl

end OpenEVCharger
