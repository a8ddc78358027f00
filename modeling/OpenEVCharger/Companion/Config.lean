import Mathlib.Data.List.DropRight
import OpenEVCharger.Lib.CText

/-!
# The configuration file of the companion

`config_load` reads at most 4095 bytes and parses them line by line; `write_config_file`
prints one line for each key. A character stands for one byte.
-/

namespace OpenEVCharger

/-! ## The configuration -/

abbrev configStrMax : ℕ := 128

/-- The text of a `char[CONFIG_STR_MAX]`. -/
@[ext] structure ConfigStr where
  chars : List Char
  short : chars.length < configStrMax
  nulFree : ∀ c ∈ chars, c ≠ '\x00'
  deriving DecidableEq

/-- `set_str`, and every other `snprintf` of a `%s` into a field. -/
def setStr (src : List Char) : ConfigStr where
  chars := (cString src).take (configStrMax - 1)
  short := by
    have hlen := List.length_take_le (configStrMax - 1) (cString src)
    have : configStrMax = 128 := rfl
    omega
  nulFree := fun _ hc => cString_mem (List.mem_of_mem_take hc)

inductive StrKey
  | brokerHost | brokerUser | brokerPass | topicPrefix | deviceId | logLevel | logPath | webUser
  | webPass | rfidPort
  deriving DecidableEq, Repr

inductive NumKey
  | brokerPort | pollHz | webPort
  deriving DecidableEq, Repr

inductive FlagKey
  | writeEnable | webEnable | rfidEnable
  deriving DecidableEq, Repr

/-- `struct config`, by the kinds of its fields. -/
@[ext] structure Config where
  str : StrKey → ConfigStr
  num : NumKey → ℤ
  flag : FlagKey → Bool
  meterVScale : ℚ

def configDefaults : Config where
  str
    | .brokerHost => setStr "127.0.0.1".toList
    | .topicPrefix => setStr "delta-bridge".toList
    | .logLevel => setStr "info".toList
    | .logPath => setStr "/Storage/delta-bridge/bridge-boot.log".toList
    | .rfidPort => setStr "/dev/ttyAMA4".toList
    | _ => setStr []
  num
    | .brokerPort => 1883
    | .pollHz => 1
    | .webPort => 8080
  flag := fun _ => false
  meterVScale := 60

inductive ConfigKey
  | str (k : StrKey)
  | num (k : NumKey)
  | flag (k : FlagKey)
  | meterVScale
  deriving DecidableEq, Repr

def ConfigKey.name : ConfigKey → String
  | .str .brokerHost => "broker_host"
  | .num .brokerPort => "broker_port"
  | .str .brokerUser => "broker_user"
  | .str .brokerPass => "broker_pass"
  | .str .topicPrefix => "topic_prefix"
  | .str .deviceId => "device_id"
  | .num .pollHz => "poll_hz"
  | .str .logLevel => "log_level"
  | .str .logPath => "log_path"
  | .flag .writeEnable => "write_enable"
  | .flag .webEnable => "web_enable"
  | .num .webPort => "web_port"
  | .str .webUser => "web_user"
  | .str .webPass => "web_pass"
  | .flag .rfidEnable => "rfid_enable"
  | .str .rfidPort => "rfid_port"
  | .meterVScale => "meter_v_scale"

def ConfigKey.all : List ConfigKey :=
  [.str .brokerHost, .num .brokerPort, .str .brokerUser, .str .brokerPass, .str .topicPrefix,
    .str .deviceId, .num .pollHz, .str .logLevel, .str .logPath, .flag .writeEnable,
    .flag .webEnable, .num .webPort, .str .webUser, .str .webPass, .flag .rfidEnable,
    .str .rfidPort, .meterVScale]

/-- The chain of `strcmp`s on a key. -/
def ConfigKey.ofName (key : List Char) : Option ConfigKey :=
  ConfigKey.all.find? fun k => k.name.toList = key

theorem ConfigKey.ofName_name (k : ConfigKey) : ConfigKey.ofName k.name.toList = some k := by
  cases k with
  | str k => cases k <;> decide
  | num k => cases k <;> decide
  | flag k => cases k <;> decide
  | meterVScale => decide

/-! ## Parsing -/

/-- `trim`. -/
def trim (s : List Char) : List Char :=
  (s.dropWhile fun c => c = ' ' || c = '\t').rdropWhile fun c =>
    c = ' ' || c = '\t' || c = '\r' || c = '\n'

def parseBool (v : List Char) : Option Bool :=
  let lower := v.map Char.toLower
  if lower = "true".toList || lower = "yes".toList || lower = "on".toList || v = "1".toList then
    some true
  else if lower = "false".toList || lower = "no".toList || lower = "off".toList ||
      v = "0".toList then
    some false
  else none

/-- What one key of the file sets. -/
def setKey (k : ConfigKey) (val : List Char) (c : Config) : Config :=
  match k with
  | .str k => { c with str := Function.update c.str k (setStr val) }
  | .num k => { c with num := Function.update c.num k (atoi val) }
  | .flag k => { c with flag := Function.update c.flag k ((parseBool val).getD false) }
  | .meterVScale =>
    match (strtod val).1 with
    | some d => if 0 < d && d < 10000 then { c with meterVScale := d } else c
    | none => c

/-- The key and the value of a line, unless it is blank, a comment or without `=`. -/
def parseEntry (line : List Char) : Option (List Char × List Char) :=
  let s := trim line
  if s = [] || s.head? = some '#' then none
  else if '=' ∈ s then some (trim (s.takeWhile (· ≠ '=')), trim (s.dropWhile (· ≠ '=')).tail)
  else none

/-- One line of the file; unknown and deprecated keys are ignored. -/
def parseLine (c : Config) (line : List Char) : Config :=
  match parseEntry line with
  | none => c
  | some (key, val) =>
    match ConfigKey.ofName key with
    | none => c
    | some k => setKey k val c

/-- The first line of a text, as far as the line buffer holds it, and what is left. -/
def takeLine (text : List Char) : List Char × List Char :=
  let line := (text.takeWhile (· ≠ '\n')).take 255
  (line, match text.drop line.length with
    | '\n' :: rest => rest
    | rest => rest)

/-- The lines of a text of at most `fuel` characters. -/
def linesFrom : ℕ → List Char → List (List Char)
  | 0, _ => []
  | _ + 1, [] => []
  | fuel + 1, c :: text =>
    (takeLine (c :: text)).1 :: linesFrom fuel (takeLine (c :: text)).2

def configLines (text : List Char) : List (List Char) := linesFrom text.length text

/-- The bounds that are checked when the whole file is read. -/
def clampConfig (c : Config) : Config where
  str := c.str
  num
    | .brokerPort => c.num .brokerPort
    | .pollHz => if c.num .pollHz < 1 then 1 else c.num .pollHz
    | .webPort => if c.num .webPort < 1 || 65535 < c.num .webPort then 8080 else c.num .webPort
  flag := c.flag
  meterVScale := if 0 < c.meterVScale && c.meterVScale < 10000 then c.meterVScale else 60

def configParse (c : Config) (text : List Char) : Config :=
  clampConfig ((configLines (cString text)).foldl parseLine c)

/-- `config_load` of a file, or of no file. -/
def configLoad (file : Option (List Char)) : Config :=
  match file with
  | none => configDefaults
  | some bytes => configParse configDefaults (bytes.take 4095)

/-! ## Writing -/

/-- The text in front of a value: keys are padded to a common column. -/
def ConfigKey.label (k : ConfigKey) : List Char :=
  k.name.toList ++ List.replicate (max 1 (13 - k.name.toList.length)) ' ' ++ "= ".toList

def printBool (b : Bool) : List Char := if b then "true".toList else "false".toList

/-- The text that is printed for the value of a key. -/
def configValue (c : Config) : ConfigKey → List Char
  | .str k => (c.str k).chars
  | .num k => printInt (c.num k)
  | .flag k => printBool (c.flag k)
  | .meterVScale => printFixed 3 c.meterVScale

/-- A text that is only written when there is one. -/
def optionalKey (c : Config) (k : StrKey) : List ConfigKey :=
  if (c.str k).chars = [] then [] else [.str k]

/-- The keys that are written, in their order in the file. -/
def writtenKeys (c : Config) : List ConfigKey :=
  [.str .brokerHost, .num .brokerPort] ++ optionalKey c .brokerUser ++
  optionalKey c .brokerPass ++ [.str .topicPrefix] ++ optionalKey c .deviceId ++
  [.num .pollHz, .flag .writeEnable, .flag .webEnable, .num .webPort] ++
  optionalKey c .webUser ++ optionalKey c .webPass ++
  [.str .logLevel, .str .logPath, .flag .rfidEnable, .str .rfidPort, .meterVScale]

def configHeader : List Char :=
  "# delta-bridge configuration \u00e2\u0080\u0094 written by web UI".toList

def configLine (c : Config) (k : ConfigKey) : List Char := k.label ++ configValue c k

def writeConfigFile (c : Config) : List Char :=
  (configHeader :: (writtenKeys c).map (configLine c)).flatMap (· ++ ['\n'])

end OpenEVCharger
