import OpenEVCharger.Companion.Config

/-!
# Configuration over HTTP

`POST /api/config` applies the pairs of a form to the running configuration, one after the
other: a pair that is refused ends the request, but what the pairs before it have set stays.
-/

namespace OpenEVCharger

/-! ## Forms -/

/-- `web_urldecode`; `behind` is the byte after the input, which an escape cut short reads. -/
def webUrldecode (behind : Char) (cap : ℕ) : List Char → List Char → Option (List Char)
  | [], out => some out
  | '+' :: rest, out =>
    if cap ≤ out.length + 1 then none else webUrldecode behind cap rest (out ++ [' '])
  | '%' :: rest, out =>
    match rest with
    | [] => none
    | [h] =>
      match hexNibble h, hexNibble behind with
      | some h, some l =>
        if cap ≤ out.length + 1 then none else some (out ++ [Char.ofNat (16 * h + l)])
      | _, _ => none
    | h :: l :: rest =>
      match hexNibble h, hexNibble l with
      | some h, some l =>
        if cap ≤ out.length + 1 then none
        else webUrldecode behind cap rest (out ++ [Char.ofNat (16 * h + l)])
      | _, _ => none
  | c :: rest, out =>
    if cap ≤ out.length + 1 then none else webUrldecode behind cap rest (out ++ [c])

/-- The pieces of a form, each with the byte after it; `behind` is the byte after the form. -/
def formPieces (behind : Char) : List Char → List (List Char × Char)
  | [] => []
  | '&' :: rest => ([], '&') :: formPieces behind rest
  | [c] => [([c], behind)]
  | c :: rest =>
    match formPieces behind rest with
    | [] => [([c], behind)]
    | (piece, next) :: pieces => (c :: piece, next) :: pieces

/-- `web_form_next` on one piece: its key and its value. -/
def webFormNext (piece : List Char) (behind : Char) : Option (List Char × List Char) :=
  let key := piece.takeWhile (· ≠ '=')
  let val := (piece.dropWhile (· ≠ '=')).tail
  match webUrldecode (if '=' ∈ piece then '=' else behind) 64 key [],
    webUrldecode behind configStrMax val [] with
  | some key, some val => some (cString key, cString val)
  | _, _ => none

/-! ## Applying a form -/

/-- A number that has to be the whole text and to lie between two bounds. -/
def formNumber (val : List Char) (lo hi : ℤ) : Option ℤ :=
  let (n, rest) := strtol val
  if rest ≠ [] || n < lo || hi < n then none else some n

/-- What one pair sets, or the error it is refused with. -/
def applyPair (c : Config) (k : ConfigKey) (val : List Char) : Except String Config :=
  match k with
  | .str .brokerPass | .str .webPass =>
    -- the mask that the form shows in place of a password does not change it
    if val ≠ [] && val ≠ "********".toList then .ok (setKey k val c) else .ok c
  | .str .logLevel | .str .logPath | .str .rfidPort =>
    if val ≠ [] then .ok (setKey k val c) else .ok c
  | .str k => .ok (setKey (.str k) val c)
  | .num .brokerPort =>
    match formNumber val 1 65535 with
    | some n => .ok { c with num := Function.update c.num .brokerPort n }
    | none => .error "broker_port out of range"
  | .num .pollHz =>
    -- an `int` holds every `long`
    match formNumber val 1 (2 ^ 31 - 1) with
    | some n => .ok { c with num := Function.update c.num .pollHz n }
    | none => .error "poll_hz must be >= 1"
  | .num .webPort =>
    match formNumber val 1 65535 with
    | some n => .ok { c with num := Function.update c.num .webPort n }
    | none => .error "web_port out of range"
  | .flag k =>
    match parseBool val with
    | some b => .ok { c with flag := Function.update c.flag k b }
    | none => .error ((ConfigKey.flag k).name ++ " must be bool")
  | .meterVScale =>
    match strtod val with
    | (some d, []) =>
      if 0 < d && d < 10000 then .ok { c with meterVScale := d }
      else .error "meter_v_scale must be > 0 and < 10000"
    | _ => .error "meter_v_scale must be > 0 and < 10000"

/-- `validate_and_apply_config`: the configuration afterwards, and the error if there is one. -/
def applyPieces (c : Config) : List (List Char × Char) → Config × Option String
  | [] => (c, none)
  | (piece, behind) :: pieces =>
    match webFormNext piece behind with
    | none => (c, some "malformed form body")
    | some (key, val) =>
      match ConfigKey.ofName key with
      | none => applyPieces c pieces
      | some k =>
        match applyPair c k val with
        | .error err => (c, some err)
        | .ok c => applyPieces c pieces

def validateAndApplyConfig (c : Config) (behind : Char) (body : List Char) :
    Config × Option String :=
  applyPieces c (formPieces behind body)

/-- A request body, with the byte after it in the buffer. -/
structure ConfigPost where
  behind : Char
  body : List Char

/-- The running configuration after a request. -/
def postConfig (c : Config) (p : ConfigPost) : Config :=
  (validateAndApplyConfig c p.behind p.body).1

/-- The configuration of a companion that was started with a file and got `posts`. -/
def runningConfig (file : Option (List Char)) (posts : List ConfigPost) : Config :=
  posts.foldl postConfig (configLoad file)

/-! ## The bounds of the running configuration -/

/-- What the checks of the file and of the form establish. -/
structure ConfigOk (c : Config) : Prop where
  brokerPort : -2 ^ 31 ≤ c.num .brokerPort ∧ c.num .brokerPort < 2 ^ 31
  pollHz : 1 ≤ c.num .pollHz ∧ c.num .pollHz < 2 ^ 31
  webPort : 1 ≤ c.num .webPort ∧ c.num .webPort ≤ 65535
  scale : 0 < c.meterVScale ∧ c.meterVScale < 10000

variable {c c' : Config} {k : ConfigKey} {val : List Char}

theorem formNumber_bounds {lo hi n : ℤ} (h : formNumber val lo hi = some n) :
    lo ≤ n ∧ n ≤ hi := by
  rw [formNumber] at h
  cases hscan : strtol val with
  | mk m rest =>
    rw [hscan] at h
    dsimp only at h
    split at h
    · nomatch h
    next hok =>
    simp only [Bool.or_eq_true, decide_eq_true_eq, not_or, not_lt] at hok
    cases h
    exact ⟨hok.1.2, hok.2⟩

theorem atoi_bounds (s : List Char) : -2 ^ 31 ≤ atoi s ∧ atoi s < 2 ^ 31 := by
  rw [atoi]
  split
  · decide
  · next n _ _ =>
    have hlo := Int.le_bmod (x := n) (m := 2 ^ 32) (by decide)
    have hhi := Int.bmod_lt (x := n) (m := 2 ^ 32) (by decide)
    omega

/-- A text, a flag or a number in its bounds leaves the configuration in bounds. -/
theorem ConfigOk.set_str (h : ConfigOk c) (k : StrKey) : ConfigOk (setKey (.str k) val c) :=
  ⟨h.brokerPort, h.pollHz, h.webPort, h.scale⟩

theorem ConfigOk.set_num (h : ConfigOk c) {n : ℤ} (k : NumKey)
    (hport : k = .brokerPort → -2 ^ 31 ≤ n ∧ n < 2 ^ 31) (hpoll : k = .pollHz → 1 ≤ n ∧ n < 2 ^ 31)
    (hweb : k = .webPort → 1 ≤ n ∧ n ≤ 65535) :
    ConfigOk { c with num := Function.update c.num k n } := by
  cases k with
  | brokerPort => exact ⟨hport rfl, h.pollHz, h.webPort, h.scale⟩
  | pollHz => exact ⟨h.brokerPort, hpoll rfl, h.webPort, h.scale⟩
  | webPort => exact ⟨h.brokerPort, h.pollHz, hweb rfl, h.scale⟩

theorem ConfigOk.applyPair (h : ConfigOk c) (hpair : applyPair c k val = .ok c') : ConfigOk c' := by
  cases k with
  | str k =>
    have hcases : c' = c ∨ c' = setKey (.str k) val c := by
      cases k with
      | brokerPass | webPass | logLevel | logPath | rfidPort =>
        simp only [OpenEVCharger.applyPair] at hpair
        split at hpair <;> cases hpair
        · exact .inr rfl
        · exact .inl rfl
      | _ =>
        cases hpair
        exact .inr rfl
    rcases hcases with rfl | rfl
    · exact h
    · exact h.set_str k
  | num k =>
    cases k with
    | brokerPort =>
      simp only [OpenEVCharger.applyPair] at hpair
      split at hpair <;> cases hpair
      next hn =>
      have hb := formNumber_bounds hn
      exact h.set_num .brokerPort (fun _ => by omega) nofun nofun
    | pollHz =>
      simp only [OpenEVCharger.applyPair] at hpair
      split at hpair <;> cases hpair
      next hn =>
      have hb := formNumber_bounds hn
      exact h.set_num .pollHz nofun (fun _ => by omega) nofun
    | webPort =>
      simp only [OpenEVCharger.applyPair] at hpair
      split at hpair <;> cases hpair
      next hn =>
      have hb := formNumber_bounds hn
      exact h.set_num .webPort nofun nofun (fun _ => by omega)
  | flag k =>
    simp only [OpenEVCharger.applyPair] at hpair
    split at hpair <;> cases hpair
    exact ⟨h.brokerPort, h.pollHz, h.webPort, h.scale⟩
  | meterVScale =>
    simp only [OpenEVCharger.applyPair] at hpair
    split at hpair
    · split at hpair <;> cases hpair
      next hd =>
      rw [Bool.and_eq_true, decide_eq_true_eq, decide_eq_true_eq] at hd
      exact ⟨h.brokerPort, h.pollHz, h.webPort, hd⟩
    · cases hpair

theorem ConfigOk.post (h : ConfigOk c) (p : ConfigPost) : ConfigOk (postConfig c p) := by
  rw [postConfig, validateAndApplyConfig]
  generalize formPieces p.behind p.body = pieces
  induction pieces generalizing c with
  | nil => exact h
  | cons piece pieces ih =>
    obtain ⟨piece, behind⟩ := piece
    rw [applyPieces]
    split
    · exact h
    split
    · exact ih h
    split
    · exact h
    · next hpair => exact ih (h.applyPair hpair)

/-- Parsing a line keeps the scale in bounds and the numbers in the range of an `int`. -/
structure ParseOk (c : Config) : Prop where
  int : ∀ k, -2 ^ 31 ≤ c.num k ∧ c.num k < 2 ^ 31
  scale : 0 < c.meterVScale ∧ c.meterVScale < 10000

theorem ParseOk.setKey (h : ParseOk c) (k : ConfigKey) : ParseOk (setKey k val c) := by
  cases k with
  | str k => exact ⟨h.int, h.scale⟩
  | flag k => exact ⟨h.int, h.scale⟩
  | num k =>
    refine ⟨?_, h.scale⟩
    intro k'
    show _ ≤ Function.update c.num k (atoi val) k' ∧ Function.update c.num k (atoi val) k' < _
    by_cases hk : k' = k
    · rw [hk, Function.update_self]
      exact atoi_bounds val
    · rw [Function.update_of_ne hk]
      exact h.int k'
  | meterVScale =>
    rw [OpenEVCharger.setKey]
    split
    · split
      · next hd =>
        rw [Bool.and_eq_true, decide_eq_true_eq, decide_eq_true_eq] at hd
        exact ⟨h.int, hd⟩
      · exact h
    · exact h

theorem ParseOk.parseLine (h : ParseOk c) (line : List Char) : ParseOk (parseLine c line) := by
  rw [OpenEVCharger.parseLine]
  split
  · exact h
  split
  · exact h
  · exact h.setKey _

theorem ParseOk.clamp (h : ParseOk c) : ConfigOk (clampConfig c) where
  brokerPort := h.int .brokerPort
  pollHz := by
    have := h.int .pollHz
    show 1 ≤ (if c.num .pollHz < 1 then 1 else c.num .pollHz) ∧
      (if c.num .pollHz < 1 then 1 else c.num .pollHz) < 2 ^ 31
    split <;> omega
  webPort := by
    show 1 ≤ (if c.num .webPort < 1 || 65535 < c.num .webPort then 8080 else c.num .webPort) ∧
      (if c.num .webPort < 1 || 65535 < c.num .webPort then 8080 else c.num .webPort) ≤ 65535
    split
    · decide
    next hport =>
    simp only [Bool.or_eq_true, decide_eq_true_eq, not_or, not_lt] at hport
    exact hport
  scale := by
    show 0 < (if 0 < c.meterVScale && c.meterVScale < 10000 then c.meterVScale else 60) ∧
      (if 0 < c.meterVScale && c.meterVScale < 10000 then c.meterVScale else 60) < 10000
    split
    · exact h.scale
    · norm_num

theorem parseOk_defaults : ParseOk configDefaults where
  int := fun k => by cases k <;> decide
  scale := by
    show (0 : ℚ) < 60 ∧ (60 : ℚ) < 10000
    norm_num

theorem configLoad_ok (file : Option (List Char)) : ConfigOk (configLoad file) := by
  cases file with
  | none => exact ⟨by decide, by decide, by decide, parseOk_defaults.scale⟩
  | some bytes =>
    rw [configLoad, configParse]
    generalize configLines (cString (bytes.take 4095)) = lines
    have hparse : ∀ c, ParseOk c → ParseOk (lines.foldl parseLine c) := by
      induction lines with
      | nil => exact fun _ h => h
      | cons line lines ih => exact fun c h => ih (parseLine c line) (h.parseLine line)
    exact (hparse _ parseOk_defaults).clamp

/-- Whatever is posted, the running configuration stays in bounds. -/
theorem runningConfig_ok (file : Option (List Char)) (posts : List ConfigPost) :
    ConfigOk (runningConfig file posts) := by
  rw [runningConfig]
  have hload := configLoad_ok file
  generalize configLoad file = c at hload
  induction posts generalizing c with
  | nil => exact hload
  | cons p posts ih => exact ih _ (hload.post p)

end OpenEVCharger
