import OpenEVCharger.Companion.ConfigJson
import OpenEVCharger.Companion.WebRequest

/-!
# Refused configurations

`handle_post_config` answers an error when a pair is refused, when the file does not open and
when the new configuration does not fit its document. Nothing is taken back then: what was set
before the error stays. What is left as it was is told here by what the form asks for.
-/

namespace OpenEVCharger

/-! ## The answer -/

/-- The status that `handle_post_config` answers, with the server afterwards. -/
def postConfigStatus (diskOk : Bool) (ws : WebServer) (r : HttpRequest) : ℕ × WebServer :=
  match handlePostConfig diskOk ws r with
  | (.configRefused _, ws) => (400, ws)
  | (.configApplied, ws) =>
    match buildConfigJson 2048 ws.cfg with
    | none => (500, ws)
    | some cfgBody =>
      let body := "\x7b\"ok\":true,\"config\":".toList ++ cfgBody ++ ['\x7d']
      if 2200 ≤ body.length then (500, ws) else (200, ws)
  | (_, ws) => (500, ws)

/-- An error answer leaves the running configuration and the file as they were. -/
def ErrorKeeps (diskOk : Bool) (ws : WebServer) (r : HttpRequest) : Prop :=
  (postConfigStatus diskOk ws r).1 = 400 ∨ (postConfigStatus diskOk ws r).1 = 500 →
    (postConfigStatus diskOk ws r).2.cfg = ws.cfg ∧ (postConfigStatus diskOk ws r).2.file = ws.file

/-! ## What a form asks for -/

/-- A value for one field of the configuration. -/
inductive Setting
  | str (k : StrKey) (s : ConfigStr)
  | num (k : NumKey) (n : ℤ)
  | flag (k : FlagKey) (b : Bool)
  | scale (d : ℚ)

inductive FieldValue
  | str (s : ConfigStr)
  | num (n : ℤ)
  | flag (b : Bool)
  | scale (d : ℚ)

def Config.field (c : Config) : ConfigKey → FieldValue
  | .str k => .str (c.str k)
  | .num k => .num (c.num k)
  | .flag k => .flag (c.flag k)
  | .meterVScale => .scale c.meterVScale

namespace Setting

def key : Setting → ConfigKey
  | .str k _ => .str k
  | .num k _ => .num k
  | .flag k _ => .flag k
  | .scale _ => .meterVScale

def value : Setting → FieldValue
  | .str _ s => .str s
  | .num _ n => .num n
  | .flag _ b => .flag b
  | .scale d => .scale d

def put (c : Config) : Setting → Config
  | .str k s => { c with str := Function.update c.str k s }
  | .num k n => { c with num := Function.update c.num k n }
  | .flag k b => { c with flag := Function.update c.flag k b }
  | .scale d => { c with meterVScale := d }

end Setting

/-- The texts that leave their field: none at all, and the mask in place of a password. -/
def leavesText (k : StrKey) (val : List Char) : Bool :=
  match k with
  | .brokerPass | .webPass => val = [] || val = "********".toList
  | .logLevel | .logPath | .rfidPort => val = []
  | _ => false

def numBound : NumKey → ℤ
  | .pollHz => 2 ^ 31 - 1
  | _ => 65535

/-- What a pair asks for: nothing, a setting, or, where its value is refused, no answer. -/
def pairSetting (k : ConfigKey) (val : List Char) : Option (Option Setting) :=
  match k with
  | .str k => some (if leavesText k val then none else some (.str k (setStr val)))
  | .num k => (formNumber val 1 (numBound k)).map fun n => some (.num k n)
  | .flag k => (parseBool val).map fun b => some (.flag k b)
  | .meterVScale =>
    match strtod val with
    | (some d, []) => if 0 < d && d < 10000 then some (some (.scale d)) else none
    | _ => none

/-- What a piece of a form asks for; an unknown key asks for nothing. -/
def pieceSetting (p : List Char × Char) : Option (Option Setting) :=
  match webFormNext p.1 p.2 with
  | none => none
  | some (key, val) =>
    match ConfigKey.ofName key with
    | none => some none
    | some k => pairSetting k val

/-- Some piece of the form is malformed or has a refused value. -/
def RefusedIn (pieces : List (List Char × Char)) : Prop := ∃ p ∈ pieces, pieceSetting p = none

/-- The settings that the form asks for, down to the first piece that is refused. -/
def askedSettings : List (List Char × Char) → List Setting
  | [] => []
  | p :: pieces =>
    match pieceSetting p with
    | none => []
    | some s => s.toList ++ askedSettings pieces

/-- The last value that is asked for a field. -/
def lastAsked (l : List Setting) (k : ConfigKey) : Option FieldValue :=
  (l.reverse.find? fun s => s.key = k).map Setting.value

/-- Every field that is asked for has the value that is asked last. -/
def HasAsked (c : Config) (l : List Setting) : Prop :=
  ∀ k v, lastAsked l k = some v → c.field k = v

/-- Where a request gets an error, for a refused pair, for a file that does not open or for a
document that is too large, its form asks for nothing new. In the last case the file has been
written, and has to have been that of the configuration already. -/
structure AsksNothingNew (diskOk : Bool) (ws : WebServer) (pieces : List (List Char × Char)) :
    Prop where
  unwritten : RefusedIn pieces ∨ diskOk = false → HasAsked ws.cfg (askedSettings pieces)
  tooLarge : ¬ RefusedIn pieces → diskOk = true →
    2048 ≤ (configDocument ((askedSettings pieces).foldl Setting.put ws.cfg)).length →
      HasAsked ws.cfg (askedSettings pieces) ∧ ws.file = some (writeConfigFile ws.cfg)

/-! ## The settings of a request -/

variable {c : Config} {k : ConfigKey} {val : List Char} {pieces : List (List Char × Char)}
  {l : List Setting} {ws : WebServer} {r : HttpRequest} {diskOk : Bool} {s : Setting}

theorem ite_not_ok {b b' : Bool} (h : b = !b') (c c' : Config) :
    (if b then Except.ok c' else Except.ok c : Except String Config) =
      .ok (if b' then c else c') := by
  subst h
  cases b' with
  | true => rfl
  | false => rfl

theorem applyPair_str (c : Config) (k : StrKey) (val : List Char) :
    applyPair c (.str k) val = .ok (if leavesText k val then c else setKey (.str k) val c) := by
  cases k with
  | brokerPass | webPass =>
    refine ite_not_ok ?_ _ _
    rw [leavesText, Bool.not_or, ← decide_not, ← decide_not]
  | logLevel | logPath | rfidPort =>
    rw [leavesText]
    by_cases hempty : val = []
    · subst hempty
      rfl
    · rw [decide_eq_false hempty]
      exact if_pos hempty
  | _ => rfl

/-- A pair does what it asks for, or is refused. -/
theorem applyPair_pairSetting (c : Config) (k : ConfigKey) (val : List Char) :
    (∃ err, applyPair c k val = .error err ∧ pairSetting k val = none) ∨
      ∃ s, pairSetting k val = some s ∧ applyPair c k val = .ok (s.toList.foldl Setting.put c) := by
  cases k with
  | str k =>
    refine .inr ⟨_, rfl, ?_⟩
    rw [applyPair_str]
    cases leavesText k val with
    | true => rfl
    | false => rfl
  | num k =>
    cases hn : formNumber val 1 (numBound k) with
    | none =>
      refine .inl ?_
      rw [pairSetting, hn]
      cases k with
      | brokerPort => exact ⟨_, by rw [applyPair, show formNumber val 1 65535 = none from hn], rfl⟩
      | pollHz => exact ⟨_, by rw [applyPair, show formNumber val 1 (2 ^ 31 - 1) = none from hn], rfl⟩
      | webPort => exact ⟨_, by rw [applyPair, show formNumber val 1 65535 = none from hn], rfl⟩
    | some n =>
      refine .inr ⟨some (.num k n), by rw [pairSetting, hn]; rfl, ?_⟩
      cases k with
      | brokerPort => rw [applyPair, show formNumber val 1 65535 = some n from hn]; rfl
      | pollHz => rw [applyPair, show formNumber val 1 (2 ^ 31 - 1) = some n from hn]; rfl
      | webPort => rw [applyPair, show formNumber val 1 65535 = some n from hn]; rfl
  | flag k =>
    rw [applyPair, pairSetting]
    cases parseBool val with
    | none => exact .inl ⟨_, rfl, rfl⟩
    | some b => exact .inr ⟨_, rfl, rfl⟩
  | meterVScale =>
    rw [applyPair, pairSetting]
    obtain ⟨d, rest⟩ := strtod val
    cases d with
    | none => exact .inl ⟨_, rfl, rfl⟩
    | some d =>
      cases rest with
      | cons x rest => exact .inl ⟨_, rfl, rfl⟩
      | nil =>
        dsimp only
        cases decide (0 < d) && decide (d < 10000) with
        | true => exact .inr ⟨_, rfl, rfl⟩
        | false => exact .inl ⟨_, rfl, rfl⟩

/-- The pieces set what they ask for, down to the first that is refused. -/
theorem applyPieces_asked (c : Config) (pieces : List (List Char × Char)) :
    (applyPieces c pieces).1 = (askedSettings pieces).foldl Setting.put c ∧
      ((applyPieces c pieces).2 = none ↔ ¬ RefusedIn pieces) := by
  induction pieces generalizing c with
  | nil =>
    refine ⟨rfl, iff_of_true rfl ?_⟩
    rintro ⟨p, hmem, -⟩
    exact absurd hmem List.not_mem_nil
  | cons p pieces ih =>
    have hrefused : RefusedIn (p :: pieces) ↔ pieceSetting p = none ∨ RefusedIn pieces := by
      rw [RefusedIn, List.exists_mem_cons_iff]
      rfl
    rw [hrefused, applyPieces, askedSettings]
    cases hnext : webFormNext p.1 p.2 with
    | none =>
      have hp : pieceSetting p = none := by rw [pieceSetting, hnext]
      rw [hp]
      exact ⟨rfl, iff_of_false (Option.some_ne_none _) fun h => h (.inl rfl)⟩
    | some kv =>
      obtain ⟨key, val⟩ := kv
      cases hkey : ConfigKey.ofName key with
      | none =>
        have hp : pieceSetting p = some none := by rw [pieceSetting, hnext]; dsimp only; rw [hkey]
        rw [hp]
        simpa [hkey] using ih c
      | some k =>
        have hp : pieceSetting p = pairSetting k val := by
          rw [pieceSetting, hnext]; dsimp only; rw [hkey]
        dsimp only
        rw [hkey]
        dsimp only
        obtain ⟨err, happly, hset⟩ | ⟨s, hset, happly⟩ := applyPair_pairSetting c k val
        · rw [hp, hset, happly]
          exact ⟨rfl, iff_of_false (Option.some_ne_none _) fun h => h (.inl rfl)⟩
        · rw [hp, hset, happly]
          obtain ⟨hcfg, herr⟩ := ih (s.toList.foldl Setting.put c)
          rw [List.foldl_append]
          exact ⟨hcfg, herr.trans (by simp)⟩

/-! ## Last values -/

theorem field_put_self (c : Config) (s : Setting) : (s.put c).field s.key = s.value := by
  cases s with
  | str k v =>
    have hset : Function.update c.str k v k = v := Function.update_self ..
    exact congrArg FieldValue.str hset
  | num k n =>
    have hset : Function.update c.num k n k = n := Function.update_self ..
    exact congrArg FieldValue.num hset
  | flag k b =>
    have hset : Function.update c.flag k b k = b := Function.update_self ..
    exact congrArg FieldValue.flag hset
  | scale d => rfl

theorem field_put_ne (c : Config) (h : s.key ≠ k) : (s.put c).field k = c.field k := by
  cases s with
  | str k' v =>
    cases k with
    | str k =>
      have hk : k ≠ k' := fun heq => h (congrArg ConfigKey.str heq.symm)
      have hkept : Function.update c.str k' v k = c.str k := Function.update_of_ne hk ..
      exact congrArg FieldValue.str hkept
    | num _ | flag _ | meterVScale => rfl
  | num k' n =>
    cases k with
    | num k =>
      have hk : k ≠ k' := fun heq => h (congrArg ConfigKey.num heq.symm)
      have hkept : Function.update c.num k' n k = c.num k := Function.update_of_ne hk ..
      exact congrArg FieldValue.num hkept
    | str _ | flag _ | meterVScale => rfl
  | flag k' b =>
    cases k with
    | flag k =>
      have hk : k ≠ k' := fun heq => h (congrArg ConfigKey.flag heq.symm)
      have hkept : Function.update c.flag k' b k = c.flag k := Function.update_of_ne hk ..
      exact congrArg FieldValue.flag hkept
    | str _ | num _ | meterVScale => rfl
  | scale d =>
    cases k with
    | meterVScale => exact absurd rfl h
    | str _ | num _ | flag _ => rfl

theorem Config.ext_field {c c' : Config} (h : ∀ k, c.field k = c'.field k) : c = c' := by
  refine Config.ext (funext fun k => ?_) (funext fun k => ?_) (funext fun k => ?_) ?_
  · exact FieldValue.str.inj (h (.str k))
  · exact FieldValue.num.inj (h (.num k))
  · exact FieldValue.flag.inj (h (.flag k))
  · exact FieldValue.scale.inj (h .meterVScale)

theorem lastAsked_append (l : List Setting) (s : Setting) (k : ConfigKey) :
    lastAsked (l ++ [s]) k = if s.key = k then some s.value else lastAsked l k := by
  rw [lastAsked, lastAsked, List.reverse_append, List.reverse_singleton, List.singleton_append,
    List.find?_cons]
  by_cases hk : s.key = k
  · rw [decide_eq_true hk, if_pos hk]
    rfl
  · rw [decide_eq_false hk, if_neg hk]

/-- A field ends with the value that is asked last. -/
theorem field_foldl_put (c : Config) (l : List Setting) (k : ConfigKey) :
    (l.foldl Setting.put c).field k = (lastAsked l k).getD (c.field k) := by
  induction l using List.reverseRecOn with
  | nil => rfl
  | append_singleton l s ih =>
    rw [List.foldl_append, List.foldl_cons, List.foldl_nil, lastAsked_append]
    by_cases hk : s.key = k
    · rw [if_pos hk, ← hk, field_put_self]
      rfl
    · rw [if_neg hk, field_put_ne _ hk]
      exact ih

theorem foldl_put_eq_iff (c : Config) (l : List Setting) :
    l.foldl Setting.put c = c ↔ HasAsked c l := by
  constructor
  · intro hsame k v hlast
    have hfield := field_foldl_put c l k
    rw [hsame, hlast] at hfield
    exact hfield
  · intro hasked
    refine Config.ext_field fun k => ?_
    rw [field_foldl_put]
    cases hlast : lastAsked l k with
    | none => rfl
    | some v => exact (hasked k v hlast).symm

/-! ## Errors -/

theorem postConfigStatus_refused
    (h : RefusedIn (formPieces r.behind r.body)) :
    postConfigStatus diskOk ws r =
      (400, { ws with cfg := (askedSettings (formPieces r.behind r.body)).foldl Setting.put ws.cfg }) := by
  obtain ⟨hcfg, herr⟩ := applyPieces_asked ws.cfg (formPieces r.behind r.body)
  rw [postConfigStatus, handlePostConfig, validateAndApplyConfig]
  cases happly : applyPieces ws.cfg (formPieces r.behind r.body) with
  | mk cfg err =>
    rw [happly] at hcfg herr
    cases err with
    | none => exact absurd h (herr.mp rfl)
    | some err =>
      dsimp only at hcfg
      rw [hcfg]

theorem handlePostConfig_accepted (h : ¬ RefusedIn (formPieces r.behind r.body)) :
    handlePostConfig diskOk ws r =
      let cfg := (askedSettings (formPieces r.behind r.body)).foldl Setting.put ws.cfg
      if diskOk = false then (.configNotWritten, { ws with cfg := cfg })
      else (.configApplied, { ws with cfg := cfg, file := some (writeConfigFile cfg) }) := by
  obtain ⟨hcfg, herr⟩ := applyPieces_asked ws.cfg (formPieces r.behind r.body)
  rw [handlePostConfig, validateAndApplyConfig]
  cases happly : applyPieces ws.cfg (formPieces r.behind r.body) with
  | mk cfg err =>
    rw [happly] at hcfg herr
    have hnone : err = none := herr.mpr h
    subst hnone
    dsimp only at hcfg
    rw [hcfg]

/-- The wrapped document always fits the buffer of the answer. -/
theorem wrapped_short {doc : List Char} (h : doc.length < 2048) :
    ¬ 2200 ≤ ("\x7b\"ok\":true,\"config\":".toList ++ doc ++ ['\x7d']).length := by
  rw [List.length_append, List.length_append]
  have hhead : "\x7b\"ok\":true,\"config\":".toList.length = 20 := by decide
  have hlast : ['\x7d'].length = 1 := rfl
  omega

theorem postConfigStatus_written (h : ¬ RefusedIn (formPieces r.behind r.body)) (hdisk : diskOk = true) :
    let cfg := (askedSettings (formPieces r.behind r.body)).foldl Setting.put ws.cfg
    postConfigStatus diskOk ws r =
      (if (configDocument cfg).length < 2048 then 200 else 500,
        { ws with cfg := cfg, file := some (writeConfigFile cfg) }) := by
  intro cfg
  rw [postConfigStatus, handlePostConfig_accepted h]
  dsimp only
  rw [if_neg (by rw [hdisk]; exact Bool.noConfusion)]
  dsimp only
  rw [buildConfigJson_eq (show 0 < 2048 by decide)]
  by_cases hfits : (configDocument cfg).length < 2048
  · rw [if_pos hfits, if_pos hfits]
    dsimp only
    rw [if_neg (wrapped_short hfits)]
  · rw [if_neg hfits, if_neg hfits]

/-- An error answer leaves the configuration and the file as they were exactly when the form asks
for nothing new where it gets the error. -/
theorem config_error_keeps_iff (diskOk : Bool) (ws : WebServer) (r : HttpRequest) :
    ErrorKeeps diskOk ws r ↔ AsksNothingNew diskOk ws (formPieces r.behind r.body) := by
  rw [ErrorKeeps]
  by_cases hrefused : RefusedIn (formPieces r.behind r.body)
  · rw [postConfigStatus_refused hrefused]
    constructor
    · intro h
      exact ⟨fun _ => (foldl_put_eq_iff _ _).mp (h (.inl rfl)).1, fun hnot => absurd hrefused hnot⟩
    · intro h _
      exact ⟨(foldl_put_eq_iff _ _).mpr (h.unwritten (.inl hrefused)), rfl⟩
  cases diskOk with
  | false =>
    rw [postConfigStatus, handlePostConfig_accepted hrefused]
    constructor
    · intro h
      exact ⟨fun _ => (foldl_put_eq_iff _ _).mp (h (.inr rfl)).1, fun _ hdisk => nomatch hdisk⟩
    · intro h _
      exact ⟨(foldl_put_eq_iff _ _).mpr (h.unwritten (.inr rfl)), rfl⟩
  | true =>
    rw [postConfigStatus_written hrefused rfl]
    dsimp only
    constructor
    · intro h
      refine ⟨fun hno => hno.elim (absurd · hrefused) nofun, fun _ _ hlarge => ?_⟩
      obtain ⟨hcfg, hfile⟩ := h (.inr (if_neg (Nat.not_lt.mpr hlarge)))
      rw [hcfg] at hfile
      exact ⟨(foldl_put_eq_iff _ _).mp hcfg, hfile.symm⟩
    · intro h herr
      have hlarge : 2048 ≤ (configDocument ((askedSettings (formPieces r.behind r.body)).foldl
          Setting.put ws.cfg)).length := by
        refine Nat.not_lt.mp fun hfits => ?_
        rw [if_pos hfits] at herr
        exact absurd herr (by decide)
      obtain ⟨hasked, hfile⟩ := h.tooLarge hrefused rfl hlarge
      rw [(foldl_put_eq_iff _ _).mpr hasked]
      exact ⟨rfl, hfile.symm⟩

/-- A new name with a port that is refused. -/
def halfPost : HttpRequest where
  method := "POST".toList
  path := "/api/config".toList
  headers := []
  authorization := []
  contentLength := none
  body := "device_id=x&broker_port=0".toList
  behind := '\x00'

def freshServer : WebServer := webServerStart configDefaults none none

/-- The name is set although the answer is an error. -/
theorem refused_post_sets : ¬ ∀ diskOk ws r, ErrorKeeps diskOk ws r := by
  intro h
  have hstatus : (postConfigStatus true freshServer halfPost).1 = 400 := by decide +kernel
  have hset : ((postConfigStatus true freshServer halfPost).2.cfg.str .deviceId).chars =
      "x".toList := by decide +kernel
  obtain ⟨hcfg, -⟩ := h true freshServer halfPost (.inl hstatus)
  rw [hcfg] at hset
  revert hset
  decide +kernel

end OpenEVCharger
