import OpenEVCharger.Companion.WebConfig

/-!
# What survives the configuration file

The file has no way to write a line break inside a value, and the parser trims the blanks
around a value; the meter scale is written with three digits behind the point. Everything
else is read back as it was written.
-/

namespace OpenEVCharger

/-! ## Trimming -/

section Trim

variable {α : Type*} {p q : α → Bool} {a b l : List α} {x : α}

/-- Trailing items that go anyway make no difference to the leading ones. -/
theorem rdropWhile_dropWhile_rdropWhile (l : List α) :
    ((l.rdropWhile q).dropWhile p).rdropWhile q = (l.dropWhile p).rdropWhile q := by
  have hsplit := List.rdropWhile_append_rtakeWhile (p := q) (l := l)
  have htail : ∀ y ∈ l.rtakeWhile q, q y = true := fun y hy => List.mem_rtakeWhile_imp hy
  conv_rhs => rw [← hsplit]
  rw [List.dropWhile_append]
  split
  · next hempty =>
    rw [List.isEmpty_iff.mp hempty, List.rdropWhile_nil, eq_comm, List.rdropWhile_eq_nil_iff]
    intro y hy
    exact htail y ((List.dropWhile_sublist p).subset hy)
  · rw [rdropWhile_append_of_pos htail]

end Trim

theorem trim_sublist (s : List Char) : (trim s).Sublist s := by
  rw [trim]
  exact (List.rdropWhile_prefix _ _).sublist.trans (List.dropWhile_sublist _)

theorem trim_eq_self {s : List Char} (h : ∀ c ∈ s, c ≠ ' ' ∧ c ≠ '\t' ∧ c ≠ '\r' ∧ c ≠ '\n') :
    trim s = s := by
  rw [trim]
  have hlead : s.dropWhile (fun c => c = ' ' || c = '\t') = s := by
    rw [List.dropWhile_eq_self_iff]
    intro hpos
    obtain ⟨h1, h2, -, -⟩ := h _ (List.getElem_mem hpos)
    simp [h1, h2]
  rw [hlead, List.rdropWhile_eq_self_iff]
  intro hne
  obtain ⟨h1, h2, h3, h4⟩ := h _ (List.getLast_mem hne)
  simp [h1, h2, h3, h4]

/-- The trimming of a line reaches into the value, which is trimmed once more. -/
theorem trim_value (val : List Char) :
    trim ((' ' :: val).rdropWhile fun c => c = ' ' || c = '\t' || c = '\r' || c = '\n') =
      trim val := by
  rw [trim, rdropWhile_dropWhile_rdropWhile]
  rfl

/-! ## One entry -/

variable {k : ConfigKey} {val : List Char} {c c₀ : Config}

theorem ConfigKey.name_plain (k : ConfigKey) :
    k.name.toList ≠ [] ∧ ∀ c ∈ k.name.toList,
      c ∉ [' ', '\t', '\r', '\n', '=', '#', '\x00'] := by
  cases k with
  | str k => cases k <;> simp [ConfigKey.name]
  | num k => cases k <;> simp [ConfigKey.name]
  | flag k => cases k <;> simp [ConfigKey.name]
  | meterVScale => simp [ConfigKey.name]

/-- A line that was written for a key is read as that key and the value without the blanks
around it. -/
theorem parseEntry_line (k : ConfigKey) (val : List Char) :
    parseEntry (k.label ++ val) = some (k.name.toList, trim val) := by
  obtain ⟨hne, hplain⟩ := k.name_plain
  generalize hname : k.name.toList = name at hne hplain
  have hkey : ∀ c ∈ name, c ≠ ' ' ∧ c ≠ '\t' ∧ c ≠ '\r' ∧ c ≠ '\n' := by
    intro c hc
    have := hplain c hc
    simp only [List.mem_cons, not_or] at this
    exact ⟨this.1, this.2.1, this.2.2.1, this.2.2.2.1⟩
  have hlead : ∀ rest, (name ++ rest).dropWhile (fun c => c = ' ' || c = '\t') = name ++ rest := by
    intro rest
    cases name with
    | nil => exact absurd rfl hne
    | cons c name =>
      obtain ⟨h1, h2, -⟩ := hkey c (List.mem_cons_self ..)
      exact List.dropWhile_cons_of_neg (by simp [h1, h2])
  set pad := List.replicate (max 1 (13 - name.length)) ' ' with hpad
  have hspace : ∀ c ∈ pad, c = ' ' := fun c hc => List.eq_of_mem_replicate hc
  set rest := (' ' :: val).rdropWhile fun c => c = ' ' || c = '\t' || c = '\r' || c = '\n'
    with hrest
  have htrim : trim (k.label ++ val) = (name ++ pad) ++ '=' :: rest := by
    have hline : k.label ++ val = name ++ (pad ++ '=' :: ' ' :: val) := by
      rw [ConfigKey.label, hname, ← hpad]
      simp
    rw [hline, trim, hlead, ← List.append_assoc, rdropWhile_append_cons (by decide)]
  have hbefore : ∀ c ∈ name ++ pad, decide (c ≠ '=') = true := by
    intro c hc
    rcases List.mem_append.mp hc with hc | hc
    · have := hplain c hc
      simp only [List.mem_cons, not_or] at this
      exact decide_eq_true this.2.2.2.2.1
    · rw [hspace c hc]
      decide
  have hkeyTrim : trim (name ++ pad) = name := by
    rw [trim, hlead, rdropWhile_append_of_pos (by intro c hc; rw [hspace c hc]; decide)]
    have := trim_eq_self hkey
    rw [trim, ← List.append_nil name, hlead, List.append_nil] at this
    exact this
  have hhash : ((name ++ pad) ++ '=' :: rest).head? ≠ some '#' := by
    cases name with
    | nil => exact absurd rfl hne
    | cons c name =>
      have := hplain c (List.mem_cons_self ..)
      simp only [List.mem_cons, not_or] at this
      intro h
      exact this.2.2.2.2.2.1 (Option.some.inj h)
  have htake : ((name ++ pad) ++ '=' :: rest).takeWhile (fun c => decide (c ≠ '=')) =
      name ++ pad := by
    rw [List.takeWhile_append_of_pos hbefore]
    simp
  have hdrop : ((name ++ pad) ++ '=' :: rest).dropWhile (fun c => decide (c ≠ '=')) =
      '=' :: rest := by
    rw [List.dropWhile_append_of_pos hbefore]
    simp
  have hentry : ¬ (decide ((name ++ pad) ++ '=' :: rest = []) ||
      decide (((name ++ pad) ++ '=' :: rest).head? = some '#')) = true := by
    rw [Bool.or_eq_true, decide_eq_true_eq, decide_eq_true_eq]
    rintro (hnil | hcomment)
    · exact absurd hnil (by simp)
    · exact hhash hcomment
  rw [parseEntry, htrim, if_neg hentry, if_pos (by simp), htake, hdrop, hkeyTrim, List.tail_cons, hrest,
    trim_value]

/-- What the line that was written for a key sets. -/
def restore (c c₀ : Config) (k : ConfigKey) : Config := setKey k (trim (configValue c k)) c₀

theorem parseLine_line (c c₀ : Config) (k : ConfigKey) :
    parseLine c₀ (configLine c k) = restore c c₀ k := by
  rw [parseLine, configLine, parseEntry_line]
  dsimp only
  rw [ConfigKey.ofName_name]
  rfl

theorem parseLine_header (c : Config) : parseLine c configHeader = c := by
  have h : parseEntry configHeader = none := by decide
  rw [parseLine, h]

/-! ## The lines of the file -/

theorem takeLine_line {line rest : List Char} (hbreak : '\n' ∉ line) (hlen : line.length ≤ 255) :
    takeLine (line ++ '\n' :: rest) = (line, rest) := by
  have htake : (line ++ '\n' :: rest).takeWhile (fun c => decide (c ≠ '\n')) = line := by
    rw [List.takeWhile_append_of_pos (by
      intro c hc
      exact decide_eq_true (ne_of_mem_of_not_mem hc hbreak))]
    simp
  rw [takeLine, htake, List.take_of_length_le hlen, List.drop_left]
  rfl

/-- Short lines without a break are found again in what they are joined to. -/
theorem linesFrom_join {lines : List (List Char)}
    (h : ∀ line ∈ lines, '\n' ∉ line ∧ line.length ≤ 255) (fuel : ℕ)
    (hfuel : (lines.flatMap (· ++ ['\n'])).length ≤ fuel) :
    linesFrom fuel (lines.flatMap (· ++ ['\n'])) = lines := by
  induction lines generalizing fuel with
  | nil => cases fuel <;> rfl
  | cons line lines ih =>
    obtain ⟨hbreak, hlen⟩ := h line (List.mem_cons_self ..)
    have hjoin : (line :: lines).flatMap (· ++ ['\n']) =
        line ++ '\n' :: lines.flatMap (· ++ ['\n']) := by simp
    rw [hjoin] at hfuel ⊢
    rw [List.length_append, List.length_cons] at hfuel
    cases fuel with
    | zero => omega
    | succ fuel =>
      have hstep := @takeLine_line _ (lines.flatMap (· ++ ['\n'])) hbreak hlen
      generalize htext : line ++ '\n' :: lines.flatMap (· ++ ['\n']) = text at hstep
      cases text with
      | nil => exact absurd htext (by simp)
      | cons c text =>
        rw [linesFrom, hstep, ih (fun l hl => h l (List.mem_cons_of_mem _ hl)) fuel (by omega)]

theorem linesFrom_break {fuel : ℕ} {text line : List Char} (h : line ∈ linesFrom fuel text) :
    '\n' ∉ line := by
  induction fuel generalizing text with
  | zero => nomatch h
  | succ fuel ih =>
    cases text with
    | nil => nomatch h
    | cons c text =>
      rcases List.mem_cons.mp h with rfl | hrest
      · intro hmem
        have := List.mem_takeWhile_imp (List.mem_of_mem_take hmem)
        exact absurd this (by decide)
      · exact ih hrest

/-! ## What the file is made of -/

theorem printInt_mem {n : ℤ} {ch : Char} (h : ch ∈ printInt n) : ch.isDigit = true ∨ ch = '-' := by
  rw [printInt] at h
  split at h
  · rcases List.mem_cons.mp h with hsign | hdigit
    · exact .inr hsign
    · exact .inl (isDigit_toDigits _ ch hdigit)
  · exact .inl (isDigit_toDigits _ ch h)

/-- The characters that reading a line or a text could take away. -/
abbrev fragile : List Char := [' ', '\t', '\r', '\n', '\x00']

theorem digit_not_fragile {ch : Char} (h : ch.isDigit = true) : ch ∉ fragile := by
  intro hmem
  simp only [fragile, List.mem_cons, List.not_mem_nil, or_false] at hmem
  rcases hmem with rfl | rfl | rfl | rfl | rfl <;> exact absurd h (by decide)

/-- Numbers and flags are printed without characters that reading could take away. -/
theorem configValue_plain (c : Config) (hk : ∀ k', k ≠ .str k') :
    ∀ ch ∈ configValue c k, ch ∉ fragile := by
  intro ch hch
  cases k with
  | str k => exact absurd rfl (hk k)
  | num k =>
    rcases printInt_mem hch with hdigit | rfl
    · exact digit_not_fragile hdigit
    · simp [fragile]
  | flag k =>
    rw [configValue, printBool] at hch
    revert ch
    split <;> simp [fragile]
  | meterVScale =>
    rcases printFixed_mem hch with hdigit | rfl
    · exact digit_not_fragile hdigit
    · simp [fragile]

theorem trim_configValue (c : Config) (hk : ∀ k', k ≠ .str k') :
    trim (configValue c k) = configValue c k := by
  refine trim_eq_self ?_
  intro ch hch
  have := configValue_plain c hk ch hch
  simp only [fragile, List.mem_cons, not_or] at this
  exact ⟨this.1, this.2.1, this.2.2.1, this.2.2.2.1⟩

theorem label_plain (k : ConfigKey) : ∀ ch ∈ k.label, ch ≠ '\n' ∧ ch ≠ '\x00' := by
  intro ch hch
  have hname := (ConfigKey.name_plain k).2 ch
  rw [ConfigKey.label, List.mem_append, List.mem_append] at hch
  rcases hch with (hch | hch) | hch
  · have hplain := hname hch
    simp only [List.mem_cons, not_or] at hplain
    exact ⟨hplain.2.2.2.1, hplain.2.2.2.2.2.2.1⟩
  · rw [List.eq_of_mem_replicate hch]
    exact ⟨by decide, by decide⟩
  · have hends : ch = '=' ∨ ch = ' ' := by simpa using hch
    rcases hends with rfl | rfl
    · exact ⟨by decide, by decide⟩
    · exact ⟨by decide, by decide⟩

theorem label_length (k : ConfigKey) : k.label.length ≤ 16 := by
  cases k with
  | str k => cases k <;> decide
  | num k => cases k <;> decide
  | flag k => cases k <;> decide
  | meterVScale => decide

theorem toDigits_length {n width : ℕ} (hwidth : 0 < width) (h : n < 10 ^ width) :
    (Nat.toDigits 10 n).length ≤ width :=
  (Nat.length_toDigits_le_iff (by decide) hwidth).mpr h

theorem configValue_length (h : ConfigOk c) (k : ConfigKey) : (configValue c k).length ≤ 127 := by
  cases k with
  | str k =>
    have := (c.str k).short
    have hmax : configStrMax = 128 := rfl
    show (c.str k).chars.length ≤ 127
    omega
  | num k =>
    have hrange : (c.num k).natAbs < 10 ^ 10 := by
      have hport := h.brokerPort
      have hpoll := h.pollHz
      have hweb := h.webPort
      cases k <;> omega
    have hlen := toDigits_length (by decide) hrange
    show (printInt (c.num k)).length ≤ 127
    rw [printInt]
    split
    · rw [List.length_cons]
      omega
    · omega
  | flag k =>
    show (printBool (c.flag k)).length ≤ 127
    cases c.flag k <;> decide
  | meterVScale =>
    have hlt : roundHalfEven (c.meterVScale * 10 ^ 3) < 10 ^ 7 + 1 := by
      have hnear := (abs_le.mp (roundHalfEven_near (c.meterVScale * 10 ^ 3))).2
      have hscale := h.scale.2
      generalize roundHalfEven (c.meterVScale * 10 ^ 3) = n at hnear ⊢
      have hcast : (n : ℚ) < ((10 ^ 7 + 1 : ℤ) : ℚ) := by
        push_cast
        linarith
      exact Int.cast_lt.mp hcast
    have hwhole : (roundHalfEven (c.meterVScale * 10 ^ 3)).toNat / 10 ^ 3 < 10 ^ 5 := by omega
    have hlen := toDigits_length (by decide) hwhole
    have hfraction := @padDigits_length _ 3
      (Nat.mod_lt (roundHalfEven (c.meterVScale * 10 ^ 3)).toNat (by decide : 10 ^ 3 > 0))
      (by decide)
    show (printFixed 3 c.meterVScale).length ≤ 127
    rw [printFixed, List.length_append, List.length_cons, hfraction]
    omega

theorem writtenKeys_length (c : Config) : (writtenKeys c).length ≤ 17 := by
  have hopt : ∀ k, (optionalKey c k).length ≤ 1 := by
    intro k
    rw [optionalKey]
    split
    · exact Nat.zero_le 1
    · exact le_rfl
  have h1 := hopt .brokerUser
  have h2 := hopt .brokerPass
  have h3 := hopt .deviceId
  have h4 := hopt .webUser
  have h5 := hopt .webPass
  simp only [writtenKeys, List.length_append, List.length_cons, List.length_nil]
  omega

/-- The lines that are written. -/
def fileLines (c : Config) : List (List Char) :=
  configHeader :: (writtenKeys c).map (configLine c)

theorem fileLines_length (h : ConfigOk c) : ∀ line ∈ fileLines c, line.length ≤ 143 := by
  intro line hline
  rcases List.mem_cons.mp hline with rfl | hline
  · decide
  · obtain ⟨k, -, rfl⟩ := List.mem_map.mp hline
    rw [configLine, List.length_append]
    have h1 := label_length k
    have h2 := configValue_length h k
    omega

theorem writeConfigFile_length (h : ConfigOk c) : (writeConfigFile c).length ≤ 4095 := by
  have hjoin : ∀ lines : List (List Char), (∀ line ∈ lines, line.length ≤ 143) →
      (lines.flatMap (· ++ ['\n'])).length ≤ 144 * lines.length := by
    intro lines hlines
    induction lines with
    | nil => decide
    | cons line lines ih =>
      have h1 := hlines line (List.mem_cons_self ..)
      have h2 := ih fun l hl => hlines l (List.mem_cons_of_mem _ hl)
      simp only [List.flatMap_cons, List.length_append, List.length_cons, List.length_nil]
      omega
  have hlen := hjoin (fileLines c) (fileLines_length h)
  have hkeys := writtenKeys_length c
  rw [show (fileLines c).length = (writtenKeys c).length + 1 by simp [fileLines]] at hlen
  show ((fileLines c).flatMap (· ++ ['\n'])).length ≤ 4095
  omega

theorem configValue_nulFree (c : Config) (k : ConfigKey) : ∀ ch ∈ configValue c k, ch ≠ '\x00' := by
  intro ch hch
  cases k with
  | str k => exact (c.str k).nulFree ch hch
  | _ =>
    rintro rfl
    exact configValue_plain c (by nofun) _ hch (by simp [fragile])

theorem writeConfigFile_nulFree (c : Config) : ∀ ch ∈ writeConfigFile c, ch ≠ '\x00' := by
  intro ch hch
  obtain ⟨line, hline, hch⟩ := List.mem_flatMap.mp hch
  rcases List.mem_append.mp hch with hch | hch
  · rcases List.mem_cons.mp hline with rfl | hline
    · have hheader : configHeader.contains '\x00' = false := by decide
      rintro rfl
      rw [List.contains_iff_mem.mpr hch] at hheader
      cases hheader
    · obtain ⟨k, -, rfl⟩ := List.mem_map.mp hline
      rcases List.mem_append.mp hch with hlabel | hvalue
      · exact (label_plain k ch hlabel).2
      · exact configValue_nulFree c k ch hvalue
  · rw [List.mem_singleton.mp hch]
    decide

/-- The lines of the written file, if no value breaks one. -/
theorem configLines_write (h : ConfigOk c) (hbreak : ∀ k, '\n' ∉ (c.str k).chars) :
    configLines (writeConfigFile c) = fileLines c := by
  refine linesFrom_join ?_ _ le_rfl
  intro line hline
  refine ⟨?_, (fileLines_length h line hline).trans (by decide)⟩
  rcases List.mem_cons.mp hline with rfl | hline
  · decide
  · obtain ⟨k, -, rfl⟩ := List.mem_map.mp hline
    rw [configLine, List.mem_append, not_or]
    refine ⟨fun hmem => (label_plain k _ hmem).1 rfl, ?_⟩
    cases k with
    | str k => exact hbreak k
    | _ => exact fun hmem => configValue_plain c (by nofun) _ hmem (by decide)

/-! ## What is read back -/

/-- The scale that is read back. -/
def restoredScale (c : Config) (kept : ℚ) : ℚ :=
  let d := binary64.round (decimal 3 c.meterVScale)
  if 0 < d && d < 10000 then d else kept

theorem restore_scale (h : ConfigOk c) (c₀ : Config) :
    restore c c₀ .meterVScale = { c₀ with meterVScale := restoredScale c c₀.meterVScale } := by
  rw [restore, trim_configValue c (by nofun)]
  dsimp only [setKey, configValue]
  rw [strtod_printFixed h.scale.1.le (by decide), restoredScale]
  dsimp only
  split <;> rfl

theorem restore_num (h : ConfigOk c) (c₀ : Config) (k : NumKey) :
    restore c c₀ (.num k) = { c₀ with num := Function.update c₀.num k (c.num k) } := by
  have hrange : -2 ^ 31 ≤ c.num k ∧ c.num k < 2 ^ 31 := by
    have hport := h.brokerPort
    have hpoll := h.pollHz
    have hweb := h.webPort
    cases k <;> omega
  rw [restore, trim_configValue c (by nofun)]
  dsimp only [setKey, configValue]
  rw [atoi_printInt hrange.1 hrange.2]

theorem restore_flag (c c₀ : Config) (k : FlagKey) :
    restore c c₀ (.flag k) = { c₀ with flag := Function.update c₀.flag k (c.flag k) } := by
  rw [restore, trim_configValue c (by nofun)]
  dsimp only [setKey, configValue]
  have hbool : ∀ b, (parseBool (printBool b)).getD false = b := by decide
  rw [hbool]

/-- A fold in which only the steps for one key change a field, the second time no more than
the first. -/
theorem foldl_field {α β γ : Type*} [DecidableEq α] {f : γ → α → γ} {key : α} (get : γ → β)
    (new : β → β) (hidem : ∀ x, new (new x) = new x)
    (hstep : ∀ s a, get (f s a) = if a = key then new (get s) else get s) (keys : List α) (s : γ) :
    get (keys.foldl f s) = if key ∈ keys then new (get s) else get s := by
  induction keys generalizing s with
  | nil => rfl
  | cons a keys ih =>
    rw [List.foldl_cons, ih, hstep]
    by_cases ha : a = key
    · rw [if_pos ha, if_pos (List.mem_cons.mpr (.inl ha.symm)), hidem, ite_self]
    · have hmem : key ∈ a :: keys ↔ key ∈ keys := by
        rw [List.mem_cons, or_iff_right (fun h => ha h.symm)]
      simp only [if_neg ha, hmem]

theorem fold_str (h : ConfigOk c) (keys : List ConfigKey) (c₀ : Config) (k : StrKey) :
    (keys.foldl (restore c) c₀).str k =
      if .str k ∈ keys then setStr (trim (c.str k).chars) else c₀.str k := by
  refine foldl_field (fun s => s.str k) (fun _ => setStr (trim (c.str k).chars)) (fun _ => rfl) ?_
    keys c₀
  intro s key
  cases key with
  | str k' =>
    by_cases hk : k' = k
    · rw [hk, if_pos rfl]
      exact Function.update_self ..
    · rw [if_neg (fun heq => hk (ConfigKey.str.inj heq))]
      exact Function.update_of_ne (Ne.symm hk) ..
  | num k' => rw [restore_num h, if_neg nofun]
  | flag k' => rw [restore_flag, if_neg nofun]
  | meterVScale => rw [restore_scale h, if_neg nofun]

theorem fold_num (h : ConfigOk c) (keys : List ConfigKey) (c₀ : Config) (k : NumKey) :
    (keys.foldl (restore c) c₀).num k = if .num k ∈ keys then c.num k else c₀.num k := by
  refine foldl_field (fun s => s.num k) (fun _ => c.num k) (fun _ => rfl) ?_ keys c₀
  intro s key
  cases key with
  | str k' => rfl
  | num k' =>
    rw [restore_num h]
    by_cases hk : k' = k
    · rw [hk, if_pos rfl]
      exact Function.update_self ..
    · rw [if_neg (fun heq => hk (ConfigKey.num.inj heq))]
      exact Function.update_of_ne (Ne.symm hk) ..
  | flag k' => rw [restore_flag, if_neg nofun]
  | meterVScale => rw [restore_scale h, if_neg nofun]

theorem fold_flag (h : ConfigOk c) (keys : List ConfigKey) (c₀ : Config) (k : FlagKey) :
    (keys.foldl (restore c) c₀).flag k = if .flag k ∈ keys then c.flag k else c₀.flag k := by
  refine foldl_field (fun s => s.flag k) (fun _ => c.flag k) (fun _ => rfl) ?_ keys c₀
  intro s key
  cases key with
  | str k' => rfl
  | num k' => rw [restore_num h, if_neg nofun]
  | flag k' =>
    rw [restore_flag]
    by_cases hk : k' = k
    · rw [hk, if_pos rfl]
      exact Function.update_self ..
    · rw [if_neg (fun heq => hk (ConfigKey.flag.inj heq))]
      exact Function.update_of_ne (Ne.symm hk) ..
  | meterVScale => rw [restore_scale h, if_neg nofun]

theorem fold_scale (h : ConfigOk c) (keys : List ConfigKey) (c₀ : Config) :
    (keys.foldl (restore c) c₀).meterVScale =
      if .meterVScale ∈ keys then restoredScale c c₀.meterVScale else c₀.meterVScale := by
  refine foldl_field Config.meterVScale (restoredScale c) ?_ ?_ keys c₀
  · intro kept
    rw [restoredScale, restoredScale]
    split <;> rfl
  · intro s key
    cases key with
    | str k' => rfl
    | num k' => rw [restore_num h, if_neg nofun]
    | flag k' => rw [restore_flag, if_neg nofun]
    | meterVScale => rw [restore_scale h, if_pos rfl]

/-- What is not written is a text that is empty, as it is by default. -/
theorem writtenKeys_str (c : Config) (k : StrKey) :
    .str k ∈ writtenKeys c ∨ ((c.str k).chars = [] ∧ configDefaults.str k = setStr []) := by
  have hopt : ∀ k, .str k ∈ optionalKey c k ∨ (c.str k).chars = [] := by
    intro k
    rw [optionalKey]
    by_cases hempty : (c.str k).chars = []
    · exact .inr hempty
    · rw [if_neg hempty]
      exact .inl (List.mem_singleton_self _)
  cases k with
  | brokerUser | brokerPass | deviceId | webUser | webPass =>
    refine (hopt _).imp ?_ (fun hempty => ⟨hempty, rfl⟩)
    intro hmem
    simp [writtenKeys, hmem]
  | _ => exact .inl (by simp [writtenKeys])

/-- A written file is read back as it was written up to the blanks around the texts and the
digits of the scale, if no text has a line break. -/
theorem configLoad_write (h : ConfigOk c) (hbreak : ∀ k, '\n' ∉ (c.str k).chars) :
    configLoad (some (writeConfigFile c)) =
      { c with
        str := fun k => setStr (trim (c.str k).chars)
        meterVScale := restoredScale c 60 } := by
  have hlines : (fileLines c).foldl parseLine configDefaults =
      (writtenKeys c).foldl (restore c) configDefaults := by
    rw [fileLines, List.foldl_cons, parseLine_header, List.foldl_map]
    simp only [parseLine_line]
  rw [configLoad, List.take_of_length_le (writeConfigFile_length h), configParse,
    cString_eq_self (writeConfigFile_nulFree c), configLines_write h hbreak, hlines]
  have hnum : ∀ k, ((writtenKeys c).foldl (restore c) configDefaults).num k = c.num k := by
    intro k
    rw [fold_num h, if_pos (by cases k <;> simp [writtenKeys])]
  have hscale : ((writtenKeys c).foldl (restore c) configDefaults).meterVScale =
      restoredScale c 60 := by
    rw [fold_scale h, if_pos (by simp [writtenKeys])]
    rfl
  refine Config.ext ?_ ?_ ?_ ?_
  · funext k
    show ((writtenKeys c).foldl (restore c) configDefaults).str k = _
    rw [fold_str h]
    rcases writtenKeys_str c k with hmem | ⟨hempty, hdefault⟩
    · rw [if_pos hmem]
    · rw [hdefault]
      dsimp only
      rw [hempty]
      exact ite_self _
  · funext k
    rw [clampConfig]
    cases k with
    | brokerPort => exact hnum .brokerPort
    | pollHz =>
      dsimp only
      rw [hnum, if_neg (not_lt.mpr h.pollHz.1)]
    | webPort =>
      dsimp only
      rw [hnum, if_neg]
      rw [Bool.or_eq_true, decide_eq_true_eq, decide_eq_true_eq, not_or, not_lt, not_lt]
      exact h.webPort
  · funext k
    show ((writtenKeys c).foldl (restore c) configDefaults).flag k = _
    rw [fold_flag h, if_pos (by cases k <;> simp [writtenKeys])]
  · rw [clampConfig]
    dsimp only
    rw [hscale, if_pos]
    rw [restoredScale]
    split
    · next hd => exact hd
    · decide

/-! ## No text that is read has a line break -/

def Unbroken (c : Config) : Prop := ∀ k, '\n' ∉ (c.str k).chars

theorem Unbroken.setKey {val : List Char} (h : Unbroken c) (hval : '\n' ∉ val) (key : ConfigKey) :
    Unbroken (setKey key val c) := by
  cases key with
  | num k | flag k => exact h
  | str k =>
    intro k'
    show '\n' ∉ (Function.update c.str k (setStr val) k').chars
    by_cases hk : k' = k
    · rw [hk, Function.update_self]
      exact fun hmem => hval (List.takeWhile_sublist _ |>.subset (List.mem_of_mem_take hmem))
    · rw [Function.update_of_ne hk]
      exact h k'
  | meterVScale =>
    rw [OpenEVCharger.setKey]
    split
    · split
      · exact h
      · exact h
    · exact h

theorem parseEntry_val {line key val : List Char} (h : parseEntry line = some (key, val)) :
    ∀ ch ∈ val, ch ∈ line := by
  rw [parseEntry] at h
  split at h
  · nomatch h
  split at h
  · cases h
    intro ch hch
    exact (trim_sublist line).subset ((List.dropWhile_sublist _).subset
      ((List.tail_sublist _).subset ((trim_sublist _).subset hch)))
  · nomatch h

theorem Unbroken.load (file : Option (List Char)) : Unbroken (configLoad file) := by
  have hdefaults : Unbroken configDefaults := by
    intro k
    cases k <;> decide
  cases file with
  | none => exact hdefaults
  | some bytes =>
    have hfold : ∀ lines : List (List Char), (∀ line ∈ lines, '\n' ∉ line) → ∀ c, Unbroken c →
        Unbroken (lines.foldl parseLine c) := by
      intro lines
      induction lines with
      | nil => exact fun _ _ h => h
      | cons line lines ih =>
        intro hlines c hc
        refine ih (fun l hl => hlines l (List.mem_cons_of_mem _ hl)) _ ?_
        rw [parseLine]
        split
        · exact hc
        next key val hentry =>
        split
        · exact hc
        · exact hc.setKey (fun hmem =>
            hlines line (List.mem_cons_self ..) (parseEntry_val hentry _ hmem)) _
    exact hfold _ (fun _ hline => linesFrom_break hline) _ hdefaults

/-! ## The round trip -/

/-- Every text is free of line breaks and of blanks around it, and the meter scale is the
double nearest to its three printed decimals. -/
def Storable (c : Config) : Prop :=
  (∀ k, '\n' ∉ (c.str k).chars ∧ trim (c.str k).chars = (c.str k).chars) ∧
    binary64.round (decimal 3 c.meterVScale) = c.meterVScale

theorem setStr_trim_iff (s : ConfigStr) : setStr (trim s.chars) = s ↔ trim s.chars = s.chars := by
  have hchars : (setStr (trim s.chars)).chars = trim s.chars := by
    have hsub := trim_sublist s.chars
    have hlen := hsub.length_le
    have hshort := s.short
    have hmax : configStrMax = 128 := rfl
    show (cString (trim s.chars)).take (configStrMax - 1) = trim s.chars
    rw [cString_eq_self fun ch hch => s.nulFree ch (hsub.subset hch),
      List.take_of_length_le (by omega)]
  constructor
  · intro heq
    rw [← hchars, heq]
  · intro heq
    exact ConfigStr.ext (hchars.trans heq)

theorem restoredScale_iff (h : ConfigOk c) :
    restoredScale c 60 = c.meterVScale ↔
      binary64.round (decimal 3 c.meterVScale) = c.meterVScale := by
  rw [restoredScale]
  constructor
  · intro heq
    split at heq
    · exact heq
    · next hout =>
      -- the default is in bounds, and so would be what is read back in its place
      rw [← heq] at hout
      exact absurd (by decide +kernel) hout
  · intro heq
    rw [heq, if_pos]
    rw [Bool.and_eq_true, decide_eq_true_eq, decide_eq_true_eq]
    exact h.scale

/-- Whatever file the companion was started with and whatever is posted to it, the running
configuration is read back from the file it is written to if and only if it is storable. -/
theorem config_survives_iff (file : Option (List Char)) (posts : List ConfigPost) :
    configLoad (some (writeConfigFile (runningConfig file posts))) = runningConfig file posts ↔
      Storable (runningConfig file posts) := by
  have hok := runningConfig_ok file posts
  generalize runningConfig file posts = c at hok
  constructor
  · intro hsame
    have hbreak : Unbroken c := hsame ▸ Unbroken.load _
    rw [configLoad_write hok hbreak] at hsame
    refine ⟨?_, ?_⟩
    · intro k
      exact ⟨hbreak k, (setStr_trim_iff _).mp (congrFun (congrArg Config.str hsame) k)⟩
    · exact (restoredScale_iff hok).mp (congrArg Config.meterVScale hsame)
  · rintro ⟨htexts, hscale⟩
    rw [configLoad_write hok fun k => (htexts k).1]
    refine Config.ext ?_ rfl rfl ((restoredScale_iff hok).mpr hscale)
    funext k
    exact (setStr_trim_iff _).mpr (htexts k).2

/-- A password that ends with a blank. -/
def blankPost : ConfigPost := ⟨'\x00', "broker_pass=secret+".toList⟩

theorem password_blank_lost :
    ¬ ∀ (file : Option (List Char)) (posts : List ConfigPost),
      configLoad (some (writeConfigFile (runningConfig file posts))) =
        runningConfig file posts := by
  intro hsame
  have hpass := congrArg (fun c => (c.str .brokerPass).chars) (hsame none [blankPost])
  exact absurd hpass (by decide +kernel)

end OpenEVCharger
