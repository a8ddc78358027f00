import OpenEVCharger.Companion.Commands

/-!
# One command over two transports

MQTT hands the bytes of a payload to the handlers as they came; HTTP decodes a form value into
64 bytes first, and hands over the text before its terminator. The number parser allows what
`strtol` does.
-/

namespace OpenEVCharger

/-! ## Form values -/

/-- A form value that stands for a text: bytes as they are, blanks as pluses, and escapes. -/
inductive FormEncodes : List Char → List Char → Prop
  | nil : FormEncodes [] []
  | plain {c : Char} {enc text : List Char} (hc : c ≠ '+' ∧ c ≠ '%' ∧ c ≠ '&')
      (h : FormEncodes enc text) : FormEncodes (c :: enc) (c :: text)
  | blank {enc text : List Char} (h : FormEncodes enc text) :
      FormEncodes ('+' :: enc) (' ' :: text)
  | escape {hi lo : Char} {h l : ℕ} {enc text : List Char} (hhi : hexNibble hi = some h)
      (hlo : hexNibble lo = some l) (henc : FormEncodes enc text) :
      FormEncodes ('%' :: hi :: lo :: enc) (Char.ofNat (16 * h + l) :: text)

/-- A text with escapes, and what it stands for. -/
inductive Unescapes : List Char → List Char → Prop
  | nil : Unescapes [] []
  | plain {c : Char} {enc text : List Char} (hc : c ≠ '+' ∧ c ≠ '%') (h : Unescapes enc text) :
      Unescapes (c :: enc) (c :: text)
  | blank {enc text : List Char} (h : Unescapes enc text) : Unescapes ('+' :: enc) (' ' :: text)
  | escape {hi lo : Char} {h l : ℕ} {enc text : List Char} (hhi : hexNibble hi = some h)
      (hlo : hexNibble lo = some l) (henc : Unescapes enc text) :
      Unescapes ('%' :: hi :: lo :: enc) (Char.ofNat (16 * h + l) :: text)

variable {behind c : Char} {cap : ℕ} {enc text out piece : List Char}

theorem FormEncodes.no_amp (h : FormEncodes enc text) : '&' ∉ enc := by
  induction h with
  | nil => exact List.not_mem_nil
  | plain hc _ ih => exact List.not_mem_cons_of_ne_of_not_mem (Ne.symm hc.2.2) ih
  | blank _ ih => exact List.not_mem_cons_of_ne_of_not_mem (by decide) ih
  | escape hhi hlo _ ih =>
    refine List.not_mem_cons_of_ne_of_not_mem (by decide) ?_
    refine List.not_mem_cons_of_ne_of_not_mem ?_ (List.not_mem_cons_of_ne_of_not_mem ?_ ih)
    · rintro rfl
      exact absurd hhi nofun
    · rintro rfl
      exact absurd hlo nofun

theorem FormEncodes.unescapes (h : FormEncodes enc text) : Unescapes enc text := by
  induction h with
  | nil => exact .nil
  | plain hc _ ih => exact .plain ⟨hc.1, hc.2.1⟩ ih
  | blank _ ih => exact .blank ih
  | escape hhi hlo _ ih => exact .escape hhi hlo ih

theorem webUrldecode_other (hc : c ≠ '+' ∧ c ≠ '%') :
    webUrldecode behind cap (c :: enc) out =
      if cap ≤ out.length + 1 then none else webUrldecode behind cap enc (out ++ [c]) := by
  rw [webUrldecode.eq_def]
  split
  · next heq => nomatch heq
  · next heq =>
    cases heq
    exact absurd rfl hc.1
  · next heq =>
    cases heq
    exact absurd rfl hc.2
  · next heq =>
    cases heq
    rfl

theorem webUrldecode_escape {hi lo : Char} {h l : ℕ} (hhi : hexNibble hi = some h)
    (hlo : hexNibble lo = some l) :
    webUrldecode behind cap ('%' :: hi :: lo :: enc) out =
      if cap ≤ out.length + 1 then none
      else webUrldecode behind cap enc (out ++ [Char.ofNat (16 * h + l)]) := by
  rw [webUrldecode.eq_def]
  simp only [hhi, hlo]

/-- What is encoded is decoded, if it fits, and the decoding goes on behind it. -/
theorem webUrldecode_append (h : Unescapes enc text) (rest out : List Char) :
    webUrldecode behind cap (enc ++ rest) out =
      if text = [] ∨ out.length + text.length < cap then
        webUrldecode behind cap rest (out ++ text)
      else none := by
  have hstep : ∀ (out : List Char) (c : Char) (text : List Char),
      (if cap ≤ out.length + 1 then none
        else if text = [] ∨ (out ++ [c]).length + text.length < cap then
          webUrldecode behind cap rest (out ++ [c] ++ text) else none) =
      if c :: text = [] ∨ out.length + (c :: text).length < cap then
        webUrldecode behind cap rest (out ++ c :: text) else none := by
    intro out c text
    have hlen : (out ++ [c]).length = out.length + 1 := List.length_append
    rw [hlen, List.append_assoc, List.singleton_append, List.length_cons]
    by_cases hfits : cap ≤ out.length + 1
    · rw [if_pos hfits, if_neg]
      rintro (hnil | hlt)
      · nomatch hnil
      · omega
    · rw [if_neg hfits]
      refine if_congr ?_ rfl rfl
      constructor
      · rintro (rfl | hlt)
        · refine .inr ?_
          rw [List.length_nil]
          omega
        · exact .inr (by omega)
      · rintro (hnil | hlt)
        · nomatch hnil
        · exact .inr (by omega)
  induction h generalizing out with
  | nil => rw [List.nil_append, List.append_nil, if_pos (.inl rfl)]
  | plain hc _ ih => rw [List.cons_append, webUrldecode_other hc, ih, hstep]
  | blank _ ih => rw [List.cons_append, webUrldecode, ih, hstep]
  | escape hhi hlo _ ih =>
    rw [List.cons_append, List.cons_append, List.cons_append, webUrldecode_escape hhi hlo, ih,
      hstep]

/-- A value is decoded to its text, if the text fits with its terminator. -/
theorem webUrldecode_encodes (h : FormEncodes enc text) (out : List Char) :
    webUrldecode behind cap enc out =
      if text = [] ∨ out.length + text.length < cap then some (out ++ text) else none := by
  have hall : webUrldecode behind cap (enc ++ []) out = _ := webUrldecode_append h.unescapes [] out
  rw [List.append_nil, webUrldecode] at hall
  exact hall

theorem formPieces_single (h : '&' ∉ piece) (hne : piece ≠ []) :
    formPieces behind piece = [(piece, behind)] := by
  induction piece with
  | nil => exact absurd rfl hne
  | cons c rest ih =>
    have hc : c ≠ '&' := fun heq => h (heq ▸ List.mem_cons_self ..)
    cases rest with
    | nil =>
      rw [formPieces.eq_def]
      split <;> simp_all
    | cons d rest =>
      have hrest := ih (fun hmem => h (List.mem_cons_of_mem _ hmem)) (List.cons_ne_nil d rest)
      rw [formPieces.eq_def]
      split <;> simp_all

/-- The text that a field of a form with nothing else in it gives its handler. -/
theorem formField_single {name : String} {key : List Char} (hkey : FormEncodes key key)
    (hname : key = name.toList) (hplain : '=' ∉ key ∧ '\x00' ∉ key) (hlen : key.length < 32)
    (henc : FormEncodes enc text) :
    formField name (formPieces behind (key ++ '=' :: enc)) =
      if text.length < 64 then some (cString text) else none := by
  have hamp : '&' ∉ key ++ '=' :: enc := by
    rw [List.mem_append, List.mem_cons]
    rintro (hmem | heq | hmem)
    · exact hkey.no_amp hmem
    · exact absurd heq (by decide)
    · exact henc.no_amp hmem
  have hstop : ∀ c ∈ key, decide (c ≠ '=') = true := by
    intro c hc
    exact decide_eq_true fun heq => hplain.1 (heq ▸ hc)
  have hkeypart : (key ++ '=' :: enc).takeWhile (· ≠ '=') = key := by
    rw [List.takeWhile_append_of_pos hstop]
    simp
  have hvalpart : ((key ++ '=' :: enc).dropWhile (· ≠ '=')).tail = enc := by
    rw [List.dropWhile_append_of_pos hstop]
    simp
  rw [formPieces_single hamp (List.append_ne_nil_of_right_ne_nil _ (List.cons_ne_nil _ _)),
    formField, webFormPair, hkeypart, hvalpart, webUrldecode_encodes hkey, webUrldecode_encodes henc,
    if_pos (.inr (by simpa using hlen))]
  simp only [List.length_nil, Nat.zero_add, List.nil_append]
  by_cases hfits : text.length < 64
  · have hkeytext : cString key = name.toList := by
      rw [cString_eq_self fun c hc heq => hplain.2 (heq ▸ hc), hname]
    rw [if_pos (.inr hfits), if_pos hfits]
    simp only [hkeytext, if_true]
  · have hne : ¬ (text = [] ∨ text.length < 64) := by
      rintro (rfl | hlt)
      · exact hfits (by decide)
      · exact hfits hlt
    rw [if_neg hne, if_neg hfits]

/-! ## Numbers -/

/-- The digits of `v`, which the charger can be set to. -/
def AmpsDigits (v : ℤ) (digits : List Char) : Prop :=
  digits ≠ [] ∧ (∀ c ∈ digits, c.isDigit = true) ∧ v = Nat.ofDigitChars 10 digits 0 ∧
    6 ≤ v ∧ v ≤ 30

/-- A decimal integer in [6, 30], optionally with white space behind it. -/
def RatedAmpsText (text : List Char) : Prop :=
  ∃ v digits blanks, text = digits ++ blanks ∧ AmpsDigits v digits ∧
    ∀ c ∈ blanks, tailBlank c = true

/-- The same, with white space and a plus in front. -/
def LooseAmps (v : ℤ) (text : List Char) : Prop :=
  ∃ lead sign digits blanks, text = lead ++ (sign ++ digits) ++ blanks ∧
    (∀ c ∈ lead, isSpace c = true) ∧ (sign = [] ∨ sign = ['+']) ∧ AmpsDigits v digits ∧
    ∀ c ∈ blanks, tailBlank c = true

theorem RatedAmpsText.loose (h : RatedAmpsText text) : ∃ v, LooseAmps v text := by
  obtain ⟨v, digits, blanks, rfl, hdigits, hblanks⟩ := h
  exact ⟨v, [], [], digits, blanks, rfl, nofun, .inl rfl, hdigits, hblanks⟩

theorem digit_ne {d : Char} (hc : c.isDigit = true) (hd : d.isDigit = false) : c ≠ d := by
  rintro rfl
  rw [hc] at hd
  exact absurd hd nofun

theorem tailBlank_digit (hc : c.isDigit = true) : tailBlank c = false := by
  rw [tailBlank]
  simp [digit_ne hc (show ' '.isDigit = false from rfl),
    digit_ne hc (show '\t'.isDigit = false from rfl),
    digit_ne hc (show '\r'.isDigit = false from rfl),
    digit_ne hc (show '\n'.isDigit = false from rfl)]

/-- There is no terminator in a number. -/
theorem LooseAmps.no_nul {v : ℤ} (h : LooseAmps v text) : '\x00' ∉ text := by
  obtain ⟨lead, sign, digits, blanks, rfl, hlead, hsign, hdigits, hblanks⟩ := h
  simp only [List.mem_append, not_or]
  refine ⟨⟨fun hc => absurd (hlead _ hc) (by decide), ?_, fun hc =>
    absurd (hdigits.2.1 _ hc) (by decide)⟩, fun hc => absurd (hblanks _ hc) (by decide)⟩
  rcases hsign with rfl | rfl <;> decide

theorem strtol_loose {v : ℤ} {lead sign digits : List Char}
    (hlead : ∀ c ∈ lead, isSpace c = true) (hsign : sign = [] ∨ sign = ['+'])
    (hdigits : AmpsDigits v digits) : strtol (lead ++ (sign ++ digits)) = (v, []) := by
  obtain ⟨hne, hall, hv, hlo, hhi⟩ := hdigits
  have hread : readSign (lead ++ (sign ++ digits)) = (false, digits) := by
    rw [readSign, List.dropWhile_append_of_pos hlead]
    rcases hsign with rfl | rfl
    · have hplain := @readSign_digit _ [] hne hall
      rw [List.append_nil, readSign] at hplain
      exact hplain
    · rfl
  have htake := @takeWhile_digits _ [] hall (by simp)
  rw [List.append_nil] at htake
  rw [strtol, scanInt, hread]
  simp only [htake.1, htake.2, if_neg hne, Bool.false_eq_true, if_false, ← hv]
  congr 1
  omega

theorem loose_of_strtol {v : ℤ} (h : strtol text = (v, [])) (hlo : 6 ≤ v) (hhi : v ≤ 30) :
    ∃ lead sign digits, text = lead ++ (sign ++ digits) ∧ (∀ c ∈ lead, isSpace c = true) ∧
      (sign = [] ∨ sign = ['+']) ∧ AmpsDigits v digits := by
  have hscan : scanInt text = some (v, []) := by
    rw [strtol] at h
    cases hscan : scanInt text with
    | none =>
      rw [hscan, Prod.mk.injEq] at h
      omega
    | some found =>
      obtain ⟨n, rest⟩ := found
      rw [hscan, Prod.mk.injEq] at h
      rw [h.2, show n = v by omega]
  have hsplit := List.takeWhile_append_dropWhile (p := isSpace) (l := text)
  have hlead : ∀ c ∈ text.takeWhile isSpace, isSpace c = true :=
    fun c hc => List.mem_takeWhile_imp hc
  have hdigits : ∀ neg t, (if List.takeWhile Char.isDigit t = [] then none
      else some (if neg = true then -(Nat.ofDigitChars 10 (t.takeWhile Char.isDigit) 0 : ℤ)
        else (Nat.ofDigitChars 10 (t.takeWhile Char.isDigit) 0 : ℤ),
          t.dropWhile Char.isDigit)) = some (v, []) → neg = false ∧ AmpsDigits v t := by
    intro neg t heq
    split at heq
    · cases heq
    next hne =>
    rw [Option.some.injEq, Prod.mk.injEq] at heq
    have ht : t.takeWhile Char.isDigit = t := by
      have happend := List.takeWhile_append_dropWhile (p := Char.isDigit) (l := t)
      rw [heq.2, List.append_nil] at happend
      exact happend
    rw [ht] at heq hne
    cases neg with
    | true =>
      rw [if_pos rfl] at heq
      omega
    | false =>
      rw [if_neg Bool.false_ne_true] at heq
      refine ⟨rfl, hne, fun c hc => ?_, heq.1.symm, hlo, hhi⟩
      rw [← ht] at hc
      exact List.mem_takeWhile_imp hc
  rw [scanInt, readSign] at hscan
  split at hscan
  next neg t hread =>
  obtain ⟨rfl, ht⟩ := hdigits neg t hscan
  split at hread
  · exact absurd (Prod.mk.inj hread).1 (by decide)
  · next rest heq =>
    obtain ⟨-, rfl⟩ := Prod.mk.inj hread
    exact ⟨_, ['+'], rest, by rw [List.singleton_append, ← heq, hsplit], hlead, .inr rfl, ht⟩
  · obtain ⟨-, rfl⟩ := Prod.mk.inj hread
    exact ⟨_, [], _, by rw [List.nil_append, hsplit], hlead, .inl rfl, ht⟩

theorem AmpsDigits.trimTail_append {v : ℤ} {front digits blanks : List Char}
    (h : AmpsDigits v digits) (hblanks : ∀ c ∈ blanks, tailBlank c = true) :
    trimTail (front ++ digits ++ blanks) = front ++ digits := by
  obtain ⟨hne, hall, -⟩ := h
  have hlast : trimTail (front ++ digits) = front ++ digits := by
    rw [trimTail, List.rdropWhile_eq_self_iff]
    intro hne'
    have hdigit := hall _ (List.getLast_mem hne)
    rw [List.getLast_append_of_ne_nil hne' hne]
    rw [tailBlank_digit hdigit]
    exact Bool.false_ne_true
  rw [trimTail, rdropWhile_append_of_pos hblanks]
  exact hlast

/-- Without a terminator inside, the parser takes loose numbers of up to 31 bytes. -/
theorem parseIntPayload_iff {v : ℤ} (hnul : '\x00' ∉ text) :
    parseIntPayload text 6 30 = some v ↔ LooseAmps v text ∧ text.length ≤ 31 := by
  have hclean : cString (trimTail text) = trimTail text :=
    cString_eq_self fun c hc heq => hnul (heq ▸ (List.rdropWhile_prefix _ _).subset hc)
  rw [parseIntPayload_eq_some, hclean]
  constructor
  · rintro ⟨⟨-, hlen⟩, -, hread, hlo, hhi⟩
    obtain ⟨lead, sign, digits, htext, hlead, hsign, hdigits⟩ := loose_of_strtol hread hlo hhi
    refine ⟨⟨lead, sign, digits, text.rtakeWhile tailBlank, ?_, hlead, hsign, hdigits,
      fun c hc => List.mem_rtakeWhile_imp hc⟩, hlen⟩
    rw [← htext]
    exact (List.rdropWhile_append_rtakeWhile).symm
  · rintro ⟨⟨lead, sign, digits, blanks, rfl, hlead, hsign, hdigits, hblanks⟩, hlen⟩
    have htrim : trimTail (lead ++ (sign ++ digits) ++ blanks) = lead ++ (sign ++ digits) := by
      rw [← List.append_assoc lead]
      exact hdigits.trimTail_append hblanks
    have hne : lead ++ (sign ++ digits) ≠ [] := by
      simp [hdigits.1]
    rw [htrim]
    exact ⟨⟨fun heq => hne (List.append_eq_nil_iff.mp heq).1, hlen⟩, hne,
      strtol_loose hlead hsign hdigits, hdigits.2.2.2⟩

/-- With a terminator inside, nothing is trimmed before it. -/
theorem cString_trimTail (hnul : '\x00' ∈ text) : cString (trimTail text) = cString text := by
  obtain ⟨front, rest, rfl⟩ := List.append_of_mem hnul
  have htrim : trimTail (front ++ '\x00' :: rest) = front ++ '\x00' :: trimTail rest :=
    rdropWhile_append_cons (by decide)
  rw [htrim, cString, cString, List.takeWhile_append, List.takeWhile_append]
  split <;> rfl

/-- So the text before it has to be a number as it stands, which HTTP takes as well. -/
theorem parseIntPayload_nul {v : ℤ} (hnul : '\x00' ∈ text)
    (h : parseIntPayload text 6 30 = some v) :
    LooseAmps v (cString text) ∧ (cString text).length < 31 ∧ text.length ≤ 31 := by
  rw [parseIntPayload_eq_some, cString_trimTail hnul] at h
  obtain ⟨⟨-, hlen⟩, -, hread, hlo, hhi⟩ := h
  obtain ⟨lead, sign, digits, htext, hlead, hsign, hdigits⟩ := loose_of_strtol hread hlo hhi
  refine ⟨⟨lead, sign, digits, [], by rw [List.append_nil, htext], hlead, hsign, hdigits, nofun⟩,
    ?_, hlen⟩
  have hshort : (cString text).length < text.length := by
    refine Nat.lt_of_le_of_ne (List.takeWhile_prefix _).length_le fun heq => ?_
    have hself : cString text = text := (List.takeWhile_prefix _).eq_of_length heq
    rw [← hself] at hnul
    exact absurd rfl (cString_mem hnul)
  omega

/-! ## The two transports -/

/-- A command, by the name both transports know it under. -/
inductive CommandName
  | ratedAmps | authorize | clearFaults
  deriving DecidableEq, Repr

def CommandName.label : CommandName → List Char
  | .ratedAmps => "rated_amps".toList
  | .authorize => "authorize".toList
  | .clearFaults => "clear_faults".toList

/-- The field of the form that carries the payload, if it is looked at. -/
def CommandName.field : CommandName → Option String
  | .ratedAmps => some "amps"
  | .authorize => some "state"
  | .clearFaults => none

/-- The topic of a command behind the prefix of the charger. -/
def commandTopic (pre : List UInt8) (name : CommandName) : List UInt8 :=
  pre ++ ('/' :: name.label).map fun c => UInt8.ofNat c.toNat

def commandPath (name : CommandName) : List Char := "/api/control/".toList ++ name.label

/-- A form that posts a payload as the only field it has. -/
def Posts (name : CommandName) (payload body : List Char) : Prop :=
  ∀ field, name.field = some field → ∃ enc, body = field.toList ++ '=' :: enc ∧
    FormEncodes enc payload

def accepted (r : CommandResult) : Bool := r.1.isOk

/-- A write of one byte at `off` goes through. -/
def CanWrite (off : ℕ) (sm : Option ShmemSegment) : Prop :=
  ∃ seg base, sm = some seg ∧ seg.base = some base ∧ seg.writable = true ∧ off + 1 ≤ seg.size

/-- Both transports do the same with a payload, and a number is taken by either exactly when
it is one the charger can be set to. -/
structure TransportsAgree (name : CommandName) (payload : List Char) (sm : Option ShmemSegment)
    (mqtt http : CommandResult) : Prop where
  effect : mqtt.2 = http.2
  outcome : accepted mqtt = accepted http
  amps : name = .ratedAmps → CanWrite offRatedAmps sm →
    (accepted mqtt = true ↔ RatedAmpsText payload) ∧
      (accepted http = true ↔ RatedAmpsText payload)

/-- The numbers that are not taken as they should be: numbers too long for the parser, blanks or
a plus in front, and anything behind a terminator. -/
inductive AmpsDiverge (payload : List Char) : Prop
  | overlong (h : RatedAmpsText payload) (hlen : 31 < payload.length)
  | loose (v : ℤ) (h : LooseAmps v payload) (hstrict : ¬ RatedAmpsText payload)
      (hlen : payload.length ≤ 31)
  | terminated (v : ℤ) (hnul : '\x00' ∈ payload) (h : LooseAmps v (cString payload))
      (hlen : payload.length < 64) (hhead : (cString payload).length ≤ 31)

/-- An authorisation with something behind a terminator. -/
def AuthorizeDiverges (payload : List Char) : Prop :=
  '\x00' ∈ payload ∧ payload.length < 64 ∧
    (cString payload = "ON".toList ∨ cString payload = "OFF".toList)

def Diverges (name : CommandName) (payload : List Char) (sm : Option ShmemSegment) : Prop :=
  match name with
  | .ratedAmps => CanWrite offRatedAmps sm ∧ AmpsDiverge payload
  | .authorize => CanWrite offUserState sm ∧ AuthorizeDiverges payload
  | .clearFaults => False

variable {name : CommandName} {payload body : List Char} {sm : Option ShmemSegment} {off : ℕ}
  {b : UInt8} {done : CommandDone}

theorem bytesText_ofText {text : List Char} (h : ∀ c ∈ text, c.toNat < 256) :
    bytesText (text.map fun c => UInt8.ofNat c.toNat) = text := by
  rw [bytesText, List.map_map]
  refine (List.map_congr_left fun c hc => ?_).trans (List.map_id text)
  rw [Function.comp_apply, UInt8.toNat_ofNat_of_lt' (h c hc), Char.ofNat_toNat]
  rfl

theorem onCommand_topic (pre payload : List UInt8) (name : CommandName)
    (sm : Option ShmemSegment) :
    onCommand (commandTopic pre name) payload sm =
      match name with
      | .ratedAmps => csApplyRatedAmpsWrite (bytesText payload) sm
      | .authorize => csApplyAuthorizeWrite (bytesText payload) sm
      | .clearFaults => csApplyClearFaultsWrite sm := by
  have htext : bytesText (commandTopic pre name) = bytesText pre ++ '/' :: name.label := by
    have hall : ('/' :: name.label).all (fun c => decide (c.toNat < 256)) = true := by
      cases name <;> decide
    have hascii : ∀ c ∈ '/' :: name.label, c.toNat < 256 :=
      fun c hc => of_decide_eq_true (List.all_eq_true.mp hall c hc)
    rw [commandTopic, bytesText, List.map_append, ← bytesText, ← bytesText,
      bytesText_ofText hascii]
  have hmem : '/' ∈ bytesText (commandTopic pre name) := by
    rw [htext]
    simp
  have hsuffix : (bytesText (commandTopic pre name)).rtakeWhile (· ≠ '/') = name.label := by
    rw [htext]
    exact rtakeWhile_append_cons (by decide) (List.all_eq_true.mp (by cases name <;> decide))
  rw [onCommand, hsuffix, if_neg (not_not.mpr hmem)]
  cases name with
  | ratedAmps => exact if_pos rfl
  | authorize => exact (if_neg (by decide)).trans (if_pos rfl)
  | clearFaults =>
    exact (if_neg (by decide)).trans ((if_neg (by decide)).trans (if_pos rfl))

theorem postControl_path (name : CommandName) (behind : Char) (body : List Char)
    (sm : Option ShmemSegment) :
    postControl (commandPath name) behind body sm =
      match name with
      | .ratedAmps => handlePostRatedAmps behind body sm
      | .authorize => handlePostAuthorize behind body sm
      | .clearFaults => csApplyClearFaultsWrite sm := by
  rw [postControl]
  cases name with
  | ratedAmps => exact if_pos (by decide)
  | authorize => exact (if_neg (by decide)).trans (if_pos (by decide))
  | clearFaults =>
    exact (if_neg (by decide)).trans ((if_neg (by decide)).trans (if_pos (by decide)))

theorem gatedWrite_can (h : CanWrite off sm) (b : UInt8) (done : CommandDone) :
    accepted (gatedWrite (shmemWriteU8 off b) done sm) = true := by
  obtain ⟨seg, base, rfl, hbase, hwritable, hsize⟩ := h
  have hptr : writablePtr seg off 1 = some base := by
    rw [writablePtr, hbase]
    dsimp only
    rw [if_neg (by rw [hwritable]; exact Bool.noConfusion), if_neg (Nat.not_lt.mpr hsize)]
  simp [gatedWrite, hwritable, shmemWriteU8, hptr, accepted, Except.isOk, Except.toBool]

theorem gatedWrite_cannot (h : ¬ CanWrite off sm) (b : UInt8) (done : CommandDone) :
    ∃ msg, gatedWrite (shmemWriteU8 off b) done sm = (.error (.unavailable msg), sm) := by
  rcases gatedWrite_cases (shmemWriteU8 off b) done sm with hfail | ⟨seg, seg', rfl, hwrite, -⟩
  · exact hfail
  · obtain ⟨base, hptr, -⟩ := Option.map_eq_some_iff.mp hwrite
    obtain ⟨hbase, hwritable⟩ := writablePtr_some hptr
    refine absurd ⟨seg, base, rfl, hbase, hwritable, ?_⟩ h
    rw [writablePtr, hbase] at hptr
    dsimp only at hptr
    rw [if_neg (by rw [hwritable]; exact Bool.noConfusion)] at hptr
    by_contra hsize
    rw [if_pos (Nat.not_le.mp hsize)] at hptr
    cases hptr

theorem accepted_error (e : CommandError) : accepted (.error e, sm) = false := rfl

theorem csApplyRatedAmpsWrite_none (h : parseIntPayload payload 6 30 = none) :
    csApplyRatedAmpsWrite payload sm = (.error (.invalid "amps must be int 6..30"), sm) := by
  rw [csApplyRatedAmpsWrite, h]

theorem csApplyRatedAmpsWrite_some {v : ℤ} (h : parseIntPayload payload 6 30 = some v) :
    csApplyRatedAmpsWrite payload sm =
      gatedWrite (shmemWriteU8 offRatedAmps (UInt8.ofInt v)) (.ratedAmps v) sm := by
  rw [csApplyRatedAmpsWrite, h]

/-- Without write access the rated amps are refused and stay as they are. -/
theorem ratedAmps_cannot (h : ¬ CanWrite offRatedAmps sm) (payload : List Char) :
    ∃ e, csApplyRatedAmpsWrite payload sm = (.error e, sm) := by
  cases hparse : parseIntPayload payload 6 30 with
  | none => exact ⟨_, csApplyRatedAmpsWrite_none hparse⟩
  | some v =>
    obtain ⟨msg, heq⟩ := gatedWrite_cannot h (UInt8.ofInt v) (.ratedAmps v)
    exact ⟨_, (csApplyRatedAmpsWrite_some hparse).trans heq⟩

theorem accepted_ratedAmps (h : CanWrite offRatedAmps sm) (payload : List Char) :
    accepted (csApplyRatedAmpsWrite payload sm) = true ↔
      ∃ v, parseIntPayload payload 6 30 = some v := by
  cases hparse : parseIntPayload payload 6 30 with
  | none =>
    rw [csApplyRatedAmpsWrite_none hparse, accepted_error]
    exact iff_of_false Bool.false_ne_true nofun
  | some v =>
    rw [csApplyRatedAmpsWrite_some hparse, gatedWrite_can h]
    exact iff_of_true rfl ⟨v, rfl⟩

/-- What HTTP makes of a posted number. -/
theorem handlePostRatedAmps_posts (h : Posts .ratedAmps payload body) (behind : Char)
    (sm : Option ShmemSegment) :
    handlePostRatedAmps behind body sm =
      if payload.length < 64 then csApplyRatedAmpsWrite (cString payload) sm
      else (.error (.missing "amps"), sm) := by
  obtain ⟨enc, rfl, henc⟩ := h "amps" rfl
  have hkey : FormEncodes "amps".toList "amps".toList :=
    .plain (by decide) (.plain (by decide) (.plain (by decide) (.plain (by decide) .nil)))
  rw [handlePostRatedAmps, handlePost, formField_single hkey rfl (by decide) (by decide) henc]
  by_cases hlen : payload.length < 64
  · rw [if_pos hlen, if_pos hlen]
  · rw [if_neg hlen, if_neg hlen]

theorem handlePostAuthorize_posts (h : Posts .authorize payload body) (behind : Char)
    (sm : Option ShmemSegment) :
    handlePostAuthorize behind body sm =
      if payload.length < 64 then csApplyAuthorizeWrite (cString payload) sm
      else (.error (.missing "state"), sm) := by
  obtain ⟨enc, rfl, henc⟩ := h "state" rfl
  have hkey : FormEncodes "state".toList "state".toList :=
    .plain (by decide) (.plain (by decide) (.plain (by decide) (.plain (by decide)
      (.plain (by decide) .nil))))
  rw [handlePostAuthorize, handlePost, formField_single hkey rfl (by decide) (by decide) henc]
  by_cases hlen : payload.length < 64
  · rw [if_pos hlen, if_pos hlen]
  · rw [if_neg hlen, if_neg hlen]

theorem RatedAmpsText.no_nul (h : RatedAmpsText payload) : '\x00' ∉ payload :=
  h.loose.elim fun _ hloose => hloose.no_nul

/-- The rated amps over both transports, in a segment that can be written. -/
theorem ratedAmps_agree_iff (hcan : CanWrite offRatedAmps sm)
    (h : Posts .ratedAmps payload body) (behind : Char) :
    TransportsAgree .ratedAmps payload sm (csApplyRatedAmpsWrite payload sm)
      (handlePostRatedAmps behind body sm) ↔ ¬ AmpsDiverge payload := by
  rw [handlePostRatedAmps_posts h]
  by_cases hnul : '\x00' ∈ payload
  · -- over MQTT less is taken than over HTTP, and nothing should be
    have hstrict : ¬ RatedAmpsText payload := fun hs => hs.no_nul hnul
    have hclean : '\x00' ∉ cString payload := fun hc => cString_mem hc rfl
    have hhttp : accepted (if payload.length < 64 then csApplyRatedAmpsWrite (cString payload) sm
        else (.error (.missing "amps"), sm)) = true ↔
        ∃ v, LooseAmps v (cString payload) ∧ payload.length < 64 ∧
          (cString payload).length ≤ 31 := by
      split
      · next hlen =>
        rw [accepted_ratedAmps hcan]
        refine exists_congr fun v => ?_
        rw [parseIntPayload_iff hclean]
        tauto
      · next hlen =>
        refine iff_of_false Bool.false_ne_true ?_
        rintro ⟨-, -, hlt, -⟩
        exact hlen hlt
    constructor
    · intro hagree hdiverge
      have hnone := (hagree.amps rfl hcan).2.not.mpr hstrict
      rw [hhttp] at hnone
      cases hdiverge with
      | overlong hs => exact hstrict hs
      | loose v hloose => exact hloose.no_nul hnul
      | terminated v _ hloose hlen hhead => exact hnone ⟨v, hloose, hlen, hhead⟩
    · intro hnot
      have hno : ¬ ∃ v, LooseAmps v (cString payload) ∧ payload.length < 64 ∧
          (cString payload).length ≤ 31 := by
        rintro ⟨v, hloose, hlen, hhead⟩
        exact hnot (.terminated v hnul hloose hlen hhead)
      have hparse : parseIntPayload payload 6 30 = none := by
        refine Option.eq_none_iff_forall_ne_some.mpr fun v hv => ?_
        obtain ⟨hloose, hhead, hlen⟩ := parseIntPayload_nul hnul hv
        exact hno ⟨v, hloose, by omega, by omega⟩
      have hparse' : payload.length < 64 → parseIntPayload (cString payload) 6 30 = none := by
        intro hlen
        refine Option.eq_none_iff_forall_ne_some.mpr fun v hv => ?_
        obtain ⟨hloose, hhead⟩ := (parseIntPayload_iff hclean).mp hv
        exact hno ⟨v, hloose, hlen, hhead⟩
      have hboth : ∃ e e', csApplyRatedAmpsWrite payload sm = (.error e, sm) ∧
          (if payload.length < 64 then csApplyRatedAmpsWrite (cString payload) sm
            else (.error (.missing "amps"), sm)) = (.error e', sm) := by
        refine ⟨_, ?_, csApplyRatedAmpsWrite_none hparse, ?_⟩
        · exact if payload.length < 64 then .invalid "amps must be int 6..30" else .missing "amps"
        · split
          · next hlen => exact csApplyRatedAmpsWrite_none (hparse' hlen)
          · rfl
      obtain ⟨e, e', hmqtt, hpost⟩ := hboth
      rw [hmqtt, hpost]
      exact ⟨rfl, rfl, fun _ _ => ⟨iff_of_false Bool.false_ne_true hstrict,
        iff_of_false Bool.false_ne_true hstrict⟩⟩
  · have hself : cString payload = payload :=
      cString_eq_self fun c hc heq => hnul (heq ▸ hc)
    have hmqtt : accepted (csApplyRatedAmpsWrite payload sm) = true ↔
        ∃ v, LooseAmps v payload ∧ payload.length ≤ 31 := by
      rw [accepted_ratedAmps hcan]
      exact exists_congr fun v => parseIntPayload_iff hnul
    have hsame : (if payload.length < 64 then csApplyRatedAmpsWrite (cString payload) sm
        else (.error (.missing "amps"), sm)).2 = (csApplyRatedAmpsWrite payload sm).2 ∧
        accepted (if payload.length < 64 then csApplyRatedAmpsWrite (cString payload) sm
          else (.error (.missing "amps"), sm)) = accepted (csApplyRatedAmpsWrite payload sm) := by
      rw [hself]
      split
      · exact ⟨rfl, rfl⟩
      · next hlen =>
        have hparse : parseIntPayload payload 6 30 = none := by
          refine Option.eq_none_iff_forall_ne_some.mpr fun v hv => ?_
          have := ((parseIntPayload_iff hnul).mp hv).2
          omega
        rw [csApplyRatedAmpsWrite_none hparse]
        exact ⟨rfl, rfl⟩
    constructor
    · intro hagree hdiverge
      have hiff := (hagree.amps rfl hcan).1
      rw [hmqtt] at hiff
      cases hdiverge with
      | overlong hs hlen =>
        obtain ⟨v, -, hshort⟩ := hiff.mpr hs
        omega
      | loose v hloose hstrict hlen => exact hstrict (hiff.mp ⟨v, hloose, hlen⟩)
      | terminated v hmem => exact hnul hmem
    · intro hnot
      have hiff : accepted (csApplyRatedAmpsWrite payload sm) = true ↔ RatedAmpsText payload := by
        rw [hmqtt]
        constructor
        · rintro ⟨v, hloose, hlen⟩
          by_contra hstrict
          exact hnot (.loose v hloose hstrict hlen)
        · intro hs
          obtain ⟨v, hloose⟩ := hs.loose
          refine ⟨v, hloose, ?_⟩
          by_contra hlen
          exact hnot (.overlong hs (Nat.not_le.mp hlen))
      exact ⟨hsame.1.symm, hsame.2.symm, fun _ _ => ⟨hiff, hsame.2 ▸ hiff⟩⟩

theorem authorize_refused (hon : payload ≠ "ON".toList) (hoff : payload ≠ "OFF".toList) :
    csApplyAuthorizeWrite payload sm = (.error (.invalid "state must be ON or OFF"), sm) := by
  rw [csApplyAuthorizeWrite, if_neg hon, if_neg hoff]

theorem accepted_authorize (h : CanWrite offUserState sm)
    (hpayload : payload = "ON".toList ∨ payload = "OFF".toList) :
    accepted (csApplyAuthorizeWrite payload sm) = true := by
  rw [csApplyAuthorizeWrite]
  split
  · exact gatedWrite_can h ..
  next hon => rw [if_pos (hpayload.resolve_left hon), gatedWrite_can h]

theorem authorize_cannot (h : ¬ CanWrite offUserState sm) (payload : List Char) :
    ∃ e, csApplyAuthorizeWrite payload sm = (.error e, sm) := by
  rw [csApplyAuthorizeWrite]
  split
  · obtain ⟨msg, heq⟩ := gatedWrite_cannot h 1 (.authorize true)
    exact ⟨_, heq⟩
  split
  · obtain ⟨msg, heq⟩ := gatedWrite_cannot h 0 (.authorize false)
    exact ⟨_, heq⟩
  · exact ⟨_, rfl⟩

/-- Two refusals agree, where no number is at stake. -/
theorem TransportsAgree.refused {e e' : CommandError}
    (h : name = .ratedAmps → ¬ CanWrite offRatedAmps sm) :
    TransportsAgree name payload sm (.error e, sm) (.error e', sm) :=
  ⟨rfl, rfl, fun hname hcan => absurd hcan (h hname)⟩

theorem authorize_agree_iff (hcan : CanWrite offUserState sm) (h : Posts .authorize payload body)
    (behind : Char) :
    TransportsAgree .authorize payload sm (csApplyAuthorizeWrite payload sm)
      (handlePostAuthorize behind body sm) ↔ ¬ AuthorizeDiverges payload := by
  rw [handlePostAuthorize_posts h]
  by_cases hnul : '\x00' ∈ payload
  · have hon : payload ≠ "ON".toList := by
      rintro rfl
      exact absurd hnul (by decide)
    have hoff : payload ≠ "OFF".toList := by
      rintro rfl
      exact absurd hnul (by decide)
    rw [authorize_refused hon hoff]
    constructor
    · rintro hagree ⟨-, hlen, hword⟩
      have hout := hagree.outcome
      rw [if_pos hlen, accepted_authorize hcan hword] at hout
      exact absurd hout nofun
    · intro hnot
      split
      · next hlen =>
        rw [authorize_refused (fun heq => hnot ⟨hnul, hlen, .inl heq⟩)
          fun heq => hnot ⟨hnul, hlen, .inr heq⟩]
        exact .refused nofun
      · exact .refused nofun
  · rw [cString_eq_self fun c hc heq => hnul (heq ▸ hc)]
    refine iff_of_true ?_ fun hdiverge => hnul hdiverge.1
    split
    · exact ⟨rfl, rfl, nofun⟩
    · next hlen =>
      rw [authorize_refused]
      · exact .refused nofun
      · rintro rfl
        exact hlen (by decide)
      · rintro rfl
        exact hlen (by decide)

/-- For every command, payload and segment: the two transports do the same with it, and take
the numbers they should, exactly when the payload is none of those that diverge. -/
theorem transports_agree_iff (name : CommandName) (payload pre : List UInt8) (behind : Char)
    (body : List Char) (sm : Option ShmemSegment) (h : Posts name (bytesText payload) body) :
    TransportsAgree name (bytesText payload) sm
        (onCommand (commandTopic pre name) payload sm)
        (postControl (commandPath name) behind body sm) ↔
      ¬ Diverges name (bytesText payload) sm := by
  rw [onCommand_topic, postControl_path]
  cases name with
  | ratedAmps =>
    by_cases hcan : CanWrite offRatedAmps sm
    · rw [ratedAmps_agree_iff hcan h, Diverges, and_iff_right hcan]
    · refine iff_of_true ?_ fun hdiverge => hcan hdiverge.1
      obtain ⟨e, heq⟩ := ratedAmps_cannot hcan (bytesText payload)
      obtain ⟨e', heq'⟩ := ratedAmps_cannot hcan (cString (bytesText payload))
      dsimp only
      rw [handlePostRatedAmps_posts h, heq, heq']
      split <;> exact .refused fun _ => hcan
  | authorize =>
    by_cases hcan : CanWrite offUserState sm
    · rw [authorize_agree_iff hcan h, Diverges, and_iff_right hcan]
    · refine iff_of_true ?_ fun hdiverge => hcan hdiverge.1
      obtain ⟨e, heq⟩ := authorize_cannot hcan (bytesText payload)
      obtain ⟨e', heq'⟩ := authorize_cannot hcan (cString (bytesText payload))
      dsimp only
      rw [handlePostAuthorize_posts h, heq, heq']
      split <;> exact .refused nofun
  | clearFaults => exact iff_of_true ⟨rfl, rfl, nofun⟩ id

/-- A segment that can be written. -/
def blankSegment : ShmemSegment := ⟨some fun _ => 0, 0x40000, true⟩

/-- `ON` and a terminator. -/
def terminatedOn : List UInt8 := [0x4f, 0x4e, 0x00]

theorem posts_terminatedOn : Posts .authorize (bytesText terminatedOn) "state=ON%00".toList := by
  rintro field ⟨⟩
  have henc : FormEncodes ['%', '0', '0'] [Char.ofNat (16 * 0 + 0)] :=
    .escape (by decide) (by decide) .nil
  exact ⟨['O', 'N', '%', '0', '0'], by decide, .plain (by decide) (.plain (by decide) henc)⟩

theorem transports_agree_iff_terminatedOn :
    TransportsAgree .authorize (bytesText terminatedOn) (some blankSegment)
        (onCommand (commandTopic [] .authorize) terminatedOn (some blankSegment))
        (postControl (commandPath .authorize) '\x00' "state=ON%00".toList (some blankSegment)) ↔
      ¬ Diverges .authorize (bytesText terminatedOn) (some blankSegment) :=
  transports_agree_iff .authorize terminatedOn [] '\x00' "state=ON%00".toList (some blankSegment)
    posts_terminatedOn

/-- MQTT refuses it, and HTTP authorises. -/
theorem transports_disagree : ¬ ∀ name payload pre behind body sm,
    Posts name (bytesText payload) body → TransportsAgree name (bytesText payload) sm
      (onCommand (commandTopic pre name) payload sm)
      (postControl (commandPath name) behind body sm) := by
  intro hclaim
  have hagree := hclaim .authorize terminatedOn [] '\x00' _ (some blankSegment) posts_terminatedOn
  have hcan : CanWrite offUserState (some blankSegment) :=
    ⟨blankSegment, _, rfl, rfl, rfl, by decide⟩
  rw [onCommand_topic, postControl_path] at hagree
  exact (authorize_agree_iff hcan posts_terminatedOn '\x00').mp hagree
    ⟨by decide, by decide, .inl (by decide)⟩

end OpenEVCharger
