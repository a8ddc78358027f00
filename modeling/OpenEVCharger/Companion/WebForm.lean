import OpenEVCharger.Companion.Transports

/-!
# Forms there and back

A form body of encoded pairs is taken apart into the pairs again, up to their first terminators.
The decoder looks one byte behind its input where the input ends after the first digit of an
escape.
-/

namespace OpenEVCharger

/-! ## Encoded texts -/

/-- The pairs of a form, each with its key and its value encoded, and no `=` left in a key. -/
inductive FormBody : List (List Char × List Char) → List Char → Prop
  | nil : FormBody [] []
  | last {key val ek ev : List Char} (hkey : FormEncodes ek key) (heq : '=' ∉ ek)
      (hval : FormEncodes ev val) : FormBody [(key, val)] (ek ++ '=' :: ev)
  | cons {key val ek ev body : List Char} {p : List Char × List Char}
      {pairs : List (List Char × List Char)} (hkey : FormEncodes ek key) (heq : '=' ∉ ek)
      (hval : FormEncodes ev val) (h : FormBody (p :: pairs) body) :
      FormBody ((key, val) :: p :: pairs) (ek ++ '=' :: ev ++ '&' :: body)

/-- The pairs that `web_form_next` returns one after the other, until it returns 0; `none` if it
returns -1. -/
def webFormPairs (keyCap valCap : ℕ) (behind : Char) (body : List Char) :
    Option (List (List Char × List Char)) :=
  (formPieces behind body).mapM fun p => webFormPair keyCap valCap p.1 p.2

/-- The decoder uses its input alone, and refuses it if an escape is broken. -/
def DecodesAlone (cap : ℕ) (inp : List Char) : Prop :=
  (∀ behind behind', webUrldecode behind cap inp [] = webUrldecode behind' cap inp []) ∧
    ((¬ ∃ text, Unescapes inp text) → ∀ behind, webUrldecode behind cap inp [] = none)

/-- The input ends after the first digit of an escape that the decoder comes to. -/
def CutEscape (cap : ℕ) (inp : List Char) : Prop :=
  ∃ (enc text : List Char) (digit : Char), inp = enc ++ ['%', digit] ∧ Unescapes enc text ∧
    hexNibble digit ≠ none ∧ text.length + 1 < cap

variable {behind c : Char} {cap keyCap valCap : ℕ} {enc text out piece body inp rest : List Char}
  {pairs : List (List Char × List Char)}

/-! ## The decoder -/

/-- A text falls into escapes as far as they go, and then an escape is cut short or broken. -/
inductive BrokenEscape : List Char → Prop
  | bare : BrokenEscape ['%']
  | first {hi : Char} {rest : List Char} (hhi : hexNibble hi = none) :
      BrokenEscape ('%' :: hi :: rest)
  | second {hi lo : Char} {rest : List Char} (hlo : hexNibble lo = none) :
      BrokenEscape ('%' :: hi :: lo :: rest)

theorem BrokenEscape.refused (h : BrokenEscape inp) : webUrldecode behind cap inp out = none := by
  cases h with
  | bare => rfl
  | @first hi rest hhi =>
    cases rest with
    | nil => simp [webUrldecode, hhi]
    | cons lo rest => simp [webUrldecode, hhi]
  | second hlo => simp [webUrldecode, hlo]

theorem webUrldecode_cut {digit : Char} :
    webUrldecode behind cap ['%', digit] out =
      match hexNibble digit, hexNibble behind with
      | some h, some l =>
        if cap ≤ out.length + 1 then none else some (out ++ [Char.ofNat (16 * h + l)])
      | _, _ => none := rfl

/-- The scan of a text ends behind it, at a broken escape, or at one that is cut. -/
theorem unescapes_cases (inp : List Char) :
    ∃ enc text rest, inp = enc ++ rest ∧ Unescapes enc text ∧
      (rest = [] ∨ BrokenEscape rest ∨ ∃ digit, rest = ['%', digit] ∧ hexNibble digit ≠ none) := by
  induction hlen : inp.length using Nat.strong_induction_on generalizing inp with
  | _ len ih =>
    match inp with
    | [] => exact ⟨[], [], [], rfl, .nil, .inl rfl⟩
    | c :: rest =>
      by_cases hplus : c = '+'
      · obtain ⟨enc, text, tail, rfl, henc, htail⟩ := ih rest.length (by simp [← hlen]) rest rfl
        rw [hplus]
        exact ⟨'+' :: enc, ' ' :: text, tail, rfl, .blank henc, htail⟩
      by_cases hescape : c = '%'
      · rw [hescape] at hlen ⊢
        match rest with
        | [] => exact ⟨[], [], ['%'], rfl, .nil, .inr (.inl .bare)⟩
        | [hi] =>
          cases hhi : hexNibble hi with
          | none => exact ⟨[], [], ['%', hi], rfl, .nil, .inr (.inl (.first hhi))⟩
          | some h =>
            refine ⟨[], [], ['%', hi], rfl, .nil, .inr (.inr ⟨hi, rfl, ?_⟩)⟩
            rw [hhi]
            exact Option.some_ne_none h
        | hi :: lo :: rest =>
          cases hhi : hexNibble hi with
          | none => exact ⟨[], [], '%' :: hi :: lo :: rest, rfl, .nil, .inr (.inl (.first hhi))⟩
          | some h =>
            cases hlo : hexNibble lo with
            | none => exact ⟨[], [], '%' :: hi :: lo :: rest, rfl, .nil, .inr (.inl (.second hlo))⟩
            | some l =>
              obtain ⟨enc, text, tail, rfl, henc, htail⟩ :=
                ih rest.length (by simp only [← hlen, List.length_cons]; omega) rest rfl
              exact ⟨'%' :: hi :: lo :: enc, _, tail, rfl, .escape hhi hlo henc, htail⟩
      · obtain ⟨enc, text, tail, rfl, henc, htail⟩ := ih rest.length (by simp [← hlen]) rest rfl
        exact ⟨c :: enc, c :: text, tail, rfl, .plain ⟨hplus, hescape⟩ henc, htail⟩

/-- A broken escape is refused wherever it stands. -/
theorem BrokenEscape.refused_append (henc : Unescapes enc text) (h : BrokenEscape rest) :
    webUrldecode behind cap (enc ++ rest) [] = none := by
  rw [webUrldecode_append henc, h.refused, ite_self]

theorem webUrldecode_cut_append {digit : Char} (henc : Unescapes enc text)
    (hcap : text.length + 1 < cap) :
    webUrldecode behind cap (enc ++ ['%', digit]) [] =
      match hexNibble digit, hexNibble behind with
      | some h, some l => some (text ++ [Char.ofNat (16 * h + l)])
      | _, _ => none := by
  rw [webUrldecode_append henc, if_pos (.inr (by rw [List.length_nil]; omega)), List.nil_append,
    webUrldecode_cut]
  cases hexNibble digit with
  | none => rfl
  | some h =>
    cases hexNibble behind with
    | none => rfl
    | some l => exact if_neg (Nat.not_le.mpr hcap)

/-- Where there is no room for it, a cut escape is refused. -/
theorem webUrldecode_cut_full {digit : Char} (henc : Unescapes enc text)
    (hcap : cap ≤ text.length + 1) : webUrldecode behind cap (enc ++ ['%', digit]) [] = none := by
  rw [webUrldecode_append henc, List.nil_append, webUrldecode_cut]
  cases hexNibble digit with
  | none => exact ite_self none
  | some h =>
    cases hexNibble behind with
    | none => exact ite_self none
    | some l =>
      dsimp only
      rw [if_pos hcap, ite_self]

/-- The decoder keeps to its input exactly if no escape of it is cut that there is room for. -/
theorem decodesAlone_iff : DecodesAlone cap inp ↔ ¬ CutEscape cap inp := by
  constructor
  · rintro ⟨halone, -⟩ ⟨enc, text, digit, rfl, henc, hdigit, hcap⟩
    have hsame := halone '0' 'z'
    rw [webUrldecode_cut_append henc hcap, webUrldecode_cut_append henc hcap] at hsame
    cases hhex : hexNibble digit with
    | none => exact hdigit hhex
    | some h =>
      rw [hhex] at hsame
      have hzero : hexNibble '0' = some 0 := by decide
      have hz : hexNibble 'z' = none := by decide
      exact absurd hsame (by simp [hzero, hz])
  · intro hcut
    obtain ⟨enc, text, rest, rfl, henc, hrest⟩ := unescapes_cases inp
    rcases hrest with rfl | hbroken | ⟨digit, rfl, hdigit⟩
    · refine ⟨fun behind behind' => ?_, fun hnot => absurd ⟨text, ?_⟩ hnot⟩
      · rw [webUrldecode_append henc, webUrldecode_append henc, webUrldecode, webUrldecode]
      · rw [List.append_nil]
        exact henc
    · exact ⟨fun behind behind' => by rw [hbroken.refused_append henc, hbroken.refused_append henc],
        fun _ behind => hbroken.refused_append henc⟩
    · have hfull : cap ≤ text.length + 1 :=
        Nat.le_of_not_lt fun hroom => hcut ⟨enc, text, digit, rfl, henc, hdigit, hroom⟩
      exact ⟨fun behind behind' => by
          rw [webUrldecode_cut_full henc hfull, webUrldecode_cut_full henc hfull],
        fun _ behind => webUrldecode_cut_full henc hfull⟩

/-! ## The round trip -/

/-- A character goes to the piece behind it. -/
theorem formPieces_cons {next : Char} {pieces : List (List Char × Char)} (hc : c ≠ '&')
    (h : formPieces behind rest = (piece, next) :: pieces) :
    formPieces behind (c :: rest) = (c :: piece, next) :: pieces := by
  rw [formPieces.eq_def]
  split
  · next heq => nomatch heq
  · next heq =>
    cases heq
    exact absurd rfl hc
  · next heq =>
    cases heq
    nomatch h
  · next heq =>
    cases heq
    rw [h]

/-- A separator ends a piece. -/
theorem formPieces_amp (h : '&' ∉ piece) :
    formPieces behind (piece ++ '&' :: rest) = (piece, '&') :: formPieces behind rest := by
  induction piece with
  | nil => rfl
  | cons c piece ih =>
    have hc : c ≠ '&' := fun heq => h (heq ▸ List.mem_cons_self ..)
    exact formPieces_cons hc (ih fun hmem => h (List.mem_cons_of_mem _ hmem))

/-- A pair is decoded, up to the terminators. -/
theorem webFormPair_encodes {ek ev key val : List Char} (hkey : FormEncodes ek key) (heq : '=' ∉ ek)
    (hval : FormEncodes ev val) (hkeyCap : key.length < keyCap) (hvalCap : val.length < valCap) :
    webFormPair keyCap valCap (ek ++ '=' :: ev) behind = some (cString key, cString val) := by
  have hstop : ∀ c ∈ ek, decide (c ≠ '=') = true := by
    intro c hc
    exact decide_eq_true fun h => heq (h ▸ hc)
  have hkeypart : (ek ++ '=' :: ev).takeWhile (· ≠ '=') = ek := by
    rw [List.takeWhile_append_of_pos hstop]
    simp
  have hvalpart : ((ek ++ '=' :: ev).dropWhile (· ≠ '=')).tail = ev := by
    rw [List.dropWhile_append_of_pos hstop]
    simp
  rw [webFormPair, hkeypart, hvalpart, webUrldecode_encodes hkey, webUrldecode_encodes hval,
    if_pos (.inr (by simpa using hkeyCap)), if_pos (.inr (by simpa using hvalCap))]
  rfl

theorem FormEncodes.pair_no_amp {ek ev key val : List Char} (hkey : FormEncodes ek key)
    (hval : FormEncodes ev val) : '&' ∉ ek ++ '=' :: ev := by
  rw [List.mem_append, List.mem_cons]
  rintro (hmem | heq | hmem)
  · exact hkey.no_amp hmem
  · exact absurd heq (by decide)
  · exact hval.no_amp hmem

/-- The pairs of a form body that fit come back up to their terminators. -/
theorem FormBody.webFormPairs (h : FormBody pairs body)
    (hfits : ∀ p ∈ pairs, p.1.length < keyCap ∧ p.2.length < valCap) (behind : Char) :
    webFormPairs keyCap valCap behind body =
      some (pairs.map fun p => (cString p.1, cString p.2)) := by
  rw [OpenEVCharger.webFormPairs]
  induction h with
  | nil => rfl
  | last hkey heq hval =>
    have hfit := hfits _ (List.mem_singleton_self _)
    rw [formPieces_single (hkey.pair_no_amp hval)
      (List.append_ne_nil_of_right_ne_nil _ (List.cons_ne_nil _ _))]
    simp [webFormPair_encodes hkey heq hval hfit.1 hfit.2]
  | cons hkey heq hval _ ih =>
    rw [List.forall_mem_cons] at hfits
    rw [formPieces_amp (hkey.pair_no_amp hval), List.mapM_cons,
      webFormPair_encodes hkey heq hval hfits.1.1 hfits.1.2, ih hfits.2]
    rfl

theorem cString_eq_self_iff : cString text = text ↔ '\x00' ∉ text := by
  constructor
  · intro h hmem
    rw [← h] at hmem
    exact cString_mem hmem rfl
  · exact fun h => cString_eq_self fun c hc heq => h (heq ▸ hc)

/-! ### The encoding of forms -/

/-- A byte as the encoding for forms writes it. -/
def formEncodeChar (c : Char) : List Char :=
  if c = ' ' then ['+']
  else if c.isAlphanum || c ∈ "*-._".toList then [c]
  else ['%', Nat.digitChar (c.toNat / 16), Nat.digitChar (c.toNat % 16)]

def formEncode (text : List Char) : List Char := text.flatMap formEncodeChar

/-- Some pairs as a form body. -/
def formBody : List (List Char × List Char) → List Char
  | [] => []
  | [p] => formEncode p.1 ++ '=' :: formEncode p.2
  | p :: q :: pairs => formEncode p.1 ++ '=' :: formEncode p.2 ++ '&' :: formBody (q :: pairs)

theorem digitChar_ne_equals : ∀ v < 16, Nat.digitChar v ≠ '=' := by decide

theorem formEncode_encodes (h : ∀ c ∈ text, c.toNat < 256) :
    FormEncodes (formEncode text) text ∧ '=' ∉ formEncode text := by
  induction text with
  | nil => exact ⟨.nil, List.not_mem_nil⟩
  | cons c text ih =>
    rw [List.forall_mem_cons] at h
    obtain ⟨henc, heq⟩ := ih h.2
    rw [formEncode, List.flatMap_cons, ← formEncode, formEncodeChar]
    split
    · next hblank =>
      rw [hblank]
      exact ⟨.blank henc, List.not_mem_cons_of_ne_of_not_mem (by decide) heq⟩
    split
    · next hplain =>
      have hne : ∀ d ∈ ['+', '%', '&', '='], c ≠ d := by
        rintro d hd rfl
        simp only [List.mem_cons, List.not_mem_nil, or_false] at hd
        rcases hd with rfl | rfl | rfl | rfl <;> exact absurd hplain (by decide)
      simp only [List.forall_mem_cons] at hne
      exact ⟨.plain ⟨hne.1, hne.2.1, hne.2.2.1⟩ henc,
        List.not_mem_cons_of_ne_of_not_mem hne.2.2.2.1.symm heq⟩
    · have hhi := hexNibble_digitChar (c.toNat / 16) (by omega)
      have hlo := hexNibble_digitChar (c.toNat % 16) (by omega)
      have hhieq := digitChar_ne_equals (c.toNat / 16) (by omega)
      have hloeq := digitChar_ne_equals (c.toNat % 16) (by omega)
      have hescape := FormEncodes.escape hhi hlo henc
      rw [Nat.div_add_mod, Char.ofNat_toNat] at hescape
      refine ⟨hescape, ?_⟩
      exact List.not_mem_cons_of_ne_of_not_mem (by decide)
        (List.not_mem_cons_of_ne_of_not_mem hhieq.symm
          (List.not_mem_cons_of_ne_of_not_mem hloeq.symm heq))

theorem formBody_encodes
    (h : ∀ p ∈ pairs, (∀ c ∈ p.1, c.toNat < 256) ∧ ∀ c ∈ p.2, c.toNat < 256) :
    FormBody pairs (formBody pairs) := by
  induction pairs with
  | nil => exact .nil
  | cons p pairs ih =>
    rw [List.forall_mem_cons] at h
    obtain ⟨hkey, heq⟩ := formEncode_encodes h.1.1
    have hval := (formEncode_encodes h.1.2).1
    cases pairs with
    | nil => exact .last hkey heq hval
    | cons q pairs => exact .cons hkey heq hval (ih h.2)

/-! ### The law -/

/-- Forms come back as they were encoded if no key and no value has a terminator in it, and the
decoder keeps to its input if no escape is cut at its end. -/
theorem form_coding_iff (hbody : FormBody pairs body)
    (hfits : ∀ p ∈ pairs, p.1.length < keyCap ∧ p.2.length < valCap) (behind : Char) (cap : ℕ)
    (inp : List Char) :
    (webFormPairs keyCap valCap behind body = some pairs ↔
        ∀ p ∈ pairs, '\x00' ∉ p.1 ∧ '\x00' ∉ p.2) ∧
      (DecodesAlone cap inp ↔ ¬ CutEscape cap inp) := by
  refine ⟨?_, decodesAlone_iff⟩
  rw [hbody.webFormPairs hfits, Option.some_inj]
  nth_rewrite 2 [← List.map_id pairs]
  rw [List.map_inj_left]
  refine forall₂_congr fun p _ => ?_
  rw [id, Prod.ext_iff, cString_eq_self_iff, cString_eq_self_iff]

/-- Two fields of a configuration. -/
def samplePairs : List (List Char × List Char) :=
  [("broker_host".toList, "10.0.0.5".toList), ("broker_pass".toList, "p@w=r&d%".toList)]

theorem samplePairs_bytes :
    ∀ p ∈ samplePairs, (∀ c ∈ p.1, c.toNat < 256) ∧ ∀ c ∈ p.2, c.toNat < 256 := by
  simp [samplePairs]

theorem form_coding_iff_sample :
    (webFormPairs 64 128 '\x00' (formBody samplePairs) = some samplePairs ↔
        ∀ p ∈ samplePairs, '\x00' ∉ p.1 ∧ '\x00' ∉ p.2) ∧
      (DecodesAlone 64 "a%2".toList ↔ ¬ CutEscape 64 "a%2".toList) :=
  form_coding_iff (formBody_encodes samplePairs_bytes) (by decide +kernel) '\x00' 64 "a%2".toList

/-- An escape that is cut takes its second digit from behind the input. -/
theorem cut_escape_read :
    ¬ ((∀ (keyCap valCap : ℕ) (behind : Char) (pairs : List (List Char × List Char))
          (body : List Char), FormBody pairs body →
        (∀ p ∈ pairs, p.1.length < keyCap ∧ p.2.length < valCap) →
          webFormPairs keyCap valCap behind body = some pairs) ∧
      ∀ (cap : ℕ) (inp : List Char), DecodesAlone cap inp) := by
  rintro ⟨-, halone⟩
  have hsame := (halone 64 "a%2".toList).1 '&' '0'
  revert hsame
  decide

end OpenEVCharger
