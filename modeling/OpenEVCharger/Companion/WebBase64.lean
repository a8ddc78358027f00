import OpenEVCharger.Companion.WebAuth

/-!
# What the base64 decoder takes

`web_base64_decode` goes over groups of four, with white space skipped before each. It takes the
standard encoding of any bytes, and refuses what does not fall into groups of two digits and two
digits or pads.
-/

namespace OpenEVCharger

/-! ## The standard encoding -/

def b64Digit (v : ℕ) : Char :=
  "ABCDEFGHIJKLMNOPQRSTUVWXYZabcdefghijklmnopqrstuvwxyz0123456789+/".toList.getD v 'A'

/-- The padded encoding of some bytes. -/
def base64Encode : List UInt8 → List Char
  | [] => []
  | [a] => [b64Digit (a.toNat / 4), b64Digit (a.toNat % 4 * 16), '=', '=']
  | [a, b] =>
    [b64Digit (a.toNat / 4), b64Digit (a.toNat % 4 * 16 + b.toNat / 16),
      b64Digit (b.toNat % 16 * 4), '=']
  | a :: b :: c :: rest =>
    b64Digit (a.toNat / 4) :: b64Digit (a.toNat % 4 * 16 + b.toNat / 16) ::
      b64Digit (b.toNat % 16 * 4 + c.toNat / 64) :: b64Digit (c.toNat % 64) :: base64Encode rest

/-- White space that is skipped in front of a group. -/
def b64Blank (c : Char) : Bool := c = ' ' || c = '\t' || c = '\r' || c = '\n'

/-- A text with white space between its groups of four. -/
inductive Spread : List Char → List Char → Prop
  | nil : Spread [] []
  | blank {c : Char} {enc inp : List Char} (hc : b64Blank c = true) (h : Spread enc inp) :
      Spread enc (c :: inp)
  | group {enc inp : List Char} (d0 d1 d2 d3 : Char) (h : Spread enc inp) :
      Spread (d0 :: d1 :: d2 :: d3 :: enc) (d0 :: d1 :: d2 :: d3 :: inp)

/-- Groups of two digits and two digits or pads. -/
inductive Quartets : List Char → Prop
  | nil : Quartets []
  | group {d0 d1 d2 d3 : Char} {enc : List Char} (h0 : b64v d0 ≠ none) (h1 : b64v d1 ≠ none)
      (h2 : b64Tail d2 ≠ none) (h3 : b64Tail d3 ≠ none) (h : Quartets enc) :
      Quartets (d0 :: d1 :: d2 :: d3 :: enc)

variable {text enc inp out : List Char} {cap : ℕ}

theorem b64v_b64Digit : ∀ v < 64, b64v (b64Digit v) = some v := by decide +kernel

theorem base64Encode_spec (x : List UInt8) : Base64 (bytesText x) (base64Encode x) := by
  induction x using base64Encode.induct with
  | case1 => exact .nil
  | case2 a =>
    have ha := a.toNat_lt
    have hone := Base64.one (b64v_b64Digit (a.toNat / 4) (by omega))
      (b64v_b64Digit (a.toNat % 4 * 16) (by omega)) (by omega)
    rw [b64Bytes, show a.toNat / 4 * 4 + a.toNat % 4 * 16 / 16 = a.toNat by omega] at hone
    exact hone
  | case3 a b =>
    have ha := a.toNat_lt
    have hb := b.toNat_lt
    have htwo := Base64.two (b64v_b64Digit (a.toNat / 4) (by omega))
      (b64v_b64Digit (a.toNat % 4 * 16 + b.toNat / 16) (by omega))
      (b64v_b64Digit (b.toNat % 16 * 4) (by omega)) (by omega)
    rw [b64Bytes,
      show a.toNat / 4 * 4 + (a.toNat % 4 * 16 + b.toNat / 16) / 16 = a.toNat by omega,
      show (a.toNat % 4 * 16 + b.toNat / 16) % 16 * 16 + b.toNat % 16 * 4 / 4 = b.toNat by omega]
      at htwo
    exact htwo
  | case4 a b c rest ih =>
    have ha := a.toNat_lt
    have hb := b.toNat_lt
    have hc := c.toNat_lt
    have hgroup := Base64.group (b64v_b64Digit (a.toNat / 4) (by omega))
      (b64v_b64Digit (a.toNat % 4 * 16 + b.toNat / 16) (by omega))
      (b64v_b64Digit (b.toNat % 16 * 4 + c.toNat / 64) (by omega))
      (b64v_b64Digit (c.toNat % 64) (by omega)) ih
    rw [b64Bytes,
      show a.toNat / 4 * 4 + (a.toNat % 4 * 16 + b.toNat / 16) / 16 = a.toNat by omega,
      show (a.toNat % 4 * 16 + b.toNat / 16) % 16 * 16 + (b.toNat % 16 * 4 + c.toNat / 64) / 4 =
        b.toNat by omega,
      show (b.toNat % 16 * 4 + c.toNat / 64) % 4 * 64 + c.toNat % 64 = c.toNat by omega] at hgroup
    exact hgroup

/-! ## The decoder -/

theorem webBase64Decode_blank {c : Char} (hc : b64Blank c = true) :
    webBase64Decode cap (c :: inp) out = webBase64Decode cap inp out := by
  rw [webBase64Decode.eq_def]
  exact if_pos hc

theorem Base64.decode_spread (h : Base64 text enc) (hs : Spread enc inp) (out : List Char)
    (hfits : out.length + text.length ≤ cap) :
    webBase64Decode cap inp out = some (out ++ text) := by
  induction hs generalizing text out with
  | nil =>
    cases h
    rw [webBase64Decode, List.append_nil]
  | blank hc _ ih =>
    rw [webBase64Decode_blank hc]
    exact ih h out hfits
  | group d0 d1 d2 d3 _ ih =>
    cases h with
    | group h0 h1 h2 h3 h =>
      rw [List.length_append] at hfits
      rw [webBase64Decode_group h0 h1 (b64Tail_digit h2) (b64Tail_digit h3) (by omega),
        ih h _ (by rw [List.length_append]; omega), List.append_assoc]
    | two h0 h1 h2 _ =>
      rw [webBase64Decode_group h0 h1 (b64Tail_digit h2)
        (by decide : b64Tail '=' = some none) hfits,
        ih .nil _ (by rw [List.length_append]; exact hfits), List.append_nil]
    | one h0 h1 _ =>
      rw [webBase64Decode_group h0 h1 (by decide : b64Tail '=' = some none)
        (by decide : b64Tail '=' = some none) hfits,
        ih .nil _ (by rw [List.length_append]; exact hfits), List.append_nil]

/-- What is decoded falls into groups. -/
theorem quartets_of_decode (h : webBase64Decode cap inp out = some text) :
    ∃ enc, Quartets enc ∧ Spread enc inp := by
  fun_induction webBase64Decode cap inp out with
  | case1 => exact ⟨[], .nil, .nil⟩
  | case2 c out rest hc ih =>
    obtain ⟨enc, henc, hspread⟩ := ih h
    exact ⟨enc, henc, .blank hc hspread⟩
  | case3 => nomatch h
  | case4 c _ _ d1 d2 d3 rest v0 v1 v2 v3 h3 h2 h1 h0 _ _ ih =>
    obtain ⟨enc, henc, hspread⟩ := ih h
    refine ⟨c :: d1 :: d2 :: d3 :: enc, .group ?_ ?_ ?_ ?_ henc, .group c d1 d2 d3 hspread⟩
    · rw [h0]
      exact Option.some_ne_none _
    · rw [h1]
      exact Option.some_ne_none _
    · rw [h2]
      exact Option.some_ne_none _
    · rw [h3]
      exact Option.some_ne_none _
  | case5 => nomatch h
  | case6 => nomatch h

/-- The standard encoding of any bytes that fit is decoded, with white space between its groups or
without, and what does not fall into groups of two digits and two digits or pads is refused. -/
theorem base64_decoder (cap : ℕ) :
    (∀ (x : List UInt8) (inp : List Char), x.length ≤ cap → Spread (base64Encode x) inp →
      webBase64Decode cap inp [] = some (bytesText x)) ∧
    ∀ inp : List Char, (¬ ∃ enc, Quartets enc ∧ Spread enc inp) →
      webBase64Decode cap inp [] = none := by
  refine ⟨?_, ?_⟩
  · intro x inp hfits hspread
    refine (base64Encode_spec x).decode_spread hspread [] ?_
    rw [bytesText, List.length_map, List.length_nil, Nat.zero_add]
    exact hfits
  · intro inp hgroups
    cases hdecode : webBase64Decode cap inp [] with
    | none => rfl
    | some text => exact absurd (quartets_of_decode hdecode) hgroups

theorem base64_decoder_blank :
    webBase64Decode 255 " YWJj\nZA==\r\n".toList [] = some (bytesText [97, 98, 99, 100]) ∧
      webBase64Decode 255 "YW".toList [] = none := by
  obtain ⟨hdecoded, hrefused⟩ := base64_decoder 255
  refine ⟨hdecoded _ _ (by decide) ?_, hrefused _ ?_⟩
  · exact .blank (by decide) (.group _ _ _ _ (.blank (by decide) (.group _ _ _ _
      (.blank (by decide) (.blank (by decide) .nil)))))
  · rintro ⟨enc, -, hspread⟩
    cases hspread with
    | blank hc _ => exact absurd hc (by decide)

/-- White space that no encoding has is skipped. -/
theorem base64_decodes_more :
    ¬ ((∀ (cap : ℕ) (x : List UInt8), x.length ≤ cap →
        webBase64Decode cap (base64Encode x) [] = some (bytesText x)) ∧
      ∀ (cap : ℕ) (inp : List Char), (¬ ∃ x, inp = base64Encode x) →
        webBase64Decode cap inp [] = none) := by
  rintro ⟨-, hrefused⟩
  have hblank := hrefused 255 " YQ==".toList ?_
  · revert hblank
    decide
  · rintro ⟨x, hx⟩
    have hlen := (base64Encode_spec x).length
    rw [← hx, show " YQ==".toList.length = 5 by decide] at hlen
    omega

end OpenEVCharger
