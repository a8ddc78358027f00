import OpenEVCharger.Lib.Rounding
import Mathlib.Data.List.DropRight
import Mathlib.Data.List.TakeWhile
import Mathlib.Tactic.Positivity

/-!
# Numbers as text in C

The conversions of the C library between numbers and text, on lists of characters: `atoi`,
`strtol` in base 10 and `strtod`, and the printing with `%d` and `%.nf`. An `int` and a `long`
have 32 bits.
-/

/-- The text before the terminator. -/
def cString (s : List Char) : List Char := s.takeWhile (· ≠ '\x00')

theorem cString_mem {s : List Char} {c : Char} (h : c ∈ cString s) : c ≠ '\x00' := by
  simpa using List.mem_takeWhile_imp h

theorem cString_eq_self {s : List Char} (h : ∀ c ∈ s, c ≠ '\x00') : cString s = s := by
  rw [cString, List.takeWhile_eq_self_iff]
  intro c hc
  simpa using h c hc

theorem cString_zero (s : List Char) : cString ('\x00' :: s) = [] := rfl

theorem cString_cons {c : Char} (hc : c ≠ '\x00') (s : List Char) :
    cString (c :: s) = c :: cString s :=
  List.takeWhile_cons_of_pos (by simpa using hc)

theorem cString_eq_nil_iff {s : List Char} : cString s = [] ↔ s.headD '\x00' = '\x00' := by
  cases s with
  | nil => simp [cString]
  | cons c s =>
    by_cases hc : c = '\x00'
    · simp [hc, cString_zero]
    · simp [hc, cString_cons]

/-- The terminator is no digit, so that digits are read up to it at most. -/
theorem cString_digits (s : List Char) :
    (cString s).takeWhile Char.isDigit = s.takeWhile Char.isDigit ∧
      (cString s).dropWhile Char.isDigit = cString (s.dropWhile Char.isDigit) := by
  induction s with
  | nil => exact ⟨rfl, rfl⟩
  | cons c s ih =>
    by_cases hzero : c = '\x00'
    · subst hzero
      exact ⟨rfl, rfl⟩
    rw [cString_cons hzero]
    by_cases hdigit : c.isDigit = true
    · rw [List.takeWhile_cons_of_pos hdigit, List.takeWhile_cons_of_pos hdigit,
        List.dropWhile_cons_of_pos hdigit, List.dropWhile_cons_of_pos hdigit, ih.1]
      exact ⟨rfl, ih.2⟩
    · rw [List.takeWhile_cons_of_neg hdigit, List.takeWhile_cons_of_neg hdigit,
        List.dropWhile_cons_of_neg hdigit, List.dropWhile_cons_of_neg hdigit, cString_cons hzero]
      exact ⟨rfl, rfl⟩

/-! ## Ends of lists -/

section Ends

variable {α : Type*} {q : α → Bool} {a b : List α} {x : α}

theorem rdropWhile_append_of_pos (h : ∀ y ∈ b, q y = true) :
    (a ++ b).rdropWhile q = a.rdropWhile q := by
  rw [List.rdropWhile, List.reverse_append,
    List.dropWhile_append_of_pos (fun y hy => h y (List.mem_reverse.mp hy)), List.rdropWhile]

theorem rdropWhile_append_cons (h : q x = false) :
    (a ++ x :: b).rdropWhile q = a ++ x :: b.rdropWhile q := by
  have hstop : (x :: a.reverse).dropWhile q = x :: a.reverse :=
    List.dropWhile_cons_of_neg (by rw [h]; exact Bool.false_ne_true)
  rw [List.rdropWhile, List.reverse_append, List.reverse_cons, List.append_assoc,
    List.dropWhile_append, List.rdropWhile]
  split
  · next hempty =>
    rw [List.isEmpty_iff.mp hempty, List.singleton_append, hstop]
    simp
  · simp

theorem rtakeWhile_append_cons (hx : q x = false) (hb : ∀ y ∈ b, q y = true) :
    (a ++ x :: b).rtakeWhile q = b := by
  have hstop : (x :: a.reverse).takeWhile q = [] :=
    List.takeWhile_cons_of_neg (by rw [hx]; exact Bool.false_ne_true)
  rw [List.rtakeWhile, List.reverse_append, List.reverse_cons, List.append_assoc,
    List.takeWhile_append_of_pos fun y hy => hb y (List.mem_reverse.mp hy), List.singleton_append,
    hstop, List.append_nil, List.reverse_reverse]

end Ends

/-! ## Reading -/

def isSpace (c : Char) : Bool := c = ' ' || ('\t' ≤ c && c ≤ '\r')

/-- The text behind leading blanks and a sign, and whether the sign is a minus. -/
def readSign (s : List Char) : Bool × List Char :=
  match s.dropWhile isSpace with
  | '-' :: rest => (true, rest)
  | '+' :: rest => (false, rest)
  | rest => (false, rest)

/-- A decimal integer and the text behind it. -/
def scanInt (s : List Char) : Option (ℤ × List Char) :=
  let (neg, t) := readSign s
  let digits := t.takeWhile Char.isDigit
  if digits = [] then none
  else
    let n : ℤ := Nat.ofDigitChars 10 digits 0
    some (if neg then -n else n, t.dropWhile Char.isDigit)

def strtol (s : List Char) : ℤ × List Char :=
  match scanInt s with
  | none => (0, s)
  | some (n, rest) => (max (-2 ^ 31) (min n (2 ^ 31 - 1)), rest)

def atoi (s : List Char) : ℤ :=
  match scanInt s with
  | none => 0
  | some (n, _) => n.bmod (2 ^ 32)

def hexNibble (c : Char) : Option ℕ :=
  if '0' ≤ c ∧ c ≤ '9' then some (c.toNat - '0'.toNat)
  else if 'a' ≤ c ∧ c ≤ 'f' then some (c.toNat - 'a'.toNat + 10)
  else if 'A' ≤ c ∧ c ≤ 'F' then some (c.toNat - 'A'.toNat + 10)
  else none

theorem hexNibble_digitChar : ∀ v < 16, hexNibble (Nat.digitChar v) = some v := by decide

/-- How the digits of a floating-point number are read. -/
structure FloatSyntax where
  base : ℕ
  digit : Char → Bool
  value : List Char → ℕ
  mark : Char
  scale : ℚ

def decimalSyntax : FloatSyntax where
  base := 10
  digit := Char.isDigit
  value := fun ds => Nat.ofDigitChars 10 ds 0
  mark := 'e'
  scale := 10

def hexSyntax : FloatSyntax where
  base := 16
  digit := fun c => (hexNibble c).isSome
  value := List.foldl (fun n c => 16 * n + (hexNibble c).getD 0) 0
  mark := 'p'
  scale := 2

/-- The exponent behind a mark; without digits it is not part of the number. -/
def scanExponent (mark : Char) : List Char → ℤ × List Char
  | c :: rest =>
    if c.toLower = mark then
      let (neg, t) := match rest with
        | '-' :: t => (true, t)
        | '+' :: t => (false, t)
        | t => (false, t)
      let digits := t.takeWhile Char.isDigit
      if digits = [] then (0, c :: rest)
      else
        let e : ℤ := Nat.ofDigitChars 10 digits 0
        (if neg then -e else e, t.dropWhile Char.isDigit)
    else (0, c :: rest)
  | [] => (0, [])

/-- The digits behind a point, if there is one. -/
def scanFraction (digit : Char → Bool) : List Char → List Char × List Char
  | '.' :: rest => (rest.takeWhile digit, rest.dropWhile digit)
  | rest => ([], rest)

/-- A floating-point number without a sign, and the text behind it. -/
def scanFloat (syn : FloatSyntax) (s : List Char) : Option (ℚ × List Char) :=
  let whole := s.takeWhile syn.digit
  let (fraction, rest) := scanFraction syn.digit (s.dropWhile syn.digit)
  if whole ++ fraction = [] then none
  else
    let (e, rest) := scanExponent syn.mark rest
    some (syn.value (whole ++ fraction) / syn.base ^ fraction.length * syn.scale ^ e, rest)

/-- `strtod`: the number, `none` for an infinity or a NaN, and the text behind it. -/
def strtod (s : List Char) : Option ℚ × List Char :=
  let (neg, t) := readSign s
  let number : Option (ℚ × List Char) → Option ℚ × List Char
    | none => (some 0, s)
    | some (q, rest) => (some (binary64.round (if neg then -q else q)), rest)
  let lower := t.map Char.toLower
  if "infinity".toList <+: lower then (none, t.drop 8)
  else if "inf".toList <+: lower then (none, t.drop 3)
  else if "nan".toList <+: lower then (none, t.drop 3)
  else if "0x".toList <+: lower then
    match scanFloat hexSyntax (t.drop 2) with
    | none => (some 0, t.drop 1)
    | some found => number (some found)
  else number (scanFloat decimalSyntax t)

/-! ## Printing -/

/-- `%d`. -/
def printInt (n : ℤ) : List Char :=
  if n < 0 then '-' :: Nat.toDigits 10 n.natAbs else Nat.toDigits 10 n.natAbs

/-- The digits of `n`, at least `width` of them. -/
def padDigits (width n : ℕ) : List Char :=
  List.replicate (width - (Nat.toDigits 10 n).length) '0' ++ Nat.toDigits 10 n

/-- `%.nf` of a number that is not negative, with `n` more than zero. -/
def printFixed (digits : ℕ) (q : ℚ) : List Char :=
  let n := (roundHalfEven (q * 10 ^ digits)).toNat
  Nat.toDigits 10 (n / 10 ^ digits) ++ '.' :: padDigits digits (n % 10 ^ digits)

/-! ## Reading what was printed -/

section RoundTrip

variable {n width : ℕ} {s rest : List Char}

theorem isDigit_toDigits (n : ℕ) : ∀ c ∈ Nat.toDigits 10 n, c.isDigit = true :=
  fun _ hc => Nat.isDigit_of_mem_toDigits (by decide) (by decide) hc

theorem isDigit_padDigits (width n : ℕ) : ∀ c ∈ padDigits width n, c.isDigit = true := by
  intro c hc
  rcases List.mem_append.mp hc with hzero | hdigit
  · rw [List.eq_of_mem_replicate hzero]
    decide
  · exact isDigit_toDigits n c hdigit

theorem takeWhile_digits (hs : ∀ c ∈ s, c.isDigit = true)
    (hrest : ∀ c ∈ rest.head?, c.isDigit = false) :
    (s ++ rest).takeWhile Char.isDigit = s ∧ (s ++ rest).dropWhile Char.isDigit = rest := by
  rw [List.takeWhile_append_of_pos hs, List.dropWhile_append_of_pos hs]
  cases rest with
  | nil => simp
  | cons c rest =>
    have hc := hrest c rfl
    simp [hc]

theorem isSpace_digit {c : Char} (hc : c.isDigit = true) : isSpace c = false := by
  rw [Bool.eq_false_iff]
  intro hspace
  simp only [Char.isDigit, isSpace, Bool.and_eq_true, Bool.or_eq_true, decide_eq_true_eq,
    Char.le_def, ge_iff_le, UInt32.le_iff_toNat_le] at hc hspace
  rcases hspace with rfl | ⟨-, hle⟩
  · exact absurd hc.1 (by decide)
  · exact absurd (hc.1.trans hle) (by decide)

/-- A text that begins with a digit has neither blanks nor a sign in front. -/
theorem readSign_digit (hs : s ≠ []) (hdigits : ∀ c ∈ s, c.isDigit = true) :
    readSign (s ++ rest) = (false, s ++ rest) := by
  cases s with
  | nil => exact absurd rfl hs
  | cons c s =>
    have hc := hdigits c (List.mem_cons_self ..)
    rw [readSign, List.cons_append,
      List.dropWhile_cons_of_neg (by rw [isSpace_digit hc]; exact Bool.false_ne_true)]
    split
    · next heq =>
      cases heq
      exact absurd hc (by decide)
    · next heq =>
      cases heq
      exact absurd hc (by decide)
    · rfl

theorem scanInt_printInt (n : ℤ) : scanInt (printInt n) = some (n, []) := by
  have hdigits := isDigit_toDigits n.natAbs
  have hne : Nat.toDigits 10 n.natAbs ≠ [] := Nat.toDigits_ne_nil
  have hscan := @takeWhile_digits _ [] hdigits (by nofun)
  rw [List.append_nil] at hscan
  rw [printInt]
  split
  · next hneg =>
    have hsign : readSign ('-' :: Nat.toDigits 10 n.natAbs) = (true, Nat.toDigits 10 n.natAbs) :=
      rfl
    rw [scanInt, hsign]
    simp only [hscan.1, hscan.2, if_neg hne, Nat.ofDigitChars_ten_toDigits, if_true]
    congr 2
    omega
  · next hpos =>
    have hsign := @readSign_digit _ [] hne hdigits
    rw [List.append_nil] at hsign
    rw [scanInt, hsign]
    simp only [hscan.1, hscan.2, if_neg hne, Nat.ofDigitChars_ten_toDigits, Bool.false_eq_true,
      if_false]
    congr 2
    omega

theorem atoi_printInt {n : ℤ} (hlo : -2 ^ 31 ≤ n) (hhi : n < 2 ^ 31) :
    atoi (printInt n) = n := by
  rw [atoi, scanInt_printInt]
  dsimp only
  rw [Int.bmod_eq_of_le] <;> omega

theorem padDigits_ne_nil (width n : ℕ) : padDigits width n ≠ [] :=
  List.append_ne_nil_of_right_ne_nil _ Nat.toDigits_ne_nil

theorem padDigits_length (h : n < 10 ^ width) (hwidth : 0 < width) :
    (padDigits width n).length = width := by
  have hlen : (Nat.toDigits 10 n).length ≤ width :=
    (Nat.length_toDigits_le_iff (by decide) hwidth).mpr h
  rw [padDigits, List.length_append, List.length_replicate]
  omega

theorem ofDigitChars_padDigits (width n init : ℕ) (h : n < 10 ^ width) (hwidth : 0 < width) :
    Nat.ofDigitChars 10 (padDigits width n) init = 10 ^ width * init + n := by
  have hlen := padDigits_length h hwidth
  rw [Nat.ofDigitChars_eq_ofDigitChars_zero, hlen]
  congr 1
  rw [padDigits, Nat.ofDigitChars_append, Nat.ofDigitChars_replicate_zero, Nat.mul_zero,
    Nat.ofDigitChars_ten_toDigits]

/-- A printed decimal is made of digits and a point. -/
theorem printFixed_mem {digits : ℕ} {q : ℚ} {c : Char} (h : c ∈ printFixed digits q) :
    c.isDigit = true ∨ c = '.' := by
  rcases List.mem_append.mp h with hwhole | hrest
  · exact .inl (isDigit_toDigits _ c hwhole)
  · rcases List.mem_cons.mp hrest with hpoint | hfraction
    · exact .inr hpoint
    · exact .inl (isDigit_padDigits _ _ c hfraction)

theorem toLower_digit {c : Char} (hc : c.isDigit = true) : c.toLower = c := by
  simp only [Char.isDigit, Bool.and_eq_true, decide_eq_true_eq, ge_iff_le,
    UInt32.le_iff_toNat_le] at hc
  delta Char.toLower
  rw [dif_neg]
  rintro ⟨hge, -⟩
  exact absurd ((UInt32.le_iff_toNat_le.mp hge).trans hc.2) (by decide)

/-- A printed decimal does not begin with a word that has a letter. -/
theorem printFixed_word {digits : ℕ} {q : ℚ} {word : List Char} (letter : Char)
    (hmem : letter ∈ word) (hletter : letter.isDigit = false ∧ letter ≠ '.') :
    ¬ word <+: (printFixed digits q).map Char.toLower := by
  intro hbegins
  obtain ⟨c, hc, hlower⟩ := List.mem_map.mp (hbegins.subset hmem)
  rcases printFixed_mem hc with hdigit | rfl
  · rw [toLower_digit hdigit] at hlower
    rw [← hlower, hdigit] at hletter
    exact Bool.noConfusion hletter.1
  · exact hletter.2 hlower.symm

/-- The decimals that are printed are read as the nearest double. -/
theorem strtod_printFixed {digits : ℕ} {q : ℚ} (hq : 0 ≤ q) (hdigits : 0 < digits) :
    strtod (printFixed digits q) = (some (binary64.round (decimal digits q)), []) := by
  have hpow : 0 < 10 ^ digits := Nat.pow_pos (by decide)
  have hround : 0 ≤ roundHalfEven (q * 10 ^ digits) := roundHalfEven_nonneg (by positivity)
  set n := (roundHalfEven (q * 10 ^ digits)).toNat with hn
  have hvalue : decimal digits q = (n : ℚ) / 10 ^ digits := by
    have hcast : (roundHalfEven (q * 10 ^ digits) : ℚ) = n := by
      rw [← Int.toNat_of_nonneg hround]
      rfl
    rw [decimal, hcast]
  have hwhole := isDigit_toDigits (n / 10 ^ digits)
  have hfraction := isDigit_padDigits digits (n % 10 ^ digits)
  have hmod : n % 10 ^ digits < 10 ^ digits := Nat.mod_lt _ hpow
  have hsign : readSign (printFixed digits q) = (false, printFixed digits q) :=
    readSign_digit Nat.toDigits_ne_nil hwhole
  have hint := @takeWhile_digits _ ('.' :: padDigits digits (n % 10 ^ digits)) hwhole
    (by rintro c ⟨⟩; rfl)
  have hfrac := @takeWhile_digits _ [] hfraction (by intro c hc; cases hc)
  rw [List.append_nil] at hfrac
  have hscan : scanFloat decimalSyntax (printFixed digits q) = some (decimal digits q, []) := by
    have hne : Nat.toDigits 10 (n / 10 ^ digits) ++ padDigits digits (n % 10 ^ digits) ≠ [] :=
      List.append_ne_nil_of_left_ne_nil Nat.toDigits_ne_nil _
    simp only [scanFloat, decimalSyntax, printFixed, ← hn, hint.1, hint.2, scanFraction, hfrac.1,
      hfrac.2, if_neg hne, scanExponent]
    rw [Nat.ofDigitChars_append, Nat.ofDigitChars_ten_toDigits,
      ofDigitChars_padDigits _ _ _ hmod hdigits, Nat.div_add_mod, padDigits_length hmod hdigits,
      hvalue, zpow_zero, mul_one]
    norm_num
  rw [strtod, hsign]
  dsimp only
  rw [if_neg (printFixed_word 'i' (by decide) (by decide)),
    if_neg (printFixed_word 'i' (by decide) (by decide)),
    if_neg (printFixed_word 'n' (by decide) (by decide)),
    if_neg (printFixed_word 'x' (by decide) (by decide)), hscan]
  rfl

end RoundTrip
