import OpenEVCharger.Lib.CText

/-!
# JSON texts

A reader of JSON texts as lists of characters that stand for one byte each: its strings, its
values, and UTF-8 as a machine over bytes. What it reads from a text it reads from a longer one,
a string that is printed between quotes without escapes is read back exactly when it needs none,
and an object is read back member by member.
-/

namespace Json

/-! ## UTF-8 -/

/-- The ranges of the bytes that follow a first byte. -/
def utf8Owed (b : ℕ) : Option (List (ℕ × ℕ)) :=
  if b < 0x80 then some []
  else if 0xC2 ≤ b ∧ b ≤ 0xDF then some [(0x80, 0xBF)]
  else if b = 0xE0 then some [(0xA0, 0xBF), (0x80, 0xBF)]
  else if b = 0xED then some [(0x80, 0x9F), (0x80, 0xBF)]
  else if 0xE1 ≤ b ∧ b ≤ 0xEF then some [(0x80, 0xBF), (0x80, 0xBF)]
  else if b = 0xF0 then some [(0x90, 0xBF), (0x80, 0xBF), (0x80, 0xBF)]
  else if 0xF1 ≤ b ∧ b ≤ 0xF3 then some [(0x80, 0xBF), (0x80, 0xBF), (0x80, 0xBF)]
  else if b = 0xF4 then some [(0x80, 0x8F), (0x80, 0xBF), (0x80, 0xBF)]
  else none

/-- The bytes go on from what is owed to whole characters. -/
def utf8From : List (ℕ × ℕ) → List Char → Bool
  | owed, [] => owed.isEmpty
  | [], c :: rest =>
    match utf8Owed c.toNat with
    | none => false
    | some owed => utf8From owed rest
  | (lo, hi) :: owed, c :: rest => decide (lo ≤ c.toNat) && decide (c.toNat ≤ hi) && utf8From owed rest

def Utf8 (s : List Char) : Prop := utf8From [] s = true

instance (s : List Char) : Decidable (Utf8 s) := inferInstanceAs (Decidable (_ = true))

def utf8Encode (n : ℕ) : List Char :=
  if n < 0x80 then [Char.ofNat n]
  else if n < 0x800 then [Char.ofNat (0xC0 + n / 64), Char.ofNat (0x80 + n % 64)]
  else if n < 0x10000 then
    [Char.ofNat (0xE0 + n / 4096), Char.ofNat (0x80 + n / 64 % 64), Char.ofNat (0x80 + n % 64)]
  else
    [Char.ofNat (0xF0 + n / 262144), Char.ofNat (0x80 + n / 4096 % 64),
      Char.ofNat (0x80 + n / 64 % 64), Char.ofNat (0x80 + n % 64)]

/-! ## Strings -/

/-- Where the reader stands in a string: `high` is the first half of a surrogate pair. -/
inductive StringState
  | plain
  | escape
  | hex (left acc : ℕ) (high : Option ℕ)
  | low (high : ℕ)
  | lowU (high : ℕ)
  deriving DecidableEq

inductive StringAct
  | done
  | go (next : StringState) (out : List Char)

def simpleEscape (c : Char) : Option Char :=
  if c = '\x22' then some '\x22'
  else if c = '\\' then some '\\'
  else if c = '/' then some '/'
  else if c = 'b' then some '\x08'
  else if c = 'f' then some '\x0c'
  else if c = 'n' then some '\n'
  else if c = 'r' then some '\r'
  else if c = 't' then some '\t'
  else none

/-- What a code unit stands for, behind the first half of a pair or not. -/
def decodeUnit (high : Option ℕ) (unit : ℕ) : Option StringAct :=
  match high with
  | none =>
    if 0xD800 ≤ unit ∧ unit < 0xDC00 then some (.go (.low unit) [])
    else if 0xDC00 ≤ unit ∧ unit < 0xE000 then none
    else some (.go .plain (utf8Encode unit))
  | some high =>
    if 0xDC00 ≤ unit ∧ unit < 0xE000 then
      some (.go .plain (utf8Encode (0x10000 + (high - 0xD800) * 0x400 + (unit - 0xDC00))))
    else none

def stringStep : StringState → Char → Option StringAct
  | .plain, c =>
    if c = '\x22' then some .done
    else if c = '\\' then some (.go .escape [])
    else if c.toNat < 0x20 then none
    else some (.go .plain [c])
  | .escape, c =>
    if c = 'u' then some (.go (.hex 4 0 none) [])
    else (simpleEscape c).map fun d => .go .plain [d]
  | .hex left acc high, c =>
    match hexNibble c with
    | none => none
    | some d =>
      if 1 < left then some (.go (.hex (left - 1) (16 * acc + d) high) [])
      else decodeUnit high (16 * acc + d)
  | .low high, c => if c = '\\' then some (.go (.lowU high) []) else none
  | .lowU high, c => if c = 'u' then some (.go (.hex 4 0 (some high)) []) else none

/-- The string down to its closing quote, and the text behind. -/
def scanString : StringState → List Char → Option (List Char × List Char)
  | _, [] => none
  | st, c :: rest =>
    match stringStep st c with
    | none => none
    | some .done => some ([], rest)
    | some (.go next out) => (scanString next rest).map fun p => (out ++ p.1, p.2)

/-! ## Values -/

inductive Value
  | null
  | bool (b : Bool)
  | num (text : List Char)
  | str (s : List Char)
  | arr (elems : List Value)
  | obj (members : List (List Char × Value))

def isWs (c : Char) : Bool := c = ' ' || c = '\t' || c = '\n' || c = '\r'

def skipWs (s : List Char) : List Char := s.dropWhile isWs

/-- The fraction of a number, if there is one, and the text behind it. -/
def numberFraction (t : List Char) : Option (List Char) :=
  match t with
  | '.' :: t => if t.takeWhile Char.isDigit = [] then none else some (t.dropWhile Char.isDigit)
  | t => some t

def numberExponent (t : List Char) : Bool :=
  match t with
  | [] => true
  | e :: t =>
    let t := if t.head? = some '+' ∨ t.head? = some '-' then t.tail else t
    (e = 'e' || e = 'E') && t ≠ [] && t.all Char.isDigit

def isNumber (s : List Char) : Bool :=
  let t := if s.head? = some '-' then s.tail else s
  let whole := t.takeWhile Char.isDigit
  match numberFraction (t.dropWhile Char.isDigit) with
  | none => false
  | some t => whole ≠ [] && (whole = ['0'] || whole.head? ≠ some '0') && numberExponent t

def isScalarChar (c : Char) : Bool := c.isAlphanum || c = '+' || c = '-' || c = '.'

/-- A number or one of the three words, which end where a character of another kind comes. -/
def scanScalar (s : List Char) : Option (Value × List Char) :=
  let token := s.takeWhile isScalarChar
  let rest := s.dropWhile isScalarChar
  if token = "null".toList then some (.null, rest)
  else if token = "true".toList then some (.bool true, rest)
  else if token = "false".toList then some (.bool false, rest)
  else if isNumber token then some (.num token, rest)
  else none

mutual

def scanValue : ℕ → List Char → Option (Value × List Char)
  | 0, _ => none
  | fuel + 1, s =>
    match skipWs s with
    | '\x22' :: rest => (scanString .plain rest).map fun p => (.str p.1, p.2)
    | '\x7b' :: rest =>
      match skipWs rest with
      | '\x7d' :: rest => some (.obj [], rest)
      | rest => (scanMembers fuel rest).map fun p => (.obj p.1, p.2)
    | '[' :: rest =>
      match skipWs rest with
      | ']' :: rest => some (.arr [], rest)
      | rest => (scanElems fuel rest).map fun p => (.arr p.1, p.2)
    | rest => scanScalar rest

def scanMembers : ℕ → List Char → Option (List (List Char × Value) × List Char)
  | 0, _ => none
  | fuel + 1, s =>
    match skipWs s with
    | '\x22' :: rest =>
      match scanString .plain rest with
      | none => none
      | some (key, rest) =>
        match skipWs rest with
        | ':' :: rest =>
          match scanValue fuel rest with
          | none => none
          | some (v, rest) =>
            match skipWs rest with
            | '\x7d' :: rest => some ([(key, v)], rest)
            | ',' :: rest => (scanMembers fuel rest).map fun p => ((key, v) :: p.1, p.2)
            | _ => none
        | _ => none
    | _ => none

def scanElems : ℕ → List Char → Option (List Value × List Char)
  | 0, _ => none
  | fuel + 1, s =>
    match scanValue fuel s with
    | none => none
    | some (v, rest) =>
      match skipWs rest with
      | ']' :: rest => some ([v], rest)
      | ',' :: rest => (scanElems fuel rest).map fun p => (v :: p.1, p.2)
      | _ => none

end

/-- The value of a whole text. -/
def parse (s : List Char) : Option Value :=
  match scanValue (s.length + 1) s with
  | none => none
  | some (v, rest) => if skipWs rest = [] then some v else none

/-- A text in UTF-8 that reads as `v`. -/
def Text (s : List Char) (v : Value) : Prop := Utf8 s ∧ parse s = some v

/-! ## UTF-8 of parts -/

variable {s a b x text tail rest : List Char} {c : Char} {owed : List (ℕ × ℕ)} {n : ℕ}

@[simp] theorem utf8From_nil (owed : List (ℕ × ℕ)) : utf8From owed [] = owed.isEmpty := by
  cases owed <;> rfl

theorem utf8From_start (c : Char) (s : List Char) :
    utf8From [] (c :: s) = match utf8Owed c.toNat with
      | none => false
      | some owed => utf8From owed s := rfl

theorem utf8From_owed (lo hi : ℕ) (owed : List (ℕ × ℕ)) (c : Char) (s : List Char) :
    utf8From ((lo, hi) :: owed) (c :: s) =
      (decide (lo ≤ c.toNat) && (decide (c.toNat ≤ hi) && utf8From owed s)) :=
  Bool.and_assoc ..

/-- What follows a first byte is never ASCII. -/
theorem le_of_utf8Owed (h : utf8Owed n = some owed) : ∀ p ∈ owed, 0x80 ≤ p.1 := by
  rw [utf8Owed] at h
  split_ifs at h <;> cases h <;> decide

theorem utf8Owed_ascii (h : n < 0x80) : utf8Owed n = some [] := if_pos h

/-- At an ASCII character a text splits into characters. -/
theorem utf8From_append_cons (hc : c.toNat < 0x80) (howed : ∀ p ∈ owed, 0x80 ≤ p.1) :
    utf8From owed (a ++ c :: b) = (utf8From owed a && utf8From [] b) := by
  induction a generalizing owed with
  | nil =>
    cases owed with
    | nil =>
      rw [List.nil_append, utf8From_start, utf8Owed_ascii hc]
      rfl
    | cons p owed =>
      obtain ⟨lo, hi⟩ := p
      have hlo : 0x80 ≤ lo := howed (lo, hi) (List.mem_cons_self ..)
      rw [List.nil_append, utf8From_owed, decide_eq_false (Nat.not_le.mpr (Nat.lt_of_lt_of_le hc hlo))]
      rfl
  | cons d a ih =>
    cases owed with
    | nil =>
      rw [List.cons_append, utf8From_start, utf8From_start]
      cases hd : utf8Owed d.toNat with
      | none => rfl
      | some owed => exact ih (le_of_utf8Owed hd)
    | cons p owed =>
      obtain ⟨lo, hi⟩ := p
      rw [List.cons_append, utf8From_owed, utf8From_owed,
        ih fun q hq => howed q (List.mem_cons_of_mem _ hq), Bool.and_assoc, Bool.and_assoc]

theorem utf8_append_cons (hc : c.toNat < 0x80) : Utf8 (a ++ c :: b) ↔ Utf8 a ∧ Utf8 b := by
  rw [Utf8, utf8From_append_cons hc (fun _ hp => absurd hp List.not_mem_nil), Bool.and_eq_true]
  rfl

theorem utf8_cons (hc : c.toNat < 0x80) : Utf8 (c :: b) ↔ Utf8 b := by
  have hsplit := utf8_append_cons (a := []) (b := b) hc
  rw [List.nil_append] at hsplit
  exact hsplit.trans (and_iff_right rfl)

theorem utf8_ascii_append (ha : ∀ c ∈ a, c.toNat < 0x80) : Utf8 (a ++ b) ↔ Utf8 b := by
  induction a with
  | nil => exact Iff.rfl
  | cons c a ih =>
    rw [List.cons_append, utf8_cons (ha c (List.mem_cons_self ..))]
    exact ih fun d hd => ha d (List.mem_cons_of_mem _ hd)

theorem utf8_ascii (ha : ∀ c ∈ a, c.toNat < 0x80) : Utf8 a := by
  have happend := utf8_ascii_append (b := []) ha
  rw [List.append_nil] at happend
  exact happend.mpr rfl

/-! ## Strings read back -/

/-- A string that needs no escape. -/
def Plain (s : List Char) : Prop := ∀ c ∈ s, c ≠ '\x22' ∧ c ≠ '\\' ∧ 0x20 ≤ c.toNat

instance (s : List Char) : Decidable (Plain s) := List.decidableBAll _ s

/-- A string between quotes, as it is. -/
def quoted (s : List Char) : List Char := '\x22' :: (s ++ ['\x22'])

theorem plain_cons : Plain (c :: s) ↔ (c ≠ '\x22' ∧ c ≠ '\\' ∧ 0x20 ≤ c.toNat) ∧ Plain s :=
  List.forall_mem_cons

theorem scanString_cons_go {st next : StringState} {out : List Char}
    (h : stringStep st c = some (.go next out)) :
    scanString st (c :: rest) = (scanString next rest).map fun p => (out ++ p.1, p.2) := by
  rw [scanString, h]

/-- A character that gives nothing yet. -/
theorem scanString_cons_silent {st next : StringState} (h : stringStep st c = some (.go next [])) :
    scanString st (c :: rest) = scanString next rest := by
  rw [scanString_cons_go h]
  exact Option.map_id' ..

theorem stringStep_plain (hc : c ≠ '\x22' ∧ c ≠ '\\' ∧ 0x20 ≤ c.toNat) :
    stringStep .plain c = some (.go .plain [c]) := by
  rw [stringStep, if_neg hc.1, if_neg hc.2.1, if_neg (Nat.not_lt.mpr hc.2.2)]

theorem scanString_quote (rest : List Char) : scanString .plain ('\x22' :: rest) = some ([], rest) :=
  rfl

/-- A string without escapes is read back. -/
theorem scanString_plain (h : Plain s) :
    scanString .plain (s ++ '\x22' :: rest) = some (s, rest) := by
  induction s with
  | nil => exact scanString_quote rest
  | cons c s ih =>
    rw [plain_cons] at h
    rw [List.cons_append, scanString_cons_go (stringStep_plain h.1), ih h.2]
    rfl

/-- What is read from a text is read from a longer one. -/
theorem scanString_append {st : StringState} {v : List Char} (h : scanString st s = some (v, rest)) :
    scanString st (s ++ x) = some (v, rest ++ x) := by
  induction s generalizing st v with
  | nil => cases st <;> cases h
  | cons c s ih =>
    rw [List.cons_append, scanString]
    rw [scanString] at h
    cases hstep : stringStep st c with
    | none => rw [hstep] at h; cases h
    | some act =>
      rw [hstep] at h
      cases act with
      | done => cases h; rfl
      | go next out =>
        obtain ⟨p, hp, hv⟩ := Option.map_eq_some_iff.mp h
        cases hv
        exact Option.map_eq_some_iff.mpr ⟨_, ih hp, rfl⟩

/-- The characters of an escape that have been read without giving any yet. -/
def pending : StringState → ℕ
  | .plain => 0
  | .escape => 1
  | .hex left _ none => 6 - left
  | .hex left _ (some _) => 12 - left
  | .low _ => 6
  | .lowU _ => 7

theorem length_utf8Encode_le (n : ℕ) : (utf8Encode n).length ≤ 4 := by
  rw [utf8Encode]
  split_ifs
  · exact Nat.le_add_left 1 3
  · exact Nat.le_add_left 2 2
  · exact Nat.le_add_left 3 1
  · exact Nat.le_refl 4

/-- An escape gives fewer characters than it takes. -/
theorem pending_step {st next : StringState} {out : List Char}
    (h : stringStep st c = some (.go next out)) :
    (st = .plain ∧ next = .plain ∧ out = [c] ∧ c ≠ '\x22' ∧ c ≠ '\\' ∧ 0x20 ≤ c.toNat) ∨
      (st = .plain ∧ next = .escape ∧ out = [] ∧ c = '\\') ∨
      (st ≠ .plain ∧ next = .plain ∧ out.length ≤ pending st) ∨
      (st ≠ .plain ∧ next ≠ .plain ∧ next ≠ .escape ∧ out = [] ∧
        pending next ≤ pending st + 1) := by
  cases st with
  | plain =>
    rw [stringStep] at h
    split_ifs at h with hquote hback hlow
    · cases h
    · cases h
      exact .inr (.inl ⟨rfl, rfl, rfl, hback⟩)
    · cases h
      exact .inl ⟨rfl, rfl, rfl, hquote, hback, Nat.not_lt.mp hlow⟩
  | escape =>
    rw [stringStep] at h
    split_ifs at h
    · cases h
      exact .inr (.inr (.inr ⟨nofun, nofun, nofun, rfl, Nat.le_refl 2⟩))
    · obtain ⟨d, -, hd⟩ := Option.map_eq_some_iff.mp h
      cases hd
      exact .inr (.inr (.inl ⟨nofun, rfl, Nat.le_refl 1⟩))
  | hex left acc high =>
    rw [stringStep] at h
    cases hd : hexNibble c with
    | none => rw [hd] at h; cases h
    | some d =>
      rw [hd] at h
      dsimp only at h
      split_ifs at h with hleft
      · cases h
        refine .inr (.inr (.inr ⟨nofun, nofun, nofun, rfl, ?_⟩))
        cases high <;> simp only [pending] <;> omega
      · have hbytes := length_utf8Encode_le
        cases high with
        | none =>
          rw [decodeUnit] at h
          split_ifs at h
          · cases h
            refine .inr (.inr (.inr ⟨nofun, nofun, nofun, rfl, ?_⟩))
            simp only [pending]
            omega
          · cases h
            refine .inr (.inr (.inl ⟨nofun, rfl, Nat.le_trans (hbytes _) ?_⟩))
            simp only [pending]
            omega
        | some high =>
          rw [decodeUnit] at h
          split_ifs at h
          cases h
          refine .inr (.inr (.inl ⟨nofun, rfl, Nat.le_trans (hbytes _) ?_⟩))
          simp only [pending]
          omega
  | low high =>
    rw [stringStep] at h
    split_ifs at h
    cases h
    exact .inr (.inr (.inr ⟨nofun, nofun, nofun, rfl, Nat.le_refl 7⟩))
  | lowU high =>
    rw [stringStep] at h
    split_ifs at h
    cases h
    exact .inr (.inr (.inr ⟨nofun, nofun, nofun, rfl, Nat.le_refl 8⟩))

theorem stringStep_quote (st : StringState) :
    (st = .plain ∧ stringStep st '\x22' = some .done) ∨
      (st = .escape ∧ stringStep st '\x22' = some (.go .plain ['\x22'])) ∨
      stringStep st '\x22' = none := by
  cases st with
  | plain => exact .inl ⟨rfl, rfl⟩
  | escape => exact .inr (.inl ⟨rfl, rfl⟩)
  | hex left acc high => exact .inr (.inr rfl)
  | low high => exact .inr (.inr rfl)
  | lowU high => exact .inr (.inr rfl)

theorem getLast?_cons_of_some {d : Char} (h : s.getLast? = some d) : (c :: s).getLast? = some d := by
  cases s with
  | nil => cases h
  | cons c' s => rw [List.getLast?_cons_cons]; exact h

/-- What is read where `s` stands between quotes as it is: something shorter; `s`, which needs no
escape; or, when its last character escapes the closing quote, something that goes on behind. -/
theorem scanString_raw {st : StringState} {v r : List Char}
    (h : scanString st (s ++ '\x22' :: tail) = some (v, r)) :
    v.length < s.length + pending st ∨ (st = .plain ∧ Plain s ∧ v = s) ∨
      ((s.getLast? = some '\\' ∨ s = [] ∧ st = .escape) ∧
        ∃ v₁ v₂, v = v₁ ++ '\x22' :: v₂ ∧ scanString .plain tail = some (v₂, r)) := by
  induction s generalizing st v with
  | nil =>
    rw [List.nil_append, scanString] at h
    obtain ⟨hst, hstep⟩ | ⟨hst, hstep⟩ | hstep := stringStep_quote st
    · rw [hstep] at h
      cases h
      exact .inr (.inl ⟨hst, fun _ hc => absurd hc List.not_mem_nil, rfl⟩)
    · rw [hstep] at h
      obtain ⟨p, hp, hv⟩ := Option.map_eq_some_iff.mp h
      cases hv
      exact .inr (.inr ⟨.inr ⟨rfl, hst⟩, [], p.1, rfl, hp⟩)
    · rw [hstep] at h
      cases h
  | cons c s ih =>
    rw [List.cons_append, scanString] at h
    cases hstep : stringStep st c with
    | none => rw [hstep] at h; cases h
    | some act =>
      rw [hstep] at h
      cases act with
      | done =>
        cases h
        exact .inl (by rw [List.length_cons]; exact Nat.lt_add_right _ (Nat.zero_lt_succ _))
      | go next out =>
        obtain ⟨p, hp, hv⟩ := Option.map_eq_some_iff.mp h
        cases hv
        rw [List.length_append, List.length_cons]
        obtain hshort | ⟨rfl, hplain, hvalue⟩ | ⟨hlast, v₁, v₂, hvalue, htail⟩ := ih hp
        · left
          obtain ⟨rfl, rfl, rfl, -⟩ | ⟨rfl, rfl, rfl, -⟩ | ⟨-, rfl, hout⟩ | ⟨-, -, -, rfl, hout⟩ :=
            pending_step hstep <;> simp only [pending, List.length_nil, List.length_singleton] at * <;>
            omega
        · rw [hvalue]
          obtain ⟨rfl, -, rfl, hc⟩ | ⟨-, hnext, -⟩ | ⟨hst, -, hout⟩ | ⟨-, hnext, -⟩ := pending_step hstep
          · exact .inr (.inl ⟨rfl, plain_cons.mpr ⟨hc, hplain⟩, rfl⟩)
          · cases hnext
          · left
            omega
          · exact absurd rfl hnext
        · refine .inr (.inr ⟨.inl ?_, out ++ v₁, v₂, by rw [hvalue, List.append_assoc], htail⟩)
          obtain hlast | ⟨rfl, rfl⟩ := hlast
          · exact getLast?_cons_of_some hlast
          · obtain ⟨-, hnext, -⟩ | ⟨-, -, -, rfl⟩ | ⟨-, hnext, -⟩ | ⟨-, -, hnext, -⟩ := pending_step hstep
            · cases hnext
            · rfl
            · cases hnext
            · exact absurd rfl hnext

/-- A string that is read back as it stands between quotes needs no escape, when what follows the
closing quote does not end in a backslash as far as the next quote. -/
theorem plain_of_scanString {r : List Char}
    (htail : ∀ v r, scanString .plain tail = some (v, r) → v.getLast? ≠ some '\\')
    (h : scanString .plain (s ++ '\x22' :: tail) = some (s, r)) : Plain s := by
  obtain hshort | ⟨-, hplain, -⟩ | ⟨hlast, v₁, v₂, hvalue, hrest⟩ := scanString_raw h
  · exact absurd hshort (Nat.lt_irrefl _)
  · exact hplain
  · obtain hlast | ⟨-, hst⟩ := hlast
    · rw [hvalue, List.getLast?_append_of_ne_nil _ (List.cons_ne_nil _ _)] at hlast
      cases v₂ with
      | nil => cases hlast
      | cons c v₂ =>
        rw [List.getLast?_cons_cons] at hlast
        exact absurd hlast (htail _ _ hrest)
    · cases hst

/-! ## Longer texts -/

variable {v : Value} {ms : List (List Char × Value)} {vs : List Value} {f g : ℕ} {r t : List Char}

/-- A value that shows its own end. -/
def Value.closed : Value → Bool
  | .str _ | .arr _ | .obj _ => true
  | _ => false

theorem skipWs_append (h : skipWs s = c :: t) : skipWs (s ++ x) = c :: (t ++ x) := by
  rw [skipWs, List.dropWhile_append, ← skipWs, h]
  rfl

theorem scanScalar_append (h : scanScalar s = some (v, r)) (hr : r ≠ []) :
    scanScalar (s ++ x) = some (v, r ++ x) := by
  have hdrop : s.dropWhile isScalarChar = r := by
    rw [scanScalar] at h
    split_ifs at h <;> cases h <;> rfl
  have hne : (s.dropWhile isScalarChar).isEmpty = false := by
    rw [hdrop, List.isEmpty_eq_false_iff]
    exact hr
  have htake : (s ++ x).takeWhile isScalarChar = s.takeWhile isScalarChar := by
    rw [List.takeWhile_append, if_neg]
    intro hall
    rw [List.dropWhile_eq_nil_iff.mpr] at hdrop
    · exact hr hdrop.symm
    · exact List.takeWhile_eq_self_iff.mp (List.takeWhile_prefix _ |>.eq_of_length hall)
  have hdrop' : (s ++ x).dropWhile isScalarChar = s.dropWhile isScalarChar ++ x := by
    rw [List.dropWhile_append, hne]
    rfl
  rw [scanScalar] at h ⊢
  rw [htake, hdrop']
  split_ifs at h ⊢ <;> cases h <;> rfl

theorem scanScalar_closed (h : scanScalar s = some (v, r)) : v.closed = false := by
  rw [scanScalar] at h
  split_ifs at h <;> cases h <;> rfl

theorem scanMembers_nil (f : ℕ) : scanMembers f [] = none := by
  cases f <;> rfl

theorem scanElems_nil (f : ℕ) : scanElems f [] = none := by
  rcases f with _ | _ | f <;> rfl

/-- What is read within the fuel `f` is read from a longer text with more fuel. -/
structure Extends (f : ℕ) : Prop where
  value : ∀ s v r, scanValue f s = some (v, r) → (r ≠ [] ∨ v.closed = true) →
    ∀ g x, f ≤ g → scanValue g (s ++ x) = some (v, r ++ x)
  members : ∀ s ms r, scanMembers f s = some (ms, r) →
    ∀ g x, f ≤ g → scanMembers g (s ++ x) = some (ms, r ++ x)
  elems : ∀ s vs r, scanElems f s = some (vs, r) →
    ∀ g x, f ≤ g → scanElems g (s ++ x) = some (vs, r ++ x)

theorem Extends.value_succ (h : Extends f) (hs : scanValue (f + 1) s = some (v, r))
    (hr : r ≠ [] ∨ v.closed = true) (hg : f ≤ g) :
    scanValue (g + 1) (s ++ x) = some (v, r ++ x) := by
  rw [scanValue] at hs
  split at hs
  · next rest hskip =>
    obtain ⟨p, hp, hv⟩ := Option.map_eq_some_iff.mp hs
    cases hv
    rw [scanValue, skipWs_append hskip]
    exact Option.map_eq_some_iff.mpr ⟨_, scanString_append hp, rfl⟩
  · next rest hskip =>
    rw [scanValue, skipWs_append hskip]
    split at hs
    · next rest hclose =>
      cases hs
      simp only [skipWs_append hclose]
    · next hopen =>
      obtain ⟨p, hp, hv⟩ := Option.map_eq_some_iff.mp hs
      cases hv
      cases hrest : skipWs rest with
      | nil =>
        rw [hrest, scanMembers_nil] at hp
        cases hp
      | cons c t =>
        rw [hrest] at hp hopen
        have hext := h.members _ _ _ hp g x hg
        simp only [skipWs_append hrest]
        split
        · next hbrace => exact absurd (congrArg (fun l => List.head? l) hbrace) fun hc => hopen t (by
            cases hc; rfl)
        · exact Option.map_eq_some_iff.mpr ⟨_, hext, rfl⟩
  · next rest hskip =>
    rw [scanValue, skipWs_append hskip]
    split at hs
    · next rest hclose =>
      cases hs
      simp only [skipWs_append hclose]
    · next hopen =>
      obtain ⟨p, hp, hv⟩ := Option.map_eq_some_iff.mp hs
      cases hv
      cases hrest : skipWs rest with
      | nil =>
        rw [hrest, scanElems_nil] at hp
        cases hp
      | cons c t =>
        rw [hrest] at hp hopen
        have hext := h.elems _ _ _ hp g x hg
        simp only [skipWs_append hrest]
        split
        · next hbrace => exact absurd (congrArg (fun l => List.head? l) hbrace) fun hc => hopen t (by
            cases hc; rfl)
        · exact Option.map_eq_some_iff.mpr ⟨_, hext, rfl⟩
  · next hquote hbrace hbracket =>
    have hne : r ≠ [] := hr.resolve_right (by rw [scanScalar_closed hs]; exact Bool.noConfusion)
    cases hskip : skipWs s with
    | nil =>
      rw [hskip] at hs
      cases hs
    | cons c t =>
      rw [hskip] at hs hquote hbrace hbracket
      have hext : scanScalar (c :: (t ++ x)) = some (v, r ++ x) := scanScalar_append hs hne
      simp only [scanValue, skipWs_append hskip]
      split
      · next heq => cases heq; exact absurd rfl (hquote t)
      · next heq => cases heq; exact absurd rfl (hbrace t)
      · next heq => cases heq; exact absurd rfl (hbracket t)
      · exact hext

theorem Extends.members_succ (h : Extends f) (hs : scanMembers (f + 1) s = some (ms, r))
    (hg : f ≤ g) : scanMembers (g + 1) (s ++ x) = some (ms, r ++ x) := by
  rw [scanMembers] at hs
  split at hs
  · next rest hskip =>
    cases hkey : scanString .plain rest with
    | none => rw [hkey] at hs; cases hs
    | some p =>
      obtain ⟨key, rest'⟩ := p
      rw [hkey] at hs
      dsimp only at hs
      split at hs
      · next rest'' hcolon =>
        cases hval : scanValue f rest'' with
        | none => rw [hval] at hs; cases hs
        | some q =>
          obtain ⟨v, after⟩ := q
          rw [hval] at hs
          dsimp only at hs
          have hafter : after ≠ [] := by
            rintro rfl
            cases hs
          have hval' := h.value _ _ _ hval (.inl hafter) g x hg
          simp only [scanMembers, skipWs_append hskip, scanString_append hkey,
            skipWs_append hcolon, hval']
          split at hs
          · next hclose =>
            cases hs
            simp only [skipWs_append hclose]
          · next hcomma =>
            obtain ⟨p, hp, hv⟩ := Option.map_eq_some_iff.mp hs
            cases hv
            simp only [skipWs_append hcomma]
            exact Option.map_eq_some_iff.mpr ⟨_, h.members _ _ _ hp g x hg, rfl⟩
          · cases hs
      · cases hs
  · cases hs

theorem Extends.elems_succ (h : Extends f) (hs : scanElems (f + 1) s = some (vs, r))
    (hg : f ≤ g) : scanElems (g + 1) (s ++ x) = some (vs, r ++ x) := by
  rw [scanElems] at hs
  cases hval : scanValue f s with
  | none => rw [hval] at hs; cases hs
  | some q =>
    obtain ⟨v, after⟩ := q
    rw [hval] at hs
    dsimp only at hs
    have hafter : after ≠ [] := by
      rintro rfl
      cases hs
    have hval' := h.value _ _ _ hval (.inl hafter) g x hg
    simp only [scanElems, hval']
    split at hs
    · next hclose =>
      cases hs
      simp only [skipWs_append hclose]
    · next hcomma =>
      obtain ⟨p, hp, hv⟩ := Option.map_eq_some_iff.mp hs
      cases hv
      simp only [skipWs_append hcomma]
      exact Option.map_eq_some_iff.mpr ⟨_, h.elems _ _ _ hp g x hg, rfl⟩
    · cases hs

theorem extends_all (f : ℕ) : Extends f := by
  induction f with
  | zero => exact ⟨nofun, nofun, nofun⟩
  | succ f ih =>
    refine ⟨fun s v r hs hr g x hg => ?_, fun s ms r hs g x hg => ?_, fun s vs r hs g x hg => ?_⟩
    all_goals obtain ⟨g, rfl⟩ := Nat.exists_eq_add_of_lt hg
    · exact ih.value_succ hs hr (by omega)
    · exact ih.members_succ hs (by omega)
    · exact ih.elems_succ hs (by omega)

/-- A text that is cut somewhere goes on as it began. -/
theorem scanValue_of_parse (h : parse s = some v) (hv : v.closed = true) :
    ∃ r, ∀ g x, s.length < g → scanValue g (s ++ x) = some (v, r ++ x) := by
  rw [parse] at h
  cases hscan : scanValue (s.length + 1) s with
  | none => rw [hscan] at h; cases h
  | some p =>
    obtain ⟨w, r⟩ := p
    rw [hscan] at h
    dsimp only at h
    split at h
    · cases h
      exact ⟨r, fun g x hg => (extends_all _).value _ _ _ hscan (.inr hv) g x hg⟩
    · cases h

/-! ## Values read back -/

/-- A value in an object or a list is followed by a comma or a bracket. -/
def Closes (rest : List Char) : Prop := ∀ c ∈ rest.head?, c = ',' ∨ c = '\x7d' ∨ c = ']'

/-- The text reads as the value wherever it stands. -/
def Reads (t : List Char) (v : Value) : Prop :=
  ∀ f rest, t.length ≤ f → Closes rest → scanValue f (t ++ rest) = some (v, rest)

theorem closes_nil : Closes [] := nofun

theorem closes_cons (h : c = ',' ∨ c = '\x7d' ∨ c = ']') (rest : List Char) : Closes (c :: rest) := by
  intro d hd
  cases hd
  exact h

theorem parse_of_reads (h : Reads t v) : parse t = some v := by
  have hscan := h (t.length + 1) [] (Nat.le_succ _) closes_nil
  rw [List.append_nil] at hscan
  rw [parse, hscan]
  rfl

/-- A proper part of a text that reads as a value does not read as an object or a list. -/
theorem parse_take_ne (h : Reads t v) {n : ℕ} (hn : n < t.length) {w : Value}
    (hw : w.closed = true) : parse (t.take n) ≠ some w := by
  intro hparse
  obtain ⟨r, hscan⟩ := scanValue_of_parse hparse hw
  have hcut := hscan (t.length + 1) (t.drop n) (by rw [List.length_take]; omega)
  have hwhole := h (t.length + 1) [] (Nat.le_succ _) closes_nil
  rw [List.take_append_drop] at hcut
  rw [List.append_nil, hcut, Option.some.injEq, Prod.mk.injEq] at hwhole
  have hnil := (List.append_eq_nil_iff.mp hwhole.2).2
  have hlen := congrArg List.length hnil
  rw [List.length_drop, List.length_nil] at hlen
  omega

theorem reads_string (h : ∀ rest, scanString .plain (t ++ '\x22' :: rest) = some (s, rest)) :
    Reads (quoted t) (.str s) := by
  intro f rest hf _
  cases f with
  | zero => cases hf
  | succ f =>
    have hscan := h rest
    rw [quoted, List.cons_append, List.append_assoc, List.singleton_append, scanValue]
    show ((scanString .plain (t ++ '\x22' :: rest)).map fun p => (Value.str p.1, p.2)) = _
    rw [hscan]
    rfl

theorem reads_plain (h : Plain s) : Reads (quoted s) (.str s) :=
  reads_string fun _ => scanString_plain h

theorem not_isScalarChar_of_closes (h : c = ',' ∨ c = '\x7d' ∨ c = ']') : isScalarChar c = false := by
  obtain rfl | rfl | rfl := h <;> rfl

theorem takeWhile_scalar (ht : ∀ c ∈ t, isScalarChar c = true) (hrest : Closes rest) :
    (t ++ rest).takeWhile isScalarChar = t ∧ (t ++ rest).dropWhile isScalarChar = rest := by
  rw [List.takeWhile_append_of_pos ht, List.dropWhile_append_of_pos ht]
  cases rest with
  | nil => exact ⟨List.append_nil t, rfl⟩
  | cons c rest =>
    have hc : isScalarChar c = false := not_isScalarChar_of_closes (hrest c rfl)
    rw [List.takeWhile_cons_of_neg (by rw [hc]; exact Bool.noConfusion),
      List.dropWhile_cons_of_neg (by rw [hc]; exact Bool.noConfusion)]
    exact ⟨List.append_nil t, rfl⟩

/-- A word or a number starts none of the other values. -/
theorem scanValue_scalar (hc : isScalarChar c = true) (f : ℕ) (s : List Char) :
    scanValue (f + 1) (c :: s) = scanScalar (c :: s) := by
  have hws : isWs c = false := by
    rw [isWs]
    simp only [Bool.or_eq_false_iff, decide_eq_false_iff_not]
    refine ⟨⟨⟨?_, ?_⟩, ?_⟩, ?_⟩ <;> rintro rfl <;> exact absurd hc (by decide)
  have hskip : skipWs (c :: s) = c :: s :=
    List.dropWhile_cons_of_neg (by rw [hws]; exact Bool.noConfusion)
  rw [scanValue, hskip]
  split
  · next heq => cases heq; exact absurd hc (by decide)
  · next heq => cases heq; exact absurd hc (by decide)
  · next heq => cases heq; exact absurd hc (by decide)
  · rfl

theorem reads_number (hnum : isNumber t = true) (ht : ∀ c ∈ t, isScalarChar c = true) :
    Reads t (.num t) := by
  intro f rest hf hrest
  cases t with
  | nil => cases hnum
  | cons c t =>
    cases f with
    | zero => cases hf
    | succ f =>
      obtain ⟨htake, hdrop⟩ := takeWhile_scalar ht hrest
      have hword : ∀ w : List Char, isNumber w = false → c :: t ≠ w := by
        rintro w hw rfl
        rw [hnum] at hw
        cases hw
      rw [List.cons_append, scanValue_scalar (ht c (List.mem_cons_self ..)), ← List.cons_append,
        scanScalar, htake, hdrop, if_neg (hword _ rfl), if_neg (hword _ rfl), if_neg (hword _ rfl),
        if_pos hnum]

theorem reads_bool (b : Bool) : Reads (if b then "true".toList else "false".toList) (.bool b) := by
  intro f rest hf hrest
  have hscalar : ∀ c ∈ (if b then "true".toList else "false".toList), isScalarChar c = true := by
    cases b
    · simp only [Bool.false_eq_true, if_false, String.reduceToList]
      exact List.all_eq_true.mp rfl
    · simp only [if_true, String.reduceToList]
      exact List.all_eq_true.mp rfl
  obtain ⟨htake, hdrop⟩ := takeWhile_scalar hscalar hrest
  cases f with
  | zero => cases b <;> cases hf
  | succ f =>
    have hscan : scanScalar ((if b then "true".toList else "false".toList) ++ rest) =
        some (.bool b, rest) := by
      rw [scanScalar, htake, hdrop]
      cases b <;> rfl
    cases b with
    | true => exact (scanValue_scalar rfl f _).trans hscan
    | false => exact (scanValue_scalar rfl f _).trans hscan

end Json
