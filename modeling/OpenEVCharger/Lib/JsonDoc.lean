import OpenEVCharger.Lib.Json

/-!
# JSON objects printed member by member

An object that is printed as its members between commas, with strings that may go out as they
are. Such a text reads as its object exactly when each member reads as its value, and cut short
it never does.
-/

namespace Json

variable {s t tail rest r : List Char} {v : Value} {ok : Prop} {c : Char} {f : ℕ}

/-! ## What a text shows -/

/-- The next string in the text, should one be open here, does not end in a backslash. -/
def Clean (tail : List Char) : Prop :=
  ∀ v r, scanString .plain tail = some (v, r) → v.getLast? ≠ some '\\'

theorem clean_nil : Clean [] := nofun

theorem clean_quote (tail : List Char) : Clean ('\x22' :: tail) := by
  intro v r h
  cases h
  exact nofun

theorem clean_cons (hquote : c ≠ '\x22') (hback : c ≠ '\\') (h : Clean tail) : Clean (c :: tail) := by
  intro v r hscan
  rw [scanString, stringStep, if_neg hquote, if_neg hback] at hscan
  by_cases hlow : c.toNat < 0x20
  · rw [if_pos hlow] at hscan
    cases hscan
  · rw [if_neg hlow] at hscan
    obtain ⟨p, hp, hv⟩ := Option.map_eq_some_iff.mp hscan
    cases hv
    rw [List.singleton_append, List.getLast?_cons]
    cases hlast : p.1.getLast? with
    | none => exact fun hc => hback (Option.some.inj hc)
    | some d =>
      rw [← hlast]
      exact fun hd => h p.1 p.2 hp (by rw [hlast] at hd ⊢; exact hd)

/-- The text reads as the value under the condition `ok`, and only under it. -/
structure Shows (t : List Char) (v : Value) (ok : Prop) : Prop where
  reads : ok → Reads t v
  ok_of_scan : ∀ f rest r, Clean rest → scanValue f (t ++ rest) = some (v, r) → ok

theorem shows_of_reads (h : Reads t v) : Shows t v True := ⟨fun _ => h, fun _ _ _ _ _ => trivial⟩

/-- A string that goes out as it is reads as itself when it needs no escape. -/
theorem shows_quoted (s : List Char) : Shows (quoted s) (.str s) (Plain s) where
  reads := reads_plain
  ok_of_scan f rest r hclean hscan := by
    cases f with
    | zero => cases hscan
    | succ f =>
      rw [quoted, List.cons_append, List.append_assoc, List.singleton_append, scanValue] at hscan
      obtain ⟨p, hp, hv⟩ := Option.map_eq_some_iff.mp
        (show ((scanString .plain (s ++ '\x22' :: rest)).map fun p => (Value.str p.1, p.2)) = _
          from hscan)
      obtain ⟨s', r'⟩ := p
      cases hv
      exact plain_of_scanString hclean hp

/-- A list of one such string. -/
theorem shows_list (s : List Char) :
    Shows ('[' :: (quoted s ++ [']'])) (.arr [.str s]) (Plain s) where
  reads hplain f rest hf _ := by
    have hlen : (quoted s).length + 2 ≤ f := by
      simpa only [List.length_cons, List.length_append, List.length_nil] using hf
    obtain ⟨f, rfl⟩ := Nat.exists_eq_add_of_le' (Nat.le_trans (Nat.le_add_left 2 _) hlen)
    have hread := reads_plain hplain f (']' :: rest) (by omega) (closes_cons (.inr (.inr rfl)) rest)
    rw [List.cons_append, List.append_assoc, List.singleton_append]
    show ((scanElems (f + 1) (quoted s ++ ']' :: rest)).map fun p => (Value.arr p.1, p.2)) = _
    rw [scanElems, hread]
    rfl
  ok_of_scan f rest r hclean hscan := by
    rcases f with _ | _ | f
    · cases hscan
    · cases hscan
    · rw [List.cons_append, List.append_assoc, List.singleton_append] at hscan
      obtain ⟨p, hp, hv⟩ := Option.map_eq_some_iff.mp
        (show ((scanElems (f + 1) (quoted s ++ ']' :: rest)).map fun p => (Value.arr p.1, p.2)) = _
          from hscan)
      rw [scanElems] at hp
      cases helem : scanValue f (quoted s ++ ']' :: rest) with
      | none => rw [helem] at hp; cases hp
      | some q =>
        obtain ⟨w, after⟩ := q
        have hfirst : w = .str s := by
          rw [helem] at hp
          dsimp only at hp
          split at hp
          · cases hp
            cases hv
            rfl
          · obtain ⟨⟨elems, after'⟩, -, hq⟩ := Option.map_eq_some_iff.mp hp
            cases hq
            cases hv
            rfl
          · cases hp
        rw [hfirst] at helem
        exact (shows_quoted s).ok_of_scan f _ _ (clean_cons (by decide) (by decide) hclean) helem

/-! ## Members -/

/-- A key of letters, digits and signs. -/
def Bare (key : List Char) : Prop :=
  ∀ c ∈ key, (c ≠ '\x22' ∧ c ≠ '\\' ∧ 0x20 ≤ c.toNat) ∧ c.toNat < 0x80

instance (key : List Char) : Decidable (Bare key) := List.decidableBAll _ key

theorem Bare.plain (h : Bare s) : Plain s := fun c hc => (h c hc).1

theorem Bare.ascii (h : Bare s) : ∀ c ∈ s, c.toNat < 0x80 := fun c hc => (h c hc).2

theorem Bare.sound (h : Bare s) : Plain s ∧ Utf8 s := ⟨h.plain, utf8_ascii h.ascii⟩

theorem bare_append {a b : List Char} : Bare (a ++ b) ↔ Bare a ∧ Bare b := List.forall_mem_append

/-- A member of an object: its key, what is printed, and the value that is meant, which the text
shows under the condition `ok`. -/
structure Member where
  key : List Char
  text : List Char
  value : Value
  ok : Prop
  bare : Bare key
  shows_value : Shows text value ok

def Member.print (m : Member) : List Char := quoted m.key ++ ':' :: m.text

/-- The member shows its value, in UTF-8. -/
def Member.Sound (m : Member) : Prop := m.ok ∧ Utf8 m.text

def Member.entry (m : Member) : List Char × Value := (m.key, m.value)

/-- The members with a comma before each. -/
def nextMembers (ms : List Member) : List Char := ms.flatMap fun m => ',' :: m.print

/-- The text of an object without its closing brace. -/
def openText (m : Member) (ms : List Member) : List Char := '\x7b' :: (m.print ++ nextMembers ms)

def objText (m : Member) (ms : List Member) : List Char := openText m ms ++ ['\x7d']

def objValue (m : Member) (ms : List Member) : Value := .obj ((m :: ms).map Member.entry)

variable {m : Member} {ms : List Member}

@[simp] theorem nextMembers_nil : nextMembers [] = [] := rfl

theorem nextMembers_cons (m : Member) (ms : List Member) :
    nextMembers (m :: ms) = ',' :: (m.print ++ nextMembers ms) := rfl

theorem nextMembers_append (ms ms' : List Member) :
    nextMembers (ms ++ ms') = nextMembers ms ++ nextMembers ms' := List.flatMap_append

theorem print_append (m : Member) (rest : List Char) :
    m.print ++ rest = '\x22' :: (m.key ++ '\x22' :: ':' :: (m.text ++ rest)) := by
  rw [Member.print, quoted, List.append_assoc, List.cons_append, List.append_assoc,
    List.singleton_append, List.cons_append]

theorem print_length (m : Member) : m.print.length = m.key.length + m.text.length + 3 := by
  rw [Member.print, quoted, List.length_append, List.length_cons, List.length_append,
    List.length_cons, List.length_cons, List.length_nil]
  omega

/-- What stands behind a member. -/
theorem behind_cases (ms : List Member) (rest : List Char) :
    (ms = [] ∧ nextMembers ms ++ '\x7d' :: rest = '\x7d' :: rest) ∨
      ∃ m ms', ms = m :: ms' ∧
        nextMembers ms ++ '\x7d' :: rest = ',' :: (m.print ++ (nextMembers ms' ++ '\x7d' :: rest)) := by
  cases ms with
  | nil => exact .inl ⟨rfl, rfl⟩
  | cons m ms =>
    exact .inr ⟨m, ms, rfl, by rw [nextMembers_cons, List.cons_append, List.append_assoc]⟩

theorem closes_behind (ms : List Member) (rest : List Char) :
    Closes (nextMembers ms ++ '\x7d' :: rest) := by
  obtain ⟨-, hbehind⟩ | ⟨m, ms', -, hbehind⟩ := behind_cases ms rest
  · rw [hbehind]
    exact closes_cons (.inr (.inl rfl)) rest
  · rw [hbehind]
    exact closes_cons (.inl rfl) _

theorem clean_behind (ms : List Member) (hclean : Clean rest) :
    Clean (nextMembers ms ++ '\x7d' :: rest) := by
  obtain ⟨-, hbehind⟩ | ⟨m, ms', -, hbehind⟩ := behind_cases ms rest
  · rw [hbehind]
    exact clean_cons (by decide) (by decide) hclean
  · rw [hbehind, print_append]
    exact clean_cons (by decide) (by decide) (clean_quote _)

/-! ## Objects read back -/

/-- The reader behind the value of a member. -/
def scanBehind (f : ℕ) (key : List Char) (p : Value × List Char) :
    Option (List (List Char × Value) × List Char) :=
  match skipWs p.2 with
  | '\x7d' :: rest => some ([(key, p.1)], rest)
  | ',' :: rest => (scanMembers f rest).map fun q => ((key, p.1) :: q.1, q.2)
  | _ => none

theorem scanMembers_print (f : ℕ) (m : Member) (rest : List Char) :
    scanMembers (f + 1) (m.print ++ rest) =
      (scanValue f (m.text ++ rest)).bind (scanBehind f m.key) := by
  rw [print_append, scanMembers]
  have hkey : scanString .plain (m.key ++ '\x22' :: ':' :: (m.text ++ rest)) =
      some (m.key, ':' :: (m.text ++ rest)) := scanString_plain m.bare.plain
  have hquote : skipWs ('\x22' :: (m.key ++ '\x22' :: ':' :: (m.text ++ rest))) =
      '\x22' :: (m.key ++ '\x22' :: ':' :: (m.text ++ rest)) := rfl
  have hcolon : skipWs (':' :: (m.text ++ rest)) = ':' :: (m.text ++ rest) := rfl
  rw [hquote]
  simp only [hkey, hcolon]
  cases scanValue f (m.text ++ rest) with
  | none => rfl
  | some p => rfl

theorem scanBehind_next (f : ℕ) (key : List Char) (v : Value) (rest : List Char) :
    scanBehind f key (v, ',' :: rest) =
      (scanMembers f rest).map fun q => ((key, v) :: q.1, q.2) := rfl

/-- The first value of a list of members is the one that was read. -/
theorem eq_of_scanBehind {key key' : List Char} {w : Value} {es : List (List Char × Value)}
    (h : scanBehind f key (v, rest) = some ((key', w) :: es, r)) : v = w := by
  rw [scanBehind] at h
  split at h
  · cases h
    rfl
  · obtain ⟨⟨es', r'⟩, -, hq⟩ := Option.map_eq_some_iff.mp h
    cases hq
    rfl
  · cases h

theorem reads_members (hm : m.ok) (hms : ∀ x ∈ ms, x.ok)
    (hf : (m.print ++ nextMembers ms).length < f) (rest : List Char) :
    scanMembers f (m.print ++ (nextMembers ms ++ '\x7d' :: rest)) =
      some ((m :: ms).map Member.entry, rest) := by
  induction ms generalizing m f with
  | nil =>
    rw [nextMembers_nil, List.append_nil, print_length] at hf
    obtain ⟨f, rfl⟩ := Nat.exists_eq_add_of_lt (Nat.zero_lt_of_lt hf)
    rw [Nat.zero_add, scanMembers_print, m.shows_value.reads hm f _ (by omega) (closes_behind [] rest)]
    rfl
  | cons n ms ih =>
    rw [nextMembers_cons, List.length_append, List.length_cons, print_length] at hf
    obtain ⟨f, rfl⟩ := Nat.exists_eq_add_of_lt (Nat.zero_lt_of_lt hf)
    have htail := ih (hms n (List.mem_cons_self ..)) (fun x hx => hms x (List.mem_cons_of_mem _ hx))
      (show (n.print ++ nextMembers ms).length < f by omega)
    rw [Nat.zero_add, scanMembers_print,
      m.shows_value.reads hm f _ (by omega) (closes_behind (n :: ms) rest), nextMembers_cons,
      List.cons_append, List.append_assoc, Option.bind_some, scanBehind_next, htail]
    rfl

/-- A member that was read leaves what stands behind it. -/
theorem Member.scan_rest (m : Member) {p : List (List Char × Value) × List Char} (hm : m.ok)
    (hrest : Closes rest) (hscan : scanValue f (m.text ++ rest) = some (v, r))
    (hbehind : scanBehind f m.key (v, r) = some p) : r = rest := by
  have hne : r ≠ [] := by
    rintro rfl
    cases hbehind
  have hmore := (extends_all f).value _ _ _ hscan (.inl hne) (f + m.text.length) [] (by omega)
  rw [List.append_nil, List.append_nil,
    m.shows_value.reads hm _ _ (Nat.le_add_left ..) hrest] at hmore
  cases hmore
  rfl

theorem ok_of_scanMembers (hclean : Clean rest)
    (hscan : scanMembers f (m.print ++ (nextMembers ms ++ '\x7d' :: rest)) =
      some ((m :: ms).map Member.entry, r)) : ∀ x ∈ m :: ms, x.ok := by
  induction ms generalizing m f with
  | nil =>
    cases f with
    | zero => cases hscan
    | succ f =>
      rw [scanMembers_print] at hscan
      obtain ⟨⟨v, after⟩, hvalue, hbehind⟩ := Option.bind_eq_some_iff.mp hscan
      have hv : v = m.value := eq_of_scanBehind hbehind
      rw [hv] at hvalue
      have hm := m.shows_value.ok_of_scan _ _ _ (clean_behind [] hclean) hvalue
      exact List.forall_mem_singleton.mpr hm
  | cons n ms ih =>
    cases f with
    | zero => cases hscan
    | succ f =>
      rw [scanMembers_print] at hscan
      obtain ⟨⟨v, after⟩, hvalue, hbehind⟩ := Option.bind_eq_some_iff.mp hscan
      have hv : v = m.value := eq_of_scanBehind hbehind
      rw [hv] at hvalue hbehind
      have hm := m.shows_value.ok_of_scan _ _ _ (clean_behind (n :: ms) hclean) hvalue
      rw [m.scan_rest hm (closes_behind (n :: ms) rest) hvalue hbehind, nextMembers_cons,
        List.cons_append, List.append_assoc, scanBehind_next] at hbehind
      obtain ⟨⟨entries, after'⟩, htail, hq⟩ := Option.map_eq_some_iff.mp hbehind
      cases hq
      exact List.forall_mem_cons.mpr ⟨hm, ih htail⟩

theorem objText_append (m : Member) (ms : List Member) (rest : List Char) :
    objText m ms ++ rest = '\x7b' :: (m.print ++ (nextMembers ms ++ '\x7d' :: rest)) := by
  rw [objText, openText, List.append_assoc, List.cons_append, List.append_assoc,
    List.singleton_append]

theorem scanValue_objText (f : ℕ) (m : Member) (ms : List Member) (rest : List Char) :
    scanValue (f + 1) (objText m ms ++ rest) =
      (scanMembers f (m.print ++ (nextMembers ms ++ '\x7d' :: rest))).map
        fun p => (.obj p.1, p.2) := by
  rw [objText_append, print_append]
  rfl

/-- An object reads as its members do. -/
theorem shows_obj (m : Member) (ms : List Member) :
    Shows (objText m ms) (objValue m ms) (∀ x ∈ m :: ms, x.ok) where
  reads hok f rest hf _ := by
    rw [List.forall_mem_cons] at hok
    rw [objText, openText, List.length_append, List.length_cons, List.length_singleton] at hf
    obtain ⟨f, rfl⟩ := Nat.exists_eq_add_of_lt (Nat.zero_lt_of_lt hf)
    rw [Nat.zero_add, scanValue_objText, reads_members hok.1 hok.2 (by omega) rest]
    rfl
  ok_of_scan f rest r hclean hscan := by
    cases f with
    | zero => cases hscan
    | succ f =>
      rw [scanValue_objText] at hscan
      obtain ⟨⟨entries, after⟩, hmembers, hq⟩ := Option.map_eq_some_iff.mp hscan
      cases hq
      exact ok_of_scanMembers hclean hmembers

/-! ## Whole texts -/

theorem utf8_quoted : Utf8 (quoted s) ↔ Utf8 s := by
  rw [quoted, utf8_cons (by decide), utf8_append_cons (by decide)]
  exact and_iff_left rfl

theorem utf8_print_append (m : Member) (hc : c.toNat < 0x80) (rest : List Char) :
    Utf8 (m.print ++ c :: rest) ↔ Utf8 m.text ∧ Utf8 rest := by
  rw [print_append, utf8_cons (by decide), utf8_ascii_append m.bare.ascii, utf8_cons (by decide),
    utf8_cons (by decide), utf8_append_cons hc]

theorem utf8_members (m : Member) (ms : List Member) (rest : List Char) :
    Utf8 (m.print ++ (nextMembers ms ++ '\x7d' :: rest)) ↔
      (∀ x ∈ m :: ms, Utf8 x.text) ∧ Utf8 rest := by
  induction ms generalizing m with
  | nil =>
    rw [nextMembers_nil, List.nil_append, utf8_print_append m (by decide),
      List.forall_mem_singleton]
  | cons n ms ih =>
    rw [nextMembers_cons, List.cons_append, List.append_assoc, utf8_print_append m (by decide), ih]
    simp only [List.forall_mem_cons, and_assoc]

theorem utf8_objText (m : Member) (ms : List Member) :
    Utf8 (objText m ms) ↔ ∀ x ∈ m :: ms, Utf8 x.text := by
  have happend := objText_append m ms []
  rw [List.append_nil] at happend
  rw [happend, utf8_cons (by decide), utf8_members]
  exact and_iff_left rfl

/-- An object that may have been cut is a text of what it means exactly when it has not been cut
and each member shows its value. -/
theorem text_take_iff (m : Member) (ms : List Member) (n : ℕ) :
    Text ((objText m ms).take n) (objValue m ms) ↔
      (objText m ms).length ≤ n ∧ ∀ x ∈ m :: ms, x.Sound := by
  constructor
  · rintro ⟨hutf8, hparse⟩
    obtain ⟨r, hscan⟩ := scanValue_of_parse hparse rfl
    have hwhole := hscan (((objText m ms).take n).length + 1) ((objText m ms).drop n)
      (Nat.lt_succ_self _)
    rw [List.take_append_drop, ← List.append_nil (objText m ms)] at hwhole
    have hok := (shows_obj m ms).ok_of_scan _ _ _ clean_nil hwhole
    have hlen : (objText m ms).length ≤ n := by
      by_contra hcut
      exact parse_take_ne ((shows_obj m ms).reads hok) (Nat.lt_of_not_le hcut) rfl hparse
    rw [List.take_of_length_le hlen, utf8_objText] at hutf8
    exact ⟨hlen, fun x hx => ⟨hok x hx, hutf8 x hx⟩⟩
  · rintro ⟨hlen, hok⟩
    rw [List.take_of_length_le hlen]
    exact ⟨(utf8_objText m ms).mpr fun x hx => (hok x hx).2,
      parse_of_reads ((shows_obj m ms).reads fun x hx => (hok x hx).1)⟩

theorem text_objText_iff (m : Member) (ms : List Member) :
    Text (objText m ms) (objValue m ms) ↔ ∀ x ∈ m :: ms, x.Sound := by
  have hwhole := text_take_iff m ms (objText m ms).length
  rw [List.take_length] at hwhole
  exact hwhole.trans (and_iff_right (Nat.le_refl _))

theorem plain_append {a b : List Char} : Plain (a ++ b) ↔ Plain a ∧ Plain b :=
  List.forall_mem_append

theorem utf8_append_ascii {b : List Char} (hb : ∀ c ∈ b, c.toNat < 0x80) :
    Utf8 (s ++ b) ↔ Utf8 s := by
  cases b with
  | nil => rw [List.append_nil]
  | cons c b =>
    obtain ⟨hc, hrest⟩ := List.forall_mem_cons.mp hb
    rw [utf8_append_cons hc]
    exact and_iff_left (utf8_ascii hrest)

/-- A string between bare ones needs no escape when it needs none alone. -/
theorem sound_between {a b : List Char} (ha : Bare a) (hb : Bare b) :
    (Plain (a ++ (s ++ b)) ∧ Utf8 (a ++ (s ++ b))) ↔ Plain s ∧ Utf8 s := by
  rw [plain_append, plain_append, and_iff_right ha.plain, and_iff_left hb.plain,
    utf8_ascii_append ha.ascii, utf8_append_ascii hb.ascii]

/-! ## Numbers as C prints them -/

/-- The digits of a whole number. -/
structure Whole (t : List Char) : Prop where
  ne_nil : t ≠ []
  digits : ∀ c ∈ t, c.isDigit = true
  head : t = ['0'] ∨ t.head? ≠ some '0'

theorem head_toDigits {n : ℕ} (hn : 0 < n) : (Nat.toDigits 10 n).head? ≠ some '0' := by
  induction n using Nat.strong_induction_on with
  | _ n ih =>
    by_cases hlt : n < 10
    · rw [Nat.toDigits_of_lt_base hlt, List.head?_cons]
      have hdigit : ∀ d < 10, 0 < d → Nat.digitChar d ≠ '0' := by decide
      exact fun h => hdigit n hlt hn (Option.some.inj h)
    · have hle : 10 ≤ n := Nat.le_of_not_lt hlt
      rw [Nat.toDigits_of_base_le (by decide) hle, List.head?_append_of_ne_nil _ Nat.toDigits_ne_nil]
      exact ih (n / 10) (Nat.div_lt_self hn (by decide)) (Nat.div_pos hle (by decide))

theorem whole_toDigits (n : ℕ) : Whole (Nat.toDigits 10 n) where
  ne_nil := Nat.toDigits_ne_nil
  digits := isDigit_toDigits n
  head := by
    rcases Nat.eq_zero_or_pos n with rfl | hn
    · exact .inl (Nat.toDigits_zero 10)
    · exact .inr (head_toDigits hn)

theorem isScalarChar_digit (h : c.isDigit = true) : isScalarChar c = true := by
  rw [isScalarChar, Char.isAlphanum, h, Bool.or_true]
  rfl

theorem Whole.head_ne_minus (h : Whole t) (u : List Char) : (t ++ u).head? ≠ some '-' := by
  cases t with
  | nil => exact absurd rfl h.ne_nil
  | cons c t =>
    intro hc
    cases hc
    exact absurd (h.digits '-' (List.mem_cons_self ..)) (by decide)

theorem Whole.first (h : Whole t) :
    (decide (t ≠ []) && (decide (t = ['0']) || decide (t.head? ≠ some '0'))) = true := by
  simp only [Bool.and_eq_true, Bool.or_eq_true, decide_eq_true_eq]
  exact ⟨h.ne_nil, h.head⟩

theorem Whole.isNumber (h : Whole t) : isNumber t = true := by
  obtain ⟨htake, hdrop⟩ := @takeWhile_digits t [] h.digits nofun
  rw [List.append_nil] at htake hdrop
  have hsign := h.head_ne_minus []
  rw [List.append_nil] at hsign
  rw [Json.isNumber, if_neg hsign, htake, hdrop]
  exact (Bool.and_true _).trans h.first

theorem Whole.isNumber_neg (h : Whole t) : Json.isNumber ('-' :: t) = true := by
  obtain ⟨htake, hdrop⟩ := @takeWhile_digits t [] h.digits nofun
  rw [List.append_nil] at htake hdrop
  rw [Json.isNumber, if_pos (List.head?_cons ..), List.tail_cons, htake, hdrop]
  exact (Bool.and_true _).trans h.first

theorem Whole.isNumber_point (h : Whole t) (hne : s ≠ []) (hs : ∀ c ∈ s, c.isDigit = true) :
    Json.isNumber (t ++ '.' :: s) = true := by
  obtain ⟨htake, hdrop⟩ := @takeWhile_digits t ('.' :: s) h.digits
    (fun c hc => by cases hc; decide)
  obtain ⟨hstake, hsdrop⟩ := @takeWhile_digits s [] hs nofun
  rw [List.append_nil] at hstake hsdrop
  have hfraction : numberFraction ('.' :: s) = some [] := by
    rw [numberFraction, hstake, if_neg hne, hsdrop]
  rw [Json.isNumber, if_neg (h.head_ne_minus _), htake, hdrop, hfraction]
  exact (Bool.and_true _).trans h.first

theorem isNumber_printInt (n : ℤ) : isNumber (printInt n) = true := by
  rw [printInt]
  split
  · exact (whole_toDigits _).isNumber_neg
  · exact (whole_toDigits _).isNumber

theorem isScalarChar_printInt (n : ℤ) : ∀ c ∈ printInt n, isScalarChar c = true := by
  have hdigits : ∀ c ∈ Nat.toDigits 10 n.natAbs, isScalarChar c = true :=
    fun c hc => isScalarChar_digit (isDigit_toDigits _ c hc)
  rw [printInt]
  split
  · exact List.forall_mem_cons.mpr ⟨rfl, hdigits⟩
  · exact hdigits

theorem isNumber_printFixed (digits : ℕ) (q : ℚ) : isNumber (printFixed digits q) = true :=
  (whole_toDigits _).isNumber_point (padDigits_ne_nil _ _) (isDigit_padDigits _ _)

theorem isScalarChar_printFixed (digits : ℕ) (q : ℚ) :
    ∀ c ∈ printFixed digits q, isScalarChar c = true := by
  intro c hc
  rcases printFixed_mem hc with hdigit | rfl
  · exact isScalarChar_digit hdigit
  · rfl

theorem ascii_of_isScalarChar (h : isScalarChar c = true) : c.toNat < 0x80 := by
  rw [isScalarChar] at h
  delta Char.isAlphanum Char.isAlpha Char.isUpper Char.isLower Char.isDigit at h
  simp only [Bool.or_eq_true, decide_eq_true_eq, Bool.and_eq_true, UInt32.le_iff_toNat_le,
    ge_iff_le] at h
  obtain ((((⟨-, hle⟩ | ⟨-, hle⟩) | ⟨-, hle⟩) | rfl) | rfl) | rfl := h
  · exact Nat.lt_of_le_of_lt hle (by decide)
  · exact Nat.lt_of_le_of_lt hle (by decide)
  · exact Nat.lt_of_le_of_lt hle (by decide)
  · decide
  · decide
  · decide

/-! ## Kinds of members -/

/-- A string between quotes, as it is. -/
def Member.raw (key s : List Char) (hkey : Bare key := by decide +kernel) : Member where
  key := key
  text := quoted s
  value := .str s
  ok := Plain s
  bare := hkey
  shows_value := shows_quoted s

def Member.number (key t : List Char) (hnum : isNumber t = true)
    (hscalar : ∀ c ∈ t, isScalarChar c = true) (hkey : Bare key) : Member where
  key := key
  text := t
  value := .num t
  ok := True
  bare := hkey
  shows_value := shows_of_reads (reads_number hnum hscalar)

/-- `%d` and `%u`. -/
def Member.int (key : List Char) (n : ℤ) (hkey : Bare key := by decide +kernel) : Member :=
  .number key (printInt n) (isNumber_printInt n) (isScalarChar_printInt n) hkey

/-- `%.nf`. -/
def Member.fixed (key : List Char) (digits : ℕ) (q : ℚ) (hkey : Bare key := by decide +kernel) :
    Member :=
  .number key (printFixed digits q) (isNumber_printFixed digits q)
    (isScalarChar_printFixed digits q) hkey

def Member.boolean (key : List Char) (b : Bool) (hkey : Bare key := by decide +kernel) : Member where
  key := key
  text := if b then "true".toList else "false".toList
  value := .bool b
  ok := True
  bare := hkey
  shows_value := shows_of_reads (reads_bool b)

/-- A list of one string as it is. -/
def Member.list (key s : List Char) (hkey : Bare key := by decide +kernel) : Member where
  key := key
  text := '[' :: (quoted s ++ [']'])
  value := .arr [.str s]
  ok := Plain s
  bare := hkey
  shows_value := shows_list s

def Member.object (key : List Char) (m : Member) (ms : List Member)
    (hkey : Bare key := by decide +kernel) : Member where
  key := key
  text := objText m ms
  value := objValue m ms
  ok := ∀ x ∈ m :: ms, x.ok
  bare := hkey
  shows_value := shows_obj m ms

/-! ### When they are sound -/

variable {key : List Char}

@[simp] theorem sound_raw (hkey : Bare key) : (Member.raw key s hkey).Sound ↔ Plain s ∧ Utf8 s :=
  and_congr_right' utf8_quoted

@[simp] theorem sound_number (hnum : isNumber t = true)
    (hscalar : ∀ c ∈ t, isScalarChar c = true) (hkey : Bare key) :
    (Member.number key t hnum hscalar hkey).Sound :=
  ⟨trivial, utf8_ascii fun c hc => ascii_of_isScalarChar (hscalar c hc)⟩

@[simp] theorem sound_int (n : ℤ) (hkey : Bare key) : (Member.int key n hkey).Sound :=
  sound_number ..

@[simp] theorem sound_fixed (digits : ℕ) (q : ℚ) (hkey : Bare key) :
    (Member.fixed key digits q hkey).Sound :=
  sound_number ..

@[simp] theorem sound_boolean (b : Bool) (hkey : Bare key) : (Member.boolean key b hkey).Sound := by
  refine ⟨trivial, utf8_ascii ?_⟩
  cases b
  · exact Bare.ascii (show Bare "false".toList by decide +kernel)
  · exact Bare.ascii (show Bare "true".toList by decide +kernel)

@[simp] theorem sound_list (hkey : Bare key) : (Member.list key s hkey).Sound ↔ Plain s ∧ Utf8 s := by
  refine and_congr_right' ?_
  show Utf8 ('[' :: (quoted s ++ [']'])) ↔ _
  rw [utf8_cons (by decide), utf8_append_cons (by decide), utf8_quoted]
  exact and_iff_left rfl

@[simp] theorem sound_object (hkey : Bare key) :
    (Member.object key m ms hkey).Sound ↔ ∀ x ∈ m :: ms, x.Sound := by
  refine (and_congr_right' (utf8_objText m ms)).trans ?_
  exact ⟨fun h x hx => ⟨h.1 x hx, h.2 x hx⟩, fun h => ⟨fun x hx => (h x hx).1, fun x hx => (h x hx).2⟩⟩

end Json
