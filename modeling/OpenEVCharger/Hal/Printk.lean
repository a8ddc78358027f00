import Mathlib.Data.List.TakeWhile
import Mathlib.Data.List.TakeDrop
import Mathlib.Data.UInt
import Mathlib.Tactic.NormNum
import OpenEVCharger.Lib.CText

/-!
# The log line

`printk` writes a time stamp and the formatted text into a buffer of 176 bytes and sends it. The
loop looks at the end of the buffer before each conversion, and the copying of strings before
each character; the conversion of a number looks neither at the end of the buffer nor at the end
of its own scratch buffer.
-/

namespace OpenEVCharger

/-- `sizeof(out)`. -/
def outLen : ℕ := 176

/-- `end - out`. -/
def outEnd : ℕ := outLen - 1

/-- `sizeof(tmp)` in `itoa_u` and `fmt_u_pad`. -/
def tmpLen : ℕ := 12

/-! ## Numbers -/

/-- The digits of `itoa_u`, the last one first. Every round divides by the base, so that a word
needs no more than 32. -/
def itoaLoop (base : ℕ) : ℕ → ℕ → List Char
  | 0, _ => []
  | fuel + 1, v =>
    if v = 0 then []
    else
      let d := v % base
      (if d < 10 then Char.ofNat ('0'.toNat + d) else Char.ofNat ('a'.toNat + (d - 10))) ::
        itoaLoop base fuel (v / base)

/-- A word as an `int`. -/
def asInt (v : UInt32) : ℤ := (v.toNat : ℤ).bmod (2 ^ 32)

/-- `-v`, in an `int`. -/
def negInt (v : ℤ) : ℤ := (-v).bmod (2 ^ 32)

/-- An `int` as a `uint32_t`. -/
def ofInt (v : ℤ) : UInt32 := UInt32.ofNat (v % 2 ^ 32).toNat

/-- What `itoa_u` writes into `tmp`. -/
def itoaTmp (v : UInt32) (base : ℕ) (width : ℤ) (pad : Char) : List Char :=
  let tmp := if v = 0 then ['0'] else itoaLoop base 32 v.toNat
  tmp ++ List.replicate (width - tmp.length).toNat pad

def itoaU (v : UInt32) (base : ℕ) (width : ℤ) (pad : Char) : List Char :=
  (itoaTmp v base width pad).reverse

/-- `fmt_u_pad`, which is `itoa_u` for the base 10. -/
def fmtUPad (v : UInt32) (width : ℤ) (pad : Char) : List Char := itoaU v 10 width pad

/-! ## The line -/

/-- What has been written: `out` up to `o`, the most that a number has put into its scratch
buffer, and the arguments that have been taken. -/
structure LogLine where
  out : List Char
  scratch : ℕ
  arg : ℕ
  deriving DecidableEq, Repr

namespace LogLine

/-- `*o++ = c`. -/
def put (l : LogLine) (c : Char) : LogLine := { l with out := l.out ++ [c] }

/-- `if (o < end) *o++ = c`. -/
def putIf (l : LogLine) (c : Char) : LogLine := if l.out.length < outEnd then l.put c else l

/-- `o = itoa_u(..)`: the scratch buffer has as many characters as `out` gets. -/
def number (l : LogLine) (digits : List Char) : LogLine :=
  { l with out := l.out ++ digits, scratch := max l.scratch digits.length }

/-- `while (*s && o < end) *o++ = *s++`. -/
def copy (l : LogLine) (s : List Char) : LogLine :=
  { l with out := l.out ++ s.take (outEnd - l.out.length) }

/-- The case `'d'`: a sign, and the magnitude. -/
def int (l : LogLine) (v : ℤ) (width : ℤ) (pad : Char) : LogLine :=
  if v < 0 then (l.put '-').number (itoaU (ofInt (negInt v)) 10 width pad)
  else l.number (itoaU (ofInt v) 10 width pad)

/-- `va_arg`. -/
def next (l : LogLine) : LogLine := { l with arg := l.arg + 1 }

end LogLine

/-- The clock that is set over TLV. -/
structure SystemTime where
  baseUnixS : UInt32
  baseTickMs : UInt32
  set : Bool
  deriving DecidableEq, Repr

/-- `system_time_now`. -/
def SystemTime.now (t : SystemTime) (tickMs : UInt32) : UInt32 :=
  if t.set then t.baseUnixS + (tickMs - t.baseTickMs) / 1000 else 0

/-- What a call finds: the UART, the clocks, the words of its arguments, and the memory that a
pointer among them points to. -/
structure LogEnv where
  ready : Bool
  tickMs : UInt32
  time : SystemTime
  args : ℕ → UInt32
  memory : UInt32 → List Char

/-- `write_timestamp_prefix`. -/
def writeTimestampPrefix (e : LogEnv) (l : LogLine) : LogLine :=
  if outEnd ≤ l.out.length then l
  else
    let l := l.put '['
    let l :=
      if e.time.set then
        let unixS := e.time.now e.tickMs
        let dayS := unixS % 86400
        let hh := dayS / 3600
        let mm := dayS % 3600 / 60
        let ss := dayS % 60
        let frac := e.tickMs % 1000
        let l := (l.number (fmtUPad hh 2 '0')).putIf ':'
        let l := (l.number (fmtUPad mm 2 '0')).putIf ':'
        let l := (l.number (fmtUPad ss 2 '0')).putIf '.'
        l.number (fmtUPad frac 3 '0')
      else
        let secs := e.tickMs / 1000
        let frac := e.tickMs % 1000
        let l := (l.number (fmtUPad secs 4 ' ')).putIf '.'
        l.number (fmtUPad frac 3 '0')
    (l.putIf ']').putIf ' '

/-! ## The format -/

/-- A step through the format: a character that stands for itself, or a conversion with the
character that says which. -/
inductive Directive
  | plain (c : Char)
  | conv (pad : Char) (width : ℤ) (c : Char)
  deriving DecidableEq, Repr

/-- `width = width*10 + (*fmt - '0')`, in an `int`. -/
def addDigit (width : ℤ) (c : Char) : ℤ := (width * 10 + (c.toNat - '0'.toNat)).bmod (2 ^ 32)

/-- The width and the character of a conversion. Where the format ends before the character it is
the terminator, and what lies behind it is read on. -/
def readWidth (pad : Char) (f : List Char) : Directive × List Char :=
  let width := (f.takeWhile Char.isDigit).foldl addDigit 0
  let f := f.dropWhile Char.isDigit
  (.conv pad width (f.headD '\x00'), f.tail)

/-- What `printk` reads in a round, and the format behind it. -/
def readDirective : List Char → Directive × List Char
  | [] => (.plain '\x00', [])
  | c :: f =>
    if c ≠ '%' then (.plain c, f)
    else if f.head? = some '0' then readWidth '0' f.tail
    else readWidth ' ' f

/-- The string that `%s` copies. -/
def LogEnv.text (e : LogEnv) (p : UInt32) : List Char :=
  if p = 0 then "(null)".toList else cString (e.memory p)

/-- The body of the loop. -/
def Directive.emit (e : LogEnv) (l : LogLine) : Directive → LogLine
  | .plain c => l.put c
  | .conv pad width c =>
    if c = 'd' then l.next.int (asInt (e.args l.arg)) width pad
    else if c = 'u' then l.next.number (itoaU (e.args l.arg) 10 width pad)
    else if c = 'x' then l.next.number (itoaU (e.args l.arg) 16 width pad)
    else if c = 'c' then l.next.put (Char.ofNat ((e.args l.arg).toNat % 256))
    else if c = 's' then l.next.copy (e.text (e.args l.arg))
    else if c = '%' then l.put '%'
    else (l.put '%').putIf c

/-- The loop over the format. Every round reads on, so that the length of what is there is
enough fuel. -/
def printkLoop (e : LogEnv) : ℕ → List Char → LogLine → LogLine
  | 0, _, l => l
  | fuel + 1, fmt, l =>
    if fmt.headD '\x00' = '\x00' ∨ outEnd ≤ l.out.length then l
    else
      let (d, fmt) := readDirective fmt
      printkLoop e fuel fmt (d.emit e l)

/-- `uart_write`: what goes over the wire. -/
def uartWrite (buf : List Char) : List Char :=
  buf.flatMap fun c => if c = '\n' then ['\r', c] else [c]

/-- What a call has written and sent. -/
structure Printed where
  line : LogLine
  wire : List Char
  deriving DecidableEq, Repr

/-- `printk`, nothing where the UART is not up. `mem` is the memory at `fmt`, the format with its
terminator and what lies behind, where at last there are only zeros. -/
def printk (e : LogEnv) (mem : List Char) : Option Printed :=
  if e.ready then
    let l : LogLine := ⟨[], 0, 0⟩
    let l :=
      if mem.headD '\x00' ≠ '\n' ∨ mem.tail.headD '\x00' ≠ '\x00' then writeTimestampPrefix e l
      else l
    let l := printkLoop e mem.length mem l
    some ⟨l, uartWrite l.out⟩
  else none

/-! ## The text that is meant -/

/-- A number in a base, with at least `width` characters. -/
def numberText (base : ℕ) (width : ℤ) (pad : Char) (n : ℕ) : List Char :=
  (Nat.toDigits base n).leftpad width.toNat pad

/-- The time of day once the clock is set, the time since the start before. -/
def timestampText (e : LogEnv) : List Char :=
  let frac := numberText 10 3 '0' (e.tickMs.toNat % 1000)
  if e.time.set then
    let dayS := (e.time.now e.tickMs).toNat % 86400
    '[' :: numberText 10 2 '0' (dayS / 3600) ++ ':' :: numberText 10 2 '0' (dayS % 3600 / 60) ++
      ':' :: numberText 10 2 '0' (dayS % 60) ++ '.' :: frac ++ [']', ' ']
  else '[' :: numberText 10 4 ' ' (e.tickMs.toNat / 1000) ++ '.' :: frac ++ [']', ' ']

/-- `%d`, `%u` and `%x`. -/
def isNumber (c : Char) : Bool := c = 'd' || c = 'u' || c = 'x'

namespace Directive

/-- The text of a directive whose argument is the `k`-th. What is no conversion stands for
itself. -/
def text (e : LogEnv) (k : ℕ) : Directive → List Char
  | .plain c => [c]
  | .conv pad width c =>
    if c = 'd' then
      (if asInt (e.args k) < 0 then ['-'] else []) ++
        numberText 10 width pad (asInt (e.args k)).natAbs
    else if c = 'u' then numberText 10 width pad (e.args k).toNat
    else if c = 'x' then numberText 16 width pad (e.args k).toNat
    else if c = 'c' then [Char.ofNat ((e.args k).toNat % 256)]
    else if c = 's' then e.text (e.args k)
    else if c = '%' ∨ c = '\x00' then ['%']
    else ['%', c]

/-- How many arguments a directive takes. -/
def takes : Directive → ℕ
  | .plain _ => 0
  | .conv _ _ c => if isNumber c ∨ c = 'c' ∨ c = 's' then 1 else 0

/-- A number fits into the scratch buffer and into what is left of `out`; a conversion that the
format breaks off comes so late that nothing is read behind it. -/
def FitsAt (e : LogEnv) (off k : ℕ) (d : Directive) : Prop :=
  match d with
  | .plain _ => True
  | .conv _ width c =>
    if isNumber c then width ≤ tmpLen ∧ off + (d.text e k).length ≤ outLen
    else c = '\x00' → outEnd ≤ off + 1

end Directive

/-- The directives of a format. -/
def directives : ℕ → List Char → List Directive
  | 0, _ => []
  | _, [] => []
  | fuel + 1, fmt => (readDirective fmt).1 :: directives fuel (readDirective fmt).2

/-- The text of some directives, from the `k`-th argument on. -/
def formatted (e : LogEnv) (k : ℕ) : List Directive → List Char
  | [] => []
  | d :: ds => d.text e k ++ formatted e (k + d.takes) ds

/-- Every directive that begins before the end of the buffer fits. -/
def Fits (e : LogEnv) (off k : ℕ) : List Directive → Prop
  | [] => True
  | d :: ds =>
    off < outEnd → d.FitsAt e off k ∧ Fits e (off + (d.text e k).length) (k + d.takes) ds

/-- The time stamp of a line, which an empty line does not have. -/
def stampText (e : LogEnv) (mem : List Char) : List Char :=
  if cString mem = ['\n'] then [] else timestampText e

def formatDirectives (mem : List Char) : List Directive :=
  directives (cString mem).length (cString mem)

/-- The whole line. -/
def lineText (e : LogEnv) (mem : List Char) : List Char :=
  stampText e mem ++ formatted e 0 (formatDirectives mem)

/-- Nothing is written behind the buffers, and the line is the text, all of it or as much as the
buffer takes. -/
structure LogLine.Shows (l : LogLine) (text : List Char) : Prop where
  out_le : l.out.length ≤ outLen
  scratch_le : l.scratch ≤ tmpLen
  cut : l.out <+: text
  full : l.out = text ∨ outEnd ≤ l.out.length

variable {e : LogEnv} {l : LogLine} {d : Directive} {f mem : List Char} {base n : ℕ} {width : ℤ}
  {pad c : Char}

/-! ## Numbers -/

theorem itoa_digit : ∀ d < 16,
    (if d < 10 then Char.ofNat ('0'.toNat + d) else Char.ofNat ('a'.toNat + (d - 10))) =
      Nat.digitChar d := by decide

theorem itoaLoop_zero (base fuel : ℕ) : itoaLoop base fuel 0 = [] := by
  cases fuel <;> rfl

theorem itoaLoop_reverse (hbase : 1 < base) (hle : base ≤ 16) {fuel : ℕ} (hpos : n ≠ 0)
    (hfuel : n < base ^ fuel) : (itoaLoop base fuel n).reverse = Nat.toDigits base n := by
  induction fuel generalizing n with
  | zero =>
    rw [pow_zero] at hfuel
    omega
  | succ fuel ih =>
    have hmod : n % base < base := Nat.mod_lt _ (by omega)
    rw [itoaLoop, if_neg hpos]
    dsimp only
    rw [itoa_digit _ (by omega), List.reverse_cons]
    rcases Nat.lt_or_ge n base with hlt | hge
    · rw [Nat.div_eq_of_lt hlt, itoaLoop_zero, Nat.toDigits_of_lt_base hlt, Nat.mod_eq_of_lt hlt]
      rfl
    · have hquot : n / base ≠ 0 := (Nat.div_pos hge (by omega)).ne'
      have hless : n / base < base ^ fuel := by
        rw [pow_succ, Nat.mul_comm] at hfuel
        exact Nat.div_lt_of_lt_mul hfuel
      rw [ih hquot hless, Nat.toDigits_of_base_le hbase hge]

/-- `itoa_u` writes the number. -/
theorem itoaU_eq (hbase : 1 < base) (hle : base ≤ 16) (v : UInt32) (width : ℤ) (pad : Char) :
    itoaU v base width pad = numberText base width pad v.toNat := by
  have hdigits : (if v = 0 then ['0'] else itoaLoop base 32 v.toNat).reverse =
      Nat.toDigits base v.toNat := by
    split
    · next hzero =>
      rw [hzero]
      exact (Nat.toDigits_of_lt_base (by exact Nat.lt_of_succ_lt hbase)).symm
    · next hpos =>
      have hpow : 2 ^ 32 ≤ base ^ 32 := Nat.pow_le_pow_left hbase 32
      apply itoaLoop_reverse hbase hle
      · exact fun h => hpos (UInt32.toNat_inj.mp h)
      · exact Nat.lt_of_lt_of_le v.toNat_lt hpow
  have hpads : ∀ len : ℕ, (width - len).toNat = width.toNat - len := by
    intro len
    omega
  rw [itoaU, itoaTmp, List.reverse_append, List.reverse_replicate, hdigits, numberText,
    List.leftpad, ← hdigits, List.length_reverse, hpads]

/-- The digits of a word fit, so that only the width can be too much. -/
theorem numberText_le_iff (hbase : 10 ≤ base) (hword : n < 2 ^ 32) :
    (numberText base width pad n).length ≤ tmpLen ↔ width ≤ tmpLen := by
  have hdigits : (Nat.toDigits base n).length ≤ tmpLen := by
    rw [Nat.length_toDigits_le_iff (by omega) (by decide)]
    have hten : 2 ^ 32 ≤ 10 ^ tmpLen := by norm_num [tmpLen]
    exact Nat.lt_of_lt_of_le hword (hten.trans (Nat.pow_le_pow_left hbase tmpLen))
  rw [numberText, List.leftpad, List.length_append, List.length_replicate]
  omega

theorem asInt_cases (v : UInt32) :
    v.toNat < 2 ^ 31 ∧ asInt v = v.toNat ∨ 2 ^ 31 ≤ v.toNat ∧ asInt v = v.toNat - 2 ^ 32 := by
  have hlt := v.toNat_lt
  unfold asInt
  rw [Int.bmod_def]
  split <;> omega

theorem ofInt_toNat (i : ℤ) : (ofInt i).toNat = (i % 2 ^ 32).toNat := by
  unfold ofInt
  rw [UInt32.toNat_ofNat']
  omega

/-- The magnitude of an `int` below zero, also of the least one, which has no opposite. -/
theorem magnitude_neg {v : UInt32} (hneg : asInt v < 0) :
    (ofInt (negInt (asInt v))).toNat = (asInt v).natAbs := by
  have hlt := v.toNat_lt
  have hmod : negInt (asInt v) % (2 ^ 32 : ℕ) = -asInt v % (2 ^ 32 : ℕ) := Int.bmod_emod
  rw [ofInt_toNat]
  rcases asInt_cases v with h | h <;> omega

theorem magnitude_nonneg {v : UInt32} (hnonneg : ¬ asInt v < 0) :
    (ofInt (asInt v)).toNat = (asInt v).natAbs := by
  have hlt := v.toNat_lt
  rw [ofInt_toNat]
  rcases asInt_cases v with h | h <;> omega

/-! ## What a round does -/

theorem LogLine.int_eq (l : LogLine) (v : UInt32) (width : ℤ) (pad : Char) :
    l.int (asInt v) width pad =
      ⟨l.out ++ ((if asInt v < 0 then ['-'] else []) ++ numberText 10 width pad (asInt v).natAbs),
        max l.scratch (numberText 10 width pad (asInt v).natAbs).length, l.arg⟩ := by
  rw [LogLine.int]
  by_cases hneg : asInt v < 0
  · rw [if_pos hneg, if_pos hneg, itoaU_eq (by decide) (by decide), magnitude_neg hneg,
      LogLine.number, LogLine.put, List.append_assoc]
  · rw [if_neg hneg, if_neg hneg, itoaU_eq (by decide) (by decide), magnitude_nonneg hneg,
      LogLine.number, List.nil_append]

theorem emit_d (e : LogEnv) (l : LogLine) (pad : Char) (width : ℤ) :
    Directive.emit e l (.conv pad width 'd') =
      ⟨l.out ++ Directive.text e l.arg (.conv pad width 'd'),
        max l.scratch (numberText 10 width pad (asInt (e.args l.arg)).natAbs).length,
        l.arg + 1⟩ := by
  rw [Directive.text, if_pos rfl, Directive.emit, if_pos rfl, LogLine.int_eq]
  rfl

theorem emit_u (e : LogEnv) (l : LogLine) (pad : Char) (width : ℤ) :
    Directive.emit e l (.conv pad width 'u') =
      ⟨l.out ++ Directive.text e l.arg (.conv pad width 'u'),
        max l.scratch (numberText 10 width pad (e.args l.arg).toNat).length, l.arg + 1⟩ := by
  rw [Directive.text, if_neg (by decide), if_pos rfl, ← itoaU_eq (by decide) (by decide)]
  rfl

theorem emit_x (e : LogEnv) (l : LogLine) (pad : Char) (width : ℤ) :
    Directive.emit e l (.conv pad width 'x') =
      ⟨l.out ++ Directive.text e l.arg (.conv pad width 'x'),
        max l.scratch (numberText 16 width pad (e.args l.arg).toNat).length, l.arg + 1⟩ := by
  rw [Directive.text, if_neg (by decide), if_neg (by decide), if_pos rfl,
    ← itoaU_eq (by decide) (by decide)]
  rfl

/-- A number goes to the line whole, and to its scratch buffer first. -/
theorem emit_number (hc : isNumber c = true) (e : LogEnv) (l : LogLine) (pad : Char) (width : ℤ) :
    ∃ size : ℕ, (size ≤ tmpLen ↔ width ≤ tmpLen) ∧
      Directive.emit e l (.conv pad width c) =
        ⟨l.out ++ Directive.text e l.arg (.conv pad width c), max l.scratch size, l.arg + 1⟩ := by
  have hword := (e.args l.arg).toNat_lt
  simp only [isNumber, Bool.or_eq_true, decide_eq_true_eq] at hc
  rcases hc with (rfl | rfl) | rfl
  · refine ⟨_, numberText_le_iff (Nat.le_refl _) ?_, emit_d e l pad width⟩
    rcases asInt_cases (e.args l.arg) with h | h <;> omega
  · exact ⟨_, numberText_le_iff (Nat.le_refl _) hword, emit_u e l pad width⟩
  · exact ⟨_, numberText_le_iff (by decide) hword, emit_x e l pad width⟩

/-- A conversion that the format breaks off. -/
def Directive.broken : Directive → Bool
  | .plain _ => false
  | .conv _ _ c => c = '\x00'

/-- The other directives stop at the end of the buffer. -/
theorem emit_other (hl : l.out.length < outEnd) (hbroken : d.broken = false)
    (hnum : ∀ pad width c, d = .conv pad width c → isNumber c = false) :
    d.emit e l = ⟨(l.out ++ d.text e l.arg).take outEnd, l.scratch, l.arg + d.takes⟩ := by
  have hone : ∀ c : Char, (l.out ++ [c]).take outEnd = l.out ++ [c] := by
    intro c
    rw [List.take_of_length_le]
    rw [List.length_append]
    exact hl
  cases d with
  | plain c =>
    rw [Directive.text, hone]
    rfl
  | conv pad width c =>
    have hn := hnum pad width c rfl
    simp only [Directive.broken, decide_eq_false_iff_not] at hbroken
    simp only [isNumber, Bool.or_eq_false_iff, decide_eq_false_iff_not] at hn
    obtain ⟨⟨hd, hu⟩, hx⟩ := hn
    rw [Directive.emit, Directive.text, Directive.takes, if_neg hd, if_neg hu, if_neg hx, if_neg hd,
      if_neg hu, if_neg hx]
    by_cases hc : c = 'c'
    · rw [if_pos hc, if_pos hc, if_pos (.inr (.inl hc)), hone]
      rfl
    rw [if_neg hc, if_neg hc]
    by_cases hs : c = 's'
    · rw [if_pos hs, if_pos hs, if_pos (.inr (.inr hs)), List.take_append,
        List.take_of_length_le (Nat.le_of_lt hl)]
      rfl
    have htakes : ¬(isNumber c = true ∨ c = 'c' ∨ c = 's') := by
      simp [isNumber, hd, hu, hx, hc, hs]
    rw [if_neg hs, if_neg hs, if_neg htakes]
    by_cases hpct : c = '%'
    · rw [if_pos hpct, if_pos (.inl hpct), hone]
      rfl
    rw [if_neg hpct, if_neg (not_or.mpr ⟨hpct, hbroken⟩), LogLine.putIf]
    have hput : (l.put '%').out = l.out ++ ['%'] := rfl
    have htwo : l.out ++ ['%', c] = (l.out ++ ['%']) ++ [c] := by simp
    by_cases hroom : (l.put '%').out.length < outEnd
    · rw [if_pos hroom, htwo, List.take_of_length_le]
      · rfl
      · rw [List.length_append, ← hput]
        exact hroom
    · rw [if_neg hroom, htwo, List.take_append_of_le_length (by rw [← hput]; omega), hone]
      rfl

/-- A conversion that is broken off takes the terminator for its character. -/
theorem emit_broken (e : LogEnv) (l : LogLine) (pad : Char) (width : ℤ) :
    Directive.emit e l (.conv pad width '\x00') = (l.put '%').putIf '\x00' := rfl

/-- A round takes nothing back. -/
theorem emit_grows (hl : l.out.length < outEnd) (d : Directive) :
    l.out <+: (d.emit e l).out ∧ l.scratch ≤ (d.emit e l).scratch := by
  have hother : ∀ text : List Char, l.out <+: (l.out ++ text).take outEnd := by
    intro text
    rw [List.take_append, List.take_of_length_le (Nat.le_of_lt hl)]
    exact List.prefix_append _ _
  by_cases hbroken : d.broken = true
  · cases d with
    | plain => nomatch hbroken
    | conv pad width c =>
      obtain rfl : c = '\x00' := of_decide_eq_true hbroken
      rw [emit_broken, LogLine.putIf]
      split
      · exact ⟨(List.prefix_append _ _).trans (List.prefix_append _ _), Nat.le_refl _⟩
      · exact ⟨List.prefix_append _ _, Nat.le_refl _⟩
  · cases d with
    | plain c =>
      rw [emit_other hl rfl (by intro _ _ _ h; nomatch h)]
      exact ⟨hother _, Nat.le_refl _⟩
    | conv pad width c =>
      by_cases hnum : isNumber c = true
      · obtain ⟨size, -, hemit⟩ := emit_number hnum e l pad width
        rw [hemit]
        exact ⟨List.prefix_append _ _, Nat.le_max_left _ _⟩
      · rw [emit_other hl (by simpa using hbroken) (by
          rintro _ _ _ ⟨⟩
          simpa using hnum)]
        exact ⟨hother _, Nat.le_refl _⟩

theorem printkLoop_grows (e : LogEnv) (fuel : ℕ) (f : List Char) (l : LogLine) :
    l.out <+: (printkLoop e fuel f l).out ∧ l.scratch ≤ (printkLoop e fuel f l).scratch := by
  induction fuel generalizing f l with
  | zero => exact ⟨List.prefix_rfl, Nat.le_refl _⟩
  | succ fuel ih =>
    rw [printkLoop]
    split
    · exact ⟨List.prefix_rfl, Nat.le_refl _⟩
    · next hgo =>
      have hl := Nat.lt_of_not_le (not_or.mp hgo).2
      obtain ⟨hout, hscratch⟩ := emit_grows (e := e) hl (readDirective f).1
      obtain ⟨hout', hscratch'⟩ := ih (readDirective f).2 ((readDirective f).1.emit e l)
      exact ⟨hout.trans hout', hscratch.trans hscratch'⟩

/-! ## Reading up to the terminator -/

/-- A conversion is read inside the format, or broken off by its end. -/
theorem readWidth_cString (pad : Char) (f : List Char) :
    readWidth pad (cString f) = ((readWidth pad f).1,
      if (readWidth pad f).1.broken then [] else cString (readWidth pad f).2) := by
  obtain ⟨htake, hdrop⟩ := cString_digits f
  rw [readWidth, readWidth, htake, hdrop]
  cases f.dropWhile Char.isDigit with
  | nil => rfl
  | cons c f =>
    by_cases hc : c = '\x00'
    · subst hc
      rfl
    · rw [cString_cons hc]
      exact Prod.ext rfl (if_neg (by simpa [Directive.broken] using hc)).symm

theorem readDirective_cString (hf : f.headD '\x00' ≠ '\x00') :
    readDirective (cString f) = ((readDirective f).1,
      if (readDirective f).1.broken then [] else cString (readDirective f).2) := by
  cases f with
  | nil => exact absurd rfl hf
  | cons c f =>
    rw [List.headD_cons] at hf
    rw [cString_cons hf, readDirective, readDirective]
    by_cases hpct : c = '%'
    · have hflag : (cString f).head? = some '0' ↔ f.head? = some '0' := by
        cases f with
        | nil => exact Iff.rfl
        | cons x f =>
          by_cases hx : x = '\x00'
          · rw [hx, cString_zero]
            simp
          · rw [cString_cons hx]
            exact Iff.rfl
      rw [if_neg (not_not.mpr hpct), if_neg (not_not.mpr hpct)]
      by_cases hzero : f.head? = some '0'
      · rw [if_pos hzero, if_pos (hflag.mpr hzero), ← readWidth_cString]
        obtain ⟨f, rfl⟩ : ∃ g, f = '0' :: g := by
          cases f with
          | nil => nomatch hzero
          | cons x f => exact ⟨f, by rw [Option.some.inj hzero]⟩
        rfl
      · rw [if_neg hzero, if_neg (mt hflag.mp hzero), ← readWidth_cString]
    · rw [if_pos hpct, if_pos hpct]
      rfl

theorem readWidth_length (pad : Char) (f : List Char) :
    (readWidth pad f).2.length ≤ f.length := by
  have hdrop := (List.dropWhile_suffix (l := f) Char.isDigit).length_le
  rw [readWidth]
  dsimp only
  rw [List.length_tail]
  omega

theorem readDirective_length (hf : f ≠ []) : (readDirective f).2.length < f.length := by
  cases f with
  | nil => exact absurd rfl hf
  | cons c f =>
    rw [readDirective]
    split
    · exact Nat.lt_succ_self _
    · split
      · have hle := readWidth_length '0' f.tail
        rw [List.length_tail] at hle
        rw [List.length_cons]
        omega
      · exact Nat.lt_succ_of_le (readWidth_length ' ' f)

end OpenEVCharger
