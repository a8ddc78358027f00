import OpenEVCharger.Hal.Printk

/-!
# What a call of printk writes

The loop over the format, the time stamp in front of it, and when the line is the formatted text:
the numbers are all that can go wrong, and a format that ends inside a conversion.
-/

namespace OpenEVCharger

variable {e : LogEnv} {l : LogLine} {d : Directive} {f mem : List Char} {base n : ℕ} {width : ℤ}
  {pad c : Char}

/-! ## The loop -/

theorem fits_of_end {off k : ℕ} (hend : outEnd ≤ off) (ds : List Directive) : Fits e off k ds := by
  cases ds with
  | nil => trivial
  | cons d ds => exact fun hlt => absurd hend (Nat.not_le_of_lt hlt)

theorem fits_cons {off k : ℕ} (hoff : off < outEnd) (d : Directive) (ds : List Directive) :
    Fits e off k (d :: ds) ↔
      d.FitsAt e off k ∧ Fits e (off + (d.text e k).length) (k + d.takes) ds := by
  rw [Fits]
  exact forall_prop_of_true hoff

/-- At the end of the buffer the loop stops. -/
theorem printkLoop_end (hend : outEnd ≤ l.out.length) (fuel : ℕ) (f : List Char) :
    printkLoop e fuel f l = l := by
  cases fuel with
  | zero => rfl
  | succ fuel => exact if_pos (.inr hend)

theorem printkLoop_round (hf : f.headD '\x00' ≠ '\x00') (hl : l.out.length < outEnd) (fuel : ℕ) :
    printkLoop e (fuel + 1) f l =
      printkLoop e fuel (readDirective f).2 ((readDirective f).1.emit e l) :=
  if_neg (not_or.mpr ⟨hf, Nat.not_le_of_lt hl⟩)

theorem directives_nil (fuel : ℕ) : directives fuel [] = [] := by
  cases fuel <;> rfl

/-- At the terminator the loop stops. -/
theorem printkLoop_terminator (hf : f.headD '\x00' = '\x00') (fuel : ℕ) (l : LogLine) :
    printkLoop e fuel f l = l := by
  cases fuel with
  | zero => rfl
  | succ fuel => exact if_pos (.inl hf)

theorem directives_round (hf : f.headD '\x00' ≠ '\x00') {fuel : ℕ}
    (hfuel : (cString f).length ≤ fuel) :
    ∃ fuel', directives fuel (cString f) = (readDirective f).1 :: directives fuel'
        (if (readDirective f).1.broken then [] else cString (readDirective f).2) ∧
      (if (readDirective f).1.broken then [] else cString (readDirective f).2).length ≤ fuel' := by
  have hread := readDirective_cString hf
  have hsome : cString f ≠ [] := mt cString_eq_nil_iff.mp hf
  have hlen := readDirective_length hsome
  obtain ⟨fuel', rfl⟩ : ∃ k, fuel = k + 1 := ⟨fuel - 1, by omega⟩
  refine ⟨fuel', ?_, ?_⟩
  · cases hcase : cString f with
    | nil => exact absurd hcase hsome
    | cons c rest =>
      rw [directives, ← hcase, hread]
      rintro ⟨⟩
  · rw [hread] at hlen
    dsimp only at hlen
    omega

theorem takes_number (hnum : isNumber c = true) : Directive.takes (.conv pad width c) = 1 :=
  if_pos (.inl hnum)

theorem fitsAt_number {off k : ℕ} (hnum : isNumber c = true) :
    Directive.FitsAt e off k (.conv pad width c) ↔
      width ≤ tmpLen ∧ off + (Directive.text e k (.conv pad width c)).length ≤ outLen := by
  rw [Directive.FitsAt, if_pos hnum]

theorem fitsAt_other {off k : ℕ} (hbroken : d.broken = false)
    (hnum : ∀ pad width c, d = .conv pad width c → isNumber c = false) : d.FitsAt e off k := by
  cases d with
  | plain => trivial
  | conv pad width c =>
    rw [Directive.FitsAt, hnum pad width c rfl, if_neg Bool.false_ne_true]
    exact fun hc => absurd hc (of_decide_eq_false hbroken)

theorem fitsAt_broken {off k : ℕ} :
    Directive.FitsAt e off k (.conv pad width '\x00') ↔ outEnd ≤ off + 1 := by
  rw [Directive.FitsAt, if_neg (by decide)]
  exact forall_prop_of_true rfl

/-- A conversion that is broken off ends the line in time, or writes the terminator. -/
theorem shows_broken (hl : l.out.length < outEnd) (hscratch : l.scratch ≤ tmpLen) (fuel : ℕ)
    (f : List Char) :
    (printkLoop e fuel f (Directive.emit e l (.conv pad width '\x00'))).Shows (l.out ++ ['%']) ↔
      outEnd ≤ l.out.length + 1 := by
  have hput : (l.put '%').out = l.out ++ ['%'] := rfl
  have hlen : (l.put '%').out.length = l.out.length + 1 := List.length_append
  rw [emit_broken, LogLine.putIf]
  constructor
  · intro hshows
    by_contra hearly
    rw [if_pos (by omega)] at hshows
    have hlong := ((printkLoop_grows e fuel f _).1.trans hshows.cut).length_le
    have hzero : ((l.put '%').put '\x00').out.length = l.out.length + 1 + 1 := by
      rw [← hlen]
      exact List.length_append
    rw [hzero, ← hput, hlen] at hlong
    omega
  · intro hlate
    rw [if_neg (by omega), printkLoop_end (by omega)]
    refine ⟨?_, hscratch, List.prefix_rfl, .inl rfl⟩
    have hend : outEnd + 1 = outLen := rfl
    omega

/-- A number is written whole, or too far. -/
theorem shows_number {text : List Char} {size arg : ℕ}
    (hbad : ¬(size ≤ tmpLen ∧ l.out.length + text.length ≤ outLen)) (fuel : ℕ)
    (f line : List Char) :
    ¬(printkLoop e fuel f ⟨l.out ++ text, max l.scratch size, arg⟩).Shows line := by
  intro hshows
  obtain ⟨hout, hscratch⟩ := printkLoop_grows e fuel f ⟨l.out ++ text, max l.scratch size, arg⟩
  have hlen := hout.length_le.trans hshows.out_le
  rw [List.length_append] at hlen
  exact hbad ⟨(Nat.le_max_right _ _).trans (hscratch.trans hshows.scratch_le), hlen⟩

/-- The loop writes the text of the directives that are left if they fit, and not otherwise. -/
theorem printkLoop_shows {fuel fuel' : ℕ} (hfuel : f.length ≤ fuel)
    (hfuel' : (cString f).length ≤ fuel') (hout : l.out.length ≤ outLen)
    (hscratch : l.scratch ≤ tmpLen) :
    (printkLoop e fuel f l).Shows
        (l.out ++ formatted e l.arg (directives fuel' (cString f))) ↔
      Fits e l.out.length l.arg (directives fuel' (cString f)) := by
  induction fuel generalizing f l fuel' with
  | zero =>
    obtain rfl : f = [] := List.length_eq_zero_iff.mp (Nat.le_zero.mp hfuel)
    rw [cString_eq_nil_iff.mpr rfl, directives_nil, formatted, List.append_nil,
      printkLoop_terminator rfl]
    exact iff_of_true ⟨hout, hscratch, List.prefix_rfl, .inl rfl⟩ trivial
  | succ fuel ih =>
    by_cases hend : outEnd ≤ l.out.length
    · rw [printkLoop_end hend]
      exact iff_of_true ⟨hout, hscratch, List.prefix_append _ _, .inr hend⟩ (fits_of_end hend _)
    have hl := Nat.lt_of_not_le hend
    by_cases hf : f.headD '\x00' = '\x00'
    · rw [cString_eq_nil_iff.mpr hf, directives_nil, formatted, List.append_nil,
        printkLoop_terminator hf]
      exact iff_of_true ⟨hout, hscratch, List.prefix_rfl, .inl rfl⟩ trivial
    obtain ⟨fuel'', hround, hfuel''⟩ := directives_round hf hfuel'
    have hless := readDirective_length (f := f) (by rintro rfl; exact hf rfl)
    rw [printkLoop_round hf hl, hround, formatted, fits_cons hl]
    generalize (readDirective f).1 = d at hfuel'' ⊢
    generalize (readDirective f).2 = f' at hfuel'' hless ⊢
    -- a conversion that is broken off is the last of the format, whatever lies behind
    by_cases hbroken : d.broken = true
    · cases d with
      | plain => nomatch hbroken
      | conv pad width c =>
        obtain rfl : c = '\x00' := of_decide_eq_true hbroken
        rw [if_pos hbroken, directives_nil, formatted, List.append_nil, fitsAt_broken]
        exact (shows_broken hl hscratch fuel f').trans (and_iff_left trivial).symm
    rw [if_neg hbroken] at hfuel'' ⊢
    by_cases hnum : ∃ pad width c, d = .conv pad width c ∧ isNumber c = true
    · obtain ⟨pad, width, c, rfl, hnum⟩ := hnum
      obtain ⟨size, hsize, hemit⟩ := emit_number hnum e l pad width
      rw [fitsAt_number hnum, ← hsize, hemit, takes_number hnum]
      -- a number goes on with the next directive, or has overrun one of the buffers
      by_cases hfit : size ≤ tmpLen ∧
          l.out.length + (Directive.text e l.arg (.conv pad width c)).length ≤ outLen
      · rw [and_iff_right hfit, ← List.append_assoc, ← List.length_append]
        exact ih (by omega) hfuel'' (List.length_append ▸ hfit.2)
          (Nat.max_le.mpr ⟨hscratch, hfit.1⟩)
      · exact iff_of_false (shows_number hfit fuel f' _) (fun h => hfit h.1)
    · have hbroken' : d.broken = false := by simpa using hbroken
      have hnum' : ∀ pad width c, d = .conv pad width c → isNumber c = false := by
        intro pad width c hd
        by_contra hc
        exact hnum ⟨pad, width, c, hd, by simpa using hc⟩
      rw [and_iff_right (fitsAt_other hbroken' hnum'), emit_other hl hbroken' hnum']
      -- what checks the end goes on with the next directive, or fills the line and ends it
      by_cases hfit : (l.out ++ d.text e l.arg).length ≤ outEnd
      · rw [List.take_of_length_le hfit, ← List.append_assoc, ← List.length_append]
        exact ih (by omega) hfuel'' (hfit.trans (by decide)) hscratch
      · have hcut : ((l.out ++ d.text e l.arg).take outEnd).length = outEnd := by
          rw [List.length_take]
          omega
        rw [printkLoop_end (Nat.le_of_eq hcut.symm), ← List.append_assoc]
        rw [List.length_append] at hfit
        refine iff_of_true ⟨?_, hscratch, ?_, .inr (Nat.le_of_eq hcut.symm)⟩
          (fits_of_end (by omega) _)
        · rw [hcut]
          decide
        · exact (List.take_prefix _ _).trans (List.prefix_append _ _)

/-! ## The time stamp -/

theorem numberText_length_le {k : ℕ} (hbase : 1 < base) (hk : 0 < k) (hwidth : width ≤ k)
    (hn : n < base ^ k) : (numberText base width pad n).length ≤ k := by
  have hdigits := (Nat.length_toDigits_le_iff hbase hk).mpr hn
  rw [numberText, List.leftpad, List.length_append, List.length_replicate]
  omega

/-- The fields of the time stamp, each with the character behind it. -/
def fieldsText (fields : List (List Char × Char)) : List Char :=
  fields.flatMap fun field => field.1 ++ [field.2]

theorem foldl_fields (fields : List (List Char × Char)) (l : LogLine)
    (hroom : l.out.length + (fieldsText fields).length ≤ outEnd) (hscratch : l.scratch ≤ tmpLen)
    (hdigits : ∀ field ∈ fields, field.1.length ≤ tmpLen) :
    ∃ scratch ≤ tmpLen, fields.foldl (fun l field => (l.number field.1).putIf field.2) l =
      ⟨l.out ++ fieldsText fields, scratch, l.arg⟩ := by
  induction fields generalizing l with
  | nil => exact ⟨l.scratch, hscratch, by rw [fieldsText, List.flatMap_nil, List.append_nil]; rfl⟩
  | cons field fields ih =>
    obtain ⟨hfield, hfields⟩ := List.forall_mem_cons.mp hdigits
    rw [fieldsText, List.flatMap_cons, ← fieldsText] at hroom ⊢
    simp only [List.length_append, List.length_singleton] at hroom
    have hlen : (l.number field.1).out.length < outEnd := by
      rw [LogLine.number, List.length_append]
      omega
    obtain ⟨scratch, hle, hfold⟩ := ih
      ⟨l.out ++ field.1 ++ [field.2], max l.scratch field.1.length, l.arg⟩
      (by simp only [List.length_append, List.length_singleton]; omega)
      (Nat.max_le.mpr ⟨hscratch, hfield⟩) hfields
    refine ⟨scratch, hle, ?_⟩
    have hput : (l.number field.1).put field.2 =
        ⟨l.out ++ field.1 ++ [field.2], max l.scratch field.1.length, l.arg⟩ := rfl
    rw [List.foldl_cons, LogLine.putIf, if_pos hlen, hput, hfold]
    simp only [List.append_assoc]

/-- Fields that leave room for the blank behind them. -/
theorem fields_blank (fields : List (List Char × Char))
    (hroom : (fieldsText fields).length + 2 ≤ outEnd)
    (hdigits : ∀ field ∈ fields, field.1.length ≤ tmpLen) :
    ∃ scratch ≤ tmpLen, (fields.foldl (fun l field => (l.number field.1).putIf field.2)
        (LogLine.put ⟨[], 0, 0⟩ '[')).putIf ' ' =
      ⟨'[' :: fieldsText fields ++ [' '], scratch, 0⟩ ∧
        ('[' :: fieldsText fields ++ [' ']).length ≤ outLen := by
  obtain ⟨scratch, hle, hfold⟩ := foldl_fields fields (LogLine.put ⟨[], 0, 0⟩ '[')
    (by change 1 + _ ≤ _; omega) (Nat.zero_le _) hdigits
  have hlen : ('[' :: fieldsText fields).length < outEnd := by
    rw [List.length_cons]
    omega
  refine ⟨scratch, hle, ?_, ?_⟩
  · rw [hfold]
    exact if_pos hlen
  · rw [List.length_append, List.length_singleton]
    exact (Nat.succ_le_of_lt hlen).trans (by decide)

/-- The time stamp never comes near the end of the buffer. -/
theorem writeTimestampPrefix_eq (e : LogEnv) :
    ∃ scratch ≤ tmpLen, writeTimestampPrefix e ⟨[], 0, 0⟩ = ⟨timestampText e, scratch, 0⟩ ∧
      (timestampText e).length ≤ outLen := by
  have htick := e.tickMs.toNat_lt
  have hfrac : (numberText 10 3 '0' (e.tickMs.toNat % 1000)).length ≤ 3 :=
    numberText_length_le (by decide) (by decide) (Int.le_refl _) (Nat.mod_lt _ (by decide))
  have hfrac' : fmtUPad (e.tickMs % 1000) 3 '0' = numberText 10 3 '0' (e.tickMs.toNat % 1000) :=
    itoaU_eq (by decide) (by decide) _ _ _
  rw [writeTimestampPrefix, if_neg (by decide), timestampText]
  dsimp only
  generalize numberText 10 3 '0' (e.tickMs.toNat % 1000) = frac at hfrac hfrac' ⊢
  rw [hfrac']
  by_cases hset : e.time.set = true
  · rw [if_pos hset, if_pos hset]
    have htwo : ∀ n : ℕ, n < 100 → (numberText 10 2 '0' n).length ≤ 2 :=
      fun n hn => numberText_length_le (by decide) (by decide) (by decide) hn
    generalize e.time.now e.tickMs = unixS
    have hhh : fmtUPad (unixS % 86400 / 3600) 2 '0' =
        numberText 10 2 '0' (unixS.toNat % 86400 / 3600) := itoaU_eq (by decide) (by decide) _ _ _
    have hmm : fmtUPad (unixS % 86400 % 3600 / 60) 2 '0' =
        numberText 10 2 '0' (unixS.toNat % 86400 % 3600 / 60) :=
      itoaU_eq (by decide) (by decide) _ _ _
    have hss : fmtUPad (unixS % 86400 % 60) 2 '0' =
        numberText 10 2 '0' (unixS.toNat % 86400 % 60) := itoaU_eq (by decide) (by decide) _ _ _
    rw [hhh, hmm, hss]
    have hhhlen := htwo (unixS.toNat % 86400 / 3600) (by omega)
    have hmmlen := htwo (unixS.toNat % 86400 % 3600 / 60) (by omega)
    have hsslen := htwo (unixS.toNat % 86400 % 60) (by omega)
    generalize numberText 10 2 '0' (unixS.toNat % 86400 / 3600) = hh at hhhlen ⊢
    generalize numberText 10 2 '0' (unixS.toNat % 86400 % 3600 / 60) = mm at hmmlen ⊢
    generalize numberText 10 2 '0' (unixS.toNat % 86400 % 60) = ss at hsslen ⊢
    obtain ⟨scratch, hle, hline, hlen⟩ := fields_blank
      [(hh, ':'), (mm, ':'), (ss, '.'), (frac, ']')]
      (by simp [fieldsText, outEnd, outLen]; omega) (by simp [tmpLen]; omega)
    have htext : '[' :: fieldsText [(hh, ':'), (mm, ':'), (ss, '.'), (frac, ']')] ++ [' '] =
        '[' :: hh ++ ':' :: mm ++ ':' :: ss ++ '.' :: frac ++ [']', ' '] := by
      simp [fieldsText]
    rw [htext] at hline hlen
    simp only [List.foldl_cons, List.foldl_nil] at hline
    exact ⟨scratch, hle, hline, hlen⟩
  · rw [if_neg hset, if_neg hset]
    have hsecs : (numberText 10 4 ' ' (e.tickMs.toNat / 1000)).length ≤ 10 :=
      numberText_length_le (by decide) (by decide) (by decide) (by omega)
    have hsecs' : fmtUPad (e.tickMs / 1000) 4 ' ' = numberText 10 4 ' ' (e.tickMs.toNat / 1000) :=
      itoaU_eq (by decide) (by decide) _ _ _
    rw [hsecs']
    generalize numberText 10 4 ' ' (e.tickMs.toNat / 1000) = secs at hsecs ⊢
    obtain ⟨scratch, hle, hline, hlen⟩ := fields_blank [(secs, '.'), (frac, ']')]
      (by simp [fieldsText, outEnd, outLen]; omega) (by simp [tmpLen]; omega)
    have htext : '[' :: fieldsText [(secs, '.'), (frac, ']')] ++ [' '] =
        '[' :: secs ++ '.' :: frac ++ [']', ' '] := by
      simp [fieldsText]
    rw [htext] at hline hlen
    simp only [List.foldl_cons, List.foldl_nil] at hline
    exact ⟨scratch, hle, hline, hlen⟩

/-! ## The line -/

theorem cString_blank_iff (mem : List Char) :
    cString mem = ['\n'] ↔ mem.headD '\x00' = '\n' ∧ mem.tail.headD '\x00' = '\x00' := by
  cases mem with
  | nil => decide
  | cons c f =>
    by_cases hc : c = '\x00'
    · rw [hc, cString_zero]
      simp
    · rw [cString_cons hc, List.headD_cons, List.tail_cons, List.cons.injEq]
      exact and_congr_right fun _ => cString_eq_nil_iff

/-- The line starts with its time stamp. -/
theorem stamp_written (e : LogEnv) (mem : List Char) :
    ∃ scratch ≤ tmpLen,
      (if mem.headD '\x00' ≠ '\n' ∨ mem.tail.headD '\x00' ≠ '\x00' then
        writeTimestampPrefix e ⟨[], 0, 0⟩ else ⟨[], 0, 0⟩) = ⟨stampText e mem, scratch, 0⟩ ∧
      (stampText e mem).length ≤ outLen := by
  rw [stampText]
  by_cases hblank : cString mem = ['\n']
  · obtain ⟨hhead, hnext⟩ := (cString_blank_iff mem).mp hblank
    rw [if_pos hblank, if_neg (not_or.mpr ⟨not_not.mpr hhead, not_not.mpr hnext⟩)]
    exact ⟨0, Nat.zero_le _, rfl, Nat.zero_le _⟩
  · have htext : mem.headD '\x00' ≠ '\n' ∨ mem.tail.headD '\x00' ≠ '\x00' := by
      rw [← not_and_or]
      exact mt (cString_blank_iff mem).mpr hblank
    rw [if_neg hblank, if_pos htext]
    exact writeTimestampPrefix_eq e

/-- A line is the formatted text, as much of it as the buffer takes, with nothing written behind
the buffers, exactly if every number that begins before offset 175 has a width of at most 12 and
ends by offset 176, and no conversion that the format breaks off begins before offset 174. -/
theorem printk_shows_iff (e : LogEnv) (mem : List Char) :
    (∀ p, printk e mem = some p →
      p.line.Shows (lineText e mem) ∧ p.wire = uartWrite p.line.out) ↔
      (e.ready = true → Fits e (stampText e mem).length 0 (formatDirectives mem)) := by
  obtain ⟨scratch, hscratch, hstamp, hlen⟩ := stamp_written e mem
  have hloop := printkLoop_shows (e := e) (f := mem) (l := ⟨stampText e mem, scratch, 0⟩)
    (Nat.le_refl _) (Nat.le_refl _) hlen hscratch
  rw [printk]
  by_cases hready : e.ready = true
  · rw [if_pos hready]
    dsimp only
    rw [hstamp]
    constructor
    · intro hall _
      exact hloop.mp (hall _ rfl).1
    · rintro hfits p ⟨⟩
      exact ⟨hloop.mpr (hfits hready), rfl⟩
  · rw [if_neg hready]
    exact iff_of_true (fun p h => nomatch h) (fun h => absurd h hready)

/-- A call one second after the start with a string of 160 characters and a number of ten digits. -/
def longNameEnv : LogEnv where
  ready := true
  tickMs := 1000
  time := ⟨0, 0, false⟩
  args k := if k = 0 then 0x20000000 else 0xFFFFFFFF
  memory _ := List.replicate 160 'a'

/-- The number behind a long string goes five bytes beyond the buffer. -/
theorem number_behind_long_string :
    ¬ ∀ (e : LogEnv) (mem : List Char) (p : Printed), printk e mem = some p →
      p.line.Shows (lineText e mem) := by
  intro hall
  have hlen : (printk longNameEnv ['%', 's', '%', 'u']).map (·.line.out.length) = some 181 := by
    decide +kernel
  obtain ⟨p, hp, hout⟩ := Option.map_eq_some_iff.mp hlen
  have hle := (hall _ _ p hp).out_le
  rw [hout] at hle
  exact absurd hle (by decide)

end OpenEVCharger
