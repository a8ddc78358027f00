import OpenEVCharger.Companion.WebAuth

/-!
# The body of a request

The reader waits for the length it finds behind the first `content-length:` of the first 2047
bytes, the parser takes the last header of that name. A body that is cut short is taken as far
as it arrived.
-/

namespace OpenEVCharger

/-! ## Heads of lines -/

/-- The head of a request by its parts. -/
structure RequestHead where
  method : List Char
  path : List Char
  version : List Char
  lines : List (List Char)
  methodWord : ' ' ∉ method
  pathWord : ' ' ∉ path
  versionLine : '\r' ∉ version
  oneLine : ∀ line ∈ lines, '\r' ∉ line

def RequestHead.first (h : RequestHead) : List Char :=
  h.method ++ ' ' :: (h.path ++ ' ' :: h.version)

/-- Header lines, each behind the end of the line before it. -/
def joinLines (lines : List (List Char)) : List Char := lines.flatMap (crlf ++ ·)

def RequestHead.text (h : RequestHead) : List Char := h.first ++ joinLines h.lines

def lengthMark : List Char := "content-length:".toList

/-- A text in which the reader finds a length. -/
def Mentions (text : List Char) : Prop := lengthMark <:+: text.map Char.toLower

/-- The value of a header line that is a `Content-Length`. -/
def lengthValue (line : List Char) : Option (List Char) :=
  (headerOf line).bind fun h => if headerNamed "content-length" h then some h.2 else none

/-- A head that mentions a length in at most one place, as a header with a value. -/
structure OneLength (h : RequestHead) : Prop where
  clean : '\x00' ∉ h.text
  short : h.text.length ≤ 2047
  first : ¬ Mentions h.first
  only : ∀ line ∈ h.lines, Mentions line → (lengthValue line).isSome
  once : (h.lines.filter fun line => (lengthValue line).isSome).length ≤ 1
  valued : ∀ line ∈ h.lines, lengthValue line ≠ some []

variable {line tail val text : List Char} {lines : List (List Char)} {c : Char}

theorem joinLines_nil : joinLines [] = [] := rfl

theorem joinLines_cons : joinLines (line :: lines) = '\r' :: '\n' :: (line ++ joinLines lines) := by
  rw [joinLines, List.flatMap_cons]
  rfl

/-- What may follow a line: the end of the head, or the end of the line. -/
def LineEnd (tail : List Char) : Prop := tail = [] ∨ ∃ rest, tail = '\r' :: rest

theorem lineEnd_joinLines (lines : List (List Char)) : LineEnd (joinLines lines) := by
  cases lines with
  | nil => exact .inl rfl
  | cons line lines => exact .inr ⟨_, joinLines_cons⟩

/-! ## What the parser reads -/

theorem lineField_append {sep : Char} {cap : ℕ} {field : List Char} {p : List Char × List Char}
    (h : sep ∉ field) (hp : lineField sep cap (field ++ sep :: tail) = some p) :
    p = (field, tail) := by
  have hstop : ∀ c ∈ field, decide (c ≠ sep) = true :=
    fun c hc => decide_eq_true fun heq => h (heq ▸ hc)
  have htake : (field ++ sep :: tail).takeWhile (· ≠ sep) = field := by
    rw [List.takeWhile_append_of_pos hstop]
    simp
  have hdrop : (field ++ sep :: tail).drop (field.length + 1) = tail := by
    rw [List.drop_append]
    simp
  rw [lineField, htake, hdrop] at hp
  split at hp
  · nomatch hp
  split at hp
  · nomatch hp
  cases hp
  rfl

theorem headerLines_append (h : '\r' ∉ line) :
    headerLines (line ++ '\r' :: c :: tail) = line :: headerLines tail := by
  induction line with
  | nil => rw [List.nil_append, headerLines]
  | cons d line ih =>
    have hne : d ≠ '\r' := fun heq => h (heq ▸ List.mem_cons_self ..)
    rw [List.cons_append, headerLines, ih fun hmem => h (List.mem_cons_of_mem _ hmem)]
    · exact fun heq => absurd heq hne
    · exact fun _ _ heq => absurd heq hne

theorem headerLines_last (h : '\r' ∉ line) : headerLines (line ++ ['\r']) = [line] := by
  induction line with
  | nil => rw [List.nil_append, headerLines]
  | cons d line ih =>
    have hne : d ≠ '\r' := fun heq => h (heq ▸ List.mem_cons_self ..)
    rw [List.cons_append, headerLines, ih fun hmem => h (List.mem_cons_of_mem _ hmem)]
    · exact fun heq => absurd heq hne
    · exact fun _ _ heq => absurd heq hne

/-- The lines of a head are read back. -/
theorem headerLines_joinLines (h : ∀ l ∈ line :: lines, '\r' ∉ l) :
    headerLines (line ++ joinLines lines ++ ['\r']) = line :: lines := by
  induction lines generalizing line with
  | nil => rw [joinLines_nil, List.append_nil, headerLines_last (h line (List.mem_cons_self ..))]
  | cons next lines ih =>
    rw [joinLines_cons, List.append_assoc, List.cons_append, List.cons_append,
      headerLines_append (h line (List.mem_cons_self ..)),
      ih fun l hl => h l (List.mem_cons_of_mem _ hl)]

theorem parseRequest_headers {buf avail : List Char} {h : RequestHead} {r : HttpRequest}
    (hsplit : splitHead buf = some (h.text, avail)) (hparse : parseRequest buf = some r) :
    r.headers = h.lines.filterMap headerOf := by
  have htext : h.text ++ ['\r'] = h.method ++ ' ' :: (h.path ++ ' ' :: (h.version ++
      (joinLines h.lines ++ ['\r']))) := by
    rw [RequestHead.text, RequestHead.first]
    simp only [List.append_assoc, List.cons_append]
  have hlines : ∃ rest, joinLines h.lines ++ ['\r'] = '\r' :: rest ∧
      headerLines (rest.drop 1) = h.lines := by
    cases hl : h.lines with
    | nil => exact ⟨[], rfl, rfl⟩
    | cons line lines =>
      refine ⟨'\n' :: (line ++ joinLines lines ++ ['\r']), ?_, ?_⟩
      · rw [joinLines_cons]
        rfl
      · exact headerLines_joinLines (hl ▸ h.oneLine)
  obtain ⟨rest, hrest, hheaders⟩ := hlines
  simp only [parseRequest, Option.bind_eq_bind, Option.bind_eq_some_iff] at hparse
  obtain ⟨p, hp, method, hmethod, path, hpath, version, hversion, hparse⟩ := hparse
  rw [hsplit] at hp
  cases hp
  rw [htext] at hmethod
  cases lineField_append h.methodWord hmethod
  cases lineField_append h.pathWord hpath
  rw [hrest] at hversion
  cases lineField_append h.versionLine hversion
  split at hparse
  · cases hparse
  · obtain ⟨contentLength, -, hparse⟩ := Option.bind_eq_some_iff.mp hparse
    cases hparse
    rw [hheaders]

/-! ## What the reader finds -/

theorem LineEnd.not_digit (h : LineEnd tail) : ∀ c ∈ tail.head?, c.isDigit = false := by
  rcases h with rfl | ⟨rest, rfl⟩
  · exact nofun
  · rintro c ⟨⟩
    decide

/-- A text that is a number all through is one in front of a line end too. -/
theorem strtol_append {n : ℤ} (hval : val ≠ []) (h : strtol val = (n, [])) (hend : LineEnd tail) :
    (strtol (val ++ tail)).1 = n := by
  cases hscan : scanInt val with
  | none =>
    rw [strtol, hscan] at h
    exact absurd (congrArg Prod.snd h) hval
  | some m =>
    obtain ⟨m, rest⟩ := m
    have hrest : rest = [] := by
      rw [strtol, hscan] at h
      exact congrArg Prod.snd h
    subst hrest
    suffices hlonger : scanInt (val ++ tail) = some (m, tail) by
      rw [strtol, hscan] at h
      rw [strtol, hlonger]
      exact congrArg Prod.fst h
    -- blanks, sign and digits of the value are those of the longer text
    have hblank : val.dropWhile isSpace ≠ [] := by
      intro hnil
      rw [scanInt, readSign, hnil] at hscan
      cases hscan
    have hsign : readSign (val ++ tail) = ((readSign val).1, (readSign val).2 ++ tail) := by
      rw [readSign, readSign, List.dropWhile_append, if_neg (by simpa using hblank)]
      cases hd : val.dropWhile isSpace with
      | nil => exact absurd hd hblank
      | cons d ds =>
        rw [List.cons_append]
        split
        · next heq =>
          cases heq
          rfl
        · next heq =>
          cases heq
          rfl
        · next hminus hplus =>
          split
          · next heq =>
            cases heq
            exact absurd rfl (hminus _)
          · next heq =>
            cases heq
            exact absurd rfl (hplus _)
          · next heq => rfl
    rw [scanInt] at hscan ⊢
    rw [hsign]
    dsimp only at hscan ⊢
    split at hscan
    · cases hscan
    · next hdigits =>
      obtain ⟨hm, hall⟩ := Prod.mk.inj (Option.some.inj hscan)
      have hdigit : ∀ c ∈ (readSign val).2, c.isDigit = true := List.dropWhile_eq_nil_iff.mp hall
      have hself : (readSign val).2.takeWhile Char.isDigit = (readSign val).2 :=
        List.takeWhile_eq_self_iff.mpr hdigit
      obtain ⟨htake, hdrop⟩ := takeWhile_digits hdigit hend.not_digit
      rw [htake, hdrop]
      rw [hself] at hdigits hm
      rw [if_neg hdigits, hm]

theorem prefix_lengthMark_append {a : List Char} (hend : LineEnd tail)
    (h : lengthMark <+: a.map Char.toLower ++ tail.map Char.toLower) :
    lengthMark <+: a.map Char.toLower := by
  rcases Nat.le_total lengthMark.length (a.map Char.toLower).length with hle | hle
  · exact List.prefix_of_prefix_length_le h (List.prefix_append ..) hle
  · obtain ⟨x, hx⟩ := List.prefix_of_prefix_length_le (List.prefix_append ..) h hle
    cases x with
    | nil => exact ⟨[], by rw [List.append_nil, ← hx, List.append_nil]⟩
    | cons c x =>
      -- the mark would run over the end of the line
      rw [← hx, List.prefix_append_right_inj] at h
      rcases hend with rfl | ⟨rest, rfl⟩
      · exact absurd h (by simp)
      · have hc : c = '\r' := (List.cons_prefix_cons.mp h).1
        have hmem : '\r' ∈ lengthMark := by
          rw [← hx, hc]
          exact List.mem_append_right _ (List.mem_cons_self ..)
        exact absurd hmem (by decide)

theorem scanLength_skip (h : ¬ lengthMark <+: (c :: text).map Char.toLower) :
    scanLength (c :: text) = scanLength text := if_neg h

theorem scanLength_match (h : lengthMark <+: text.map Char.toLower) :
    scanLength text = (strtol ((text.drop 15).dropWhile fun c => c = ' ' || c = '\t')).1 := by
  cases text with
  | nil => exact absurd h (by decide)
  | cons c text => exact if_pos h

/-- A line without a mention is passed over. -/
theorem scanLength_append (hend : LineEnd tail) (h : ¬ Mentions text) :
    scanLength (text ++ tail) = scanLength tail := by
  induction text with
  | nil => rfl
  | cons c text ih =>
    have hhere : ¬ lengthMark <+: (c :: (text ++ tail)).map Char.toLower := by
      intro hprefix
      rw [← List.cons_append, List.map_append] at hprefix
      exact h (prefix_lengthMark_append hend hprefix).isInfix
    rw [List.cons_append, scanLength_skip hhere]
    exact ih fun hlater => h (List.infix_cons hlater)

theorem scanLength_lineStart :
    scanLength ('\r' :: '\n' :: (text ++ tail)) = scanLength (text ++ tail) := by
  have hr : ¬ lengthMark <+: ('\r' :: '\n' :: (text ++ tail)).map Char.toLower := by
    intro h
    exact absurd (List.cons_prefix_cons.mp h).1 (by decide)
  have hn : ¬ lengthMark <+: ('\n' :: (text ++ tail)).map Char.toLower := by
    intro h
    exact absurd (List.cons_prefix_cons.mp h).1 (by decide)
  rw [scanLength_skip hr, scanLength_skip hn]

/-- The header that the parser takes a length from is one where the reader looks for it. -/
theorem scanLength_value (h : lengthValue line = some val) (hval : val ≠ []) :
    scanLength (line ++ tail) = (strtol (val ++ tail)).1 := by
  obtain ⟨⟨name, v⟩, hheader, hnamed⟩ := Option.bind_eq_some_iff.mp h
  split at hnamed
  · next hname =>
    cases hnamed
    rw [headerOf] at hheader
    split at hheader
    · nomatch hheader
    · next hcolon =>
      cases hheader
      obtain ⟨hsplit, -⟩ := split_colon_iff.mp ⟨not_not.mp hcolon, rfl, rfl⟩
      generalize line.takeWhile (· ≠ ':') = name at hsplit hname
      generalize (line.dropWhile (· ≠ ':')).tail = rest at hsplit hval
      subst hsplit
      have hlower : name.map Char.toLower = "content-length".toList := of_decide_eq_true hname
      have hlength : name.length = 14 := by
        rw [← List.length_map Char.toLower, hlower]
        rfl
      have hmark : lengthMark <+: (name ++ ':' :: rest ++ tail).map Char.toLower := by
        rw [List.map_append, List.map_append, hlower, List.map_cons, List.append_assoc]
        exact ⟨rest.map Char.toLower ++ tail.map Char.toLower, rfl⟩
      have hdrop : (name ++ ':' :: rest ++ tail).drop 15 = rest ++ tail := by
        rw [List.append_assoc, List.drop_append, hlength, List.drop_eq_nil_of_le (by omega)]
        rfl
      rw [scanLength_match hmark, hdrop, List.dropWhile_append, if_neg (by simpa using hval)]
  · nomatch hnamed

/-! ## The two lengths -/

theorem lengthValue_mem (h : lengthValue line = some val) (hc : c ∈ val) : c ∈ line := by
  obtain ⟨⟨name, v⟩, hheader, hnamed⟩ := Option.bind_eq_some_iff.mp h
  split at hnamed
  · cases hnamed
    rw [headerOf] at hheader
    split at hheader
    · nomatch hheader
    · cases hheader
      exact List.dropWhile_subset _ (List.mem_of_mem_tail (List.dropWhile_subset _ hc))
  · nomatch hnamed

theorem parseLength_some {n : ℕ} (h : parseLength val = some n) :
    strtol (cString val) = ((n : ℤ), []) := by
  rw [parseLength] at h
  split at h
  · nomatch h
  · dsimp only at h
    split at h
    · nomatch h
    · next hgood =>
      simp only [Bool.or_eq_true, decide_eq_true_eq, not_or, not_not, not_lt] at hgood
      cases h
      exact Prod.ext (Int.toNat_of_nonneg hgood.2).symm hgood.1

/-- What a line does to the length that is taken from the lines before it. -/
def lineStep (cl : Option ℕ) (line : List Char) : Option (Option ℕ) :=
  match lengthValue line with
  | some v => (parseLength v).map some
  | none => some cl

theorem foldlM_lines (cl : Option ℕ) (lines : List (List Char)) :
    (lines.filterMap headerOf).foldlM lengthStep cl = lines.foldlM lineStep cl := by
  induction lines generalizing cl with
  | nil => rfl
  | cons line lines ih =>
    rw [List.filterMap_cons, List.foldlM_cons, lineStep, lengthValue]
    cases hheader : headerOf line with
    | none => exact ih cl
    | some h =>
      dsimp only
      rw [List.foldlM_cons, lengthStep, Option.bind_some]
      split
      · dsimp only
        cases parseLength h.2 with
        | none => rfl
        | some n => exact ih (some n)
      · exact ih cl

theorem foldlM_noLength {cl : Option ℕ} (h : ∀ line ∈ lines, lengthValue line = none) :
    lines.foldlM lineStep cl = some cl := by
  induction lines with
  | nil => rfl
  | cons line lines ih =>
    rw [List.foldlM_cons, lineStep, h line (List.mem_cons_self ..)]
    exact ih fun l hl => h l (List.mem_cons_of_mem _ hl)

/-- Line by line, the reader and the parser agree. -/
theorem scanLength_joinLines {cl : Option ℕ} (hclean : ∀ line ∈ lines, '\x00' ∉ line)
    (honly : ∀ line ∈ lines, Mentions line → (lengthValue line).isSome)
    (honce : (lines.filter fun line => (lengthValue line).isSome).length ≤ 1)
    (hvalued : ∀ line ∈ lines, lengthValue line ≠ some [])
    (h : lines.foldlM lineStep none = some cl) :
    scanLength (joinLines lines) = ((cl.getD 0 : ℕ) : ℤ) := by
  induction lines with
  | nil =>
    cases h
    rfl
  | cons line lines ih =>
    rw [joinLines_cons, scanLength_lineStart]
    rw [List.foldlM_cons, lineStep] at h
    rw [List.filter_cons] at honce
    have hmem : line ∈ line :: lines := List.mem_cons_self ..
    cases hv : lengthValue line with
    | none =>
      rw [hv] at h honce
      have hsilent : ¬ Mentions line := by
        intro hmention
        have hsome := honly line hmem hmention
        rw [hv] at hsome
        nomatch hsome
      rw [scanLength_append (lineEnd_joinLines lines) hsilent]
      exact ih (fun l hl => hclean l (List.mem_cons_of_mem _ hl))
        (fun l hl => honly l (List.mem_cons_of_mem _ hl)) honce
        (fun l hl => hvalued l (List.mem_cons_of_mem _ hl)) h
    | some v =>
      have hne : v ≠ [] := fun heq => hvalued line hmem (heq ▸ hv)
      rw [hv] at h honce
      obtain ⟨cl', hstep, h⟩ := Option.bind_eq_some_iff.mp h
      obtain ⟨n, hn, rfl⟩ := Option.map_eq_some_iff.mp hstep
      -- no other line has a length
      have hrest : ∀ l ∈ lines, lengthValue l = none := by
        intro l hl
        by_contra hsome
        have hfilter : l ∈ lines.filter fun line => (lengthValue line).isSome :=
          List.mem_filter.mpr ⟨hl, Option.isSome_iff_ne_none.mpr hsome⟩
        have hpos := List.length_pos_of_mem hfilter
        rw [if_pos Option.isSome_some, List.length_cons] at honce
        omega
      rw [foldlM_noLength hrest] at h
      cases h
      have hnumber := parseLength_some hn
      rw [cString_eq_self fun c hc heq => hclean line hmem (heq ▸ lengthValue_mem hv hc)]
        at hnumber
      rw [scanLength_value hv hne, strtol_append hne hnumber (lineEnd_joinLines lines)]
      rfl

theorem OneLength.lengths {h : RequestHead} (hone : OneLength h) {cl : Option ℕ}
    (hcl : requestLength (h.lines.filterMap headerOf) = some cl) :
    awaitedLength h.text = ((cl.getD 0 : ℕ) : ℤ) := by
  have hclean : ∀ c ∈ h.text, c ≠ '\x00' := fun c hc heq => hone.clean (heq ▸ hc)
  have hlines : ∀ line ∈ h.lines, '\x00' ∉ line := by
    intro line hline hc
    refine hone.clean (List.mem_append_right _ ?_)
    exact List.mem_flatMap.mpr ⟨line, hline, List.mem_append_right _ hc⟩
  rw [requestLength, foldlM_lines] at hcl
  rw [awaitedLength, List.take_of_length_le hone.short, cString_eq_self hclean, RequestHead.text,
    scanLength_append (lineEnd_joinLines _) hone.first]
  exact scanLength_joinLines hlines hone.only hone.once hone.valued hcl

/-! ## The reader -/

/-- The bytes that come before the peer stops. -/
def arrived (recvs : List (List Char)) : List Char := (recvs.takeWhile (· ≠ [])).flatten

theorem readRequest_length (recvs : List (List Char)) {buf : List Char}
    (h : buf.length ≤ maxReqBytes) : (readRequest buf recvs).length ≤ maxReqBytes := by
  induction recvs generalizing buf with
  | nil => exact h
  | cons ready recvs ih =>
    have hlonger : (buf ++ ready.take (min ready.length (maxReqBytes - buf.length))).length ≤
        maxReqBytes := by
      rw [List.length_append, List.length_take]
      omega
    rw [readRequest]
    dsimp only
    split
    · exact h
    split
    · exact hlonger
    · exact ih hlonger

/-- Whatever the bytes are split into, the reader stops with a complete request, or with all
that comes and that the buffer holds. -/
theorem readRequest_stops (recvs : List (List Char)) {buf : List Char}
    (h : buf.length ≤ maxReqBytes) : readComplete (readRequest buf recvs) = true ∨
      readRequest buf recvs = (buf ++ arrived recvs).take maxReqBytes := by
  induction recvs generalizing buf with
  | nil =>
    refine .inr ?_
    rw [arrived, List.takeWhile_nil, List.flatten_nil, List.append_nil,
      List.take_of_length_le h]
    rfl
  | cons ready recvs ih =>
    rw [readRequest]
    dsimp only
    split
    · next hzero =>
      refine .inr ?_
      rcases Nat.eq_zero_or_pos ready.length with hnil | hpos
      · rw [List.length_eq_zero_iff.mp hnil, arrived, List.takeWhile_cons_of_neg (by simp),
          List.flatten_nil, List.append_nil, List.take_of_length_le h]
      · have hfull : buf.length = maxReqBytes := by omega
        rw [← hfull, List.take_left]
    · next hpos =>
      have hready : ready ≠ [] := by
        rintro rfl
        exact hpos (Nat.zero_min _)
      have harrived : arrived (ready :: recvs) = ready ++ arrived recvs := by
        rw [arrived, List.takeWhile_cons_of_pos (by simpa using hready), List.flatten_cons]
        rfl
      have hlonger : (buf ++ ready.take (min ready.length (maxReqBytes - buf.length))).length ≤
          maxReqBytes := by
        rw [List.length_append, List.length_take]
        omega
      split
      · next hcomplete => exact .inl hcomplete
      · refine (ih hlonger).imp_right fun heq => ?_
        rw [heq, harrived]
        rcases Nat.le_total ready.length (maxReqBytes - buf.length) with hfits | hfull
        · rw [Nat.min_eq_left hfits, List.take_length, List.append_assoc]
        · -- the buffer is full, so nothing of the later reads is kept
          have hlen : (buf ++ ready.take (maxReqBytes - buf.length)).length = maxReqBytes := by
            rw [List.length_append, List.length_take]
            omega
          rw [Nat.min_eq_right hfull, List.take_left' hlen, List.take_append,
            List.take_of_length_le h, List.take_append_of_le_length hfull]

variable {r : HttpRequest} {avail : List Char}

/-- A head with one length is read until its whole body is there. -/
theorem OneLength.body_length {h : RequestHead} (hone : OneLength h) {n : ℕ}
    {recvs : List (List Char)} (hparse : parseRequest (readRequest [] recvs) = some r)
    (hsplit : splitHead (readRequest [] recvs) = some (h.text, avail))
    (hn : r.contentLength = some n) : n ≤ avail.length ∨
      readRequest [] recvs = (arrived recvs).take maxReqBytes := by
  obtain ⟨-, -, -, -, hlength, -⟩ := parseRequest_some hparse
  rw [parseRequest_headers hsplit hparse, hn] at hlength
  have hawaited := hone.lengths hlength
  refine (readRequest_stops recvs (Nat.zero_le _)).imp_left fun hcomplete => ?_
  rw [readComplete, hsplit] at hcomplete
  simp only [hawaited, Option.getD_some, Bool.or_eq_true, decide_eq_true_eq] at hcomplete
  omega

/-! ## The body that is executed -/

/-- Nothing is executed on less than the announced body, and the two lengths are one. -/
structure BodyWhole (diskOk : Bool) (ws : WebServer) (recvs : List (List Char))
    (r : HttpRequest) : Prop where
  short : ∀ n, r.contentLength = some n → r.body.length < n →
    (webHandleRequest diskOk ws (readRequest [] recvs)).2 = ws
  sameLength : ∀ head avail, splitHead (readRequest [] recvs) = some (head, avail) →
    awaitedLength head = ((r.contentLength.getD 0 : ℕ) : ℤ)

/-- A request is executed on the part of its body that arrived. For a head with one length the
reader waits for what the parser takes, and the part is the whole unless the peer stops or the
buffer is full. -/
structure BodyTaken (diskOk : Bool) (ws : WebServer) (recvs : List (List Char))
    (r : HttpRequest) : Prop where
  taken : ∃ head avail, splitHead (readRequest [] recvs) = some (head, avail) ∧
    r.body = avail.take (r.contentLength.getD avail.length)
  executed : webHandleRequest diskOk ws (readRequest [] recvs) =
    if checkAuth ws r then dispatch diskOk ws r else (.unauthorized, ws)
  sameLength : ∀ (h : RequestHead) avail, OneLength h →
    splitHead (readRequest [] recvs) = some (h.text, avail) →
    awaitedLength h.text = ((r.contentLength.getD 0 : ℕ) : ℤ)
  whole : ∀ (h : RequestHead) avail n, OneLength h →
    splitHead (readRequest [] recvs) = some (h.text, avail) → r.contentLength = some n →
    r.body.length = n ∨ readRequest [] recvs = (arrived recvs).take maxReqBytes

theorem body_taken (diskOk : Bool) (ws : WebServer) (recvs : List (List Char)) (r : HttpRequest)
    (hparse : parseRequest (readRequest [] recvs) = some r) : BodyTaken diskOk ws recvs r := by
  obtain ⟨head, avail, hsplit, -, hlength, hbody⟩ := parseRequest_some hparse
  have htaken : r.body = avail.take (r.contentLength.getD avail.length) := by
    rw [hbody]
    cases r.contentLength with
    | none => rfl
    | some n => exact List.take_eq_take_min.symm
  refine ⟨⟨head, avail, hsplit, htaken⟩, ?_, ?_, ?_⟩
  · exact webHandleRequest_parsed (readRequest_length recvs (Nat.zero_le _)) hparse
  · intro h avail' hone hhead
    rw [parseRequest_headers hhead hparse] at hlength
    exact hone.lengths hlength
  · intro h avail' n hone hhead hn
    refine (hone.body_length hparse hhead hn).imp_left fun hle => ?_
    rw [hhead] at hsplit
    cases hsplit
    rw [htaken, hn, Option.getD_some, List.length_take, Nat.min_eq_left hle]

/-- A change of the port to `8080` that breaks off behind the `80`. -/
def brokenPost : List (List Char) :=
  ["POST /api/config HTTP/1.0\r\nContent-Length: 13\r\n\r\n".toList, "web_port=80".toList]

def brokenRequest : HttpRequest where
  method := "POST".toList
  path := "/api/config".toList
  headers := [("Content-Length".toList, "13".toList)]
  authorization := []
  contentLength := some 13
  body := "web_port=80".toList
  behind := '\x00'

theorem body_taken_brokenPost :
    BodyTaken true (webServerStart configDefaults none none) brokenPost brokenRequest :=
  body_taken true (webServerStart configDefaults none none) brokenPost brokenRequest (by rfl)

theorem short_body_executed : ¬ ∀ diskOk ws recvs r,
    parseRequest (readRequest [] recvs) = some r → BodyWhole diskOk ws recvs r := by
  intro hclaim
  have hwhole := hclaim true (webServerStart configDefaults none none) brokenPost brokenRequest
    (by rfl)
  have hkept := hwhole.short 13 rfl (by decide)
  have hport : (webHandleRequest true (webServerStart configDefaults none none)
      (readRequest [] brokenPost)).2.cfg.num .webPort = 80 := by decide +kernel
  rw [hkept] at hport
  exact absurd hport (by decide)

end OpenEVCharger
