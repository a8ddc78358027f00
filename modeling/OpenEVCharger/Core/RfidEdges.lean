import Mathlib.Data.List.TakeWhile
import OpenEVCharger.Core.RfidStream

/-!
# What a call of the RFID reader reports

A call counts the frames that it consumes with the edge flag of its action set, and the flag
stays set once it is. So the count is the number of card edges unless a frame without an edge
follows one with an edge, for which the buffer has room only where two replies "no card" end the
presence of a card.
-/

namespace OpenEVCharger

/-- The card edges of the parse loop: those of the frames that it consumes. -/
def rfidEdges : ℕ → RfidCtx → List RfidAction
  | 0, _ => []
  | fuel + 1, ctx =>
    match tryParseOne ctx ⟨false, 0, false⟩ with
    | (0, _, _) => []
    | (_ + 1, ctx, out) => if out.edge then out :: rfidEdges fuel ctx else rfidEdges fuel ctx

/-- The card edges that a call detects. -/
def feedEdges (ctx : RfidCtx) (bytes : List UInt8) : List RfidAction :=
  let buf := bytes.foldl rfidAppend ctx.buf
  rfidEdges buf.length { ctx with buf := buf }

/-- A call returns the number of its edges, and its record is the last of them, or shows that
there was none. -/
def FeedReports (ctx : RfidCtx) (bytes : List UInt8) : Prop :=
  (rfidFeed ctx bytes).1 = (feedEdges ctx bytes).length ∧
    match (feedEdges ctx bytes).getLast? with
    | some edge => (rfidFeed ctx bytes).2.2 = edge
    | none => (rfidFeed ctx bytes).2.2 = ⟨false, ctx.lastUid, ctx.cardPresent⟩ ∧
        (rfidFeed ctx bytes).2.1.latched = ctx.latched

/-- Two replies "no card" at the head of a buffer, with only junk before each. -/
def TwoIdle (buf : List UInt8) : Prop :=
  ∃ (j k : List UInt8) (r₁ s₁ r₂ s₂ : UInt8) (rest : List UInt8), (∀ b ∈ j, b ≠ rfidPreamble0) ∧
    (∀ b ∈ k, b ≠ rfidPreamble0) ∧
      buf = j ++ ((ReaderFrame.idle r₁ s₁).bytes ++ (k ++ ((ReaderFrame.idle r₂ s₂).bytes ++ rest)))

/-! ## The frames that a call consumes -/

variable {s j : List UInt8} {fs : List ReaderFrame} {ctx : RfidCtx} {out : RfidAction}
  {bytes : List UInt8} {u : ℕ} {c : Bool} {fuel n : ℕ}

/-- The frames that the parse loop takes off a buffer: it stops at the first thing that is no
frame. -/
inductive Parsed : List UInt8 → List ReaderFrame → Prop where
  | stop {s : List UInt8} (h : ∀ u c out, (tryParseOne ⟨s, u, c⟩ out).1 = 0) : Parsed s []
  | frame {j : List UInt8} (f : ReaderFrame) {s : List UInt8} {fs : List ReaderFrame}
      (hj : ∀ b ∈ j, b ≠ rfidPreamble0) (h : Parsed s fs) : Parsed (j ++ (f.bytes ++ s)) (f :: fs)

theorem tryParseOne_skip (hj : ∀ b ∈ j, b ≠ rfidPreamble0) (s : List UInt8) (u : ℕ) (c : Bool)
    (out : RfidAction) : tryParseOne ⟨j ++ s, u, c⟩ out = tryParseOne ⟨s, u, c⟩ out := by
  induction j with
  | nil => rfl
  | cons b j ih =>
    rw [List.forall_mem_cons] at hj
    rw [List.cons_append, tryParseOne_junk hj.1]
    exact ih hj.2

/-- What passes the checks of the parser is a frame. -/
theorem frame_of_checks (hlen : 5 ≤ s.length) (h0 : s.getD 0 0 = rfidPreamble0)
    (h1 : s.getD 1 0 = rfidPreamble1) (h2 : s.getD 2 0 = rfidPreamble2)
    (h3 : s.getD 3 0 = rfidPreamble3) (hll : rfidFrameLen (s.getD 4 0) = some n)
    (hn : n ≤ s.length) : ∃ (f : ReaderFrame) (rest : List UInt8), s = f.bytes ++ rest := by
  match s, hlen with
  | b0 :: b1 :: b2 :: b3 :: ll :: s, _ =>
    simp only [List.getD_cons_zero, List.getD_cons_succ] at h0 h1 h2 h3 hll
    subst h0 h1 h2 h3
    rw [rfidFrameLen] at hll
    split at hll
    · next hidle =>
      cases hll
      rcases s with _ | ⟨r, _ | ⟨t, rest⟩⟩
      · exact absurd hn (by simp [rfidFrameIdleLen])
      · exact absurd hn (by simp [rfidFrameIdleLen])
      · refine ⟨.idle r t, rest, ?_⟩
        rw [hidle]
        rfl
    · split at hll
      · next hcard =>
        cases hll
        have hlong : 6 ≤ s.length := by
          simp only [rfidFrameCardLen, List.length_cons] at hn
          omega
        rcases s with _ | ⟨r, _ | ⟨u0, _ | ⟨u1, _ | ⟨u2, _ | ⟨u3, _ | ⟨t, rest⟩⟩⟩⟩⟩⟩
        case cons.cons.cons.cons.cons.cons =>
          refine ⟨.card r u0 u1 u2 u3 t, rest, ?_⟩
          rw [hcard]
          rfl
        all_goals exact absurd hlong (by simp)
      · nomatch hll

/-- The parser takes a frame, behind junk, or nothing. -/
theorem tryParseOne_stop_or_frame (s : List UInt8) :
    (∀ u c out, (tryParseOne ⟨s, u, c⟩ out).1 = 0) ∨
      ∃ (j : List UInt8) (f : ReaderFrame) (rest : List UInt8), (∀ b ∈ j, b ≠ rfidPreamble0) ∧
        s = j ++ (f.bytes ++ rest) := by
  have hjunk : ∀ b ∈ s.takeWhile (· != rfidPreamble0), b ≠ rfidPreamble0 := by
    intro b hb
    simpa using List.mem_takeWhile_imp hb
  have hsplit := List.takeWhile_append_dropWhile (p := (· != rfidPreamble0)) (l := s)
  by_cases hframe : ∃ (f : ReaderFrame) (rest : List UInt8),
      s.dropWhile (· != rfidPreamble0) = f.bytes ++ rest
  · obtain ⟨f, rest, hf⟩ := hframe
    refine .inr ⟨_, f, rest, hjunk, ?_⟩
    rw [← hf, hsplit]
  left
  intro u c out
  rw [tryParseOne]
  dsimp only
  generalize hbuf : s.dropWhile (· != rfidPreamble0) = buf at hframe
  split
  · rfl
  next hlen =>
  split
  · rfl
  next hhead =>
  simp only [not_or, not_not] at hhead
  split
  · rfl
  next frameLen hll =>
  split
  · rfl
  next hlong =>
  have hzero : buf.getD 0 0 = rfidPreamble0 := by
    cases buf with
    | nil => exact absurd (by decide) hlen
    | cons b rest =>
      have hb := List.head?_dropWhile_not (· != rfidPreamble0) s
      rw [hbuf] at hb
      simpa using hb
  exact absurd (frame_of_checks (Nat.le_of_not_lt hlen) hzero hhead.1 hhead.2.1 hhead.2.2 hll
    (Nat.le_of_not_lt hlong)) hframe

theorem exists_parsed (s : List UInt8) : ∃ fs, Parsed s fs := by
  induction hlen : s.length using Nat.strong_induction_on generalizing s with
  | _ len ih =>
    rcases tryParseOne_stop_or_frame s with hstop | ⟨j, f, rest, hj, rfl⟩
    · exact ⟨[], .stop hstop⟩
    · have hpos : 0 < f.bytes.length := by
        rcases f.length_bytes with ⟨h7, _⟩ | ⟨h11, _⟩ <;> omega
      rw [List.length_append, List.length_append] at hlen
      obtain ⟨fs, hfs⟩ := ih rest.length (by omega) rest rfl
      exact ⟨f :: fs, .frame f hj hfs⟩

/-- The frames fit into the buffer they are taken off. -/
theorem Parsed.length_frames (h : Parsed s fs) :
    (fs.map fun f => f.bytes.length).sum ≤ s.length := by
  induction h with
  | stop _ => exact Nat.zero_le _
  | frame f _ _ ih =>
    rw [List.map_cons, List.sum_cons, List.length_append, List.length_append]
    omega

/-! ## The parse loop on them -/

theorem rfidEdges_parsed (h : Parsed s fs) (hfuel : s.length ≤ fuel) :
    rfidEdges fuel ⟨s, u, c⟩ = edgesOf (u, c) fs := by
  induction h generalizing fuel u c with
  | @stop s hstop =>
    cases fuel with
    | zero => rfl
    | succ fuel =>
      have hzero := hstop u c ⟨false, 0, false⟩
      rw [rfidEdges]
      generalize tryParseOne ⟨s, u, c⟩ ⟨false, 0, false⟩ = r at hzero
      obtain ⟨_, _, _⟩ := r
      cases hzero
      rfl
  | @frame j f s fs hj h ih =>
    have hpos : 0 < f.bytes.length := by
      rcases f.length_bytes with ⟨h7, _⟩ | ⟨h11, _⟩ <;> omega
    obtain ⟨m, hm⟩ := Nat.exists_eq_succ_of_ne_zero (Nat.ne_of_gt hpos)
    rw [List.length_append, List.length_append] at hfuel
    cases fuel with
    | zero => omega
    | succ fuel =>
      rw [rfidEdges, tryParseOne_skip hj, tryParseOne_frame, hm]
      dsimp only
      rw [ih (by omega), edgesOf]
      by_cases hsame : f.latch = (u, c)
      · rw [if_neg (not_not.mpr hsame), if_neg (not_not.mpr hsame), ← hsame]
        rfl
      · rw [if_pos hsame, if_pos hsame]
        rfl

/-- A round that consumes nothing leaves the card and the record. -/
theorem tryParseOne_zero (h : (tryParseOne ctx out).1 = 0) :
    (tryParseOne ctx out).2.1.latched = ctx.latched ∧ (tryParseOne ctx out).2.2 = out := by
  rw [tryParseOne] at h ⊢
  dsimp only at h ⊢
  split
  · exact ⟨rfl, rfl⟩
  next hlen =>
  rw [if_neg hlen] at h
  split
  · exact ⟨rfl, rfl⟩
  next hhead =>
  rw [if_neg hhead] at h
  split
  · exact ⟨rfl, rfl⟩
  next frameLen hll =>
  rw [hll] at h
  dsimp only at h
  split
  · exact ⟨rfl, rfl⟩
  next hlong =>
  rw [if_neg hlong] at h
  -- a frame that is complete is consumed
  have hpos : frameLen ≠ 0 := by
    rintro rfl
    rw [rfidFrameLen] at hll
    split at hll
    · cases hll
    split at hll <;> cases hll
  simp only [apply_ite Prod.fst, ite_self] at h
  exact absurd h hpos

/-- The count goes up with every frame from the first edge on. -/
theorem rfidParseLoop_parsed (h : Parsed s fs) (hfuel : s.length ≤ fuel) (edges : ℕ) :
    (rfidParseLoop fuel ⟨s, u, c⟩ out edges).1 =
        edges + (if out.edge then fs else fs.dropWhile (·.latch = (u, c))).length ∧
      (rfidParseLoop fuel ⟨s, u, c⟩ out edges).2.1.latched = latchAll (u, c) fs ∧
      (rfidParseLoop fuel ⟨s, u, c⟩ out edges).2.2 = (edgesOf (u, c) fs).getLast?.getD out := by
  induction h generalizing fuel u c out edges with
  | @stop s hstop =>
    rw [List.dropWhile_nil, ite_self]
    cases fuel with
    | zero =>
      cases List.length_eq_zero_iff.mp (Nat.le_zero.mp hfuel)
      exact ⟨rfl, rfl, rfl⟩
    | succ fuel =>
      obtain ⟨hlatch, hout⟩ := tryParseOne_zero (hstop u c out)
      have hzero := hstop u c out
      rw [rfidParseLoop]
      generalize tryParseOne ⟨s, u, c⟩ out = r at hzero hlatch hout
      obtain ⟨_, _, _⟩ := r
      cases hzero
      exact ⟨rfl, hlatch, hout⟩
  | @frame j f s fs hj h ih =>
    have hpos : 0 < f.bytes.length := by
      rcases f.length_bytes with ⟨h7, _⟩ | ⟨h11, _⟩ <;> omega
    obtain ⟨m, hm⟩ := Nat.exists_eq_succ_of_ne_zero (Nat.ne_of_gt hpos)
    rw [List.length_append, List.length_append] at hfuel
    cases fuel with
    | zero => omega
    | succ fuel =>
      rw [rfidParseLoop, tryParseOne_skip hj, tryParseOne_frame, hm]
      dsimp only
      by_cases hsame : f.latch = (u, c)
      · -- no edge: counted only where the flag is set already
        obtain ⟨hu, hc⟩ := Prod.mk.inj hsame
        rw [if_neg (not_not.mpr hsame), edgesOf, if_neg (not_not.mpr hsame),
          List.dropWhile_cons_of_pos (by simpa using hsame), hu, hc]
        refine ⟨(ih (by omega) _).1.trans ?_, ?_, (ih (by omega) _).2.2⟩
        · split
          · rw [List.length_cons]
            omega
          · rfl
        · rw [(ih (by omega) _).2.1, latchAll, latchAll, List.foldl_cons, hsame]
      · rw [if_pos hsame, edgesOf, if_pos hsame, List.dropWhile_cons_of_neg (by simpa using hsame),
          ite_self]
        refine ⟨(ih (by omega) _).1.trans ?_, (ih (by omega) _).2.1, (ih (by omega) _).2.2.trans ?_⟩
        · rw [if_pos rfl, if_pos rfl, List.length_cons]
          omega
        · rw [List.getLast?_cons]
          rfl

/-! ## What a call reports -/

theorem ReaderFrame.idle_of_length {f : ReaderFrame} (h : f.bytes.length < 11) :
    ∃ r t, f = .idle r t := by
  cases f with
  | idle r t => exact ⟨r, t, rfl⟩
  | card r u0 u1 u2 u3 t => exact absurd h (Nat.lt_irrefl 11)

/-- A buffer has room for one frame, or for two replies "no card". -/
theorem Parsed.cases_room (h : Parsed s fs) (hroom : s.length ≤ rfidFrameMaxLen) :
    fs.length ≤ 1 ∨ TwoIdle s ∧ ∃ f g, fs = [f, g] ∧ f.latch = (0, false) ∧ g.latch = (0, false) := by
  have hsum := Nat.le_trans h.length_frames hroom
  have hmin : ∀ f : ReaderFrame, 7 ≤ f.bytes.length := by
    intro f
    rcases f.length_bytes with ⟨h7, _⟩ | ⟨h11, _⟩ <;> omega
  rw [rfidFrameMaxLen] at hsum
  rcases fs with _ | ⟨f, _ | ⟨g, _ | ⟨f', rest⟩⟩⟩
  · exact .inl (Nat.zero_le _)
  · exact .inl (Nat.le_refl _)
  · simp only [List.map_cons, List.map_nil, List.sum_cons, List.sum_nil] at hsum
    obtain ⟨r₁, s₁, rfl⟩ := ReaderFrame.idle_of_length (f := f) (by have := hmin g; omega)
    obtain ⟨r₂, s₂, rfl⟩ := ReaderFrame.idle_of_length (f := g) (by have := hmin (.idle r₁ s₁); omega)
    refine .inr ⟨?_, _, _, rfl, rfl, rfl⟩
    cases h with
    | frame _ hj h =>
      cases h with
      | frame _ hk h => exact ⟨_, _, r₁, s₁, r₂, s₂, _, hj, hk, rfl⟩
  · simp only [List.map_cons, List.sum_cons] at hsum
    have h₁ := hmin f
    have h₂ := hmin g
    have h₃ := hmin f'
    omega

theorem latchAll_of_edges (l : Latched) (h : edgesOf l fs = []) : latchAll l fs = l := by
  induction fs with
  | nil => rfl
  | cons f fs ih =>
    rw [edgesOf] at h
    split at h
    · cases h
    · next hsame =>
      rw [latchAll, List.foldl_cons, not_not.mp hsame]
      exact ih h

/-- The record is right always, and the count if no frame without an edge comes after one. -/
theorem feedReports_iff (h : Parsed (bytes.foldl rfidAppend ctx.buf) fs) :
    FeedReports ctx bytes ↔
      (fs.dropWhile (·.latch = ctx.latched)).length = (edgesOf ctx.latched fs).length := by
  have hedges : feedEdges ctx bytes = edgesOf ctx.latched fs := rfidEdges_parsed h (Nat.le_refl _)
  obtain ⟨hcount, hlatch, hrecord⟩ : (rfidFeed ctx bytes).1 = 0 + _ ∧
      (rfidFeed ctx bytes).2.1.latched = _ ∧ (rfidFeed ctx bytes).2.2 = _ :=
    rfidParseLoop_parsed h (Nat.le_refl _) 0
  rw [if_neg Bool.false_ne_true, Nat.zero_add] at hcount
  rw [FeedReports, hedges, hcount, hrecord, hlatch]
  refine and_iff_left ?_
  cases hlast : (edgesOf ctx.latched fs).getLast? with
  | some edge =>
    dsimp only
    rw [← RfidCtx.latched, hlast, Option.getD_some]
  | none =>
    dsimp only
    rw [← RfidCtx.latched, hlast, latchAll_of_edges _ (List.getLast?_eq_none_iff.mp hlast)]
    exact ⟨rfl, rfl⟩

theorem TwoIdle.parsed (h : TwoIdle s) (hroom : s.length ≤ rfidFrameMaxLen) :
    ∃ f g, Parsed s [f, g] ∧ f.latch = (0, false) ∧ g.latch = (0, false) := by
  obtain ⟨j, k, r₁, s₁, r₂, s₂, rest, hj, hk, rfl⟩ := h
  obtain ⟨fs, hfs⟩ := exists_parsed rest
  have hparsed : Parsed _ _ := .frame (.idle r₁ s₁) hj (.frame (.idle r₂ s₂) hk hfs)
  rcases hparsed.cases_room hroom with hone | ⟨-, f, g, hfg, hf, hg⟩
  · simp at hone
  · rw [hfg] at hparsed
    exact ⟨f, g, hparsed, hf, hg⟩

/-- A call reports its edges unless its buffer, the last sixteen of the bytes, holds two replies
"no card" and the card latched is not "no card" yet. -/
theorem rfid_feed_reports_iff (hroom : ctx.buf.length ≤ rfidFrameMaxLen) :
    FeedReports ctx bytes ↔
      ctx.latched = (0, false) ∨
        ¬ TwoIdle ((ctx.buf ++ bytes).drop ((ctx.buf ++ bytes).length - rfidFrameMaxLen)) := by
  rw [← foldl_rfidAppend bytes hroom]
  have hshort : (bytes.foldl rfidAppend ctx.buf).length ≤ rfidFrameMaxLen := by
    rw [foldl_rfidAppend bytes hroom, List.length_drop]
    omega
  by_cases htwo : TwoIdle (bytes.foldl rfidAppend ctx.buf)
  · obtain ⟨f, g, hparsed, hf, hg⟩ := htwo.parsed hshort
    rw [feedReports_iff hparsed]
    by_cases hnone : ctx.latched = (0, false)
    · simp [edgesOf, hnone, hf, hg]
    · have hdiffer : (0, false) ≠ ctx.latched := fun h => hnone h.symm
      simp [edgesOf, hnone, hf, hg, hdiffer, htwo]
  · obtain ⟨fs, hfs⟩ := exists_parsed (bytes.foldl rfidAppend ctx.buf)
    rw [feedReports_iff hfs]
    refine iff_of_true ?_ (.inr htwo)
    rcases hfs.cases_room hshort with hone | ⟨hidle, -⟩
    · rcases fs with _ | ⟨f, _ | ⟨g, rest⟩⟩
      · rfl
      · by_cases hsame : f.latch = ctx.latched
        · simp [edgesOf, hsame]
        · simp [edgesOf, hsame]
      · rw [List.length_cons, List.length_cons] at hone
        omega
    · exact absurd hidle htwo

/-- A card is lifted off, and the reader has said so twice when the call comes. -/
theorem rfid_feed_reports_iff_lifted :
    FeedReports ⟨[], 0x12345678, true⟩ [0xAA, 0xD1, 0xD0, 0x02, 0, 0, 0x00] ↔
      (0x12345678, true) = ((0, false) : Latched) ∨
        ¬ TwoIdle ([0xAA, 0xD1, 0xD0, 0x02, 0, 0, 0x00].drop 0) :=
  @rfid_feed_reports_iff ⟨[], 0x12345678, true⟩ _ (by decide)

/-- Two edges are reported where there was one. -/
theorem rfid_feed_counts_twice :
    ¬ ∀ (ctx : RfidCtx) (bytes : List UInt8), ctx.buf.length ≤ rfidFrameMaxLen →
      FeedReports ctx bytes := by
  intro hall
  have hcount := (hall ⟨[], 0x12345678, true⟩ [0xAA, 0xD1, 0xD0, 0x02, 0, 0, 0x00,
    0xAA, 0xD1, 0xD0, 0x02, 0, 0, 0x00] (by decide)).1
  revert hcount
  decide

end OpenEVCharger
