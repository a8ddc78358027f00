import Mathlib.Algebra.GroupWithZero.Nat
import Mathlib.Logic.Basic
import OpenEVCharger.Core.Rfid

/-!
# The RFID reader over a stream

The bytes of the reader come in any pieces, one call of `rfid_feed` for each. As long
as no byte of a frame is dropped for want of room, the pieces do not matter: the reader
ends where the frames of the stream take it and reports their card edges in order.
-/

namespace OpenEVCharger

/-! ## Frames and their edges -/

/-- A well-formed frame; the byte after the length is not checked. -/
inductive ReaderFrame where
  | idle (reserved state : UInt8)
  | card (reserved u0 u1 u2 u3 state : UInt8)
  deriving DecidableEq

namespace ReaderFrame

def bytes : ReaderFrame → List UInt8
  | idle reserved state =>
    [rfidPreamble0, rfidPreamble1, rfidPreamble2, rfidPreamble3, 0, reserved, state]
  | card reserved u0 u1 u2 u3 state =>
    [rfidPreamble0, rfidPreamble1, rfidPreamble2, rfidPreamble3, 4, reserved, u0, u1, u2, u3,
      state]

/-- The UID, little-endian, or zero without a card. -/
def uid (f : ReaderFrame) : ℕ :=
  match f with
  | idle _ _ => 0
  | card _ _ _ _ _ _ => loadLe32 f.bytes 6

def present : ReaderFrame → Bool
  | idle _ _ => false
  | card _ _ _ _ _ _ => true

end ReaderFrame

/-- The UID and the presence last seen. -/
abbrev Latched := ℕ × Bool

def RfidCtx.latched (ctx : RfidCtx) : Latched := (ctx.lastUid, ctx.cardPresent)

/-- What a frame leaves latched. -/
def ReaderFrame.latch (f : ReaderFrame) : Latched := (f.uid, f.present)

/-- The latched values after some frames. -/
def latchAll (l : Latched) (fs : List ReaderFrame) : Latched :=
  fs.foldl (fun _ f => f.latch) l

/-- The edges that some frames make: those that differ from what is latched. -/
def edgesOf (l : Latched) : List ReaderFrame → List RfidAction
  | [] => []
  | f :: fs =>
    if f.latch ≠ l then ⟨true, f.uid, f.present⟩ :: edgesOf f.latch fs else edgesOf l fs

/-! ## Streams -/

/-- A stream holds the frames `fs`, separated by junk without a first preamble byte,
and ends in the frame that the bytes `p` begin. -/
inductive Reads : List UInt8 → List ReaderFrame → List UInt8 → Prop where
  | done : Reads [] [] []
  | junk {b : UInt8} {s fs p} (hb : b ≠ rfidPreamble0) (h : Reads s fs p) : Reads (b :: s) fs p
  | frame (f : ReaderFrame) {s fs p} (h : Reads s fs p) : Reads (f.bytes ++ s) (f :: fs) p
  | begun (f : ReaderFrame) {p q : List UInt8} (hf : p ++ q = f.bytes) (hp : p ≠ [])
      (hq : q ≠ []) : Reads p [] p

/-! ## Calls -/

/-- Calls of `rfid_feed`, one after the other: the context they leave, and the edges that
they report. -/
def rfidCalls (ctx : RfidCtx) : List (List UInt8) → RfidCtx × List RfidAction
  | [] => (ctx, [])
  | bytes :: calls =>
    let r := rfidFeed ctx bytes
    let rest := rfidCalls r.2.1 calls
    (rest.1, if r.2.2.edge then r.2.2 :: rest.2 else rest.2)

/-- The pending bytes and those of a call fit into the buffer, the junk before them left
out. -/
def HasRoom (ctx : RfidCtx) (bytes : List UInt8) : Prop :=
  ((ctx.buf ++ bytes).dropWhile (· != rfidPreamble0)).length ≤ rfidFrameMaxLen

instance (ctx : RfidCtx) (bytes : List UInt8) : Decidable (HasRoom ctx bytes) := Nat.decLe _ _

/-- Every call has room when it is made. -/
def CallsHaveRoom (ctx : RfidCtx) : List (List UInt8) → Prop
  | [] => True
  | bytes :: calls => HasRoom ctx bytes ∧ CallsHaveRoom (rfidFeed ctx bytes).2.1 calls

/-! ## Facts about streams -/

variable {s t p : List UInt8} {fs : List ReaderFrame} {ctx : RfidCtx} {out : RfidAction}

theorem ReaderFrame.bytes_head (f : ReaderFrame) : ∃ rest, f.bytes = rfidPreamble0 :: rest := by
  cases f with
  | idle reserved state => exact ⟨_, rfl⟩
  | card reserved u0 u1 u2 u3 state => exact ⟨_, rfl⟩

/-- Junk at the front is not part of a frame. -/
theorem Reads.of_junk {b : UInt8} (hb : b ≠ rfidPreamble0) (h : Reads (b :: s) fs p) :
    Reads s fs p := by
  generalize hstream : b :: s = stream at h
  cases h with
  | done => cases hstream
  | junk hb' h =>
    cases hstream
    exact h
  | frame f h =>
    obtain ⟨rest, hf⟩ := f.bytes_head
    rw [hf, List.cons_append] at hstream
    exact absurd (List.cons.inj hstream).1 hb
  | begun f hf hp hq =>
    obtain ⟨rest, hhead⟩ := f.bytes_head
    rw [← hstream, hhead, List.cons_append] at hf
    exact absurd (List.cons.inj hf).1 hb

theorem Reads.drop_junk (h : Reads s fs p) (k : ℕ)
    (hk : k + (s.dropWhile (· != rfidPreamble0)).length ≤ s.length) : Reads (s.drop k) fs p := by
  induction k generalizing s with
  | zero => exact h
  | succ k ih =>
    cases s with
    | nil => exact h
    | cons b s =>
      by_cases hb : b = rfidPreamble0
      · -- nothing is junk, so that nothing may be dropped
        rw [List.dropWhile_cons_of_neg (by simp [hb])] at hk
        omega
      · rw [List.dropWhile_cons_of_pos (by simpa using hb), List.length_cons] at hk
        exact ih (h.of_junk hb) (by omega)

/-- A stream cut in two: the pending bytes of the first part go before the second. -/
theorem Reads.split {stream : List UInt8} (h : Reads stream fs p) :
    ∀ {s t : List UInt8}, stream = s ++ t → ∃ fs₁ p₁ fs₂, Reads s fs₁ p₁ ∧ Reads (p₁ ++ t) fs₂ p ∧
      fs = fs₁ ++ fs₂ := by
  induction h with
  | done =>
    intro s t hcut
    obtain ⟨rfl, rfl⟩ := List.append_eq_nil_iff.mp hcut.symm
    exact ⟨[], [], [], .done, .done, rfl⟩
  | @junk b stream fs p hb h ih =>
    intro s t hcut
    cases s with
    | nil => exact ⟨[], [], fs, .done, hcut ▸ .junk hb h, rfl⟩
    | cons b' s =>
      obtain ⟨rfl, hrest⟩ := List.cons.inj hcut
      obtain ⟨fs₁, p₁, fs₂, h₁, h₂, hfs⟩ := ih hrest
      exact ⟨fs₁, p₁, fs₂, .junk hb h₁, h₂, hfs⟩
  | @frame f stream fs p h ih =>
    intro s t hcut
    rcases List.append_eq_append_iff.mp hcut with ⟨s', rfl, hrest⟩ | ⟨q, hf, hrest⟩
    · -- the cut is behind the frame
      obtain ⟨fs₁, p₁, fs₂, h₁, h₂, rfl⟩ := ih hrest
      exact ⟨f :: fs₁, p₁, fs₂, .frame f h₁, h₂, rfl⟩
    · by_cases hs : s = []
      · subst hs
        exact ⟨[], [], f :: fs, .done, hcut ▸ .frame f h, rfl⟩
      by_cases hq : q = []
      · subst hq
        rw [List.append_nil] at hf
        rw [List.nil_append] at hrest
        subst hf hrest
        refine ⟨[f], [], fs, ?_, h, rfl⟩
        have hone := Reads.frame f .done
        rwa [List.append_nil] at hone
      · exact ⟨[], s, f :: fs, .begun f hf.symm hs hq, hcut ▸ .frame f h, rfl⟩
  | @begun f p q hf hp hq =>
    intro s t hcut
    subst hcut
    by_cases hs : s = []
    · subst hs
      exact ⟨[], [], [], .done, .begun f hf hp hq, rfl⟩
    · refine ⟨[], s, [], .begun f (q := t ++ q) ?_ hs ?_, .begun f hf hp hq, rfl⟩
      · rw [← List.append_assoc]
        exact hf
      · exact fun hnil => hq (List.append_eq_nil_iff.mp hnil).2

theorem ReaderFrame.length_bytes (f : ReaderFrame) :
    f.bytes.length = 7 ∧ f.present = false ∨ f.bytes.length = 11 ∧ f.present = true := by
  cases f with
  | idle reserved state => exact .inl ⟨rfl, rfl⟩
  | card reserved u0 u1 u2 u3 state => exact .inr ⟨rfl, rfl⟩

/-- The pending bytes are fewer than those of a frame. -/
theorem Reads.length_pending (h : Reads s fs p) : p.length ≤ 10 := by
  induction h with
  | done => exact Nat.zero_le _
  | junk _ _ ih => exact ih
  | frame _ _ ih => exact ih
  | @begun f p q hf _ hq =>
    have hlen := congrArg List.length hf
    have hpos := List.length_pos_iff.mpr hq
    rw [List.length_append] at hlen
    rcases f.length_bytes with ⟨h7, _⟩ | ⟨h11, _⟩ <;> omega

/-- No frame begins another. -/
theorem ReaderFrame.not_longer {f g : ReaderFrame} {t : List UInt8} (h : f.bytes ++ t = g.bytes) :
    t = [] := by
  cases f <;> cases g <;> simp_all [ReaderFrame.bytes]

/-- The bytes pending at the end of a stream are all pending when read again. -/
theorem Reads.again (h : Reads s fs p) {fs' : List ReaderFrame} {p' : List UInt8}
    (h' : Reads p fs' p') : fs' = [] ∧ p' = p := by
  induction h with
  | done =>
    generalize hs : ([] : List UInt8) = s at h'
    cases h' with
    | done => exact ⟨rfl, rfl⟩
    | junk hb h => cases hs
    | frame f h =>
      obtain ⟨rest, hf⟩ := f.bytes_head
      rw [hf, List.cons_append] at hs
      cases hs
    | begun f hf hp hq => exact ⟨rfl, rfl⟩
  | junk _ _ ih => exact ih h'
  | frame _ _ ih => exact ih h'
  | @begun f p q hf hp hq =>
    obtain ⟨rest, hhead⟩ := f.bytes_head
    cases h' with
    | done => exact absurd rfl hp
    | junk hb h =>
      rw [hhead, List.cons_append] at hf
      exact absurd (List.cons.inj hf).1 hb
    | @frame g s fs p' h =>
      rw [List.append_assoc] at hf
      exact absurd (List.append_eq_nil_iff.mp (ReaderFrame.not_longer hf)).2 hq
    | begun g hg hp' hq' => exact ⟨rfl, rfl⟩

/-- The pending bytes are a stream without frames. -/
theorem Reads.pending (h : Reads s fs p) : Reads p [] p := by
  induction h with
  | done => exact .done
  | junk _ _ ih => exact ih
  | frame _ _ ih => exact ih
  | begun f hf hp hq => exact .begun f hf hp hq

/-! ## The parser on a stream -/

theorem tryParseOne_junk {b : UInt8} (hb : b ≠ rfidPreamble0) (u : ℕ) (c : Bool) :
    tryParseOne ⟨b :: s, u, c⟩ out = tryParseOne ⟨s, u, c⟩ out := by
  have hdrop : (b :: s).dropWhile (· != rfidPreamble0) = s.dropWhile (· != rfidPreamble0) :=
    List.dropWhile_cons_of_pos (by simpa using hb)
  rw [tryParseOne, tryParseOne, hdrop]

/-- What the parser checks of a frame. -/
theorem ReaderFrame.header (f : ReaderFrame) :
    f.bytes.getD 1 0 = rfidPreamble1 ∧ f.bytes.getD 2 0 = rfidPreamble2 ∧
      f.bytes.getD 3 0 = rfidPreamble3 ∧
      rfidFrameLen (f.bytes.getD 4 0) = some f.bytes.length := by
  cases f with
  | idle reserved state => exact ⟨rfl, rfl, rfl, rfl⟩
  | card reserved u0 u1 u2 u3 state => exact ⟨rfl, rfl, rfl, rfl⟩

theorem getD_of_append {q : List UInt8} {f : ReaderFrame} (hf : p ++ q = f.bytes) {k : ℕ}
    (hk : k < p.length) : p.getD k 0 = f.bytes.getD k 0 := by
  rw [← hf, List.getD, List.getD, List.getElem?_append_left hk]

theorem getD_bytes_append (f : ReaderFrame) (s : List UInt8) {k : ℕ} (hk : k < 7) :
    (f.bytes ++ s).getD k 0 = f.bytes.getD k 0 := by
  rw [List.getD, List.getD, List.getElem?_append_left]
  rcases f.length_bytes with ⟨h7, _⟩ | ⟨h11, _⟩ <;> omega

/-- The UID and the presence that the parser reads off a frame. -/
theorem ReaderFrame.decode (f : ReaderFrame) (s : List UInt8) :
    (if f.bytes.getD 4 0 = 4 then loadLe32 (f.bytes ++ s) 6 else 0) = f.uid ∧
      decide (f.bytes.getD 4 0 = 4) = f.present := by
  cases f with
  | idle reserved state => exact ⟨rfl, rfl⟩
  | card reserved u0 u1 u2 u3 state => exact ⟨rfl, rfl⟩

theorem tryParseOne_frame (f : ReaderFrame) (s : List UInt8) (u : ℕ) (c : Bool) :
    tryParseOne ⟨f.bytes ++ s, u, c⟩ out = (f.bytes.length, ⟨s, f.uid, f.present⟩,
      if f.latch ≠ (u, c) then ⟨true, f.uid, f.present⟩ else out) := by
  have hdrop : (f.bytes ++ s).dropWhile (· != rfidPreamble0) = f.bytes ++ s := by
    obtain ⟨rest, hhead⟩ := f.bytes_head
    rw [hhead, List.cons_append]
    exact List.dropWhile_cons_of_neg (by simp)
  obtain ⟨h1, h2, h3, hll⟩ := f.header
  obtain ⟨huid, hpresent⟩ := f.decode s
  have hlen : 7 ≤ f.bytes.length := by
    rcases f.length_bytes with ⟨h7, _⟩ | ⟨h11, _⟩ <;> omega
  have hrest : (f.bytes ++ s).drop f.bytes.length = s := List.drop_left
  rw [← getD_bytes_append f s (by omega)] at h1 h2 h3 hll huid hpresent
  have hlong : f.bytes.length ≤ (f.bytes ++ s).length := by
    rw [List.length_append]
    exact Nat.le_add_right _ _
  rw [tryParseOne, hdrop]
  generalize f.bytes ++ s = buf at h1 h2 h3 hll huid hpresent hrest hlong ⊢
  dsimp only
  rw [if_neg (by omega), h1, h2, h3, if_neg (by simp), hll]
  dsimp only
  rw [if_neg (by omega), huid, hpresent, hrest]
  by_cases hsame : f.latch = (u, c)
  · obtain ⟨hu, hc⟩ := Prod.mk.inj hsame
    rw [if_neg (fun h => h.elim (fun h => h hu) (fun h => h hc)), if_neg (not_not.mpr hsame), hu,
      hc]
  · have hdiffer : f.uid ≠ u ∨ f.present ≠ c := by
      by_cases hu : f.uid = u
      · exact .inr fun hc => hsame (Prod.ext hu hc)
      · exact .inl hu
    rw [if_pos hdiffer, if_pos hsame]

theorem tryParseOne_begun {f : ReaderFrame} {q : List UInt8} (hf : p ++ q = f.bytes)
    (hp : p ≠ []) (hq : q ≠ []) (u : ℕ) (c : Bool) :
    tryParseOne ⟨p, u, c⟩ out = (0, ⟨p, u, c⟩, out) := by
  have hdrop : p.dropWhile (· != rfidPreamble0) = p := by
    obtain ⟨rest, hhead⟩ := f.bytes_head
    cases p with
    | nil => exact absurd rfl hp
    | cons b p =>
      rw [hhead, List.cons_append] at hf
      exact List.dropWhile_cons_of_neg (by simp [(List.cons.inj hf).1])
  rw [tryParseOne, hdrop]
  dsimp only
  by_cases hlen : p.length < 5
  · rw [if_pos hlen]
  obtain ⟨h1, h2, h3, hll⟩ := f.header
  rw [← getD_of_append hf (by omega)] at h1 h2 h3 hll
  have hshort : p.length < f.bytes.length := by
    have hpos := List.length_pos_iff.mpr hq
    rw [← hf, List.length_append]
    omega
  rw [if_neg hlen, h1, h2, h3, if_neg (by simp), hll]
  dsimp only
  rw [if_pos hshort]

/-! ## A call on a stream -/

/-- The parse loop consumes the frames of the buffer and stops at the pending bytes, with
the last edge in the action. -/
theorem rfidParseLoop_reads (h : Reads s fs p) :
    ∀ (fuel : ℕ) (u : ℕ) (c : Bool) (out : RfidAction) (edges : ℕ), s.length ≤ fuel →
      (rfidParseLoop fuel ⟨s, u, c⟩ out edges).2 =
        (⟨p, (latchAll (u, c) fs).1, (latchAll (u, c) fs).2⟩,
          (edgesOf (u, c) fs).getLast?.getD out) := by
  induction h with
  | done =>
    intro fuel u c out edges _
    cases fuel with
    | zero => rfl
    | succ fuel => rfl
  | @junk b s fs p hb h ih =>
    intro fuel u c out edges hfuel
    cases fuel with
    | zero => cases hfuel
    | succ fuel =>
      rw [rfidParseLoop, tryParseOne_junk hb, ← rfidParseLoop]
      exact ih _ u c out edges (Nat.le_of_succ_le hfuel)
  | @frame f s fs p h ih =>
    intro fuel u c out edges hfuel
    have hpos : 0 < f.bytes.length := by
      rcases f.length_bytes with ⟨h7, _⟩ | ⟨h11, _⟩ <;> omega
    rw [List.length_append] at hfuel
    obtain ⟨n, hn⟩ := Nat.exists_eq_succ_of_ne_zero (Nat.ne_of_gt hpos)
    cases fuel with
    | zero => omega
    | succ fuel =>
      rw [rfidParseLoop, tryParseOne_frame, hn]
      dsimp only
      rw [ih _ _ _ _ _ (by omega)]
      by_cases hsame : f.latch ≠ (u, c)
      · rw [if_pos hsame, edgesOf, if_pos hsame, List.getLast?_cons]
        rfl
      · rw [if_neg hsame, edgesOf, if_neg hsame, ← not_not.mp hsame]
        rfl
  | @begun f p q hf hp hq =>
    intro fuel u c out edges hfuel
    cases fuel with
    | zero => exact absurd (List.length_eq_zero_iff.mp (Nat.le_zero.mp hfuel)) hp
    | succ fuel =>
      rw [rfidParseLoop, tryParseOne_begun hf hp hq]
      rfl

theorem length_rfidAppend {buf : List UInt8} (hbuf : buf.length ≤ rfidFrameMaxLen) (b : UInt8) :
    (rfidAppend buf b).length ≤ rfidFrameMaxLen := by
  rw [rfidAppend]
  split
  · next h =>
    rw [List.length_append, List.length_singleton]
    exact h
  · rw [List.length_append, List.length_drop, List.length_singleton]
    have hpos : 0 < rfidFrameMaxLen := by decide
    omega

/-- The append loop keeps the last sixteen bytes. -/
theorem foldl_rfidAppend (bytes : List UInt8) :
    ∀ {buf : List UInt8}, buf.length ≤ rfidFrameMaxLen →
      bytes.foldl rfidAppend buf =
        (buf ++ bytes).drop ((buf ++ bytes).length - rfidFrameMaxLen) := by
  induction bytes with
  | nil =>
    intro buf hbuf
    rw [List.append_nil, Nat.sub_eq_zero_of_le hbuf]
    rfl
  | cons b bytes ih =>
    intro buf hbuf
    rw [List.foldl_cons, ih (length_rfidAppend hbuf b), rfidAppend]
    split
    · rw [List.append_assoc, List.singleton_append]
    · next hfull =>
      cases buf with
      | nil => exact absurd (by decide) hfull
      | cons b' buf =>
        rw [List.length_cons] at hbuf hfull
        have hleft : (b' :: buf).drop 1 ++ [b] ++ bytes = buf ++ b :: bytes := by
          rw [List.drop_succ_cons, List.drop_zero, List.append_assoc, List.singleton_append]
        have hmore : (b' :: buf ++ b :: bytes).length - rfidFrameMaxLen =
            (buf ++ b :: bytes).length - rfidFrameMaxLen + 1 := by
          simp only [List.length_append, List.length_cons]
          omega
        rw [hleft, hmore]
        rfl

/-- With room in the buffer, a call consumes the frames of the pending and the new bytes. -/
theorem rfidFeed_reads {bytes : List UInt8} (hbuf : ctx.buf.length ≤ rfidFrameMaxLen)
    (hroom : HasRoom ctx bytes) (h : Reads (ctx.buf ++ bytes) fs p) :
    (rfidFeed ctx bytes).2 =
        (⟨p, (latchAll ctx.latched fs).1, (latchAll ctx.latched fs).2⟩,
          (edgesOf ctx.latched fs).getLast?.getD ⟨false, ctx.lastUid, ctx.cardPresent⟩) ∧
      ∃ s, Reads s fs p ∧ s.length ≤ rfidFrameMaxLen := by
  rw [HasRoom] at hroom
  have hreads : Reads (bytes.foldl rfidAppend ctx.buf) fs p := by
    rw [foldl_rfidAppend bytes hbuf]
    refine h.drop_junk _ ?_
    have hle := (List.dropWhile_suffix (l := ctx.buf ++ bytes) (· != rfidPreamble0)).length_le
    omega
  have hshort : (bytes.foldl rfidAppend ctx.buf).length ≤ rfidFrameMaxLen := by
    rw [foldl_rfidAppend bytes hbuf, List.length_drop]
    omega
  exact ⟨rfidParseLoop_reads hreads _ _ _ _ 0 (Nat.le_refl _), _, hreads, hshort⟩

theorem Reads.length_frames (h : Reads s fs p) :
    (fs.map fun f => f.bytes.length).sum ≤ s.length := by
  induction h with
  | done => exact Nat.le_refl _
  | junk _ _ ih => exact Nat.le_succ_of_le ih
  | frame f _ ih =>
    rw [List.map_cons, List.sum_cons, List.length_append]
    exact Nat.add_le_add_left ih _
  | begun _ _ _ _ => exact Nat.zero_le _

theorem ReaderFrame.latch_of_length {f : ReaderFrame} (h : f.bytes.length < 11) :
    f.latch = (0, false) := by
  cases f with
  | idle reserved state => rfl
  | card reserved u0 u1 u2 u3 state => exact absurd h (Nat.lt_irrefl 11)

/-- The frames of a full buffer make one edge at most: two fit only without a card. -/
theorem length_edgesOf (h : Reads s fs p) (hlen : s.length ≤ rfidFrameMaxLen) (l : Latched) :
    (edgesOf l fs).length ≤ 1 := by
  have hsum := Nat.le_trans h.length_frames hlen
  have hmin : ∀ f : ReaderFrame, 7 ≤ f.bytes.length := by
    intro f
    rcases f.length_bytes with ⟨h7, _⟩ | ⟨h11, _⟩ <;> omega
  rw [rfidFrameMaxLen] at hsum
  match fs with
  | [] => exact Nat.zero_le _
  | [f] =>
    rw [edgesOf]
    split
    · exact Nat.le_refl _
    · exact Nat.zero_le _
  | [f, g] =>
    simp only [List.map_cons, List.map_nil, List.sum_cons, List.sum_nil] at hsum
    have hf := ReaderFrame.latch_of_length (f := f) (by have := hmin g; omega)
    have hg := ReaderFrame.latch_of_length (f := g) (by have := hmin f; omega)
    have hnone : edgesOf (0, false) [g] = [] := if_neg (not_not.mpr hg)
    rw [edgesOf, hf]
    split
    · rw [hnone]
      exact Nat.le_refl _
    · next hsame =>
      rw [← not_not.mp hsame, hnone]
      exact Nat.zero_le _
  | f :: g :: f' :: rest =>
    simp only [List.map_cons, List.sum_cons] at hsum
    have h₁ := hmin f
    have h₂ := hmin g
    have h₃ := hmin f'
    omega

theorem edge_of_mem {l : Latched} {a : RfidAction} (h : a ∈ edgesOf l fs) : a.edge = true := by
  induction fs generalizing l with
  | nil => cases h
  | cons f fs ih =>
    rw [edgesOf] at h
    split at h
    · rcases List.mem_cons.mp h with rfl | hmem
      · rfl
      · exact ih hmem
    · exact ih h

/-- A call reports its edge. -/
theorem report_eq (l : Latched) (hone : (edgesOf l fs).length ≤ 1) (u : ℕ) (c : Bool)
    (rest : List RfidAction) :
    (if ((edgesOf l fs).getLast?.getD ⟨false, u, c⟩).edge then
        (edgesOf l fs).getLast?.getD ⟨false, u, c⟩ :: rest else rest) = edgesOf l fs ++ rest := by
  have hedge := fun a => @edge_of_mem fs l a
  generalize edgesOf l fs = edges at hone hedge ⊢
  match edges with
  | [] => rfl
  | [a] => exact if_pos (hedge a (List.mem_singleton_self a))
  | a :: b :: rest =>
    simp only [List.length_cons] at hone
    omega

theorem edgesOf_append (l : Latched) (fs fs' : List ReaderFrame) :
    edgesOf l (fs ++ fs') = edgesOf l fs ++ edgesOf (latchAll l fs) fs' := by
  induction fs generalizing l with
  | nil => rfl
  | cons f fs ih =>
    rw [List.cons_append, edgesOf, edgesOf, ih, ih]
    split
    · rfl
    · next hsame =>
      rw [← not_not.mp hsame]
      rfl

theorem latchAll_append (l : Latched) (fs fs' : List ReaderFrame) :
    latchAll l (fs ++ fs') = latchAll (latchAll l fs) fs' := List.foldl_append

/-- Calls that have room consume the frames of the pending and the new bytes. -/
theorem rfidCalls_reads {calls : List (List UInt8)} (hpending : Reads ctx.buf [] ctx.buf)
    (hroom : CallsHaveRoom ctx calls) (h : Reads (ctx.buf ++ calls.flatten) fs p) :
    rfidCalls ctx calls = (⟨p, (latchAll ctx.latched fs).1, (latchAll ctx.latched fs).2⟩,
      edgesOf ctx.latched fs) := by
  induction calls generalizing ctx fs with
  | nil =>
    rw [List.flatten_nil, List.append_nil] at h
    obtain ⟨rfl, rfl⟩ := hpending.again h
    rfl
  | cons bytes calls ih =>
    rw [List.flatten_cons, ← List.append_assoc] at h
    obtain ⟨fs₁, p₁, fs₂, h₁, h₂, rfl⟩ := h.split rfl
    have hbuf : ctx.buf.length ≤ rfidFrameMaxLen :=
      Nat.le_trans hpending.length_pending (by decide)
    obtain ⟨hfeed, s', hs', hshort⟩ := rfidFeed_reads hbuf hroom.1 h₁
    have hone := length_edgesOf hs' hshort ctx.latched
    have hctx : (rfidFeed ctx bytes).2.1 =
        ⟨p₁, (latchAll ctx.latched fs₁).1, (latchAll ctx.latched fs₁).2⟩ := by rw [hfeed]
    have hout : (rfidFeed ctx bytes).2.2 =
        (edgesOf ctx.latched fs₁).getLast?.getD ⟨false, ctx.lastUid, ctx.cardPresent⟩ := by
      rw [hfeed]
    have hroom' := hroom.2
    rw [rfidCalls, hout, hctx]
    rw [hctx] at hroom'
    rw [@ih fs₂ ⟨p₁, _, _⟩ h₁.pending hroom' h₂]
    dsimp only
    rw [report_eq _ hone, edgesOf_append, latchAll_append]
    rfl

/-- Two ways of splitting the beginning of a stream into calls that have room leave the
reader the same, with the same edges reported; they have consumed every frame. -/
theorem rfid_split_independent {stream : List UInt8} (h : Reads stream fs p)
    (hbuf : ctx.buf = []) {calls calls' : List (List UInt8)} (hcalls : calls.flatten = stream)
    (hcalls' : calls'.flatten = stream) (hroom : CallsHaveRoom ctx calls)
    (hroom' : CallsHaveRoom ctx calls') :
    rfidCalls ctx calls = rfidCalls ctx calls' ∧ (rfidCalls ctx calls).1.buf = p ∧
      (rfidCalls ctx calls).1.latched = latchAll ctx.latched fs ∧
      (rfidCalls ctx calls).2 = edgesOf ctx.latched fs := by
  have hpending : Reads ctx.buf [] ctx.buf := by
    rw [hbuf]
    exact .done
  have hrun : ∀ {cs : List (List UInt8)}, cs.flatten = stream → CallsHaveRoom ctx cs →
      rfidCalls ctx cs = (⟨p, (latchAll ctx.latched fs).1, (latchAll ctx.latched fs).2⟩,
        edgesOf ctx.latched fs) := by
    intro cs hcs hcsRoom
    refine rfidCalls_reads hpending hcsRoom ?_
    rw [hbuf, hcs]
    exact h
  rw [hrun hcalls hroom, hrun hcalls' hroom']
  exact ⟨rfl, rfl, rfl, rfl⟩

def firstCard : ReaderFrame := .card 0 0x78 0x56 0x34 0x12 0x4C
def secondCard : ReaderFrame := .card 0 0x21 0x43 0x65 0x87 0x4C

theorem rfid_split_independent_cards :
    rfidCalls rfidInitCtx [firstCard.bytes, 0 :: secondCard.bytes] =
        rfidCalls rfidInitCtx [firstCard.bytes ++ [0], secondCard.bytes.take 3,
          secondCard.bytes.drop 3] ∧
      (rfidCalls rfidInitCtx [firstCard.bytes, 0 :: secondCard.bytes]).1.buf = [] ∧
      (rfidCalls rfidInitCtx [firstCard.bytes, 0 :: secondCard.bytes]).1.latched =
        latchAll rfidInitCtx.latched [firstCard, secondCard] ∧
      (rfidCalls rfidInitCtx [firstCard.bytes, 0 :: secondCard.bytes]).2 =
        edgesOf rfidInitCtx.latched [firstCard, secondCard] :=
  rfid_split_independent (.frame firstCard (.junk (by decide) (.frame secondCard .done))) rfl rfl
    rfl ⟨by decide, by decide, trivial⟩ ⟨by decide, by decide, by decide, trivial⟩

/-- Two cards in one call: the first bytes are dropped, and the first card with them. -/
theorem rfid_split_dependent :
    ¬ ∀ calls calls' : List (List UInt8), calls.flatten = calls'.flatten →
      rfidCalls rfidInitCtx calls = rfidCalls rfidInitCtx calls' := by
  intro hall
  have hsame := hall [firstCard.bytes ++ secondCard.bytes] [firstCard.bytes, secondCard.bytes] rfl
  revert hsame
  decide

end OpenEVCharger
