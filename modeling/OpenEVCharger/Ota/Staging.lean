import OpenEVCharger.Ota.Mcu

/-!
# The session and the staged bytes

While a session is active its offset, its checksum and the staging region move
together: the offset counts the bytes accepted, the checksum is theirs, and the
region holds them as long as no chunk has failed to be written.
-/

namespace OpenEVCharger

open NorFlash (Mem Agree Erased)

/-- What ties a session to the bytes it has accepted and to the flash. -/
structure SessionTracks (s : OtaSession) (flash : Mem) (h : OtaHistory) : Prop where
  pos : s.expectedSize ≠ 0
  bounded : s.nextOffset.toNat ≤ s.expectedSize.toNat
  fits : s.expectedSize.toNat ≤ otaStageMaxImageSize
  crc : s.runningCrc = otaCrcUpdate otaCrcInit h.accepted
  length : s.nextOffset.toNat = h.accepted.length
  staged : h.clean = true → stagedBytes s.nextOffset.toNat flash = h.accepted
  blank : h.clean = true → Erased flash (otaStageRegionBase + s.nextOffset.toNat)
    (s.expectedSize.toNat - s.nextOffset.toNat)

variable {s : OtaSession} {flash flash' : Mem} {h : OtaHistory}

/-- Writes outside the staging region are not seen. -/
theorem SessionTracks.congr (ht : SessionTracks s flash h)
    (hagree : Agree flash' flash otaStageRegionBase otaStageRegionSize) :
    SessionTracks s flash' h where
  pos := ht.pos
  bounded := ht.bounded
  fits := ht.fits
  crc := ht.crc
  length := ht.length
  staged hclean := by
    have hb := ht.bounded
    have hf := ht.fits
    rw [← ht.staged hclean]
    exact (hagree.mono (Nat.le_refl _) (Nat.add_le_add_left (Nat.le_trans hb hf) _)).read
  blank hclean := by
    have hb := ht.bounded
    have hf := ht.fits
    refine (ht.blank hclean).congr (hagree.mono (Nat.le_add_right _ _) ?_)
    rw [otaStageMaxImageSize] at hf
    omega

/-- A session starts with nothing accepted and room for the image erased. -/
theorem SessionTracks.start {a : OtaBeginArgs} {d : W25q}
    (herase : (otaStageBegin a.imageSize d).1 = 0) :
    SessionTracks ⟨a.sessionId, a.imageSize, a.imageCrc32, 0, otaCrcInit⟩
      (otaStageBegin a.imageSize d).2.mem ⟨[], true⟩ where
  pos := (otaStageBegin_ok herase).1
  bounded := Nat.zero_le _
  fits := (otaStageBegin_ok herase).2.1
  crc := rfl
  length := rfl
  staged _ := rfl
  blank _ := (otaStageBegin_ok herase).2.2

/-- The offset after a chunk, which does not wrap. -/
theorem toNat_nextOffset {k : OtaChunkArgs} (ht : SessionTracks s flash h) (hfits : ChunkFits k s) :
    (k.offset + UInt32.ofNat k.data.length).toNat = s.nextOffset.toNat + k.data.length := by
  have hsize := hfits.size
  have hmax := ht.fits
  rw [hfits.offset] at hsize ⊢
  have hmax' : s.expectedSize.toNat ≤ 0x100000 := hmax
  have hlen : k.data.length < 2 ^ 32 := by omega
  rw [UInt32.toNat_add, UInt32.toNat_ofNat', Nat.mod_eq_of_lt hlen, Nat.mod_eq_of_lt]
  omega

/-- A chunk that is written is appended to what is staged. -/
theorem SessionTracks.chunk {k : OtaChunkArgs} {d : W25q} (ht : SessionTracks s d.mem h)
    (hfits : ChunkFits k s) (hwrite : (otaStageWrite k.offset k.data d).1 = 0) :
    SessionTracks { s with
      runningCrc := otaCrcUpdate s.runningCrc k.data
      nextOffset := k.offset + UInt32.ofNat k.data.length }
      (otaStageWrite k.offset k.data d).2.mem { h with accepted := h.accepted ++ k.data } := by
  have hnext := toNat_nextOffset ht hfits
  have hsize := hfits.size
  have hoffset : k.offset.toNat = s.nextOffset.toNat := by rw [hfits.offset]
  rw [hoffset] at hsize
  refine ⟨ht.pos, ?_, ht.fits, ?_, ?_, ?_, ?_⟩
  · rw [hnext]
    exact hsize
  · show otaCrcUpdate s.runningCrc k.data = _
    rw [ht.crc, otaCrcUpdate_append]
  · rw [hnext, ht.length, List.length_append]
  · intro hclean
    have hblank : Erased d.mem (otaStageRegionBase + k.offset.toNat) k.data.length := by
      rw [hoffset]
      exact (ht.blank hclean).mono (Nat.le_refl _) (by omega)
    have hnew := otaStageWrite_ok hblank hwrite
    rw [hoffset] at hnew
    have hold : stagedBytes s.nextOffset.toNat (otaStageWrite k.offset k.data d).2.mem =
        h.accepted := by
      rw [← ht.staged hclean]
      refine (otaStageWrite_agree (.inl ?_)).read
      exact Nat.le_of_eq (by rw [hoffset])
    show stagedBytes (k.offset + UInt32.ofNat k.data.length).toNat _ = _
    rw [hnext, stagedBytes, NorFlash.read_add, hnew]
    exact congrArg (· ++ k.data) hold
  · intro hclean
    show Erased _ (otaStageRegionBase + (k.offset + UInt32.ofNat k.data.length).toNat)
      (s.expectedSize.toNat - (k.offset + UInt32.ofNat k.data.length).toNat)
    rw [hnext]
    refine ((ht.blank hclean).mono (by omega) (by omega)).congr (otaStageWrite_agree (.inr ?_))
    rw [hoffset]
    omega

/-- A chunk that fails in the write leaves the session as it was. -/
theorem SessionTracks.writeError (ht : SessionTracks s flash h) :
    SessionTracks s flash' { h with clean := false } where
  pos := ht.pos
  bounded := ht.bounded
  fits := ht.fits
  crc := ht.crc
  length := ht.length
  staged hclean := absurd hclean (by simp)
  blank hclean := absurd hclean (by simp)

/-! ## Requests -/

variable {c : BootConfig} {d : W25q} {H : OtaHandled}

theorem BeginSpec.tracks {a : OtaBeginArgs} (hspec : BeginSpec a s c d H)
    (ht : otaInSession s → SessionTracks s d.mem h) (hin : otaInSession H.session) :
    SessionTracks H.session H.chip.mem (h.record (.begin a) H.reply.event.status) := by
  rw [OtaHistory.record]
  cases hspec with
  | refused hreply hs hc hd =>
    rw [hs] at hin
    rw [hs, hd, if_neg hreply]
    exact ht hin
  | eraseFail hreply hs hc hd =>
    rw [hs] at hin
    exact absurd hin not_otaInSession_reset
  | started hreply herase hs hc hd =>
    rw [hs, hd, if_pos hreply]
    exact .start herase

theorem ChunkSpec.tracks {k : OtaChunkArgs} (hspec : ChunkSpec k s c d H)
    (ht : otaInSession s → SessionTracks s d.mem h) (hin : otaInSession H.session) :
    SessionTracks H.session H.chip.mem (h.record (.chunk k) H.reply.event.status) := by
  rw [OtaHistory.record]
  cases hspec with
  | refused hreply hwrite hs hc hd =>
    rw [hs] at hin
    rw [hs, hd, if_neg hreply, if_neg hwrite]
    exact ht hin
  | writeError hreply hfits hs hc hd =>
    rw [hs] at hin
    rw [hs, hreply, if_neg (by nofun), if_pos rfl]
    exact (ht hin).writeError
  | accepted hreply hfits hwrite hs hc hd =>
    rw [hs, hd, if_pos hreply]
    exact (ht hfits.session).chunk hfits hwrite

theorem CommitSpec.tracks {a : OtaAbortArgs} (hspec : CommitSpec a s c d H)
    (ht : otaInSession s → SessionTracks s d.mem h) (hin : otaInSession H.session) :
    SessionTracks H.session H.chip.mem h := by
  cases hspec with
  | refused hreply hs hc hd =>
    rw [hs] at hin
    rw [hs, hd]
    exact ht hin
  | marked hready hreply hs hc hd =>
    -- the mark goes to the boot configuration, below the staging region
    rw [hs, hd]
    exact (ht hready.session).congr (otaStageMarkPending_agree (by decide))

/-- Every request keeps the session tracked. -/
theorem handleOta_tracks (r : OtaRequest) (ht : otaInSession s → SessionTracks s d.mem h)
    (hin : otaInSession (handleOta r s c d).session) :
    SessionTracks (handleOta r s c d).session (handleOta r s c d).chip.mem
      (h.record r (handleOta r s c d).reply.event.status) := by
  cases r with
  | «begin» a => exact (handleOtaBegin_spec a s c d).tracks ht hin
  | chunk k => exact (handleOtaChunk_spec k s c d).tracks ht hin
  | commit a => exact (handleOtaCommit_spec a s c d).tracks ht hin
  | abort a =>
    by_cases htoken : otaInSession s ∧ a.sessionId = s.sessionId
    · have hs : (handleOtaAbort a s c d).session = otaSessionReset := if_pos htoken
      replace hin : otaInSession (handleOtaAbort a s c d).session := hin
      rw [hs] at hin
      exact absurd hin not_otaInSession_reset
    · have hs : (handleOtaAbort a s c d).session = s := if_neg htoken
      replace hin : otaInSession (handleOtaAbort a s c d).session := hin
      rw [hs] at hin
      show SessionTracks (handleOtaAbort a s c d).session d.mem h
      rw [hs]
      exact ht hin

/-! ## Steps and runs -/

variable {applyEnabled : Bool} {σ : OtaMcu} {outcomes : List WriteOutcome}

/-- The active session of an MCU is tracked by its history. -/
def Tracked (σ : OtaMcu) (h : OtaHistory) : Prop :=
  otaInSession σ.session → SessionTracks σ.session σ.flash h

theorem tracked_step (i : OtaInput) (ht : Tracked σ h) :
    Tracked (otaStep applyEnabled i σ) (h.next i σ) := by
  obtain ⟨action, outcomes⟩ := i
  cases action with
  | request r =>
    cases hup : σ.up with
    | false =>
      have hnext : h.next ⟨.request r, outcomes⟩ σ = h := if_neg (by simp [hup])
      rw [otaStep_down hup, hnext]
      exact ht
    | true =>
      have hnext : h.next ⟨.request r, outcomes⟩ σ =
          h.record r (σ.handle r outcomes).reply.event.status := if_pos hup
      rw [otaStep_request hup, hnext]
      exact handleOta_tracks r ht
  | reset k =>
    intro hin
    have hs : (otaStep applyEnabled ⟨.reset k, outcomes⟩ σ).session = otaSessionBoot :=
      otaReset_session _ _ _ _ _
    rw [hs] at hin
    exact absurd hin not_otaInSession_boot

theorem tracked_run (applyEnabled : Bool) (b : OtaPowerUp) (ins : ℕ → OtaInput) (n : ℕ) :
    Tracked (otaRun applyEnabled b ins n) (otaHistory applyEnabled b ins n) := by
  refine Machine.history_invariant (P := Tracked) ?_ (fun i σ h ht => tracked_step i ht) n
  intro hin
  have hs : (otaReset applyEnabled 0 b.outcomes b.flash b.bank0).session = otaSessionBoot :=
    otaReset_session _ _ _ _ _
  replace hin : otaInSession (otaReset applyEnabled 0 b.outcomes b.flash b.bank0).session := hin
  rw [hs] at hin
  exact absurd hin not_otaInSession_boot

/-- A request with a token other than the session's leaves the MCU as it was. -/
theorem otaStep_foreign {r : OtaRequest} (hr : ∀ a, r ≠ .begin a)
    (htoken : ¬ otaInSession σ.session ∨ r.sessionId ≠ σ.session.sessionId) :
    otaStep applyEnabled ⟨.request r, outcomes⟩ σ = σ := by
  cases hup : σ.up with
  | false => exact otaStep_down hup
  | true =>
    rw [otaStep_request hup]
    obtain ⟨hs, hc, hd⟩ := handleOta_foreign (c := σ.cfg) (d := ⟨σ.flash, outcomes⟩) hr htoken
    rw [OtaMcu.after]
    show (⟨(handleOta r _ _ _).session, (handleOta r _ _ _).cfg,
      (handleOta r _ _ ⟨σ.flash, outcomes⟩).chip.mem, σ.bank0, σ.up⟩ : OtaMcu) = σ
    rw [hs, hc, hd]

/-- In every reachable state an active session has an offset within the announced
size, the checksum of the accepted chunks, and their bytes in the staging region
unless a chunk has failed to be written; a chunk that is not accepted leaves the
session alone; and a request with another token changes nothing. -/
theorem session_tracks_chunks (applyEnabled : Bool) (b : OtaPowerUp) (ins : ℕ → OtaInput)
    (n : ℕ) :
    let σ := otaRun applyEnabled b ins n
    let h := otaHistory applyEnabled b ins n
    (otaInSession σ.session →
      σ.session.nextOffset ≤ σ.session.expectedSize ∧
      otaCrcFinalize σ.session.runningCrc = crc32 h.accepted ∧
      σ.session.nextOffset.toNat = h.accepted.length ∧
      (h.clean = true → stagedBytes σ.session.nextOffset.toNat σ.flash = h.accepted)) ∧
    (∀ (k : OtaChunkArgs) (outcomes : List WriteOutcome),
      (σ.handle (.chunk k) outcomes).reply.event.status ≠ .ok →
      (otaStep applyEnabled ⟨.request (.chunk k), outcomes⟩ σ).session = σ.session) ∧
    ∀ (r : OtaRequest) (outcomes : List WriteOutcome), (∀ a, r ≠ .begin a) →
      ¬ otaInSession σ.session ∨ r.sessionId ≠ σ.session.sessionId →
      otaStep applyEnabled ⟨.request r, outcomes⟩ σ = σ := by
  intro σ h
  refine ⟨?_, ?_, ?_⟩
  · intro hin
    have ht := tracked_run applyEnabled b ins n hin
    refine ⟨UInt32.le_iff_toNat_le.mpr ht.bounded, ?_, ht.length, ht.staged⟩
    show otaCrcFinalize σ.session.runningCrc = _
    rw [ht.crc, otaCrcFinalize_update_init]
  · intro k outcomes hreply
    cases hup : σ.up with
    | false => rw [otaStep_down hup]
    | true =>
      rw [otaStep_request hup]
      cases handleOtaChunk_spec k σ.session σ.cfg ⟨σ.flash, outcomes⟩ with
      | refused _ _ hs _ _ => exact hs
      | writeError _ _ hs _ _ => exact hs
      | accepted hok _ _ _ _ _ => exact absurd hok hreply
  · intro r outcomes hr htoken
    exact otaStep_foreign hr htoken

end OpenEVCharger
