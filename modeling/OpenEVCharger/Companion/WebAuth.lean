import OpenEVCharger.Companion.WebRequest

/-!
# Who gets in over HTTP

Whether credentials are asked for is decided when the server starts, and they are compared with
the configuration as it is when the request arrives. The header goes through a buffer of 256
bytes, and the decoded text is cut at its first colon and at its first terminator.
-/

namespace OpenEVCharger

/-! ## Base64 -/

/-- A text and its base64, padded and with the unused bits zero. -/
inductive Base64 : List Char → List Char → Prop
  | nil : Base64 [] []
  | group {d0 d1 d2 d3 : Char} {v0 v1 v2 v3 : ℕ} {text enc : List Char} (h0 : b64v d0 = some v0)
      (h1 : b64v d1 = some v1) (h2 : b64v d2 = some v2) (h3 : b64v d3 = some v3)
      (h : Base64 text enc) :
      Base64 (b64Bytes v0 v1 (some v2) (some v3) ++ text) (d0 :: d1 :: d2 :: d3 :: enc)
  | two {d0 d1 d2 : Char} {v0 v1 v2 : ℕ} (h0 : b64v d0 = some v0) (h1 : b64v d1 = some v1)
      (h2 : b64v d2 = some v2) (hzero : v2 % 4 = 0) :
      Base64 (b64Bytes v0 v1 (some v2) none) [d0, d1, d2, '=']
  | one {d0 d1 : Char} {v0 v1 : ℕ} (h0 : b64v d0 = some v0) (h1 : b64v d1 = some v1)
      (hzero : v1 % 16 = 0) : Base64 (b64Bytes v0 v1 none none) [d0, d1, '=', '=']

variable {text enc out user pass a token : List Char} {c : Char} {v cap : ℕ}

theorem b64v_ne (h : b64v c = some v) {d : Char} (hd : b64v d = none) : c ≠ d := by
  rintro rfl
  rw [h] at hd
  nomatch hd

theorem b64Tail_digit (h : b64v c = some v) : b64Tail c = some (some v) := by
  rw [b64Tail, if_neg (b64v_ne h (by decide)), h, Option.map_some]

theorem Base64.length (h : Base64 text enc) : enc.length = 4 * ((text.length + 2) / 3) := by
  induction h with
  | nil => rfl
  | group _ _ _ _ _ ih =>
    simp only [b64Bytes, List.length_append, List.length_cons, List.length_nil, ih]
    omega
  | two => simp [b64Bytes]
  | one => simp [b64Bytes]

/-- A group that starts with a digit is decoded as one. -/
theorem webBase64Decode_group {d0 d1 d2 d3 : Char} {v0 v1 : ℕ} {w2 w3 : Option ℕ}
    (h0 : b64v d0 = some v0) (h1 : b64v d1 = some v1) (h2 : b64Tail d2 = some w2)
    (h3 : b64Tail d3 = some w3) (hfits : out.length + (b64Bytes v0 v1 w2 w3).length ≤ cap) :
    webBase64Decode cap (d0 :: d1 :: d2 :: d3 :: enc) out =
      webBase64Decode cap enc (out ++ b64Bytes v0 v1 w2 w3) := by
  have hblank : ¬ ((decide (d0 = ' ') || decide (d0 = '\t') || decide (d0 = '\r') ||
      decide (d0 = '\n')) = true) := by
    simp only [Bool.or_eq_true, decide_eq_true_eq, not_or]
    exact ⟨⟨⟨b64v_ne h0 (by decide), b64v_ne h0 (by decide)⟩, b64v_ne h0 (by decide)⟩,
      b64v_ne h0 (by decide)⟩
  rw [webBase64Decode, if_neg hblank]
  simp only [h0, h1, h2, h3, List.length_append]
  rw [if_neg (Nat.not_lt.mpr hfits)]

theorem Base64.decode (h : Base64 text enc) (out : List Char)
    (hfits : out.length + text.length ≤ cap) :
    webBase64Decode cap enc out = some (out ++ text) := by
  induction h generalizing out with
  | nil => rw [webBase64Decode, List.append_nil]
  | group h0 h1 h2 h3 _ ih =>
    rw [List.length_append] at hfits
    rw [webBase64Decode_group h0 h1 (b64Tail_digit h2) (b64Tail_digit h3) (by omega),
      ih _ (by rw [List.length_append]; omega), List.append_assoc]
  | two h0 h1 h2 _ =>
    rw [webBase64Decode_group h0 h1 (b64Tail_digit h2) (by decide : b64Tail '=' = some none) hfits,
      webBase64Decode]
  | one h0 h1 _ =>
    rw [webBase64Decode_group h0 h1 (by decide : b64Tail '=' = some none)
      (by decide : b64Tail '=' = some none) hfits, webBase64Decode]

theorem Base64.no_nul (h : Base64 text enc) : '\x00' ∉ enc := by
  have hdigit : ∀ {c : Char} {v : ℕ}, b64v c = some v → '\x00' ≠ c :=
    fun h => (b64v_ne h (by decide)).symm
  induction h with
  | nil => exact List.not_mem_nil
  | group h0 h1 h2 h3 _ ih =>
    simp only [List.mem_cons, not_or]
    exact ⟨hdigit h0, hdigit h1, hdigit h2, hdigit h3, ih⟩
  | two h0 h1 h2 _ =>
    simp only [List.mem_cons, not_or]
    exact ⟨hdigit h0, hdigit h1, hdigit h2, by decide, List.not_mem_nil⟩
  | one h0 h1 _ =>
    simp only [List.mem_cons, not_or]
    exact ⟨hdigit h0, hdigit h1, by decide, by decide, List.not_mem_nil⟩

/-- The header of an owner of the credentials. -/
theorem basicToken_base64 (h : Base64 text enc) :
    basicToken ("Basic ".toList ++ enc) = some enc := by
  have hclean : cString ("Basic ".toList ++ enc) = "Basic ".toList ++ enc := by
    refine cString_eq_self fun c hc heq => ?_
    rcases List.mem_append.mp hc with hscheme | henc
    · rw [heq] at hscheme
      exact absurd hscheme (by decide)
    · exact h.no_nul (heq ▸ henc)
  have hfirst : enc.dropWhile (fun c => c = ' ' || c = '\t') = enc := by
    cases h with
    | nil => rfl
    | group h0 | two h0 | one h0 =>
      refine List.dropWhile_cons_of_neg ?_
      simp only [Bool.or_eq_true, decide_eq_true_eq, not_or]
      exact ⟨b64v_ne h0 (by decide), b64v_ne h0 (by decide)⟩
  rw [basicToken, hclean]
  have htake : ("Basic ".toList ++ enc).take 6 = "Basic ".toList := List.take_left' rfl
  have hdrop : ("Basic ".toList ++ enc).drop 6 = enc := List.drop_left' rfl
  rw [htake, hdrop, hfirst, if_neg (by decide)]

theorem basicToken_nil : basicToken [] = none := by decide

/-! ## The comparison -/

/-- A text is cut at its first colon. -/
theorem split_colon_iff : (':' ∈ text ∧ text.takeWhile (· ≠ ':') = user ∧
      (text.dropWhile (· ≠ ':')).tail = pass) ↔ text = user ++ ':' :: pass ∧ ':' ∉ user := by
  constructor
  · rintro ⟨hmem, rfl, rfl⟩
    have hfront : ':' ∉ text.takeWhile (· ≠ ':') := by
      intro hc
      have hne := List.mem_takeWhile_imp hc
      exact absurd hne (by decide)
    have hsplit := List.takeWhile_append_dropWhile (p := fun c => decide (c ≠ ':')) (l := text)
    refine ⟨?_, hfront⟩
    cases hrest : text.dropWhile (· ≠ ':') with
    | nil =>
      rw [hrest, List.append_nil] at hsplit
      rw [← hsplit] at hmem
      exact absurd hmem hfront
    | cons d rest =>
      have hd := List.head_dropWhile_not (p := fun c => decide (c ≠ ':')) (l := text)
        (by rw [hrest]; exact List.cons_ne_nil _ _)
      simp only [hrest, List.head_cons, decide_eq_false_iff_not, not_not] at hd
      rw [hrest, hd] at hsplit
      exact hsplit.symm
  · rintro ⟨rfl, hcolon⟩
    have hstop : ∀ c ∈ user, decide (c ≠ ':') = true :=
      fun c hc => decide_eq_true fun heq => hcolon (heq ▸ hc)
    refine ⟨by simp, ?_, ?_⟩
    · rw [List.takeWhile_append_of_pos hstop]
      simp
    · rw [List.dropWhile_append_of_pos hstop]
      simp

theorem checkCredentials_iff : checkCredentials user pass a = true ↔
    ∃ token decoded, basicToken a = some token ∧ webBase64Decode 255 token [] = some decoded ∧
      cString decoded = user ++ ':' :: pass ∧ ':' ∉ user := by
  rw [checkCredentials]
  cases htoken : basicToken a with
  | none => exact iff_of_false Bool.false_ne_true nofun
  | some token =>
    dsimp only
    cases hdecode : webBase64Decode 255 token [] with
    | none =>
      refine iff_of_false Bool.false_ne_true ?_
      rintro ⟨token', decoded, ⟨⟩, hdecode', -⟩
      rw [hdecode] at hdecode'
      nomatch hdecode'
    | some decoded =>
      dsimp only
      rw [Bool.and_eq_true, Bool.and_eq_true, decide_eq_true_eq, decide_eq_true_eq,
        decide_eq_true_eq, and_assoc, split_colon_iff]
      constructor
      · exact fun h => ⟨token, decoded, rfl, hdecode, h⟩
      · rintro ⟨token', decoded', ⟨⟩, hdecode', h⟩
        rw [hdecode] at hdecode'
        cases hdecode'
        exact h

/-! ## Headers -/

/-- The values of the `Authorization` headers of a request. -/
def authorizationValues (headers : List (List Char × List Char)) : List (List Char) :=
  (headers.filter (headerNamed "authorization")).map Prod.snd

theorem requestAuthorization_values (headers : List (List Char × List Char)) :
    requestAuthorization headers =
      (authorizationValues headers).foldl (fun a v => if v.length < 256 then v else a) [] := by
  rw [requestAuthorization]
  generalize ([] : List Char) = a
  induction headers generalizing a with
  | nil => rfl
  | cons h headers ih =>
    have hvalues : authorizationValues (h :: headers) =
        if headerNamed "authorization" h then h.2 :: authorizationValues headers
        else authorizationValues headers := by
      rw [authorizationValues, List.filter_cons]
      split <;> rfl
    rw [List.foldl_cons, ih, hvalues]
    by_cases hname : headerNamed "authorization" h = true
    · rw [hname, Bool.true_and, if_pos rfl, List.foldl_cons]
      simp only [decide_eq_true_eq]
    · rw [Bool.eq_false_iff.mpr hname, Bool.false_and, if_neg Bool.false_ne_true,
        if_neg Bool.false_ne_true]

theorem requestAuthorization_mem {headers : List (List Char × List Char)}
    (h : requestAuthorization headers ≠ []) :
    requestAuthorization headers ∈ authorizationValues headers := by
  rw [requestAuthorization_values] at h ⊢
  generalize authorizationValues headers = values at h
  have hlast : ∀ a : List Char, values.foldl (fun a v => if v.length < 256 then v else a) a = a ∨
      values.foldl (fun a v => if v.length < 256 then v else a) a ∈ values := by
    clear h
    induction values with
    | nil => exact fun a => .inl rfl
    | cons v values ih =>
      intro a
      rw [List.foldl_cons]
      rcases ih (if v.length < 256 then v else a) with hsame | hmem
      · rw [hsame]
        split
        · exact .inr (List.mem_cons_self ..)
        · exact .inl rfl
      · exact .inr (List.mem_cons_of_mem _ hmem)
  exact (hlast []).resolve_left h

theorem parseRequest_some {buf : List Char} {r : HttpRequest} (h : parseRequest buf = some r) :
    ∃ head avail, splitHead buf = some (head, avail) ∧
      r.authorization = requestAuthorization r.headers ∧
      requestLength r.headers = some r.contentLength ∧
      r.body = avail.take (r.contentLength.elim avail.length fun n => min n avail.length) := by
  simp only [parseRequest, Option.bind_eq_bind, Option.bind_eq_some_iff] at h
  obtain ⟨⟨head, avail⟩, hsplit, ⟨method, rest⟩, -, ⟨path, rest'⟩, -, ⟨version, rest''⟩, -, h⟩ := h
  dsimp only at h
  split at h
  · nomatch h
  · obtain ⟨contentLength, hlength, h⟩ := Option.bind_eq_some_iff.mp h
    cases h
    refine ⟨head, avail, hsplit, rfl, hlength, ?_⟩
    cases contentLength <;> rfl

/-! ## The server over a run -/

/-- What happens to a server: a request, or a change of the shared memory from outside. -/
inductive WebEvent
  | request (diskOk : Bool) (req : List Char)
  | shmem (shm : Option ShmemSegment)

/-- A restart that is asked for starts another server; if it fails this one goes on. -/
def webStep (e : WebEvent) (ws : WebServer) : WebServer :=
  match e with
  | .request diskOk req => { (webHandleRequest diskOk ws req).2 with restart := false }
  | .shmem shm => { ws with shm := shm }

/-- The server that was started with a configuration, after `events`. -/
def webRun (cfg : Config) (shm : Option ShmemSegment) (file : Option (List Char))
    (events : List WebEvent) : WebServer :=
  events.foldl (fun ws e => webStep e ws) (webServerStart cfg shm file)

/-- The server was started with an empty user or an empty password. -/
def StartedOpen (cfg : Config) : Prop :=
  (cfg.str .webUser).chars = [] ∨ (cfg.str .webPass).chars = []

variable {diskOk : Bool} {ws : WebServer} {r : HttpRequest} {req : List Char}

theorem dispatch_authDisabled : (dispatch diskOk ws r).2.authDisabled = ws.authDisabled := by
  have hconfig : (handlePostConfig diskOk ws r).2.authDisabled = ws.authDisabled := by
    rw [handlePostConfig]
    split
    · rfl
    · split <;> rfl
  rw [dispatch]
  split
  · split <;> rfl
  split
  · split
    · exact hconfig
    split
    · rfl
    · split <;> rfl
  · rfl

theorem webHandleRequest_authDisabled :
    (webHandleRequest diskOk ws req).2.authDisabled = ws.authDisabled := by
  rw [webHandleRequest]
  split
  · rfl
  split
  · rfl
  split
  · exact dispatch_authDisabled
  · rfl

/-- Whether credentials are asked for was decided at the start. -/
theorem webRun_authDisabled (cfg : Config) (shm : Option ShmemSegment)
    (file : Option (List Char)) (events : List WebEvent) :
    (webRun cfg shm file events).authDisabled = true ↔ StartedOpen cfg := by
  have hkept : (webRun cfg shm file events).authDisabled =
      (webServerStart cfg shm file).authDisabled := by
    rw [webRun]
    generalize webServerStart cfg shm file = ws
    induction events generalizing ws with
    | nil => rfl
    | cons e events ih =>
      rw [List.foldl_cons, ih]
      cases e with
      | request diskOk req => exact webHandleRequest_authDisabled
      | shmem shm => rfl
  rw [hkept, webServerStart, Bool.or_eq_true, decide_eq_true_eq, decide_eq_true_eq]
  rfl

theorem dispatch_authorized : (dispatch diskOk ws r).1 ≠ .unauthorized := by
  have hconfig : (handlePostConfig diskOk ws r).1 ≠ .unauthorized := by
    rw [handlePostConfig]
    split
    · nofun
    · split <;> nofun
  rw [dispatch]
  split
  · split <;> nofun
  split
  · split
    · exact hconfig
    split
    · nofun
    · split <;> nofun
  · nofun

/-- A request that is too long or that is not parsed changes nothing. -/
theorem webHandleRequest_unparsed (h : maxReqBytes < req.length ∨ parseRequest req = none) :
    webHandleRequest diskOk ws req = (.payloadTooLarge, ws) ∨
      webHandleRequest diskOk ws req = (.badRequest, ws) := by
  rw [webHandleRequest]
  split
  · exact .inl rfl
  · next hlen =>
    rw [h.resolve_left hlen]
    exact .inr rfl

/-- A request that is parsed is turned away exactly when the check says so. -/
theorem webHandleRequest_parsed (hlen : req.length ≤ maxReqBytes)
    (hparse : parseRequest req = some r) :
    webHandleRequest diskOk ws req =
      if checkAuth ws r then dispatch diskOk ws r else (.unauthorized, ws) := by
  rw [webHandleRequest, if_neg (Nat.not_lt.mpr hlen), hparse]

/-! ## The credentials of a request -/

/-- The current credentials, as Basic authorisation joins them. -/
def WebServer.credentials (ws : WebServer) : List Char := ws.user ++ ':' :: ws.pass

/-- The request of an owner: its `Authorization` is Basic with the base64 of the credentials. -/
def OwnerRequest (ws : WebServer) (r : HttpRequest) : Prop :=
  ∃ enc, Base64 ws.credentials enc ∧
    authorizationValues r.headers = ["Basic ".toList ++ enc]

/-- A request with the credentials in it: one of its headers is decoded to them. -/
def CarriesCredentials (ws : WebServer) (r : HttpRequest) : Prop :=
  ∃ v ∈ authorizationValues r.headers, ∃ token, basicToken v = some token ∧
    webBase64Decode 255 token [] = some ws.credentials

/-- What gets past the check instead: the credentials, a terminator and anything behind it. -/
def TerminatedCredentials (ws : WebServer) (r : HttpRequest) : Prop :=
  ∃ token rest, basicToken r.authorization = some token ∧
    webBase64Decode 255 token [] = some (ws.credentials ++ '\x00' :: rest)

/-- The owner of the credentials gets in, and nobody without them does. -/
structure AuthKept (diskOk : Bool) (ws : WebServer) (req : List Char) (r : HttpRequest) :
    Prop where
  owner : OwnerRequest ws r → (webHandleRequest diskOk ws req).1 ≠ .unauthorized
  stranger : ¬ CarriesCredentials ws r → webHandleRequest diskOk ws req = (.unauthorized, ws)

/-- The header with the credentials fits its buffer. -/
def HeaderFits (ws : WebServer) : Prop := 4 * ((ws.credentials.length + 2) / 3) + 6 < 256

instance : Decidable (HeaderFits ws) := inferInstanceAs (Decidable (_ < _))

/-- When that is so, for a server that was started with `cfg`. -/
structure AuthCondition (cfg : Config) (ws : WebServer) (r : HttpRequest) : Prop where
  owner : OwnerRequest ws r → StartedOpen cfg ∨ ':' ∉ ws.user ∧ HeaderFits ws
  stranger : ¬ CarriesCredentials ws r →
    ¬ StartedOpen cfg ∧ (':' ∈ ws.user ∨ ¬ TerminatedCredentials ws r)

theorem credentials_no_nul (ws : WebServer) : '\x00' ∉ ws.credentials := by
  rw [WebServer.credentials, List.mem_append, List.mem_cons]
  rintro (huser | heq | hpass)
  · exact (ws.cfg.str .webUser).nulFree _ huser rfl
  · exact absurd heq (by decide)
  · exact (ws.cfg.str .webPass).nulFree _ hpass rfl

theorem credentials_length (ws : WebServer) : ws.credentials.length ≤ 255 := by
  have huser := (ws.cfg.str .webUser).short
  have hpass := (ws.cfg.str .webPass).short
  have hmax : configStrMax = 128 := rfl
  rw [WebServer.credentials, List.length_append, List.length_cons, WebServer.user, WebServer.pass]
  omega

/-- A text is the credentials up to its terminator, if it has one. -/
theorem cString_eq_credentials {decoded : List Char} :
    cString decoded = ws.credentials ↔
      decoded = ws.credentials ∨ ∃ rest, decoded = ws.credentials ++ '\x00' :: rest := by
  have hnul : ∀ c ∈ ws.credentials, decide (c ≠ '\x00') = true :=
    fun c hc => decide_eq_true fun heq => credentials_no_nul ws (heq ▸ hc)
  constructor
  · intro h
    have hsplit := List.takeWhile_append_dropWhile (p := fun c => decide (c ≠ '\x00'))
      (l := decoded)
    cases hrest : decoded.dropWhile (· ≠ '\x00') with
    | nil =>
      rw [hrest, List.append_nil] at hsplit
      exact .inl (hsplit.symm.trans h)
    | cons d rest =>
      have hd := List.head_dropWhile_not (p := fun c => decide (c ≠ '\x00')) (l := decoded)
        (by rw [hrest]; exact List.cons_ne_nil _ _)
      simp only [hrest, List.head_cons, decide_eq_false_iff_not, not_not] at hd
      rw [hrest, hd] at hsplit
      exact .inr ⟨rest, by rw [← h]; exact hsplit.symm⟩
  · rintro (rfl | ⟨rest, rfl⟩)
    · exact cString_eq_self fun c hc => of_decide_eq_true (hnul c hc)
    · rw [cString, List.takeWhile_append_of_pos hnul]
      simp

theorem OwnerRequest.authorization {enc : List Char}
    (h : authorizationValues r.headers = ["Basic ".toList ++ enc])
    (hr : r.authorization = requestAuthorization r.headers) :
    r.authorization = if 6 + enc.length < 256 then "Basic ".toList ++ enc else [] := by
  have hlen : ("Basic ".toList ++ enc).length = 6 + enc.length := List.length_append
  rw [hr, requestAuthorization_values, h, List.foldl_cons, List.foldl_nil, hlen]

theorem checkAuth_iff : checkAuth ws r = true ↔ ws.authDisabled = true ∨
    ∃ token decoded, basicToken r.authorization = some token ∧
      webBase64Decode 255 token [] = some decoded ∧ cString decoded = ws.credentials ∧
      ':' ∉ ws.user := by
  rw [checkAuth, Bool.or_eq_true, checkCredentials_iff]
  rfl

/-- The request of an owner gets in with authorisation off, or with a header that fits its
buffer and a user without a colon. -/
theorem OwnerRequest.checkAuth_iff (h : OwnerRequest ws r)
    (hr : r.authorization = requestAuthorization r.headers) :
    checkAuth ws r = true ↔ ws.authDisabled = true ∨ ':' ∉ ws.user ∧ HeaderFits ws := by
  obtain ⟨enc, henc, hvalues⟩ := h
  rw [OpenEVCharger.checkAuth_iff, OwnerRequest.authorization hvalues hr, henc.length]
  refine or_congr_right ?_
  by_cases hfits : 6 + 4 * ((ws.credentials.length + 2) / 3) < 256
  · have hdecode : webBase64Decode 255 enc [] = some ws.credentials := by
      refine henc.decode [] ?_
      rw [List.length_nil, Nat.zero_add]
      exact credentials_length ws
    have hheader : HeaderFits ws := by
      rw [HeaderFits]
      omega
    rw [if_pos hfits, basicToken_base64 henc]
    constructor
    · rintro ⟨token, decoded, -, -, -, hcolon⟩
      exact ⟨hcolon, hheader⟩
    · rintro ⟨hcolon, -⟩
      exact ⟨enc, ws.credentials, rfl, hdecode, cString_eq_credentials.mpr (.inl rfl), hcolon⟩
  · rw [if_neg hfits]
    refine iff_of_false ?_ ?_
    · rintro ⟨token, decoded, htoken, -⟩
      rw [basicToken_nil] at htoken
      nomatch htoken
    · rintro ⟨-, hheader⟩
      rw [HeaderFits] at hheader
      omega

/-- A request without the credentials gets in with authorisation off, or when what its header
is decoded to is the credentials up to a terminator. -/
theorem checkAuth_stranger_iff (h : ¬ CarriesCredentials ws r)
    (hr : r.authorization = requestAuthorization r.headers) :
    checkAuth ws r = true ↔
      ws.authDisabled = true ∨ ':' ∉ ws.user ∧ TerminatedCredentials ws r := by
  rw [checkAuth_iff]
  refine or_congr_right ?_
  constructor
  · rintro ⟨token, decoded, htoken, hdecode, htext, hcolon⟩
    rcases cString_eq_credentials.mp htext with rfl | ⟨rest, rfl⟩
    · have hne : requestAuthorization r.headers ≠ [] := by
        rw [← hr]
        intro hnil
        rw [hnil, basicToken_nil] at htoken
        nomatch htoken
      refine absurd ⟨_, requestAuthorization_mem hne, token, ?_, hdecode⟩ h
      rw [← hr]
      exact htoken
    · exact ⟨hcolon, token, rest, htoken, hdecode⟩
  · rintro ⟨hcolon, token, rest, htoken, hdecode⟩
    exact ⟨token, _, htoken, hdecode, cString_eq_credentials.mpr (.inr ⟨rest, rfl⟩), hcolon⟩

/-- The owner gets in with authorisation off, or with a user without a colon and a header that
fits; a stranger does with authorisation off, or behind a terminator. -/
theorem authKept_iff (hlen : req.length ≤ maxReqBytes) (hparse : parseRequest req = some r) :
    AuthKept diskOk ws req r ↔
      (OwnerRequest ws r → ws.authDisabled = true ∨ ':' ∉ ws.user ∧ HeaderFits ws) ∧
      (¬ CarriesCredentials ws r →
        ¬ ws.authDisabled = true ∧ (':' ∈ ws.user ∨ ¬ TerminatedCredentials ws r)) := by
  obtain ⟨-, -, -, hr, -⟩ := parseRequest_some hparse
  have hreply : webHandleRequest diskOk ws req =
      if checkAuth ws r then dispatch diskOk ws r else (.unauthorized, ws) :=
    webHandleRequest_parsed hlen hparse
  have hin : (webHandleRequest diskOk ws req).1 ≠ .unauthorized ↔ checkAuth ws r = true := by
    rw [hreply]
    split
    · next hcheck => exact iff_of_true dispatch_authorized hcheck
    · next hcheck => exact iff_of_false (not_not.mpr rfl) hcheck
  have hout : webHandleRequest diskOk ws req = (.unauthorized, ws) ↔ ¬ checkAuth ws r = true := by
    constructor
    · intro heq hcheck
      exact hin.mpr hcheck (congrArg Prod.fst heq)
    · intro hcheck
      rw [hreply, if_neg hcheck]
  constructor
  · intro hkept
    refine ⟨fun howner => ?_, fun hno => ?_⟩
    · rw [← howner.checkAuth_iff hr]
      exact hin.mp (hkept.owner howner)
    · have hrefused := hout.mp (hkept.stranger hno)
      rw [checkAuth_stranger_iff hno hr, not_or] at hrefused
      exact ⟨hrefused.1, not_and_or.mp hrefused.2 |>.imp_left not_not.mp⟩
  · rintro ⟨howner, hstranger⟩
    refine ⟨fun h => ?_, fun hno => ?_⟩
    · rw [hin, h.checkAuth_iff hr]
      exact howner h
    · obtain ⟨hstart, hrest⟩ := hstranger hno
      rw [hout, checkAuth_stranger_iff hno hr]
      rintro (hs | ⟨hcolon, hterminated⟩)
      · exact hstart hs
      · exact hrest.elim hcolon fun h => h hterminated

/-- For every configuration, every run and every request that can be parsed: the owner gets in
and a stranger does not, exactly when authorisation was on from the start, the user has no
colon, the header fits, and nothing follows the credentials. Any other request is turned away
as it is read. -/
theorem web_auth_iff (cfg : Config) (shm : Option ShmemSegment) (file : Option (List Char))
    (events : List WebEvent) (diskOk : Bool) (req : List Char) :
    (∀ r, req.length ≤ maxReqBytes → parseRequest req = some r →
      (AuthKept diskOk (webRun cfg shm file events) req r ↔
        AuthCondition cfg (webRun cfg shm file events) r)) ∧
    (maxReqBytes < req.length ∨ parseRequest req = none →
      webHandleRequest diskOk (webRun cfg shm file events) req =
          (.payloadTooLarge, webRun cfg shm file events) ∨
        webHandleRequest diskOk (webRun cfg shm file events) req =
          (.badRequest, webRun cfg shm file events)) := by
  refine ⟨fun r hlen hparse => ?_, webHandleRequest_unparsed⟩
  rw [authKept_iff hlen hparse, webRun_authDisabled]
  constructor
  · rintro ⟨howner, hstranger⟩
    exact ⟨howner, hstranger⟩
  · intro hcond
    exact ⟨hcond.owner, hcond.stranger⟩

/-- A configuration with the user `a` and the password `b`. -/
def ownedConfig : Config where
  str
    | .webUser => setStr ['a']
    | .webPass => setStr ['b']
    | k => configDefaults.str k
  num := configDefaults.num
  flag := configDefaults.flag
  meterVScale := configDefaults.meterVScale

def ownerText : List Char := "GET / HTTP/1.0\r\nAuthorization: Basic YTpi\r\n\r\n".toList

def ownerRequest : HttpRequest where
  method := "GET".toList
  path := "/".toList
  headers := [("Authorization".toList, "Basic YTpi".toList)]
  authorization := "Basic YTpi".toList
  contentLength := none
  body := []
  behind := '\x00'

theorem web_auth_iff_owner :
    AuthKept true (webRun ownedConfig none none []) ownerText ownerRequest := by
  refine ((web_auth_iff ownedConfig none none [] true ownerText).1 ownerRequest
    (by decide +kernel) (by rfl)).mpr ⟨fun _ => .inr ⟨by decide, by decide⟩, fun hno => ?_⟩
  refine absurd ⟨"Basic YTpi".toList, by decide, "YTpi".toList, by decide, by decide⟩ hno

/-- A stranger's request for the state. -/
def strangerText : List Char := "GET /api/state HTTP/1.0\r\n\r\n".toList

def strangerRequest : HttpRequest where
  method := "GET".toList
  path := "/api/state".toList
  headers := []
  authorization := []
  contentLength := none
  body := []
  behind := '\x00'

/-- Credentials that are set at run time on a server that was started without them. -/
def setCredentials : WebEvent :=
  .request true "POST /api/config HTTP/1.0\r\n\r\nweb_user=a&web_pass=b".toList

theorem stranger_gets_in : ¬ ∀ cfg shm file events diskOk req r,
    (webRun cfg shm file events).user ≠ [] → (webRun cfg shm file events).pass ≠ [] →
    req.length ≤ maxReqBytes → parseRequest req = some r →
    AuthKept diskOk (webRun cfg shm file events) req r := by
  intro hclaim
  have hparse : parseRequest strangerText = some strangerRequest := by rfl
  have hlen : strangerText.length ≤ maxReqBytes := by decide +kernel
  have hkept := hclaim configDefaults none none [setCredentials] true strangerText strangerRequest
    (by decide +kernel) (by decide +kernel) hlen hparse
  have hno : ¬ CarriesCredentials (webRun configDefaults none none [setCredentials])
      strangerRequest := by
    rintro ⟨v, hv, -⟩
    exact absurd hv List.not_mem_nil
  refine (((authKept_iff hlen hparse).mp hkept).2 hno).1 ?_
  rw [webRun_authDisabled]
  exact .inl rfl

end OpenEVCharger
