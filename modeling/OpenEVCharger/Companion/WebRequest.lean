import OpenEVCharger.Companion.Commands

/-!
# HTTP requests

A request is read from its socket until the head and as many bytes of body as it announces are
there, parsed, checked against the credentials, and dispatched. The reader and the parser look
for the length of the body each in its own way.
-/

namespace OpenEVCharger

/-! ## Parsing -/

def crlf : List Char := ['\r', '\n']

/-- The head of a request and what follows the first empty line. -/
def splitHead : List Char → Option (List Char × List Char)
  | [] => none
  | c :: rest =>
    if crlf ++ crlf <+: c :: rest then some ([], (c :: rest).drop 4)
    else (splitHead rest).map fun p => (c :: p.1, p.2)

/-- A field of the request line of fewer than `cap` bytes, and what follows its separator. -/
def lineField (sep : Char) (cap : ℕ) (s : List Char) : Option (List Char × List Char) :=
  let field := s.takeWhile (· ≠ sep)
  if sep ∉ s then none
  else if cap ≤ field.length then none
  else some (field, s.drop (field.length + 1))

/-- The lines of a head: each ends at a return, and the byte behind the return is skipped. -/
def headerLines : List Char → List (List Char)
  | [] => []
  | '\r' :: [] => [[]]
  | '\r' :: _ :: rest => [] :: headerLines rest
  | c :: rest =>
    match headerLines rest with
    | [] => []
    | line :: lines => (c :: line) :: lines

/-- Name and value of a header line. -/
def headerOf (line : List Char) : Option (List Char × List Char) :=
  if ':' ∉ line then none
  else some (line.takeWhile (· ≠ ':'),
    (line.dropWhile (· ≠ ':')).tail.dropWhile fun c => c = ' ' || c = '\t')

def headerNamed (name : String) (h : List Char × List Char) : Bool :=
  h.1.map Char.toLower = name.toList

/-- The value of a `Content-Length` header. -/
def parseLength (val : List Char) : Option ℕ :=
  if 32 ≤ val.length then none
  else
    let (n, rest) := strtol (cString val)
    if rest ≠ [] || n < 0 then none else some n.toNat

/-- `struct req`; `headers` are the header lines it was taken from and `behind` is the byte after
the body in the buffer. -/
structure HttpRequest where
  method : List Char
  path : List Char
  headers : List (List Char × List Char)
  authorization : List Char
  contentLength : Option ℕ
  body : List Char
  behind : Char

/-- The last `Authorization` that fits its buffer. -/
def requestAuthorization (headers : List (List Char × List Char)) : List Char :=
  headers.foldl (fun a h => if headerNamed "authorization" h && h.2.length < 256 then h.2 else a) []

/-- One header; a `Content-Length` that is no number ends the parsing. -/
def lengthStep (cl : Option ℕ) (h : List Char × List Char) : Option (Option ℕ) :=
  if headerNamed "content-length" h then (parseLength h.2).map some else some cl

/-- The last `Content-Length`. -/
def requestLength (headers : List (List Char × List Char)) : Option (Option ℕ) :=
  headers.foldlM lengthStep none

/-- `parse_request`. -/
def parseRequest (buf : List Char) : Option HttpRequest := do
  let (head, avail) ← splitHead buf
  let (method, rest) ← lineField ' ' 8 (head ++ ['\r'])
  let (path, rest) ← lineField ' ' 256 rest
  let (version, rest) ← lineField '\r' 16 rest
  if cString version ≠ "HTTP/1.0".toList && cString version ≠ "HTTP/1.1".toList then none
  else
    -- `rest` begins with the byte behind the return
    let headers := (headerLines (rest.drop 1)).filterMap headerOf
    let contentLength ← requestLength headers
    let bodyLen := match contentLength with
      | some n => min n avail.length
      | none => avail.length
    some
      { method := method
        path := path
        headers := headers
        authorization := requestAuthorization headers
        contentLength := contentLength
        body := avail.take bodyLen
        behind := (avail.drop bodyLen).headD '\x00' }

/-! ## Reading -/

def maxReqBytes : ℕ := 8 * 1024

/-- The number behind the first `content-length:` of a text, wherever it stands. -/
def scanLength : List Char → ℤ
  | [] => 0
  | c :: rest =>
    if "content-length:".toList <+: (c :: rest).map Char.toLower then
      (strtol (((c :: rest).drop 15).dropWhile fun c => c = ' ' || c = '\t')).1
    else scanLength rest

/-- The length that `read_request` waits for, once the head is there. -/
def awaitedLength (head : List Char) : ℤ := scanLength (cString (head.take 2047))

def readComplete (buf : List Char) : Bool :=
  match splitHead buf with
  | none => false
  | some (head, avail) => awaitedLength head ≤ 0 || awaitedLength head ≤ avail.length

/-- `read_request`: `recvs` are the bytes the socket has ready at each call, until the peer
stops. -/
def readRequest (buf : List Char) : List (List Char) → List Char
  | [] => buf
  | ready :: recvs =>
    let n := min ready.length (maxReqBytes - buf.length)
    if n = 0 then buf
    else
      let buf := buf ++ ready.take n
      if readComplete buf then buf else readRequest buf recvs

/-! ## Authorisation -/

def b64v (c : Char) : Option ℕ :=
  if 'A' ≤ c ∧ c ≤ 'Z' then some (c.toNat - 'A'.toNat)
  else if 'a' ≤ c ∧ c ≤ 'z' then some (c.toNat - 'a'.toNat + 26)
  else if '0' ≤ c ∧ c ≤ '9' then some (c.toNat - '0'.toNat + 52)
  else if c = '+' then some 62
  else if c = '/' then some 63
  else none

/-- The bytes of one group of four; a pad is `none`. -/
def b64Bytes (v0 v1 : ℕ) (v2 v3 : Option ℕ) : List Char :=
  Char.ofNat (v0 * 4 + v1 / 16) ::
    match v2 with
    | none => []
    | some v2 =>
      Char.ofNat (v1 % 16 * 16 + v2 / 4) ::
        match v3 with
        | none => []
        | some v3 => [Char.ofNat (v2 % 4 * 64 + v3)]

/-- A digit of the last two of a group, which may be a pad. -/
def b64Tail (c : Char) : Option (Option ℕ) := if c = '=' then some none else (b64v c).map some

/-- `web_base64_decode` into `cap` bytes. -/
def webBase64Decode (cap : ℕ) : List Char → List Char → Option (List Char)
  | [], out => some out
  | c :: rest, out =>
    if c = ' ' || c = '\t' || c = '\r' || c = '\n' then webBase64Decode cap rest out
    else
      match rest with
      | c1 :: c2 :: c3 :: rest =>
        match b64v c, b64v c1, b64Tail c2, b64Tail c3 with
        | some v0, some v1, some v2, some v3 =>
          let out := out ++ b64Bytes v0 v1 v2 v3
          if cap < out.length then none else webBase64Decode cap rest out
        | _, _, _, _ => none
      | _ => none

/-- What follows the scheme in an `Authorization: Basic`. -/
def basicToken (authorization : List Char) : Option (List Char) :=
  let a := cString authorization
  if (a.take 6).map Char.toLower ≠ "basic ".toList then none
  else some ((a.drop 6).dropWhile fun c => c = ' ' || c = '\t')

/-- `check_auth` with authorisation on. -/
def checkCredentials (user pass authorization : List Char) : Bool :=
  match basicToken authorization with
  | none => false
  | some token =>
    match webBase64Decode 255 token [] with
    | none => false
    | some decoded =>
      let text := cString decoded
      decide (':' ∈ text) && decide (text.takeWhile (· ≠ ':') = user) &&
        decide ((text.dropWhile (· ≠ ':')).tail = pass)

/-! ## The server -/

/-- `struct web_server` with what its pointers lead to. `file` is the configuration file, and
`restart` the flag of a restart to come. -/
structure WebServer where
  cfg : Config
  shm : Option ShmemSegment
  authDisabled : Bool
  file : Option (List Char)
  restart : Bool

def WebServer.user (ws : WebServer) : List Char := (ws.cfg.str .webUser).chars

def WebServer.pass (ws : WebServer) : List Char := (ws.cfg.str .webPass).chars

/-- `web_server_start`, once the configuration is loaded. -/
def webServerStart (cfg : Config) (shm : Option ShmemSegment) (file : Option (List Char)) :
    WebServer where
  cfg := cfg
  shm := shm
  authDisabled := decide ((cfg.str .webUser).chars = []) || decide ((cfg.str .webPass).chars = [])
  file := file
  restart := false

def checkAuth (ws : WebServer) (r : HttpRequest) : Bool :=
  ws.authDisabled || checkCredentials ws.user ws.pass r.authorization

/-- The documents a GET is answered with. -/
inductive WebPage
  | root | state | config | log | gain | build
  deriving DecidableEq, Repr

inductive WebReply
  | payloadTooLarge
  | badRequest
  | unauthorized
  | page (p : WebPage)
  | configRefused (err : String)
  | configNotWritten
  | configApplied
  | control (r : Except CommandError CommandDone)
  | restarting
  | notFound
  | methodNotAllowed

/-- `handle_post_config`; the file may not open for writing. -/
def handlePostConfig (diskOk : Bool) (ws : WebServer) (r : HttpRequest) : WebReply × WebServer :=
  match validateAndApplyConfig ws.cfg r.behind r.body with
  | (cfg, some err) => (.configRefused err, { ws with cfg := cfg })
  | (cfg, none) =>
    if diskOk = false then (.configNotWritten, { ws with cfg := cfg })
    else (.configApplied, { ws with cfg := cfg, file := some (writeConfigFile cfg) })

def getPage (path : List Char) : Option WebPage :=
  if path = "/".toList || path = "/index.html".toList then some .root
  else if path = "/api/state".toList then some .state
  else if path = "/api/config".toList then some .config
  else if path = "/api/log".toList then some .log
  else if path = "/api/gain".toList then some .gain
  else if path = "/api/build".toList then some .build
  else none

/-- The routes of an authorised request. -/
def dispatch (diskOk : Bool) (ws : WebServer) (r : HttpRequest) : WebReply × WebServer :=
  let path := (cString r.path).takeWhile (· ≠ '?')
  if cString r.method = "GET".toList then
    match getPage path with
    | some p => (.page p, ws)
    | none => (.notFound, ws)
  else if cString r.method = "POST".toList then
    if path = "/api/config".toList then handlePostConfig diskOk ws r
    else if path = "/api/restart".toList then (.restarting, { ws with restart := true })
    else
      match postControl path r.behind r.body ws.shm with
      | (.error .unknown, _) => (.notFound, ws)
      | (result, shm) => (.control result, { ws with shm := shm })
  else (.methodNotAllowed, ws)

def webHandleRequest (diskOk : Bool) (ws : WebServer) (req : List Char) : WebReply × WebServer :=
  if maxReqBytes < req.length then (.payloadTooLarge, ws)
  else
    match parseRequest req with
    | none => (.badRequest, ws)
    | some r => if checkAuth ws r then dispatch diskOk ws r else (.unauthorized, ws)

end OpenEVCharger
