import OpenEVCharger.Companion.JsonBodies

/-!
# The log as JSON

`handle_get_log` sends the last lines of the log file: the lines are escaped into what room the
response leaves, the path of the file is printed as it is, and so is the reason why the file
could not be opened.
-/

namespace OpenEVCharger

open Json

/-! ## The request -/

def logDefaultLines : ℕ := 50
def logReadBytes : ℕ := 65536

/-- What becomes of the log file: `fopen` fails with a reason, `fseek` fails, or it is read. -/
inductive LogFile
  | closed (why : List Char)
  | unseekable
  | bytes (content : List Char)

/-- The walk from the end of the buffer, which stops at the newline before the lines wanted. -/
def walkBack (want : ℕ) : ℕ → List Char → List Char
  | _, [] => []
  | seen, c :: rest =>
    if c = '\n' then
      if want < seen + 1 then [] else c :: walkBack want (seen + 1) rest
    else c :: walkBack want seen rest

/-- The last bytes of the file. -/
def logRead (content : List Char) : List Char := content.drop (content.length - logReadBytes)

/-- The last lines of what was read. -/
def logTail (content : List Char) : List Char :=
  (walkBack logDefaultLines 0 (logRead content).reverse).reverse

/-- The format of `hdr` with its values put in. -/
def logHeader (path content : List Char) : List (List Char) :=
  ["\x7b\"ok\":true,\"path\":\"".toList, path, "\",\"lines\":".toList, printInt logDefaultLines,
    ",\"bytes\":".toList, printInt (logTail content).length,
    ",\"truncated\":".toList, printBool (decide (logReadBytes < content.length)),
    ",\"text\":\"".toList]

/-- The bytes of the tail that the loop escapes, with `bo` bytes of the body written: it ends
where eight more would not fit. -/
def escapedBytes (bodyCap : ℕ) : ℕ → List Char → List Char
  | _, [] => []
  | bo, c :: rest =>
    if bodyCap ≤ bo + 8 then []
    else c :: escapedBytes bodyCap (bo + (jsonEscape c).length) rest

/-- The length of the tail after the reserve for its escapes. -/
def tailRoom (cap hn tailLen : ℕ) : ℕ :=
  if cap < 200 + hn + tailLen * 6 + 4 then (cap - 200 - hn - 4) / 6 else tailLen

/-- The bytes that the log document shows. -/
def logShown (cap : ℕ) (path content : List Char) : List Char :=
  let hn := (logHeader path content).flatten.length
  let tail := logTail content
  escapedBytes (cap - 256) hn (tail.take (tailRoom cap hn tail.length))

/-- The errors whose texts are fixed. -/
inductive LogError
  | notConfigured | seekEnd | header | small | truncated

def LogError.status : LogError → ℕ
  | .notConfigured => 503
  | _ => 500

def LogError.message : LogError → String
  | .notConfigured => "log_path not configured"
  | .seekEnd => "seek end failed"
  | .header => "header build failed"
  | .small => "buffer too small"
  | .truncated => "log response truncated"

/-- The answers of `handle_get_log`. -/
inductive LogReply
  | failed (error : LogError)
  | closed (why : List Char)
  | lines (content shown : List Char)

def LogReply.status : LogReply → ℕ
  | .failed error => error.status
  | .closed _ => 503
  | .lines .. => 200

/-- `handle_get_log` with a response buffer of `cap` bytes. -/
def handleGetLog (cap : ℕ) (path : List Char) (file : LogFile) : LogReply :=
  if path = [] then .failed .notConfigured
  else
    match file with
    | .closed why => .closed why
    | .unseekable => .failed .seekEnd
    | .bytes content =>
      let hn := (logHeader path content).flatten.length
      let shown := logShown cap path content
      if 256 ≤ hn then .failed .header
      else if cap < 512 then .failed .small
      else if cap - 256 ≤ hn then .failed .truncated
      else if cap - 256 ≤ hn + (shown.flatMap jsonEscape).length + 3 then .failed .truncated
      else .lines content shown

/-- The format of an error with its text put in. -/
def errorPieces (error : List Char) : List (List Char) :=
  ["\x7b\"ok\":false,\"error\":\"".toList, error, "\"\x7d".toList]

def openError (path why : List Char) : List Char :=
  "open(".toList ++ (path ++ ("): ".toList ++ why))

/-- The body that is sent; the one for a file that does not open is printed into 256 bytes. -/
def LogReply.body (path : List Char) : LogReply → List Char
  | .failed error => (errorPieces error.message.toList).flatten
  | .closed why => (errorPieces (openError path why)).flatten.take 255
  | .lines content shown =>
    (logHeader path content ++ [shown.flatMap jsonEscape, "\"\x7d".toList]).flatten

/-! ## What is shown -/

variable {cap bo : ℕ} {path content why tail : List Char}

theorem walkBack_initial (want seen : ℕ) (l : List Char) : walkBack want seen l <+: l := by
  induction l generalizing seen with
  | nil => exact List.prefix_rfl
  | cons c l ih =>
    rw [walkBack]
    split_ifs
    · exact List.nil_prefix
    · exact (List.prefix_cons_inj c).mpr (ih _)
    · exact (List.prefix_cons_inj c).mpr (ih _)

theorem escapedBytes_initial (bodyCap bo : ℕ) (tail : List Char) :
    escapedBytes bodyCap bo tail <+: tail := by
  induction tail generalizing bo with
  | nil => exact List.prefix_rfl
  | cons c tail ih =>
    rw [escapedBytes]
    split
    · exact List.nil_prefix
    · exact (List.prefix_cons_inj c).mpr (ih _)

/-- The log document shows the last lines from their beginning, as far as there is room. -/
theorem logShown_initial (cap : ℕ) (path content : List Char) :
    logShown cap path content <+: logTail content :=
  (escapedBytes_initial ..).trans (List.take_prefix ..)

/-- The lines are the end of the file. -/
theorem logTail_suffix (content : List Char) : logTail content <:+ content := by
  have hwalk := walkBack_initial logDefaultLines 0 (logRead content).reverse
  rw [← List.reverse_suffix, List.reverse_reverse] at hwalk
  exact hwalk.trans (List.drop_suffix ..)

/-! ## The documents -/

/-- What an answer says. -/
def LogReply.meant (path : List Char) : LogReply → Value
  | .failed error =>
    .obj [("ok".toList, .bool false), ("error".toList, .str error.message.toList)]
  | .closed why => .obj [("ok".toList, .bool false), ("error".toList, .str (openError path why))]
  | .lines content shown =>
    .obj [("ok".toList, .bool true), ("path".toList, .str path),
      ("lines".toList, .num (printInt logDefaultLines)),
      ("bytes".toList, .num (printInt (logTail content).length)),
      ("truncated".toList, .bool (decide (logReadBytes < content.length))),
      ("text".toList, .str shown)]

/-- The path and the reason need no escape, fit, and the bytes shown are whole characters. -/
def LogReply.Sound (path : List Char) : LogReply → Prop
  | .failed _ => True
  | .closed why =>
    path.length + why.length ≤ 224 ∧ Plain path ∧ Utf8 path ∧ Plain why ∧ Utf8 why
  | .lines _ shown => Plain path ∧ Utf8 path ∧ Utf8 shown

def errorHead : Member := .boolean "ok".toList false

def errorMember (error : List Char) : Member := .raw "error".toList error

def logHead : Member := .boolean "ok".toList true

def logMembers (path content shown : List Char) : List Member :=
  [.raw "path".toList path, .int "lines".toList logDefaultLines,
    .int "bytes".toList (logTail content).length,
    .boolean "truncated".toList (decide (logReadBytes < content.length)),
    escapedMember "text".toList shown]

theorem errorPieces_flatten (error : List Char) :
    (errorPieces error).flatten = objText errorHead [errorMember error] := by
  simp only [errorPieces, List.flatten_cons, List.flatten_nil, objText, openText, errorHead,
    errorMember, nextMembers, Member.print, Member.raw, Member.boolean, quoted, List.flatMap_cons,
    List.flatMap_nil, String.reduceToList, Bool.false_eq_true, if_false, List.append_assoc,
    List.cons_append, List.nil_append, List.append_nil]

set_option maxRecDepth 4000 in
theorem logPieces_flatten (path shown : List Char) (lines bytes : ℕ) (truncated : Bool) :
    List.flatten ["\x7b\"ok\":true,\"path\":\"".toList, path, "\",\"lines\":".toList,
      printInt lines, ",\"bytes\":".toList, printInt bytes, ",\"truncated\":".toList,
      printBool truncated, ",\"text\":\"".toList, shown.flatMap jsonEscape, "\"\x7d".toList] =
      objText logHead [.raw "path".toList path, .int "lines".toList lines,
        .int "bytes".toList bytes, .boolean "truncated".toList truncated,
        escapedMember "text".toList shown] := by
  simp only [objText, openText, logHead, nextMembers, Member.print, Member.raw, Member.int,
    Member.number, Member.boolean, escapedMember, jsonQuoted, quoted, printBool,
    List.flatten_cons, List.flatten_nil, List.flatMap_cons, List.flatMap_nil,
    String.reduceToList, if_true, List.append_assoc, List.cons_append, List.nil_append,
    List.append_nil]

theorem logText_eq (path content shown : List Char) :
    (logHeader path content ++ [shown.flatMap jsonEscape, "\"\x7d".toList]).flatten =
      objText logHead (logMembers path content shown) :=
  logPieces_flatten path shown _ _ _

theorem plain_openError : Plain (openError path why) ↔ Plain path ∧ Plain why := by
  have hopen : Plain "open(".toList := by decide +kernel
  have hclose : Plain "): ".toList := by decide +kernel
  rw [openError, plain_append, plain_append, plain_append, and_iff_right hopen,
    and_iff_right hclose]

theorem utf8_openError : Utf8 (openError path why) ↔ Utf8 path ∧ Utf8 why := by
  have hopen : Bare "open(".toList := by decide +kernel
  have hclose : "): ".toList ++ why = ')' :: ':' :: ' ' :: why := rfl
  rw [openError, utf8_ascii_append hopen.ascii, hclose, utf8_append_cons (by decide),
    utf8_cons (by decide), utf8_cons (by decide)]

theorem length_openError (path why : List Char) :
    (errorPieces (openError path why)).flatten.length = path.length + why.length + 31 := by
  have hfront : "\x7b\"ok\":false,\"error\":\"".toList.length = 21 := rfl
  have hopen : "open(".toList.length = 5 := rfl
  have hclose : "): ".toList.length = 3 := rfl
  have hback : "\"\x7d".toList.length = 2 := rfl
  simp only [errorPieces, openError, List.flatten_cons, List.flatten_nil, List.length_append,
    List.length_nil, hfront, hopen, hclose, hback]
  omega

theorem bare_message (error : LogError) : Bare error.message.toList := by
  cases error <;> decide +kernel

theorem sound_errorMember (error : List Char) :
    (∀ x ∈ [errorHead, errorMember error], x.Sound) ↔ Plain error ∧ Utf8 error := by
  rw [List.forall_mem_cons, List.forall_mem_singleton, errorHead, errorMember, sound_raw]
  exact and_iff_right (sound_boolean ..)

theorem text_logReply_iff (path : List Char) (reply : LogReply) :
    Text (reply.body path) (reply.meant path) ↔ reply.Sound path := by
  cases reply with
  | failed error =>
    have hmeant : (LogReply.failed error).meant path =
        objValue errorHead [errorMember error.message.toList] := rfl
    rw [hmeant, LogReply.body, errorPieces_flatten, text_objText_iff, sound_errorMember]
    exact iff_true_intro (bare_message error).sound
  | closed why =>
    have hmeant : (LogReply.closed why).meant path =
        objValue errorHead [errorMember (openError path why)] := rfl
    have hlen : path.length + why.length + 31 ≤ 255 ↔ path.length + why.length ≤ 224 := by omega
    rw [hmeant, LogReply.body, errorPieces_flatten, text_take_iff, sound_errorMember,
      ← errorPieces_flatten,
      length_openError, plain_openError, utf8_openError, LogReply.Sound, hlen]
    tauto
  | lines content shown =>
    have hmeant : (LogReply.lines content shown).meant path =
        objValue logHead (logMembers path content shown) := rfl
    rw [hmeant, LogReply.body, logText_eq, text_objText_iff, LogReply.Sound]
    simp only [logHead, logMembers, List.forall_mem_cons, sound_raw, sound_int, sound_boolean,
      sound_escapedMember, List.not_mem_nil, false_implies, implies_true, true_and, and_true,
      and_assoc]

end OpenEVCharger
