import OpenEVCharger.Companion.Discovery
import OpenEVCharger.Companion.WebRollback

/-!
# The JSON that is emitted

The bodies of the web server and the discovery documents, each with what it means to say and the
condition under which a reader gets that from it: the strings that go out as they are need no
escape, and a document that is printed into a buffer of its own is not cut.
-/

namespace OpenEVCharger

open Json

/-- The buffer of the state and of the configuration. -/
def jsonBodyCap : ℕ := 2048

/-- A body, with what it is made from. -/
inductive JsonBody
  | state (ws : WebServer) (scan : LastScan)
  | config (c : Config)
  | log (cap : ℕ) (path : List Char) (file : LogFile)
  | discovery (a : AdapterCtx) (e : Entity) (announced : e ∈ publishAllDiscovery a)

/-- The text, when one is emitted. -/
def JsonBody.text : JsonBody → Option (List Char)
  | .state ws scan => buildStateJson jsonBodyCap ws scan
  | .config c => buildConfigJson jsonBodyCap c
  | .log cap path file => some ((handleGetLog cap path file).body path)
  | .discovery a e _ => (e.message a).payload a

def JsonBody.meant : JsonBody → Value
  | .state ws scan => stateMeant ws scan
  | .config c => configMeant c
  | .log cap path file => (handleGetLog cap path file).meant path
  | .discovery a e _ => e.meant a

/-- There is room for the lines of the log behind the header. -/
def LinesFit (cap : ℕ) (path content : List Char) : Prop :=
  (logHeader path content).flatten.length < 256 ∧ 512 ≤ cap ∧
    (logHeader path content).flatten.length +
      ((logShown cap path content).flatMap jsonEscape).length + 3 < cap - 256

def LogSound (cap : ℕ) (path : List Char) : LogFile → Prop
  | .closed why => path ≠ [] →
    path.length + why.length ≤ 224 ∧ Plain path ∧ Utf8 path ∧ Plain why ∧ Utf8 why
  | .unseekable => True
  | .bytes content => path ≠ [] → LinesFit cap path content →
    Plain path ∧ Utf8 path ∧ Utf8 (logShown cap path content)

def JsonBody.Sound : JsonBody → Prop
  | .state ws _ => Plain (webDeviceId ws) ∧ Utf8 (webDeviceId ws)
  | .config c => ConfigUtf8 c
  | .log cap path file => LogSound cap path file
  | .discovery a e _ => e.Sound a

variable {cap : ℕ} {path content text : List Char} {c : Config}

theorem handleGetLog_bytes (hpath : path ≠ []) :
    (LinesFit cap path content ∧ handleGetLog cap path (.bytes content) =
        .lines content (logShown cap path content)) ∨
      (¬ LinesFit cap path content ∧
        ∃ error, handleGetLog cap path (.bytes content) = .failed error) := by
  rw [handleGetLog, if_neg hpath, LinesFit]
  dsimp only
  split_ifs with hheader hsmall hstart hend
  · exact .inr ⟨by omega, _, rfl⟩
  · exact .inr ⟨by omega, _, rfl⟩
  · exact .inr ⟨by omega, _, rfl⟩
  · exact .inr ⟨by omega, _, rfl⟩
  · exact .inl ⟨by omega, rfl⟩

theorem sound_handleGetLog (cap : ℕ) (path : List Char) (file : LogFile) :
    (handleGetLog cap path file).Sound path ↔ LogSound cap path file := by
  by_cases hpath : path = []
  · have hnone : handleGetLog cap path file = .failed .notConfigured := if_pos hpath
    rw [hnone]
    cases file with
    | closed why => exact iff_of_true trivial fun h => absurd hpath h
    | unseekable => exact iff_of_true trivial trivial
    | bytes content => exact iff_of_true trivial fun h => absurd hpath h
  · cases file with
    | closed why =>
      have hclosed : handleGetLog cap path (.closed why) = .closed why := if_neg hpath
      rw [hclosed]
      exact ⟨fun h _ => h, fun h => h hpath⟩
    | unseekable =>
      have hfailed : handleGetLog cap path .unseekable = .failed .seekEnd := if_neg hpath
      rw [hfailed]
      exact Iff.rfl
    | bytes content =>
      obtain ⟨hfit, hlines⟩ | ⟨hfit, error, hfailed⟩ := handleGetLog_bytes hpath
      · rw [hlines]
        exact ⟨fun h _ _ => h, fun h => h hpath hfit⟩
      · rw [hfailed]
        exact iff_of_true trivial fun _ h => absurd h hfit

theorem buildConfigJson_some (h : buildConfigJson jsonBodyCap c = some text) :
    text = configDocument c := by
  rw [buildConfigJson_eq (by decide)] at h
  split at h
  · exact (Option.some.inj h).symm
  · cases h

/-- A body that is emitted is read as what it means exactly when its strings need no escape where
none is made, are UTF-8, and nothing was cut off. -/
theorem json_body_reads_iff (b : JsonBody) (h : b.text = some text) :
    Text text b.meant ↔ b.Sound := by
  cases b with
  | state ws scan => exact text_buildStateJson_iff h
  | config c =>
    rw [buildConfigJson_some h]
    exact text_configDocument_iff c
  | log cap path file =>
    cases h
    exact (text_logReply_iff path _).trans (sound_handleGetLog cap path file)
  | discovery a e announced => exact text_payload_iff (fixed_publishAllDiscovery a e announced) h

def noScan : LastScan := ⟨[], 0⟩

theorem json_body_reads_fresh :
    ∃ text, (JsonBody.state freshServer noScan).text = some text ∧
      Text text (JsonBody.state freshServer noScan).meant := by
  have hsome : (JsonBody.state freshServer noScan).text.isSome = true := by decide +kernel
  have hsound : (JsonBody.state freshServer noScan).Sound :=
    Bare.sound (show Bare (webDeviceId freshServer) by decide +kernel)
  obtain ⟨text, htext⟩ := Option.isSome_iff_exists.mp hsome
  exact ⟨text, htext, (json_body_reads_iff _ htext).mpr hsound⟩

/-- The server of a device whose name has a quote in it. -/
def quoteConfig : Config :=
  { configDefaults with
    str := Function.update configDefaults.str .deviceId (setStr "a\"b".toList) }

def quoteServer : WebServer := webServerStart quoteConfig none none

/-- Its state is not JSON. -/
theorem quote_breaks_state : ¬ ∀ b text, JsonBody.text b = some text → ∃ v, Text text v := by
  intro h
  have hbroken : (JsonBody.state quoteServer noScan).text.map (fun t => (parse t).isNone) =
      some true := by decide +kernel
  obtain ⟨text, htext, hnone⟩ := Option.map_eq_some_iff.mp hbroken
  obtain ⟨v, -, hparse⟩ := h _ _ htext
  rw [hparse] at hnone
  cases hnone

end OpenEVCharger
