import FrameProcessor.ConfigManager.Reload

/-!
# components/config_manager - What an API response can break

`parse_config_json` reads every lookup through an error code: only the `streams` array
is mandatory, and a file without `global_settings` gets the default log level.
`update_local_config_from_api` converts both lookups in the same file to elements, so
there `global_settings` is mandatory as well.  A file that loads may thus still end the
process when a response arrives.

What a call that returns leaves behind is loadable: the text written holds two sections
of the document that was loaded.

Main results:

- Theorem `ConfigManager.updateLocalConfigFromApi_returns_iff`: on a file that loads, when
  the call returns.
- Theorem `ConfigManager.afterCalls_parseConfigJson`: no sequence of responses changes what
  the file parses to.
-/

namespace FrameProcessor

namespace ConfigManager

/-! ## Files that load -/

/-- A file that loads is a document with a `streams` array. -/
theorem parseConfigJson_isSome {self : ConfigManager} {lib : Simdjson} {text : Bytes}
    {config : GlobalConfig} (h : self.parseConfigJson lib (some text) = some config) :
    ∃ doc streams streamsArr, lib.parse text = .ok doc ∧ doc.atKey "streams" = .ok streams ∧
      streams.getArray = .ok streamsArr := by
  unfold parseConfigJson Simdjson.load at h
  cases hdoc : lib.parse text with
  | error code => simp [hdoc] at h
  | ok doc =>
      cases hstreams : doc.atKey "streams" with
      | error code =>
          have hbind : doc.atKey "streams" >>= Json.getArray = .error code := by
            rw [hstreams]
            rfl
          simp [hdoc, hbind] at h
      | ok streams =>
          have hbind : doc.atKey "streams" >>= Json.getArray = streams.getArray := by
            rw [hstreams]
            rfl
          cases harr : streams.getArray with
          | error code => simp [hdoc, hbind, harr] at h
          | ok streamsArr => exact ⟨doc, streams, streamsArr, rfl, hstreams, harr⟩

/-- Parsing depends on the two sections only. -/
theorem parseConfigJson_congr {self : ConfigManager} {lib : Simdjson} {text text' : Bytes}
    {doc doc' : Json} (hdoc : lib.parse text = .ok doc) (hdoc' : lib.parse text' = .ok doc')
    (hglobal : doc'.atKey "global_settings" = doc.atKey "global_settings")
    (hstreams : doc'.atKey "streams" = doc.atKey "streams") :
    self.parseConfigJson lib (some text') = self.parseConfigJson lib (some text) := by
  unfold parseConfigJson Simdjson.load
  simp only [hdoc, hdoc', hglobal, hstreams]

/-! ## Calls that throw -/

/-- With a response that is JSON and a local document with `streams` but without
`global_settings`, the conversion of the failed lookup throws. -/
theorem mergeDocuments_threw {lib : Simdjson} {apiJsonStr localText : Bytes}
    {apiDoc localDoc : Json} {code : ErrorCode} (hapi : lib.parse apiJsonStr = .ok apiDoc)
    (hlocal : lib.parse localText = .ok localDoc)
    (hglobal : localDoc.atKey "global_settings" = .error code) :
    mergeDocuments lib apiJsonStr (some localText) = .threw code := by
  simp [mergeDocuments, Parser.read, hapi, Simdjson.load, hlocal, mergeElements,
    Parser.atKey_root_error hglobal]

/-- A response that is not JSON stops the call before it reads the file. -/
theorem mergeDocuments_failed {lib : Simdjson} {apiJsonStr : Bytes} {file : Option Bytes}
    {code : ErrorCode} (hapi : lib.parse apiJsonStr = .error code) :
    mergeDocuments lib apiJsonStr file = .failed := by
  simp [mergeDocuments, Parser.read, hapi]

/-- The response is a JSON text. -/
def IsJson (lib : Simdjson) (text : Bytes) : Prop :=
  ∃ doc, lib.parse text = .ok doc

/-- The file's document has a `global_settings` member. -/
def HasGlobalSettings (lib : Simdjson) (file : Option Bytes) : Prop :=
  ∃ doc globalSettings, lib.load file = .ok doc ∧
    doc.atKey "global_settings" = .ok globalSettings

/-- For every file that loads, every body and every outcome of the file operations, the
call returns exactly when the body is not JSON or the file has `global_settings`. -/
theorem updateLocalConfigFromApi_returns_iff {self : ConfigManager} {lib : Simdjson}
    {files : ConfigFiles} (hload : (self.parseConfigJson lib files.config).isSome = true)
    (ops : FileOps) (apiJsonStr : Bytes) :
    (∃ ok, (updateLocalConfigFromApi lib ops apiJsonStr files).1 = .returned ok) ↔
      ¬ IsJson lib apiJsonStr ∨ HasGlobalSettings lib files.config := by
  rcases files with ⟨file, temp⟩
  cases file with
  | none => simp [parseConfigJson, Simdjson.load] at hload
  | some text =>
      rcases Option.isSome_iff_exists.mp hload with ⟨config, hconfig⟩
      rcases parseConfigJson_isSome hconfig with ⟨doc, streams, streamsArr, hdoc, hstreams, -⟩
      cases hapi : lib.parse apiJsonStr with
      | error code =>
          apply iff_of_true
          · exact ⟨false, by simp [updateLocalConfigFromApi, mergeDocuments_failed hapi]⟩
          · left
            rintro ⟨apiDoc, hjson⟩
            rw [hapi] at hjson
            cases hjson
      | ok apiDoc =>
          cases hglobal : doc.atKey "global_settings" with
          | ok globalSettings =>
              apply iff_of_true
              · have hmerge := mergeDocuments_eq hapi hdoc hglobal hstreams
                let content := mergedText lib globalSettings streams
                exact ⟨(replaceConfig ops content ⟨some text, temp⟩).1,
                  by simp [updateLocalConfigFromApi, hmerge, content]⟩
              · right
                exact ⟨doc, globalSettings, hdoc, hglobal⟩
          | error code =>
              apply iff_of_false
              · rintro ⟨ok, hreturned⟩
                simp [updateLocalConfigFromApi, mergeDocuments_threw hapi hdoc hglobal] at hreturned
              · rintro (hnot | ⟨doc', globalSettings, hdoc', hglobal'⟩)
                · exact hnot ⟨apiDoc, hapi⟩
                · have hsame : doc = doc' := by simpa [Simdjson.load, hdoc] using hdoc'
                  rw [← hsame, hglobal] at hglobal'
                  cases hglobal'

/-- The empty object. -/
def emptyObjectText : Bytes :=
  Bytes.ofString "\x7b\x7d"

/-- The empty array. -/
def emptyArrayText : Bytes :=
  Bytes.ofString "[]"

/-- A file without `global_settings`. -/
def streamsOnlyText : Bytes :=
  Bytes.ofString "\x7b\"streams\":[]\x7d"

/-- simdjson on the empty sections, on the files that hold them, and on their merged text. -/
def emptyLibrary : Simdjson where
  parse text :=
    if text = emptyConfigText ∨ text = emptyMergedText then
      .ok (.object [("global_settings", .object []), ("streams", .array [])])
    else if text = streamsOnlyText then .ok (.object [("streams", .array [])])
    else if text = emptyObjectText then .ok (.object [])
    else if text = emptyArrayText then .ok (.array [])
    else .error .tapeError
  minify
    | .object [] => emptyObjectText
    | .array [] => emptyArrayText
    | _ => Bytes.ofString "null"

/-- An empty object as the response to a file with both sections. -/
theorem updateLocalConfigFromApi_returns_empty :
    ∃ ok, (updateLocalConfigFromApi emptyLibrary .success emptyObjectText
      ⟨some emptyConfigText, none⟩).1 = .returned ok := by
  have hload : (({} : ConfigManager).parseConfigJson emptyLibrary
      (some emptyConfigText)).isSome = true := by decide
  exact (updateLocalConfigFromApi_returns_iff hload .success emptyObjectText).mpr
    (Or.inr ⟨_, _, rfl, rfl⟩)

/-- An empty object as the response to a loadable file without `global_settings`: the call
throws. -/
theorem updateLocalConfigFromApi_throws_empty :
    ¬ ∀ (self : ConfigManager) (lib : Simdjson) (files : ConfigFiles),
      (self.parseConfigJson lib files.config).isSome = true → ∀ (ops : FileOps) (body : Bytes),
        ∃ ok, (updateLocalConfigFromApi lib ops body files).1 = .returned ok := by
  intro hall
  have hload : (({} : ConfigManager).parseConfigJson emptyLibrary
      (some streamsOnlyText)).isSome = true := by decide
  rcases hall {} emptyLibrary ⟨some streamsOnlyText, none⟩ hload .success emptyObjectText with
    ⟨ok, hreturned⟩
  have hthrew : (updateLocalConfigFromApi emptyLibrary .success emptyObjectText
      ⟨some streamsOnlyText, none⟩).1 = .threw .noSuchField := by decide
  rw [hthrew] at hreturned
  cases hreturned

/-- A response whose call throws ends the cycle, and with it the reloader. -/
theorem poll_eq_none_iff {lib : Simdjson} {ops : FileOps} {apiJsonStr : Bytes} {s : Reloader} :
    poll lib (some (apiJsonStr, ops)) s = none ↔
      ¬ ∃ ok, (updateLocalConfigFromApi lib ops apiJsonStr s.files).1 = .returned ok := by
  unfold poll
  cases h : updateLocalConfigFromApi lib ops apiJsonStr s.files with
  | mk outcome files => cases outcome <;> simp [h]

/-! ## Sequences of responses -/

/-- What the program relies on when it writes elements into a text: minifying an element
and parsing the result gives back its value, and the object notation of two sections reads
back as the object with these sections. -/
structure RoundTrips (lib : Simdjson) : Prop where
  minify_parse : ∀ {text doc key section'}, lib.parse text = .ok doc →
    doc.atKey key = .ok section' → lib.parse (lib.minify section') = .ok section'
  object_parse : ∀ {text doc globalSettings streams}, lib.parse text = .ok doc →
    doc.atKey "global_settings" = .ok globalSettings → doc.atKey "streams" = .ok streams →
    lib.parse (lib.minify globalSettings) = .ok globalSettings →
    lib.parse (lib.minify streams) = .ok streams → ReadsBack lib globalSettings streams

/-- The sections of a loaded document survive being written and read again. -/
theorem RoundTrips.readsBack {lib : Simdjson} (h : RoundTrips lib) {text : Bytes}
    {doc globalSettings streams : Json} (hdoc : lib.parse text = .ok doc)
    (hglobal : doc.atKey "global_settings" = .ok globalSettings)
    (hstreams : doc.atKey "streams" = .ok streams) : ReadsBack lib globalSettings streams :=
  h.object_parse hdoc hglobal hstreams (h.minify_parse hdoc hglobal) (h.minify_parse hdoc hstreams)

/-- The files after a sequence of calls whose file operations succeed.  A call that throws
leaves the files alone, and the next one is made by a restarted process. -/
def afterCalls (lib : Simdjson) (bodies : List Bytes) (files : ConfigFiles) : ConfigFiles :=
  bodies.foldl (fun files body => (updateLocalConfigFromApi lib .success body files).2) files

/-- One call keeps what the file parses to. -/
theorem updateLocalConfigFromApi_parseConfigJson {self : ConfigManager} {lib : Simdjson}
    (hround : RoundTrips lib) {files : ConfigFiles} {config : GlobalConfig}
    (hparse : self.parseConfigJson lib files.config = some config) (body : Bytes) :
    self.parseConfigJson lib (updateLocalConfigFromApi lib .success body files).2.config =
      some config := by
  rcases files with ⟨file, temp⟩
  cases file with
  | none => simp [parseConfigJson, Simdjson.load] at hparse
  | some text =>
      rcases parseConfigJson_isSome hparse with ⟨doc, streams, streamsArr, hdoc, hstreams, -⟩
      cases hapi : lib.parse body with
      | error code =>
          simp only [updateLocalConfigFromApi, mergeDocuments_failed hapi]
          exact hparse
      | ok apiDoc =>
          cases hglobal : doc.atKey "global_settings" with
          | error code =>
              simp only [updateLocalConfigFromApi, mergeDocuments_threw hapi hdoc hglobal]
              exact hparse
          | ok globalSettings =>
              rw [updateLocalConfigFromApi_success hapi hdoc hglobal hstreams]
              have hread := hround.readsBack hdoc hglobal hstreams
              rw [← hparse]
              apply parseConfigJson_congr hdoc hread
              · rw [hglobal]
                simp [Json.atKey]
              · rw [hstreams]
                simp [Json.atKey, List.lookup_cons]

/-- For every file that loads and every sequence of responses, the file still loads after
each call, and as the same configuration. -/
theorem afterCalls_parseConfigJson {self : ConfigManager} {lib : Simdjson}
    (hround : RoundTrips lib) {files : ConfigFiles} {config : GlobalConfig}
    (hparse : self.parseConfigJson lib files.config = some config) (bodies : List Bytes) :
    self.parseConfigJson lib (afterCalls lib bodies files).config = some config := by
  induction bodies generalizing files with
  | nil => exact hparse
  | cons body bodies ih =>
      have hstep := updateLocalConfigFromApi_parseConfigJson hround hparse body
      exact ih hstep

/-- The documents of the sample library. -/
theorem emptyLibrary_parse {text : Bytes} {doc : Json} (h : emptyLibrary.parse text = .ok doc) :
    doc = .object [("global_settings", .object []), ("streams", .array [])] ∨
      doc = .object [("streams", .array [])] ∨ doc = .object [] ∨ doc = .array [] := by
  simp only [emptyLibrary] at h
  split at h
  · left
    simpa using h.symm
  · split at h
    · right; left
      simpa using h.symm
    · split at h
      · right; right; left
        simpa using h.symm
      · split at h
        · right; right; right
          simpa using h.symm
        · cases h

/-- The sections of these documents are empty. -/
theorem emptyLibrary_section {text : Bytes} {doc member : Json} {key : String}
    (h : emptyLibrary.parse text = .ok doc) (hmember : doc.atKey key = .ok member) :
    key = "global_settings" ∧ member = .object [] ∨ key = "streams" ∧ member = .array [] := by
  rcases Json.atKey_eq_ok_iff.mp hmember with ⟨fields, rfl, hlookup⟩
  have hmem : (key, member) ∈ fields := by
    rcases List.lookup_eq_some_iff.mp hlookup with ⟨before, after, rfl, -⟩
    simp
  rcases emptyLibrary_parse h with hdoc | hdoc | hdoc | hdoc
  · cases hdoc
    simpa using hmem
  · cases hdoc
    right
    simpa using hmem
  · cases hdoc
    cases hmem
  · cases hdoc

/-- The sample library round-trips. -/
theorem emptyLibrary_roundTrips : RoundTrips emptyLibrary := by
  constructor
  · intro text doc key member hdoc hmember
    rcases emptyLibrary_section hdoc hmember with ⟨-, rfl⟩ | ⟨-, rfl⟩ <;> rfl
  · intro text doc globalSettings streams hdoc hglobal hstreams _ _
    rcases emptyLibrary_section hdoc hglobal with ⟨-, rfl⟩ | ⟨hkey, -⟩
    · rcases emptyLibrary_section hdoc hstreams with ⟨hkey, -⟩ | ⟨-, rfl⟩
      · simp at hkey
      · rfl
    · simp at hkey

/-- Three responses, one of them not JSON, against the file with empty sections. -/
theorem afterCalls_parseConfigJson_empty :
    (({} : ConfigManager).parseConfigJson emptyLibrary
      (afterCalls emptyLibrary [emptyObjectText, [], streamsOnlyText]
        ⟨some emptyConfigText, none⟩).config) = some {} :=
  afterCalls_parseConfigJson emptyLibrary_roundTrips rfl _

end ConfigManager

end FrameProcessor
