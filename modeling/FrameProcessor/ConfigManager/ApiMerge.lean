import FrameProcessor.Utils.Simdjson

/-!
# components/config_manager - Merging an API response into the local file

`update_local_config_from_api` parses the response and the local file with one
parser, picks the two sections, writes the merged text to a temporary file and
renames it over the configuration file.  The model keeps the two halves apart:
`mergeDocuments` decides what is to be written, `replaceConfig` performs the file
operations with every outcome they can have.

The second use of the parser replaces the document the response's element refers to,
so the merge never sees the response.  The write is never checked, so a short write
is renamed into place.

Main results:

- Theorem `mergeDocuments_eq`: whatever object the response is, the merged text holds
  the local file's own sections.
- Theorem `updateLocalConfigFromApi_merge_iff`: when the merge law holds.
- Theorem `updateLocalConfigFromApi_atomic_iff`: when the replacement is atomic.
-/

namespace FrameProcessor

namespace ConfigManager

/-! ## Deciding what to write -/

/-- The text `new_json_content` built from the two chosen sections. -/
def mergedText (lib : Simdjson) (globalSettings streams : Json) : Bytes :=
  Bytes.ofString "\x7b\n  \"global_settings\": " ++ lib.minify globalSettings ++
    Bytes.ofString ",\n  \"streams\": " ++ lib.minify streams ++ Bytes.ofString "\n\x7d"

/-- `simdjson::minify` of an element, which reads the parser's current document. -/
def minifyElement (lib : Simdjson) (parser : Parser) (element : Element) : Bytes :=
  lib.minify ((parser.value element).getD .null)

/-- How the function gets past its merge logic. -/
inductive MergeResult where
  /-- A document could not be parsed or loaded; the function returns `false`. -/
  | failed
  /-- A lookup that failed was converted to an element; the exception leaves. -/
  | threw (code : ErrorCode)
  /-- The response has no section to merge; the function returns `true`. -/
  | noNewData
  /-- The text to write. -/
  | merged (content : Bytes)
deriving DecidableEq

/-- The merge logic over the two elements, after both documents were read. -/
def mergeElements (lib : Simdjson) (parser : Parser) (apiDoc localDoc : Element) : MergeResult :=
  match parser.atKey localDoc "global_settings" with
  | .error code => .threw code
  | .ok localGlobalSettings =>
    match parser.atKey localDoc "streams" with
    | .error code => .threw code
    | .ok localStreams =>
      let apiGlobalSettings := (parser.atKey apiDoc "global_settings").toOption
      let apiStreams := (parser.atKey apiDoc "streams").toOption
      if apiGlobalSettings.isSome || apiStreams.isSome then
        let finalGlobalSettings := apiGlobalSettings.getD localGlobalSettings
        let finalStreams := apiStreams.getD localStreams
        .merged (Bytes.ofString "\x7b\n  \"global_settings\": " ++
          minifyElement lib parser finalGlobalSettings ++
          Bytes.ofString ",\n  \"streams\": " ++ minifyElement lib parser finalStreams ++
          Bytes.ofString "\n\x7d")
      else .noNewData

/-- The function up to the write: one parser reads the response, then the local file. -/
def mergeDocuments (lib : Simdjson) (apiJsonStr : Bytes) (configFile : Option Bytes) :
    MergeResult :=
  match Parser.read (lib.parse apiJsonStr) with
  | (.error _, _) => .failed
  | (.ok apiDoc, _) =>
    -- the load overwrites the parser's document; apiDoc keeps only its tape index
    match Parser.read (lib.load configFile) with
    | (.error _, _) => .failed
    | (.ok localDoc, parser) => mergeElements lib parser apiDoc localDoc

/-! ## Writing and renaming -/

/-- How much of what is written reaches the temporary file; a failure at close loses the
bytes still buffered, like a short write. -/
inductive WriteOutcome where
  | full
  | short (reached : Nat)
deriving DecidableEq

/-- The bytes that reach the file. -/
def WriteOutcome.reaches (outcome : WriteOutcome) (content : Bytes) : Bytes :=
  match outcome with
  | .full => content
  | .short reached => content.take reached

/-- Every byte of a text of this length reaches the file. -/
def WriteOutcome.Complete (outcome : WriteOutcome) (length : Nat) : Prop :=
  match outcome with
  | .full => True
  | .short reached => length ≤ reached

/-- The outcomes of the file operations of one call. -/
structure FileOps where
  openTemp : Bool
  write : WriteOutcome
  rename : Bool
deriving DecidableEq

/-- Every file operation succeeds. -/
def FileOps.success : FileOps where
  openTemp := true
  write := .full
  rename := true

/-- The two files the function touches: `config_path_` and `config_path_ + ".tmp"`. -/
structure ConfigFiles where
  config : Option Bytes
  temp : Option Bytes
deriving DecidableEq

/-- The atomic-write block: truncate and write the temporary file, then rename it.  The
stream's state is not looked at after the write. -/
def replaceConfig (ops : FileOps) (content : Bytes) (files : ConfigFiles) : Bool × ConfigFiles :=
  if ops.openTemp then
    let written := ops.write.reaches content
    if ops.rename then (true, { config := some written, temp := none })
    else (false, { files with temp := none })
  else (false, files)

/-- How the call ends. -/
inductive UpdateOutcome where
  | returned (ok : Bool)
  | threw (code : ErrorCode)
deriving DecidableEq

/-- `ConfigManager::update_local_config_from_api`. -/
def updateLocalConfigFromApi (lib : Simdjson) (ops : FileOps) (apiJsonStr : Bytes)
    (files : ConfigFiles) : UpdateOutcome × ConfigFiles :=
  match mergeDocuments lib apiJsonStr files.config with
  | .failed => (.returned false, files)
  | .threw code => (.threw code, files)
  | .noNewData => (.returned true, files)
  | .merged content =>
      let (ok, files') := replaceConfig ops content files
      (.returned ok, files')

/-! ## The merge reads the local file twice -/

/-- Whatever the response is, the merged text holds the local file's own sections: the
response's element denotes the local document by the time it is read. -/
theorem mergeDocuments_eq {lib : Simdjson} {apiJsonStr localText : Bytes}
    {apiDoc localDoc globalSettings streams : Json} (hapi : lib.parse apiJsonStr = .ok apiDoc)
    (hlocal : lib.parse localText = .ok localDoc)
    (hglobal : localDoc.atKey "global_settings" = .ok globalSettings)
    (hstreams : localDoc.atKey "streams" = .ok streams) :
    mergeDocuments lib apiJsonStr (some localText) =
      .merged (mergedText lib globalSettings streams) := by
  rcases Parser.atKey_root hglobal with ⟨globalElement, hglobalKey, hglobalValue⟩
  rcases Parser.atKey_root hstreams with ⟨streamsElement, hstreamsKey, hstreamsValue⟩
  simp [mergeDocuments, Parser.read, hapi, Simdjson.load, hlocal, mergeElements, hglobalKey,
    hstreamsKey, minifyElement, hglobalValue, hstreamsValue, mergedText, Except.toOption]

/-- With working files the call then writes exactly that text. -/
theorem updateLocalConfigFromApi_success {lib : Simdjson} {apiJsonStr localText : Bytes}
    {temp : Option Bytes} {apiDoc localDoc globalSettings streams : Json}
    (hapi : lib.parse apiJsonStr = .ok apiDoc) (hlocal : lib.parse localText = .ok localDoc)
    (hglobal : localDoc.atKey "global_settings" = .ok globalSettings)
    (hstreams : localDoc.atKey "streams" = .ok streams) :
    updateLocalConfigFromApi lib .success apiJsonStr ⟨some localText, temp⟩ =
      (.returned true, ⟨some (mergedText lib globalSettings streams), none⟩) := by
  simp [updateLocalConfigFromApi, mergeDocuments_eq hapi hlocal hglobal hstreams, replaceConfig,
    FileOps.success, WriteOutcome.reaches]

/-! ## The merge law -/

/-- What a merge is for: each section is the response's if it has one and the previous
one otherwise, and a response with neither section leaves the file as it was. -/
structure MergeLaw (lib : Simdjson) (apiFields localFields : List (String × Json))
    (localText : Bytes) (after : ConfigFiles) : Prop where
  sections : ∃ text fields, after.config = some text ∧ lib.parse text = .ok (.object fields) ∧
    fields.lookup "global_settings" =
      (apiFields.lookup "global_settings").or (localFields.lookup "global_settings") ∧
    fields.lookup "streams" = (apiFields.lookup "streams").or (localFields.lookup "streams")
  untouched : apiFields.lookup "global_settings" = none → apiFields.lookup "streams" = none →
    after.config = some localText

/-- The response repeats the local sections it has, or has none and the local file already
has the layout the function writes. -/
structure RepeatsLocal (lib : Simdjson) (apiFields : List (String × Json))
    (globalSettings streams : Json) (localText : Bytes) : Prop where
  globalSettings_eq : ∀ value, apiFields.lookup "global_settings" = some value →
    value = globalSettings
  streams_eq : ∀ value, apiFields.lookup "streams" = some value → value = streams
  layout : apiFields.lookup "global_settings" = none → apiFields.lookup "streams" = none →
    localText = mergedText lib globalSettings streams

/-- simdjson reads the merged text back as the two sections it was written from. -/
def ReadsBack (lib : Simdjson) (globalSettings streams : Json) : Prop :=
  lib.parse (mergedText lib globalSettings streams) =
    .ok (.object [("global_settings", globalSettings), ("streams", streams)])

private theorem or_some_eq_iff {α : Type*} {o : Option α} {a : α} :
    some a = o.or (some a) ↔ ∀ value, o = some value → value = a := by
  cases o with
  | none => simp
  | some b => simp [eq_comm]

/-- For a local file with both sections, a response that is an object, and working file
operations, the merge law holds exactly when the response has nothing new. -/
theorem updateLocalConfigFromApi_merge_iff {lib : Simdjson} {apiJsonStr localText : Bytes}
    {temp : Option Bytes} {apiFields localFields : List (String × Json)}
    {globalSettings streams : Json} (hapi : lib.parse apiJsonStr = .ok (.object apiFields))
    (hlocal : lib.parse localText = .ok (.object localFields))
    (hglobal : localFields.lookup "global_settings" = some globalSettings)
    (hstreams : localFields.lookup "streams" = some streams)
    (hround : ReadsBack lib globalSettings streams) :
    (∀ after, updateLocalConfigFromApi lib .success apiJsonStr ⟨some localText, temp⟩ =
        (.returned true, after) → MergeLaw lib apiFields localFields localText after) ↔
      RepeatsLocal lib apiFields globalSettings streams localText := by
  have hglobalKey : (Json.object localFields).atKey "global_settings" = .ok globalSettings :=
    Json.atKey_eq_ok_iff.mpr ⟨localFields, rfl, hglobal⟩
  have hstreamsKey : (Json.object localFields).atKey "streams" = .ok streams :=
    Json.atKey_eq_ok_iff.mpr ⟨localFields, rfl, hstreams⟩
  rw [updateLocalConfigFromApi_success hapi hlocal hglobalKey hstreamsKey]
  have hlookup : ([("global_settings", globalSettings), ("streams", streams)] :
      List (String × Json)).lookup "global_settings" = some globalSettings := by
    simp
  have hlookup' : ([("global_settings", globalSettings), ("streams", streams)] :
      List (String × Json)).lookup "streams" = some streams := by
    simp [List.lookup_cons]
  constructor
  · intro hlaw
    have hafter := hlaw _ rfl
    rcases hafter.sections with ⟨text, fields, htext, hparse, hgs, hst⟩
    have htext : mergedText lib globalSettings streams = text := Option.some.inj htext
    rw [← htext, hround] at hparse
    have hfields : [("global_settings", globalSettings), ("streams", streams)] = fields := by
      simpa using hparse
    subst hfields
    rw [hlookup, hglobal] at hgs
    rw [hlookup', hstreams] at hst
    refine ⟨or_some_eq_iff.mp hgs, or_some_eq_iff.mp hst, ?_⟩
    intro hnone hnone'
    exact (Option.some.inj (hafter.untouched hnone hnone')).symm
  · rintro hrepeat after hafter
    cases hafter
    constructor
    · refine ⟨_, _, rfl, hround, ?_, ?_⟩
      · rw [hlookup, hglobal]
        exact or_some_eq_iff.mpr hrepeat.globalSettings_eq
      · rw [hlookup', hstreams]
        exact or_some_eq_iff.mpr hrepeat.streams_eq
    · intro hnone hnone'
      exact congrArg some (hrepeat.layout hnone hnone').symm

/-- A small file with empty sections. -/
def emptyConfigText : Bytes :=
  Bytes.ofString "\x7b\"global_settings\":\x7b\x7d,\"streams\":[]\x7d"

/-- A response that repeats the empty stream list. -/
def sameStreamsText : Bytes :=
  Bytes.ofString "\x7b\"streams\":[]\x7d"

/-- A response with a new stream list. -/
def newStreamsText : Bytes :=
  Bytes.ofString "\x7b\"streams\":[1]\x7d"

/-- The merged text for empty sections. -/
def emptyMergedText : Bytes :=
  Bytes.ofString "\x7b\n  \"global_settings\": \x7b\x7d,\n  \"streams\": []\n\x7d"

/-- simdjson on the texts above. -/
def sampleLibrary : Simdjson where
  parse text :=
    if text = emptyConfigText ∨ text = emptyMergedText then
      .ok (.object [("global_settings", .object []), ("streams", .array [])])
    else if text = sameStreamsText then .ok (.object [("streams", .array [])])
    else if text = newStreamsText then .ok (.object [("streams", .array [.int64 1])])
    else .error .tapeError
  minify
    | .object [] => Bytes.ofString "\x7b\x7d"
    | .array [] => Bytes.ofString "[]"
    | .array [.int64 1] => Bytes.ofString "[1]"
    | _ => Bytes.ofString "null"

/-- A response that repeats what the file holds is merged lawfully. -/
theorem updateLocalConfigFromApi_merge_same :
    updateLocalConfigFromApi sampleLibrary .success sameStreamsText ⟨some emptyConfigText, none⟩ =
        (.returned true, ⟨some emptyMergedText, none⟩) ∧
      MergeLaw sampleLibrary [("streams", .array [])]
        [("global_settings", .object []), ("streams", .array [])] emptyConfigText
        ⟨some emptyMergedText, none⟩ := by
  have hapi : sampleLibrary.parse sameStreamsText = .ok (.object [("streams", .array [])]) := rfl
  have hlocal : sampleLibrary.parse emptyConfigText =
      .ok (.object [("global_settings", .object []), ("streams", .array [])]) :=
    rfl
  have hround : ReadsBack sampleLibrary (.object []) (.array []) := rfl
  have hreturned : updateLocalConfigFromApi sampleLibrary .success sameStreamsText
      ⟨some emptyConfigText, none⟩ = (.returned true, ⟨some emptyMergedText, none⟩) :=
    rfl
  have hrepeats : RepeatsLocal sampleLibrary [("streams", .array [])] (.object []) (.array [])
      emptyConfigText := by
    refine ⟨?_, ?_, ?_⟩
    · intro value hvalue
      simp [List.lookup_cons] at hvalue
    · intro value hvalue
      simpa [eq_comm] using hvalue
    · intro _ hnone
      simp at hnone
  refine ⟨hreturned, ?_⟩
  exact (updateLocalConfigFromApi_merge_iff hapi hlocal rfl rfl hround).mpr hrepeats _ hreturned

/-- A new stream list in the response is lost: the call returns `true` and the file still
holds the old one. -/
theorem updateLocalConfigFromApi_merge_lost :
    ¬ ∀ after, updateLocalConfigFromApi sampleLibrary .success newStreamsText
        ⟨some emptyConfigText, none⟩ = (.returned true, after) →
      MergeLaw sampleLibrary [("streams", .array [.int64 1])]
        [("global_settings", .object []), ("streams", .array [])] emptyConfigText after := by
  intro hlaw
  rcases (hlaw ⟨some emptyMergedText, none⟩ rfl).sections with
    ⟨text, fields, htext, hparse, -, hstreams⟩
  cases htext
  have hfields : fields = [("global_settings", .object []), ("streams", .array [])] := by
    have hread : sampleLibrary.parse emptyMergedText =
        .ok (.object [("global_settings", .object []), ("streams", .array [])]) := rfl
    rw [hread] at hparse
    simpa [eq_comm] using hparse
  subst hfields
  simp [List.lookup_cons] at hstreams

/-! ## Atomic replacement -/

/-- What the write block is for: the file holds its previous content or the complete new
one, and `true` for an update means the latter. -/
structure AtomicReplace (merge : MergeResult) (before after : ConfigFiles)
    (outcome : UpdateOutcome) : Prop where
  intact : after.config = before.config ∨
    ∃ content, merge = .merged content ∧ after.config = some content
  applied : ∀ content, merge = .merged content → outcome = .returned true →
    after.config = some content

theorem WriteOutcome.reaches_eq_iff {outcome : WriteOutcome} {content : Bytes} :
    outcome.reaches content = content ↔ outcome.Complete content.length := by
  cases outcome with
  | full => simp [reaches, Complete]
  | short reached => simp [reaches, Complete, List.take_eq_self_iff]

/-- For every response, every pair of files and every outcome of the file operations, the
replacement is atomic exactly when a merged text that gets renamed into place was written
in full. -/
theorem updateLocalConfigFromApi_atomic_iff (lib : Simdjson) (ops : FileOps)
    (apiJsonStr : Bytes) (files : ConfigFiles) :
    AtomicReplace (mergeDocuments lib apiJsonStr files.config) files
        (updateLocalConfigFromApi lib ops apiJsonStr files).2
        (updateLocalConfigFromApi lib ops apiJsonStr files).1 ↔
      ∀ content, mergeDocuments lib apiJsonStr files.config = .merged content →
        ops.openTemp = true → ops.rename = true → ops.write.Complete content.length := by
  unfold updateLocalConfigFromApi
  cases hmerge : mergeDocuments lib apiJsonStr files.config with
  | failed =>
      refine iff_of_true ⟨Or.inl rfl, ?_⟩ ?_ <;> intro content h <;> cases h
  | threw code =>
      refine iff_of_true ⟨Or.inl rfl, ?_⟩ ?_ <;> intro content h <;> cases h
  | noNewData =>
      refine iff_of_true ⟨Or.inl rfl, ?_⟩ ?_ <;> intro content h <;> cases h
  | merged content =>
      simp only [MergeResult.merged.injEq, forall_eq']
      cases hopen : ops.openTemp with
      | false =>
          refine iff_of_true ⟨Or.inl ?_, ?_⟩ ?_ <;> simp [replaceConfig, hopen]
      | true =>
          cases hrename : ops.rename with
          | false =>
              refine iff_of_true ⟨Or.inl ?_, ?_⟩ ?_ <;> simp [replaceConfig, hopen, hrename]
          | true =>
              rw [← WriteOutcome.reaches_eq_iff]
              constructor
              · intro hatomic _ _
                have happlied := hatomic.applied content rfl
                  (by simp [replaceConfig, hopen, hrename])
                simpa [replaceConfig, hopen, hrename] using happlied
              · intro hfull
                have hwritten := hfull rfl rfl
                constructor
                · exact Or.inr ⟨content, rfl, by simp [replaceConfig, hopen, hrename, hwritten]⟩
                · intro content' hcontent _
                  cases hcontent
                  simp [replaceConfig, hopen, hrename, hwritten]

/-- A disk that fills up after ten bytes: the truncated text replaces the configuration
and the call reports success. -/
theorem updateLocalConfigFromApi_short_write :
    ¬ ∀ (lib : Simdjson) (ops : FileOps) (apiJsonStr : Bytes) (files : ConfigFiles),
      AtomicReplace (mergeDocuments lib apiJsonStr files.config) files
        (updateLocalConfigFromApi lib ops apiJsonStr files).2
        (updateLocalConfigFromApi lib ops apiJsonStr files).1 := by
  intro hall
  let ops : FileOps := { openTemp := true, write := .short 10, rename := true }
  have hatomic := hall sampleLibrary ops sameStreamsText ⟨some emptyConfigText, none⟩
  have hmerge : mergeDocuments sampleLibrary sameStreamsText (some emptyConfigText) =
      .merged emptyMergedText := rfl
  have hresult : updateLocalConfigFromApi sampleLibrary ops sameStreamsText
      ⟨some emptyConfigText, none⟩ =
        (.returned true, ⟨some (emptyMergedText.take 10), none⟩) := rfl
  have happlied := hatomic.applied emptyMergedText hmerge (by rw [hresult])
  rw [hresult] at happlied
  have hlength := congrArg List.length (Option.some.inj happlied)
  revert hlength
  decide

end ConfigManager

end FrameProcessor
