import FrameProcessor.Utils.Simdjson

/-!
# components/config_manager - Parsing the configuration file

`parse_config_json` with the two filters it applies to every stream entry: the
whitelist and the ownership test of horizontal scaling.  An entry is skipped, never
an error; only an unreadable document or a missing `streams` array fails the parse.
A field that is missing or has another type takes its default.

Main results:

- Theorem `ConfigManager.loadStreams_eq`: the loaded streams are a prefix, bounded by
  the stream cap, of the entries that pass every test on their own.
-/

namespace FrameProcessor

/-- The settings a `ConfigManager` reads from its environment. -/
structure ConfigManager where
  instanceSlot : Int32 := 0
  totalInstances : Int32 := 1
  maxStreams : Int32 := 0
  streamIdWhitelist : Finset Int64 := ∅
  hasStreamWhitelist : Bool := false

namespace ConfigManager

/-! ## Filters -/

/-- `ConfigManager::owns_stream`; the remainders truncate towards zero. -/
def ownsStream (self : ConfigManager) (streamId : Int64) : Bool :=
  if self.totalInstances.toInt ≤ 1 then true
  else
    streamId.toInt.tmod self.totalInstances.toInt ==
      self.instanceSlot.toInt.tmod self.totalInstances.toInt

/-- `ConfigManager::is_stream_whitelisted`. -/
def isStreamWhitelisted (self : ConfigManager) (streamId : Int64) : Bool :=
  if !self.hasStreamWhitelist then true
  else decide (streamId ∈ self.streamIdWhitelist)

/-! ## Fields -/

/-- An integer field narrowed to `int`, or the structure's default 0. -/
def intField (object : Json) (key : String) : Int32 :=
  match object.atKey key >>= Json.getInt64 with
  | .ok value => value.toInt32
  | .error _ => 0

/-- The `scale` object of a `processing` object. -/
def parseScale (procObj : Json) : ScaleConfig :=
  match procObj.atKey "scale" >>= Json.getObject with
  | .ok scaleObj => { width := intField scaleObj "width", height := intField scaleObj "height" }
  | .error _ => {}

/-- The `crop` object of a `processing` object. -/
def parseCrop (procObj : Json) : CropConfig :=
  match procObj.atKey "crop" >>= Json.getObject with
  | .ok cropObj =>
      { x := intField cropObj "x", y := intField cropObj "y",
        width := intField cropObj "width", height := intField cropObj "height" }
  | .error _ => {}

/-- The nested `processing` object of a stream entry. -/
def parseProcessing (streamElem : Json) : ProcessingConfig :=
  match streamElem.atKey "processing" >>= Json.getObject with
  | .ok procObj => { scale := parseScale procObj, crop := parseCrop procObj }
  | .error _ => {}

/-- A `double` field, or 1.0. -/
def doubleField (object : Json) (key : String) : Double :=
  match object.atKey key >>= Json.getDouble with
  | .ok value => value
  | .error _ => 1

/-- A `bool` field, or `false`. -/
def boolField (object : Json) (key : String) : Bool :=
  match object.atKey key >>= Json.getBool with
  | .ok value => value
  | .error _ => false

/-- One element of an `events` array; every element yields an event. -/
def parseEvent (eventElem : Json) : EventConfig where
  name :=
    match eventElem.atKey "name" >>= Json.getString with
    | .ok name => name
    | .error _ => ""
  targetFps := doubleField eventElem "target_fps"
  batchSize :=
    match eventElem.atKey "batch_size" >>= Json.getInt64 with
    | .ok batchVal => batchVal.toInt32
    | .error _ => (8 : Int64).toInt32

/-- The `events` array of a stream entry. -/
def parseEvents (streamElem : Json) : List EventConfig :=
  match streamElem.atKey "events" >>= Json.getArray with
  | .ok eventsArr => eventsArr.map parseEvent
  | .error _ => []

/-- The configuration of an entry whose id and url were read. -/
def parseStream (streamElem : Json) (id : Int64) (url : String) : StreamConfig where
  id := id
  url := url
  targetFps := doubleField streamElem "target_fps"
  waitForKeyframe := boolField streamElem "wait_for_keyframe"
  enabled := boolField streamElem "enabled"
  processing := parseProcessing streamElem
  events := parseEvents streamElem

/-! ## parse_config_json -/

/-- The cap test on the streams loaded so far. -/
def capReached (self : ConfigManager) (loaded : List StreamConfig) : Bool :=
  decide (0 < self.maxStreams.toInt) && decide (self.maxStreams.toInt ≤ loaded.length)

/-- One turn of the loop over the `streams` array, with its skip conditions in order. -/
def loadStream (self : ConfigManager) (loaded : List StreamConfig) (streamElem : Json) :
    List StreamConfig :=
  match streamElem.atKey "id" >>= Json.getInt64 with
  | .error _ => loaded
  | .ok id =>
    if !self.isStreamWhitelisted id then loaded
    else if !self.ownsStream id then loaded
    else if self.capReached loaded then loaded
    else
      match streamElem.atKey "url" >>= Json.getString with
      | .error _ => loaded
      | .ok url =>
        let cfg := parseStream streamElem id url
        -- an empty url is noticed only after the rest of the entry was read
        if cfg.url.isEmpty then loaded else loaded ++ [cfg]

/-- `ConfigManager::parse_config_json`; `none` for `false`. -/
def parseConfigJson (self : ConfigManager) (lib : Simdjson) (file : Option Bytes) :
    Option GlobalConfig :=
  match lib.load file with
  | .error _ => none
  | .ok doc =>
    match doc.atKey "streams" >>= Json.getArray with
    | .error _ => none
    | .ok streamsArr =>
      some {
        logLevelStr :=
          match doc.atKey "global_settings" >>= (Json.atKey · "log_level") >>= Json.getString with
          | .ok logLevel => logLevel
          | .error _ => "INFO"
        streamConfigs := streamsArr.foldl self.loadStream []
        instanceSlot := self.instanceSlot
        totalInstances := self.totalInstances
        maxStreams := self.maxStreams
        streamIdWhitelist := self.streamIdWhitelist
        hasStreamWhitelist := self.hasStreamWhitelist }

/-! ## Entry-wise reading -/

/-- The configuration an entry would have in an instance without filters. -/
def entryConfig (streamElem : Json) : Option StreamConfig :=
  match streamElem.atKey "id" >>= Json.getInt64, streamElem.atKey "url" >>= Json.getString with
  | .ok id, .ok url => if url.isEmpty then none else some (parseStream streamElem id url)
  | _, _ => none

/-- The filters an instance applies to a configuration it could load. -/
def accepts (self : ConfigManager) (cfg : StreamConfig) : Bool :=
  self.isStreamWhitelisted cfg.id && self.ownsStream cfg.id

/-- The configuration an instance loads for an entry while its cap is not reached. -/
def eligible (self : ConfigManager) (streamElem : Json) : Option StreamConfig :=
  (entryConfig streamElem).filter self.accepts

/-- One turn of the loop appends the entry's eligible configuration, or nothing once the
cap is reached. -/
theorem loadStream_eq (self : ConfigManager) (loaded : List StreamConfig) (streamElem : Json) :
    self.loadStream loaded streamElem =
      if self.capReached loaded then loaded
      else loaded ++ (self.eligible streamElem).toList := by
  unfold loadStream eligible entryConfig
  cases hid : streamElem.atKey "id" >>= Json.getInt64 with
  | error code => simp
  | ok id =>
      cases hurl : streamElem.atKey "url" >>= Json.getString with
      | error code => simp
      | ok url =>
          cases hwhite : self.isStreamWhitelisted id with
          | false =>
              by_cases hempty : url.isEmpty <;>
                simp [Option.filter, accepts, parseStream, hwhite, hempty]
          | true =>
              cases howns : self.ownsStream id with
              | false =>
                  by_cases hempty : url.isEmpty <;>
                    simp [Option.filter, accepts, parseStream, howns, hempty]
              | true =>
                  by_cases hempty : url.isEmpty <;>
                    simp [Option.filter, accepts, parseStream, hwhite, howns, hempty]

/-- The number of streams an instance may load; `none` without a cap. -/
def cap (self : ConfigManager) : Option Nat :=
  if 0 < self.maxStreams.toInt then some self.maxStreams.toInt.toNat else none

/-- The loaded streams, for any list of entries: the eligible ones in file order, cut at
the cap. -/
theorem loadStreams_eq (self : ConfigManager) (streamsArr : List Json) :
    streamsArr.foldl self.loadStream [] =
      match self.cap with
      | some m => (streamsArr.filterMap self.eligible).take m
      | none => streamsArr.filterMap self.eligible := by
  induction streamsArr using List.reverseRecOn with
  | nil => cases self.cap <;> simp
  | append_singleton entries entry ih =>
      have hentry : [entry].filterMap self.eligible = (self.eligible entry).toList := by
        cases h : self.eligible entry <;> simp [h]
      have hlength : (self.eligible entry).toList.length ≤ 1 := by
        cases self.eligible entry <;> simp
      rw [List.foldl_concat, ih, loadStream_eq, List.filterMap_append, hentry]
      unfold cap capReached
      by_cases hcap : 0 < self.maxStreams.toInt
      · simp only [hcap, if_true, decide_true, Bool.true_and, decide_eq_true_eq]
        generalize hm : self.maxStreams.toInt.toNat = m
        have hcast : self.maxStreams.toInt = m := by omega
        rw [hcast, List.length_take]
        split
        · next hfull =>
          have hle : m ≤ (entries.filterMap self.eligible).length := by omega
          rw [List.take_append_of_le_length hle]
        · next hroom =>
          have hlt : (entries.filterMap self.eligible).length < m := by omega
          rw [List.take_of_length_le hlt.le, List.take_of_length_le]
          rw [List.length_append]
          omega
      · simp [hcap]

/-- The streams an instance runs on a file; none when the file does not parse. -/
def loadedStreams (self : ConfigManager) (lib : Simdjson) (file : Option Bytes) :
    List StreamConfig :=
  match self.parseConfigJson lib file with
  | some config => config.streamConfigs
  | none => []

end ConfigManager

end FrameProcessor
