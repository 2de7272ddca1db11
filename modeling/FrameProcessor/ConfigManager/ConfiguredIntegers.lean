import FrameProcessor.ConfigManager.Parse
import FrameProcessor.Publisher.Batching
import FrameProcessor.Worker.Processing

/-!
# components/config_manager - Integers from the file to their use

Seven settings of a stream entry are read with `get_int64` and stored in an `int`: the batch
size of each event, the two scale sizes and the four crop values.  The conversion wraps.
The worker writes six of them into its filter spec, the batcher compares the seventh with
the number of frames in a batch.

Main results:

- Theorem `Worker.filterSpec_eq_filterText`: the filter spec is made of the stored values.
- Theorem `ConfigManager.used_of_written`: a written value is stored modulo `2 ^ 32`.
- Theorem `ConfigManager.keepsIntegers_iff`: a loaded entry keeps its integers, or has the
  default in place of one that does not fit, if and only if every written value fits or is
  congruent to its default modulo `2 ^ 32`.
-/

namespace FrameProcessor

/-! ## Where the settings are used -/

/-- The filter chain for a crop of `cropWidth` by `cropHeight` at `x`, `y` and a scaling to
`width` by `height`. -/
def filterText (x y cropWidth cropHeight width height : Int) : String :=
  let crop :=
    if cropWidth > 0 ∧ cropHeight > 0 then s!"crop={cropWidth}:{cropHeight}:{x}:{y}" else ""
  let spec :=
    if width > 0 ∧ height > 0 then
      (if crop.isEmpty then crop else crop ++ ",") ++ s!"scale={width}:{height}"
    else crop
  if spec.isEmpty then "null" else spec

/-- The worker's filter spec depends on the values of the six settings only. -/
theorem Worker.filterSpec_eq_filterText (procCfg : ProcessingConfig) :
    Worker.filterSpec procCfg =
      filterText procCfg.crop.x.toInt procCfg.crop.y.toInt procCfg.crop.width.toInt
        procCfg.crop.height.toInt procCfg.scale.width.toInt procCfg.scale.height.toInt := by
  have hpos : ∀ value : Int32, value > 0 ↔ value.toInt > 0 := fun value =>
    Int32.lt_iff_toInt_lt
  have htext : ∀ value : Int32, toString value = toString value.toInt := fun _ => rfl
  unfold Worker.filterSpec filterText
  simp only [Bool.and_eq_true, decide_eq_true_eq, hpos, htext]

/-- The batcher hands a batch on when the value of the batch size is reached. -/
theorem Publisher.batchFrame_full_iff (current : CurrentBatches) (frame : DecodedFrame AVFrame) :
    (Publisher.batchFrame current frame).2.isSome = true ↔
      frame.eventConfig.batchSize.toInt ≤ (Publisher.extendBatch current frame).frameCount := by
  unfold Publisher.batchFrame
  by_cases hfull :
      (Publisher.extendBatch current frame).frameCount ≥ frame.eventConfig.batchSize.toInt
  · simp [hfull]
  · simp [hfull]

namespace ConfigManager

/-! ## The settings -/

/-- An integer setting of a stream entry. -/
inductive IntSetting where
  /-- `batch_size` of the event at a position. -/
  | batchSize (position : Nat)
  | scaleWidth
  | scaleHeight
  | cropX
  | cropY
  | cropWidth
  | cropHeight
deriving DecidableEq

namespace IntSetting

/-- A field of an object inside `processing`. -/
def processingField (streamElem : Json) (object key : String) : Except ErrorCode Int64 := do
  let procObj ← streamElem.atKey "processing" >>= Json.getObject
  let obj ← procObj.atKey object >>= Json.getObject
  obj.atKey key >>= Json.getInt64

/-- The `int64` value that an entry contains for a setting; an error if there is none. -/
def written (streamElem : Json) : IntSetting → Except ErrorCode Int64
  | .batchSize position => do
      let eventsArr ← streamElem.atKey "events" >>= Json.getArray
      match eventsArr[position]? with
      | some eventElem => eventElem.atKey "batch_size" >>= Json.getInt64
      | none => .error .noSuchField
  | .scaleWidth => processingField streamElem "scale" "width"
  | .scaleHeight => processingField streamElem "scale" "height"
  | .cropX => processingField streamElem "crop" "x"
  | .cropY => processingField streamElem "crop" "y"
  | .cropWidth => processingField streamElem "crop" "width"
  | .cropHeight => processingField streamElem "crop" "height"

/-- The value that a configuration has for a setting. -/
def used (cfg : StreamConfig) : IntSetting → Option Int32
  | .batchSize position => (cfg.events[position]?).map (·.batchSize)
  | .scaleWidth => some cfg.processing.scale.width
  | .scaleHeight => some cfg.processing.scale.height
  | .cropX => some cfg.processing.crop.x
  | .cropY => some cfg.processing.crop.y
  | .cropWidth => some cfg.processing.crop.width
  | .cropHeight => some cfg.processing.crop.height

/-- The value of a setting that is not in the file. -/
def defaultValue : IntSetting → Int32
  | .batchSize _ => 8
  | _ => 0

end IntSetting

/-! ## What is stored -/

/-- The value of an integer field that is there. -/
theorem intField_eq {object : Json} {key : String} {value : Int64}
    (h : (object.atKey key >>= Json.getInt64) = .ok value) :
    intField object key = value.toInt32 := by
  unfold intField
  rw [h]

/-- A field inside `processing` is read from the object that the parser reads it from. -/
theorem scaleField_eq {streamElem : Json} {key : String} {value : Int64}
    (h : IntSetting.processingField streamElem "scale" key = .ok value) :
    ∃ scaleObj, intField scaleObj key = value.toInt32 ∧
      (parseProcessing streamElem).scale =
        { width := intField scaleObj "width", height := intField scaleObj "height" } := by
  rcases bind_eq_ok h with ⟨procObj, hproc, hrest⟩
  rcases bind_eq_ok hrest with ⟨scaleObj, hscale, hvalue⟩
  refine ⟨scaleObj, intField_eq hvalue, ?_⟩
  unfold parseProcessing parseScale
  rw [hproc]
  dsimp only
  rw [hscale]

theorem cropField_eq {streamElem : Json} {key : String} {value : Int64}
    (h : IntSetting.processingField streamElem "crop" key = .ok value) :
    ∃ cropObj, intField cropObj key = value.toInt32 ∧
      (parseProcessing streamElem).crop =
        { x := intField cropObj "x", y := intField cropObj "y",
          width := intField cropObj "width", height := intField cropObj "height" } := by
  rcases bind_eq_ok h with ⟨procObj, hproc, hrest⟩
  rcases bind_eq_ok hrest with ⟨cropObj, hcrop, hvalue⟩
  refine ⟨cropObj, intField_eq hvalue, ?_⟩
  unfold parseProcessing parseCrop
  rw [hproc]
  dsimp only
  rw [hcrop]

/-- The events of an entry are read one by one. -/
theorem batchSizeField_eq {streamElem : Json} {position : Nat} {value : Int64}
    (h : (IntSetting.batchSize position).written streamElem = .ok value) :
    ∃ event, (parseEvents streamElem)[position]? = some event ∧
      event.batchSize = value.toInt32 := by
  rcases bind_eq_ok h with ⟨eventsArr, hevents, hrest⟩
  cases helem : eventsArr[position]? with
  | none =>
      rw [helem] at hrest
      cases hrest
  | some eventElem =>
      rw [helem] at hrest
      refine ⟨parseEvent eventElem, ?_, ?_⟩
      · unfold parseEvents
        rw [hevents]
        simp [helem]
      · have hvalue : (eventElem.atKey "batch_size" >>= Json.getInt64) = .ok value := hrest
        simp only [parseEvent]
        rw [hvalue]

/-- A written value is stored modulo `2 ^ 32`. -/
theorem used_of_written {streamElem : Json} {id : Int64} {url : String} {setting : IntSetting}
    {value : Int64} (h : setting.written streamElem = .ok value) :
    setting.used (parseStream streamElem id url) = some value.toInt32 := by
  cases setting with
  | batchSize position =>
      rcases batchSizeField_eq h with ⟨event, hevent, hbatch⟩
      simp [IntSetting.used, parseStream, hevent, hbatch]
  | scaleWidth | scaleHeight =>
      rcases scaleField_eq h with ⟨scaleObj, hfield, hscale⟩
      simp [IntSetting.used, parseStream, hscale, hfield]
  | cropX | cropY | cropWidth | cropHeight =>
      rcases cropField_eq h with ⟨cropObj, hfield, hcrop⟩
      simp [IntSetting.used, parseStream, hcrop, hfield]

/-! ## Keeping the value -/

/-- The value is an `int`. -/
def FitsInt (value : Int64) : Prop :=
  Int32.minValue.toInt ≤ value.toInt ∧ value.toInt ≤ Int32.maxValue.toInt

/-- What is used is the written value, or the default when that does not fit. -/
def Kept (defaultValue : Int32) (value : Int64) (used : Int32) : Prop :=
  used.toInt = value.toInt ∨ ¬FitsInt value ∧ used = defaultValue

/-- Every integer that the entry contains is kept in the configuration. -/
def KeepsIntegers (streamElem : Json) (cfg : StreamConfig) : Prop :=
  ∀ (setting : IntSetting) (value : Int64), setting.written streamElem = .ok value →
    ∃ used, setting.used cfg = some used ∧ Kept setting.defaultValue value used

/-- The conversion keeps a value exactly when it fits. -/
theorem toInt_toInt32_eq_iff (value : Int64) :
    value.toInt32.toInt = value.toInt ↔ FitsInt value := by
  have hmin : Int32.minValue.toInt = -2147483648 := rfl
  have hmax : Int32.maxValue.toInt = 2147483647 := rfl
  unfold FitsInt
  rw [Int64.toInt_toInt32, hmin, hmax, Int.bmod_eq_iff (by decide)]
  omega

/-- The conversion gives a number exactly when the value is congruent to it. -/
theorem toInt32_eq_iff (value : Int64) (number : Int32) :
    value.toInt32 = number ↔ (2 ^ 32 : Int) ∣ value.toInt - number.toInt := by
  have hlower := number.le_toInt
  have hupper := number.toInt_lt
  rw [← Int32.toInt_inj, Int64.toInt_toInt32, Int.bmod_eq_iff (by decide)]
  omega

/-- After the conversion a value is kept exactly when it fits or is congruent to the
default. -/
theorem kept_toInt32_iff (defaultValue : Int32) (value : Int64) :
    Kept defaultValue value value.toInt32 ↔
      FitsInt value ∨ (2 ^ 32 : Int) ∣ value.toInt - defaultValue.toInt := by
  unfold Kept
  rw [toInt_toInt32_eq_iff, toInt32_eq_iff]
  tauto

/-- An entry that is loaded is stored as it was parsed. -/
theorem loadStream_parseStream {self : ConfigManager} {loaded : List StreamConfig}
    {streamElem : Json} {cfg : StreamConfig}
    (h : self.loadStream loaded streamElem = loaded ++ [cfg]) :
    ∃ id url, cfg = parseStream streamElem id url := by
  have hne : loaded ≠ loaded ++ [cfg] := by simp
  unfold loadStream at h
  split at h
  · exact absurd h hne
  · next id _ =>
    split at h
    · exact absurd h hne
    · split at h
      · exact absurd h hne
      · split at h
        · exact absurd h hne
        · split at h
          · exact absurd h hne
          · next url _ =>
            dsimp only at h
            split at h
            · exact absurd h hne
            · have hcfg := List.append_cancel_left h
              exact ⟨id, url, (List.singleton_inj.mp hcfg).symm⟩

/-- A loaded entry keeps its integers exactly when each of them fits in an `int` or is
congruent to its default modulo `2 ^ 32`. -/
theorem keepsIntegers_iff {self : ConfigManager} {loaded : List StreamConfig}
    {streamElem : Json} {cfg : StreamConfig}
    (h : self.loadStream loaded streamElem = loaded ++ [cfg]) :
    KeepsIntegers streamElem cfg ↔
      ∀ (setting : IntSetting) (value : Int64), setting.written streamElem = .ok value →
        FitsInt value ∨ (2 ^ 32 : Int) ∣ value.toInt - setting.defaultValue.toInt := by
  rcases loadStream_parseStream h with ⟨id, url, hcfg⟩
  constructor
  · intro hkeeps setting value hwritten
    rcases hkeeps setting value hwritten with ⟨used, hused, hkept⟩
    rw [hcfg, used_of_written hwritten] at hused
    cases hused
    exact (kept_toInt32_iff _ _).mp hkept
  · intro hall setting value hwritten
    refine ⟨value.toInt32, ?_, (kept_toInt32_iff _ _).mpr (hall setting value hwritten)⟩
    rw [hcfg]
    exact used_of_written hwritten

/-- A camera with a batch size, as an entry of the file. -/
def batchEntry (batchSize : Int64) : Json :=
  .object [("id", .int64 1), ("url", .string "rtsp://a"),
    ("events", .array [.object [("name", .string "motion"), ("batch_size", .int64 batchSize)]])]

/-- The configuration of that camera. -/
def batchConfig (batchSize : Int32) : StreamConfig where
  id := 1
  url := "rtsp://a"
  targetFps := 1
  waitForKeyframe := false
  enabled := false
  events := [{ name := "motion", batchSize }]

theorem batchEntry_loaded (batchSize : Int64) :
    ({} : ConfigManager).loadStream [] (batchEntry batchSize) =
      [] ++ [batchConfig batchSize.toInt32] :=
  rfl

/-- A batch size of 4 is kept. -/
theorem batchEntry_four :
    KeepsIntegers (batchEntry 4) (batchConfig 4) ↔
      ∀ (setting : IntSetting) (value : Int64), setting.written (batchEntry 4) = .ok value →
        FitsInt value ∨ (2 ^ 32 : Int) ∣ value.toInt - setting.defaultValue.toInt :=
  keepsIntegers_iff (batchEntry_loaded 4)

/-- A batch size of `2 ^ 32 + 1` is loaded as 1. -/
theorem batchEntry_wraps :
    ({} : ConfigManager).loadStream [] (batchEntry 4294967297) = [batchConfig 1] ∧
      ¬KeepsIntegers (batchEntry 4294967297) (batchConfig 1) := by
  constructor
  · rfl
  · intro hkeeps
    rcases hkeeps (.batchSize 0) 4294967297 rfl with ⟨used, hused, hkept⟩
    cases hused
    rcases hkept with hsame | ⟨-, hdefault⟩
    · revert hsame
      decide
    · revert hdefault
      decide

end ConfigManager

end FrameProcessor
