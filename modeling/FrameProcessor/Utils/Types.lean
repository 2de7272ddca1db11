import Mathlib.Data.Rat.Defs
import Mathlib.Data.Finset.Basic

/-!
# utils/types - Configuration records and their equality

The configuration structures of `types.h` with the hand-written equality of
`types.cpp`.  Fixed-width integers keep their width; a `double` is read as the
exact rational it denotes, which is faithful for the finite values a JSON document
can contain.

Main results:

- The instances `LawfulBEq EventConfig` and below: up to the event level the
  hand-written equality compares every field.
- Theorem `StreamConfig.beq_iff`: at the stream level it compares every field but
  `targetFps`.
- Theorem `GlobalConfig.beq_iff`: at every level it is equality of what is compared, hence
  an equivalence.
-/

namespace FrameProcessor

/-- A finite `double`, read as an exact rational. -/
abbrev Double := ℚ

/-- Contents of a file, of a response body or of a `std::vector<uint8_t>`. -/
abbrev Bytes := List UInt8

/-! ## Configuration structures -/

/-- Parameters for scaling frames; a non-positive size switches scaling off. -/
structure ScaleConfig where
  width : Int32 := 0
  height : Int32 := 0
deriving DecidableEq, Repr

/-- Parameters for cropping frames; a non-positive size switches cropping off. -/
structure CropConfig where
  x : Int32 := 0
  y : Int32 := 0
  width : Int32 := 0
  height : Int32 := 0
deriving DecidableEq, Repr

/-- Aggregates the crop and scale settings. -/
structure ProcessingConfig where
  scale : ScaleConfig := {}
  crop : CropConfig := {}
deriving DecidableEq, Repr

/-- Parameters for a single processing event. -/
structure EventConfig where
  id : UInt32 := 0
  name : String := ""
  targetFps : Double := 1
  batchSize : Int32 := 8
  processing : ProcessingConfig := {}
deriving DecidableEq, Repr

/-- All parameters for a single video stream. -/
structure StreamConfig where
  id : Int64
  url : String
  targetFps : Double
  waitForKeyframe : Bool
  enabled : Bool
  processing : ProcessingConfig := {}
  events : List EventConfig := []
deriving DecidableEq, Repr

/-- The entire application configuration. -/
structure GlobalConfig where
  logLevelStr : String := "INFO"
  streamConfigs : List StreamConfig := []
  instanceSlot : Int32 := 0
  totalInstances : Int32 := 1
  maxStreams : Int32 := 0
  streamIdWhitelist : Finset Int64 := ∅
  hasStreamWhitelist : Bool := false
deriving DecidableEq

/-! ## Hand-written equality -/

/-- `ScaleConfig::operator==`. -/
instance : BEq ScaleConfig where
  beq a b := a.width == b.width && a.height == b.height

/-- `CropConfig::operator==`. -/
instance : BEq CropConfig where
  beq a b := a.x == b.x && a.y == b.y && a.width == b.width && a.height == b.height

/-- `ProcessingConfig::operator==`. -/
instance : BEq ProcessingConfig where
  beq a b := a.scale == b.scale && a.crop == b.crop

/-- `EventConfig::operator==`. -/
instance : BEq EventConfig where
  beq a b := a.id == b.id && a.name == b.name && a.targetFps == b.targetFps &&
    a.batchSize == b.batchSize && a.processing == b.processing

/-- `StreamConfig::operator==`; `target_fps` is not compared. -/
instance : BEq StreamConfig where
  beq a b := a.id == b.id && a.url == b.url && a.waitForKeyframe == b.waitForKeyframe &&
    a.enabled == b.enabled && a.events == b.events && a.processing == b.processing

/-- `GlobalConfig::operator==`. -/
instance : BEq GlobalConfig where
  beq a b := a.logLevelStr == b.logLevelStr && a.streamConfigs == b.streamConfigs &&
    a.instanceSlot == b.instanceSlot && a.totalInstances == b.totalInstances &&
    a.maxStreams == b.maxStreams && a.hasStreamWhitelist == b.hasStreamWhitelist &&
    a.streamIdWhitelist == b.streamIdWhitelist

theorem ScaleConfig.beq_iff {a b : ScaleConfig} : (a == b) = true ↔ a = b := by
  cases a
  cases b
  simp [BEq.beq]

theorem CropConfig.beq_iff {a b : CropConfig} : (a == b) = true ↔ a = b := by
  cases a
  cases b
  simp [BEq.beq, and_assoc]

instance : LawfulBEq ScaleConfig where
  eq_of_beq := ScaleConfig.beq_iff.mp
  rfl := ScaleConfig.beq_iff.mpr rfl

instance : LawfulBEq CropConfig where
  eq_of_beq := CropConfig.beq_iff.mp
  rfl := CropConfig.beq_iff.mpr rfl

theorem ProcessingConfig.beq_iff {a b : ProcessingConfig} : (a == b) = true ↔ a = b := by
  cases a
  cases b
  change (_ && _) = true ↔ _
  simp

instance : LawfulBEq ProcessingConfig where
  eq_of_beq := ProcessingConfig.beq_iff.mp
  rfl := ProcessingConfig.beq_iff.mpr rfl

theorem EventConfig.beq_iff {a b : EventConfig} : (a == b) = true ↔ a = b := by
  cases a
  cases b
  change (_ && _ && _ && _ && _) = true ↔ _
  simp [and_assoc]

instance : LawfulBEq EventConfig where
  eq_of_beq := EventConfig.beq_iff.mp
  rfl := EventConfig.beq_iff.mpr rfl

/-- Two stream configurations are `==` exactly when they agree on every field but
`targetFps`. -/
theorem StreamConfig.beq_iff {a b : StreamConfig} :
    (a == b) = true ↔ a = { b with targetFps := a.targetFps } := by
  cases a
  cases b
  change (_ && _ && _ && _ && _ && _) = true ↔ _
  simp only [Bool.and_eq_true, beq_iff_eq, StreamConfig.mk.injEq, true_and]
  tauto

/-- The stream-level equality is reflexive. -/
@[simp]
theorem StreamConfig.beq_self (a : StreamConfig) : (a == a) = true :=
  StreamConfig.beq_iff.mpr rfl

/-! ## What equality compares -/

/-- A stream configuration up to what its equality ignores. -/
def StreamConfig.compared (config : StreamConfig) : StreamConfig :=
  { config with targetFps := 0 }

/-- A configuration up to what its equality ignores. -/
def GlobalConfig.compared (config : GlobalConfig) : GlobalConfig :=
  { config with streamConfigs := config.streamConfigs.map StreamConfig.compared }

/-- The stream-level equality is equality of what it compares. -/
theorem StreamConfig.beq_iff_compared {a b : StreamConfig} :
    (a == b) = true ↔ a.compared = b.compared := by
  rw [StreamConfig.beq_iff]
  cases a
  cases b
  simp [StreamConfig.compared]

/-- The equality of stream lists, as `std::vector` lifts it. -/
theorem StreamConfig.list_beq_iff {as bs : List StreamConfig} :
    (as == bs) = true ↔ as.map StreamConfig.compared = bs.map StreamConfig.compared := by
  induction as generalizing bs with
  | nil => cases bs <;> simp
  | cons a as ih =>
      cases bs with
      | nil => simp
      | cons b bs =>
          rw [List.cons_beq_cons, Bool.and_eq_true, ih, StreamConfig.beq_iff_compared]
          simp

/-- Two configurations are `==` exactly when they agree on everything that is compared. -/
theorem GlobalConfig.beq_iff {a b : GlobalConfig} :
    (a == b) = true ↔ a.compared = b.compared := by
  cases a
  cases b
  change (_ && _ && _ && _ && _ && _ && _) = true ↔ _
  simp only [Bool.and_eq_true, beq_iff_eq, StreamConfig.list_beq_iff, GlobalConfig.compared,
    GlobalConfig.mk.injEq]
  tauto

theorem GlobalConfig.beq_refl (a : GlobalConfig) : (a == a) = true :=
  GlobalConfig.beq_iff.mpr rfl

/-! ## Data transfer objects -/

/-- A decoded picture together with the configuration it was captured under.  The
picture type is a parameter: queues and threads only hand it on. -/
structure DecodedFrame (φ : Type*) where
  frame : φ
  sourceConfig : StreamConfig
  eventConfig : EventConfig
deriving DecidableEq

end FrameProcessor
