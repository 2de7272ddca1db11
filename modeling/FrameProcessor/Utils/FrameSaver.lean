import FrameProcessor.Foundations.Decimals
import FrameProcessor.Utils.AVFrame
import FrameProcessor.Utils.Environment

/-!
# utils/frame_saver - Which frames are saved, and where

`FrameSaver::save_frame` skips the frames whose index is no multiple of the save interval
and writes the others to a path made of the stage, the stream id and the index.  Creating
the directory and encoding the picture are parameters.

Main results:

- Theorem `FrameSaver.filePath_inj`: of one stage, a path determines the stream and the
  index.
- Theorem `FrameSaver.saveFrame_eq`: with a directory and an encoder that do not fail, a
  picture with a size is written exactly when its index is a multiple of the interval.
-/

namespace FrameProcessor

/-- The environment variables of a frame saver. -/
structure SaverEnvironment where
  savedFramesOutputDir : Option Bytes := none
  saveFrameInterval : Option Bytes := none
  saveDecodedFrames : Option Bytes := none
  saveProcessedFrames : Option Bytes := none

/-- `std::tolower` in the default locale. -/
def toLower (c : UInt8) : UInt8 :=
  if 65 ≤ c && c ≤ 90 then c + 32 else c

/-- `parse_bool_env`. -/
def parseBoolEnv (val : Option Bytes) (defaultValue : Bool) : Bool :=
  match val with
  | none => defaultValue
  | some val =>
      let s := val.map toLower
      s == Bytes.ofString "true" || s == Bytes.ofString "1" || s == Bytes.ofString "yes" ||
        s == Bytes.ofString "on"

/-- A `FrameSaver`; its interval is at least 1. -/
structure FrameSaver where
  baseOutputDir : Bytes
  saveInterval : Int32
  saveDecodedEnabled : Bool
  saveProcessedEnabled : Bool
  saveInterval_pos : 1 ≤ saveInterval.toInt

namespace FrameSaver

/-- The interval of the constructor: 1 in place of anything smaller. -/
def clampInterval (saveInterval : Int32) : Int32 :=
  if saveInterval < 1 then 1 else saveInterval

theorem clampInterval_pos (saveInterval : Int32) : 1 ≤ (clampInterval saveInterval).toInt := by
  unfold clampInterval
  split
  · decide
  · next hge => exact Int32.le_iff_toInt_le.mp (Int32.not_lt.mp hge)

/-- `FrameSaver::FrameSaver`. -/
def construct (env : SaverEnvironment) : Except StdException FrameSaver :=
  match stoi (getEnv env.saveFrameInterval "1") with
  | .error e => .error e
  | .ok saveInterval =>
      .ok
        { baseOutputDir := getEnv env.savedFramesOutputDir "/tmp/output"
          saveInterval := clampInterval saveInterval
          saveDecodedEnabled := parseBoolEnv env.saveDecodedFrames false
          saveProcessedEnabled := parseBoolEnv env.saveProcessedFrames false
          saveInterval_pos := clampInterval_pos saveInterval }

/-! ## Paths -/

/-- The directory of a stage and a stream. -/
def dirPath (self : FrameSaver) (streamId : Int64) (stage : String) : Bytes :=
  self.baseOutputDir ++ Bytes.ofString (s!"/frames/{stage}/stream_{streamId}")

/-- The name of a file in it, with the index padded to eight digits. -/
def fileName (frameIndex : UInt64) : String :=
  "/frame_" ++ String.ofList (Decimals.zeroPadded 8 frameIndex.toNat) ++ ".jpg"

/-- The path of a file. -/
def filePath (self : FrameSaver) (streamId : Int64) (frameIndex : UInt64) (stage : String) :
    Bytes :=
  self.dirPath streamId stage ++ Bytes.ofString (fileName frameIndex)

/-- `FrameSaver::save_frame` for a frame that is not null: the path it writes to, `none` when
it returns `false`. -/
def saveFrame (self : FrameSaver) (ensureDirectoryExists : Bytes → Bool)
    (encodeAndSaveJpeg : AVFrame → Bytes → Bool) (frame : AVFrame) (streamId : Int64)
    (frameIndex : UInt64) (stage : String) : Option Bytes :=
  if stage == "decoded" && !self.saveDecodedEnabled then none
  else if stage == "processed" && !self.saveProcessedEnabled then none
  else if frameIndex % self.saveInterval.toInt64.toUInt64 != 0 then none
  else if frame.width ≤ 0 || frame.height ≤ 0 then none
  else if !ensureDirectoryExists (self.dirPath streamId stage) then none
  else
    let filepath := self.filePath streamId frameIndex stage
    if !encodeAndSaveJpeg frame filepath then none else some filepath

/-! ## Paths determine streams and indices -/

/-- Texts are told apart by their bytes. -/
theorem ofString_injective : Function.Injective Bytes.ofString := by
  intro a b h
  exact String.toByteArray_inj.mp (ByteArray.ext (Array.toList_inj.mp h))

theorem ofString_append (a b : String) :
    Bytes.ofString (a ++ b) = Bytes.ofString a ++ Bytes.ofString b := by
  simp [Bytes.ofString]

/-- The part of a path after the stage: the slash of the file name ends the stream id. -/
theorem stream_append_inj {streamId streamId' : Int64} {frameIndex frameIndex' : UInt64} :
    toString streamId ++ fileName frameIndex = toString streamId' ++ fileName frameIndex' ↔
      streamId = streamId' ∧ frameIndex = frameIndex' := by
  constructor
  · intro h
    have htext : ∀ z : Int64, toString z = z.toInt.repr := fun _ => rfl
    have hchars : streamId.toInt.repr.toList ++ '/' :: ("frame_".toList ++
          Decimals.zeroPadded 8 frameIndex.toNat ++ ".jpg".toList) =
        streamId'.toInt.repr.toList ++ '/' :: ("frame_".toList ++
          Decimals.zeroPadded 8 frameIndex'.toNat ++ ".jpg".toList) := by
      have hlist := congrArg String.toList h
      simpa [fileName, htext] using hlist
    rcases (Decimals.repr_append_inj rfl (by decide)).mp hchars with ⟨hstream, hrest⟩
    have hindex := List.append_cancel_left (List.append_cancel_right hrest)
    exact ⟨Int64.toInt_inj.mp hstream,
      UInt64.toNat_inj.mp (Decimals.zeroPadded_injective 8 hindex)⟩
  · intro ⟨hstream, hindex⟩
    rw [hstream, hindex]

/-- The stream id and the file name stand together at the end of a path. -/
theorem filePath_eq (self : FrameSaver) (streamId : Int64) (frameIndex : UInt64)
    (stage : String) :
    self.filePath streamId frameIndex stage =
      self.baseOutputDir ++ (Bytes.ofString ("/frames/" ++ stage ++ "/stream_") ++
        Bytes.ofString (toString streamId ++ fileName frameIndex)) := by
  have hdir : (s!"/frames/{stage}/stream_{streamId}" : String) =
      "/frames/" ++ stage ++ "/stream_" ++ toString streamId := by
    simp [toString]
  unfold filePath dirPath
  rw [hdir, ofString_append _ (toString streamId), ofString_append (toString streamId)]
  simp only [List.append_assoc]

/-- Of one stage, a path determines the stream and the index. -/
theorem filePath_inj {self : FrameSaver} {streamId streamId' : Int64}
    {frameIndex frameIndex' : UInt64} {stage : String} :
    self.filePath streamId frameIndex stage = self.filePath streamId' frameIndex' stage ↔
      streamId = streamId' ∧ frameIndex = frameIndex' := by
  rw [filePath_eq, filePath_eq, List.append_cancel_left_eq, List.append_cancel_left_eq,
    ofString_injective.eq_iff]
  exact stream_append_inj

/-! ## Which frames are written -/

/-- The interval as a number. -/
def interval (self : FrameSaver) : Nat :=
  self.saveInterval.toInt.toNat

/-- The test of the interval compares with its value. -/
theorem mod_saveInterval (self : FrameSaver) (frameIndex : UInt64) :
    frameIndex % self.saveInterval.toInt64.toUInt64 = 0 ↔
      self.interval ∣ frameIndex.toNat := by
  have hnonneg : 0 ≤ self.saveInterval.toInt64 := by
    apply Int64.le_iff_toInt_le.mpr
    have hpos := self.saveInterval_pos
    simp only [Int32.toInt_toInt64, Int64.toInt_zero]
    omega
  have hinterval : self.saveInterval.toInt64.toUInt64.toNat = self.interval := by
    rw [Int64.toNat_toUInt64_of_le hnonneg]
    unfold Int64.toNatClampNeg interval
    rw [Int32.toInt_toInt64]
  rw [← UInt64.toNat_inj, UInt64.toNat_mod, hinterval]
  exact Nat.dvd_iff_mod_eq_zero.symm

/-- What `save_frame` asks of a processed picture. -/
def Saves (self : FrameSaver) (frame : AVFrame) (frameIndex : UInt64) : Prop :=
  self.interval ∣ frameIndex.toNat ∧ 0 < frame.width ∧ 0 < frame.height

instance (self : FrameSaver) (frame : AVFrame) (frameIndex : UInt64) :
    Decidable (self.Saves frame frameIndex) :=
  inferInstanceAs (Decidable (_ ∧ _))

/-- With saving enabled, a directory and an encoder that do not fail, a processed picture is
written exactly when its index is a multiple of the interval and it has a size. -/
theorem saveFrame_eq {self : FrameSaver} (henabled : self.saveProcessedEnabled = true)
    {ensureDirectoryExists : Bytes → Bool} (hensure : ∀ path, ensureDirectoryExists path = true)
    {encodeAndSaveJpeg : AVFrame → Bytes → Bool}
    (hencode : ∀ frame path, encodeAndSaveJpeg frame path = true) (frame : AVFrame)
    (streamId : Int64) (frameIndex : UInt64) :
    self.saveFrame ensureDirectoryExists encodeAndSaveJpeg frame streamId frameIndex
        "processed" =
      if self.Saves frame frameIndex then some (self.filePath streamId frameIndex "processed")
      else none := by
  have hstage : ("processed" == "decoded") = false := by decide
  have hsize : (decide (frame.width ≤ 0) || decide (frame.height ≤ 0)) =
      !decide (0 < frame.width ∧ 0 < frame.height) := by
    simp only [← Int32.not_le, Bool.decide_and, decide_not, Bool.not_and, Bool.not_not]
  have htest := mod_saveInterval self frameIndex
  unfold saveFrame
  rw [hstage, henabled, hensure, hsize]
  by_cases hmod : frameIndex % self.saveInterval.toInt64.toUInt64 = 0
  · by_cases hpicture : 0 < frame.width ∧ 0 < frame.height
    · have hsaves : self.Saves frame frameIndex := ⟨htest.mp hmod, hpicture⟩
      simp [hmod, hpicture, hencode, hsaves]
    · have hnot : ¬self.Saves frame frameIndex := fun hsaves => hpicture hsaves.2
      simp [hmod, hpicture, hnot]
  · have hnot : ¬self.Saves frame frameIndex := fun hsaves => hmod (htest.mpr hsaves.1)
    simp [hmod, hnot]

end FrameSaver

end FrameProcessor
