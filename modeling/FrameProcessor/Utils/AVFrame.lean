import FrameProcessor.Utils.Types

/-!
# utils/types - Pictures

The part of FFmpeg's `AVFrame` that the program reads.  A plane pointer is the memory
reachable from it by byte offset; planes the pixel format does not have are null.
-/

namespace FrameProcessor

/-- `AVRational`. -/
structure AVRational where
  num : Int32
  den : Int32
deriving DecidableEq

/-- What the program reads of an `AVFrame`. -/
structure AVFrame where
  width : Int32
  height : Int32
  /-- The `AVPixelFormat` of the picture. -/
  format : Int32
  pts : Int64
  sampleAspectRatio : AVRational
  /-- The plane pointers, `none` for a null pointer. -/
  data : Nat → Option (Int → UInt8)
  /-- The distance in bytes from one row of a plane to the next. -/
  linesize : Nat → Int32

namespace AVFrame

/-- The byte at an offset from a plane pointer.  Reading through a null pointer is
undefined behaviour, for which the value here stands in. -/
def load (frame : AVFrame) (plane : Nat) (offset : Int) : UInt8 :=
  match frame.data plane with
  | some memory => memory offset
  | none => 0

end AVFrame

/-- The result of `av_buffersink_get_frame_flags`. -/
inductive SinkResult where
  | frame (frame : AVFrame)
  | again
  | endOfFile
  | error

/-- A black picture of stream 1, event `motion`, for runs on fixed inputs. -/
def blackFrame (width height linesize : Int32) : DecodedFrame AVFrame where
  frame :=
    { width, height, format := 0, pts := 0, sampleAspectRatio := ⟨1, 1⟩
      data := fun _ => some fun _ => 0
      linesize := fun _ => linesize }
  sourceConfig :=
    { id := 1, url := "rtsp://a", targetFps := 1, waitForKeyframe := false, enabled := true }
  eventConfig := { id := 1, name := "motion" }

/-- A small black picture of an event whose batches hold one frame. -/
def singleFrame : DecodedFrame AVFrame :=
  { blackFrame 2 2 2 with eventConfig := { id := 1, name := "motion", batchSize := 1 } }

end FrameProcessor
