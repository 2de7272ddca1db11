import FrameProcessor.Foundations.ByteBuffer
import FrameProcessor.Utils.AVFrame

/-!
# components/publisher - The bytes of one frame

`batching_loop` appends one entry per frame to the batch's buffer: a packed header, then
the three planes copied row by row without padding.  Sizes are computed in 64 bits; the
row offsets `i * w` and `i * linesize` are 32-bit unsigned products.  The documented
layout is read back by a decoder of its own.

Main results:

- Theorem `Publisher.serializeFrame_eq`: an entry is the header followed by the rows of
  the three planes, provided the offsets inside the entry fit in 32 bits.
- Theorem `Publisher.decodeFrame_serializeFrame`: the documented layout is read back
  from the front of any buffer.
- Theorem `Publisher.picture_shows_iff`: for one frame geometry, the picture read back
  has the samples of the frame, whatever they are, exactly when no source offset wraps.
-/

namespace FrameProcessor

namespace Publisher

/-! ## The encoder -/

/-- `FrameHeader`, a packed structure. -/
structure FrameHeader where
  pts : Int64
  width : UInt32
  height : UInt32
deriving DecidableEq

/-- The bytes of a header in memory. -/
def FrameHeader.bytes (header : FrameHeader) : Bytes :=
  LittleEndian.encode 8 header.pts.toUInt64.toNat ++
    LittleEndian.encode 4 header.width.toNat ++ LittleEndian.encode 4 header.height.toNat

/-- The header of a frame. -/
def frameHeader (frame : AVFrame) : FrameHeader where
  pts := frame.pts
  width := frame.width.toUInt32
  height := frame.height.toUInt32

/-- The bytes copied of each row: `w` for the first plane and `w / 2` for the others. -/
def rowBytes (frame : AVFrame) (plane : Nat) : UInt32 :=
  if plane = 0 then frame.width.toUInt32 else frame.width.toUInt32 / 2

/-- The rows copied: `h` for the first plane and `h / 2` for the others. -/
def rowCount (frame : AVFrame) (plane : Nat) : UInt32 :=
  if plane = 0 then frame.height.toUInt32 else frame.height.toUInt32 / 2

/-- `y_plane_size` and `uv_plane_size`. -/
def planeSize (frame : AVFrame) (plane : Nat) : Nat :=
  (rowBytes frame plane).toNat * (rowCount frame plane).toNat

/-- `i * frame->linesize[plane]`: the product of a `uint32_t` and an `int` is a `uint32_t`. -/
def sourceOffset (frame : AVFrame) (plane : Nat) (i : UInt32) : UInt32 :=
  i * (frame.linesize plane).toUInt32

/-- The bytes that one `memcpy` reads. -/
def readRow (frame : AVFrame) (plane : Nat) (i : UInt32) : Bytes :=
  (List.range (rowBytes frame plane).toNat).map fun (c : Nat) =>
    frame.load plane ((sourceOffset frame plane i).toNat + c)

/-- The row-by-row copy of one plane to the entry, from `base` on. -/
def copyPlane (frame : AVFrame) (plane base : Nat) (entry : Bytes) : Bytes :=
  (List.range (rowCount frame plane).toNat).foldl
    (fun entry i =>
      Buffer.writeAt entry (base + (UInt32.ofNat i * rowBytes frame plane).toNat)
        (readRow frame plane (UInt32.ofNat i)))
    entry

/-- The entry that `batching_loop` appends for a frame: resized with zeros, then written. -/
def serializeFrame (frame : AVFrame) : Bytes :=
  let yPlaneSize := planeSize frame 0
  let uvPlaneSize := planeSize frame 1
  let totalFrameDataSize := yPlaneSize + uvPlaneSize + uvPlaneSize
  let entry := List.replicate (16 + totalFrameDataSize) 0
  let entry := Buffer.writeAt entry 0 (frameHeader frame).bytes
  let entry := copyPlane frame 0 16 entry
  let entry := copyPlane frame 1 (16 + yPlaneSize) entry
  copyPlane frame 2 (16 + yPlaneSize + uvPlaneSize) entry

/-! ## The entry as a concatenation -/

/-- The rows of one plane, one after the other. -/
def planeBytes (frame : AVFrame) (plane : Nat) : Bytes :=
  (List.range (rowCount frame plane).toNat).flatMap fun i => readRow frame plane (UInt32.ofNat i)

@[simp]
theorem FrameHeader.bytes_length (header : FrameHeader) : header.bytes.length = 16 := by
  simp [FrameHeader.bytes]

@[simp]
theorem readRow_length (frame : AVFrame) (plane : Nat) (i : UInt32) :
    (readRow frame plane i).length = (rowBytes frame plane).toNat := by
  simp [readRow]

@[simp]
theorem planeBytes_length (frame : AVFrame) (plane : Nat) :
    (planeBytes frame plane).length = planeSize frame plane := by
  simp [planeBytes, planeSize, List.length_flatMap, Nat.mul_comm]

/-- Both chroma planes have the same size. -/
theorem planeSize_two (frame : AVFrame) : planeSize frame 2 = planeSize frame 1 :=
  rfl

/-- A 32-bit product that fits is exact. -/
theorem toNat_ofNat_mul {i n : Nat} {x : UInt32} (hi : i < n) (hfit : n * x.toNat < 4294967296)
    (hn : n ≤ 4294967296) : (UInt32.ofNat i * x).toNat = i * x.toNat := by
  have hle : i * x.toNat ≤ n * x.toNat := Nat.mul_le_mul_right _ (Nat.le_of_lt hi)
  rw [UInt32.toNat_mul, UInt32.toNat_ofNat', Nat.mod_eq_of_lt (by omega : i < 2 ^ 32),
    Nat.mod_eq_of_lt (by omega)]

/-- Copying a plane fills the hole reserved for it. -/
theorem copyPlane_eq {frame : AVFrame} {plane base : Nat}
    (hfit : planeSize frame plane < 4294967296) {front hole : Bytes} (back : Bytes)
    (hbase : front.length = base) (hhole : hole.length = planeSize frame plane) :
    copyPlane frame plane base (front ++ hole ++ back) =
      front ++ planeBytes frame plane ++ back := by
  have hrows : (rowCount frame plane).toNat * (rowBytes frame plane).toNat < 4294967296 := by
    rwa [Nat.mul_comm]
  have hcount := (rowCount frame plane).toNat_lt
  subst hbase
  unfold copyPlane planeBytes
  rw [← Buffer.fill _ (fun i => readRow_length frame plane _) (by rw [hhole, Nat.mul_comm]; rfl)]
  refine List.foldl_ext _ _ _ fun entry i hi => ?_
  rw [toNat_ofNat_mul (List.mem_range.mp hi) hrows (by omega)]

/-- A chroma plane is no larger than the luma plane. -/
theorem planeSize_one_le (frame : AVFrame) : planeSize frame 1 ≤ planeSize frame 0 := by
  have hbytes : (rowBytes frame 1).toNat ≤ (rowBytes frame 0).toNat := by
    simp only [rowBytes, if_pos, one_ne_zero, if_false, UInt32.toNat_div]
    exact Nat.div_le_self _ _
  have hcount : (rowCount frame 1).toNat ≤ (rowCount frame 0).toNat := by
    simp only [rowCount, if_pos, one_ne_zero, if_false, UInt32.toNat_div]
    exact Nat.div_le_self _ _
  exact Nat.mul_le_mul hbytes hcount

/-- An entry is the header followed by the rows of the three planes. -/
theorem serializeFrame_eq {frame : AVFrame} (hfit : planeSize frame 0 < 4294967296) :
    serializeFrame frame = (frameHeader frame).bytes ++ planeBytes frame 0 ++
      planeBytes frame 1 ++ planeBytes frame 2 := by
  have hchroma := planeSize_one_le frame
  have hzeros : (List.replicate (16 + (planeSize frame 0 + planeSize frame 1 + planeSize frame 1))
      0 : Bytes) = [] ++ List.replicate 16 0 ++ (List.replicate (planeSize frame 0) 0 ++
        (List.replicate (planeSize frame 1) 0 ++ List.replicate (planeSize frame 1) 0)) := by
    simp only [List.nil_append, List.replicate_append_replicate, Nat.add_assoc]
  have hheader : ∀ back, Buffer.writeAt ([] ++ List.replicate 16 0 ++ back) 0
      (frameHeader frame).bytes = (frameHeader frame).bytes ++ back := fun back => by
    rw [← List.length_nil, Buffer.writeAt_hole (by simp), List.nil_append]
  simp only [serializeFrame]
  rw [hzeros, hheader, ← List.append_assoc,
    copyPlane_eq hfit _ (by simp) (by simp),
    ← List.append_assoc, copyPlane_eq (by omega) _ (by simp) (by simp)]
  have hv : copyPlane frame 2 (16 + planeSize frame 0 + planeSize frame 1)
      ((frameHeader frame).bytes ++ planeBytes frame 0 ++ planeBytes frame 1 ++
        List.replicate (planeSize frame 1) 0 ++ []) =
      (frameHeader frame).bytes ++ planeBytes frame 0 ++ planeBytes frame 1 ++
        planeBytes frame 2 ++ [] :=
    copyPlane_eq (by rw [planeSize_two]; omega) [] (by simp [Nat.add_assoc])
      (by simp [planeSize_two])
  simpa only [List.append_nil] using hv

theorem serializeFrame_length {frame : AVFrame} (hfit : planeSize frame 0 < 4294967296) :
    (serializeFrame frame).length =
      16 + (planeSize frame 0 + planeSize frame 1 + planeSize frame 1) := by
  simp [serializeFrame_eq hfit, planeSize_two, Nat.add_assoc]

/-! ## The documented layout -/

/-- A picture as a consumer of the batch sees it. -/
structure Picture where
  pts : Int64
  width : UInt32
  height : UInt32
  y : Bytes
  u : Bytes
  v : Bytes
deriving DecidableEq

/-- The planes of a picture by number. -/
def Picture.plane (picture : Picture) (plane : Nat) : Bytes :=
  match plane with
  | 0 => picture.y
  | 1 => picture.u
  | _ => picture.v

/-- Read one frame as the documentation lays it out: the 16 bytes of the header, then
`width * height` bytes, then twice `(width/2) * (height/2)` bytes. -/
def decodeFrame (buffer : Bytes) : Option (Picture × Bytes) := do
  let (pts, buffer) ← Buffer.takeExactly 8 buffer
  let (width, buffer) ← Buffer.takeExactly 4 buffer
  let (height, buffer) ← Buffer.takeExactly 4 buffer
  let width := LittleEndian.decode width
  let height := LittleEndian.decode height
  let (y, buffer) ← Buffer.takeExactly (width * height) buffer
  let (u, buffer) ← Buffer.takeExactly (width / 2 * (height / 2)) buffer
  let (v, buffer) ← Buffer.takeExactly (width / 2 * (height / 2)) buffer
  return (⟨(UInt64.ofNat (LittleEndian.decode pts)).toInt64, UInt32.ofNat width,
    UInt32.ofNat height, y, u, v⟩, buffer)

/-- Read frames until the buffer is exhausted. -/
def decodeBatch (buffer : Bytes) : Option (List Picture) :=
  Framing.decodeAll decodeFrame buffer.length buffer

/-- What a consumer reads back of a frame. -/
def pictureOf (frame : AVFrame) : Picture where
  pts := frame.pts
  width := frame.width.toUInt32
  height := frame.height.toUInt32
  y := planeBytes frame 0
  u := planeBytes frame 1
  v := planeBytes frame 2

/-- The documented layout is read back from the front of any buffer. -/
theorem decodeFrame_serializeFrame {frame : AVFrame} (hfit : planeSize frame 0 < 4294967296)
    (rest : Bytes) : decodeFrame (serializeFrame frame ++ rest) = some (pictureOf frame, rest) := by
  have hword : ∀ (width n : Nat) (back : Bytes),
      Buffer.takeExactly width (LittleEndian.encode width n ++ back) =
        some (LittleEndian.encode width n, back) :=
    fun width n => Buffer.takeExactly_append_of_length (LittleEndian.encode_length width n)
  have hpts : LittleEndian.decode (LittleEndian.encode 8 frame.pts.toUInt64.toNat) =
      frame.pts.toUInt64.toNat :=
    LittleEndian.decode_encode (by simpa using frame.pts.toUInt64.toNat_lt)
  have hsize : ∀ x : UInt32, LittleEndian.decode (LittleEndian.encode 4 x.toNat) = x.toNat :=
    fun x => LittleEndian.decode_encode (by simpa using x.toNat_lt)
  have hluma : frame.width.toUInt32.toNat * frame.height.toUInt32.toNat =
      (planeBytes frame 0).length :=
    (planeBytes_length frame 0).symm
  have hchroma : frame.width.toUInt32.toNat / 2 * (frame.height.toUInt32.toNat / 2) =
      planeSize frame 1 := by
    simp [planeSize, rowBytes, rowCount, UInt32.toNat_div]
  have hu := Buffer.takeExactly_append_of_length (planeBytes_length frame 1)
  have hv := Buffer.takeExactly_append_of_length (planeBytes_length frame 2)
  rw [planeSize_two] at hv
  rw [serializeFrame_eq hfit]
  simp only [decodeFrame, FrameHeader.bytes, frameHeader, List.append_assoc, hword, hpts, hsize,
    hluma, hchroma, hu, hv, Buffer.takeExactly_append, Option.bind_eq_bind, Option.bind_some]
  simp [pictureOf]

/-! ## The samples of the picture -/

/-- What the batcher relies on in a YUV420P frame: the three planes exist, sizes are
non-negative and bounded, and a row is no longer than the distance to the next. -/
structure Yuv420p (frame : AVFrame) : Prop where
  planes : ∀ plane < 3, (frame.data plane).isSome
  width : 0 ≤ frame.width.toInt
  height : 0 ≤ frame.height.toInt
  size : frame.width.toInt * frame.height.toInt < 268435456
  linesize : ∀ plane < 3, (rowBytes frame plane).toNat ≤ (frame.linesize plane).toInt

/-- The picture shows the frame: its time stamp and size, and for every plane the byte at
row `r` and column `c` is the one at `data[p][r * linesize[p] + c]`. -/
structure Picture.Shows (picture : Picture) (frame : AVFrame) : Prop where
  pts : picture.pts = frame.pts
  width : (picture.width.toNat : Int) = frame.width.toInt
  height : (picture.height.toNat : Int) = frame.height.toInt
  samples : ∀ plane < 3, ∀ r < (rowCount frame plane).toNat, ∀ c < (rowBytes frame plane).toNat,
    (picture.plane plane)[r * (rowBytes frame plane).toNat + c]? =
      some (frame.load plane (r * (frame.linesize plane).toInt + c))

/-- No source offset of a row that is copied exceeds 32 bits. -/
def OffsetsFit (frame : AVFrame) : Prop :=
  ∀ plane < 3, ∀ r < (rowCount frame plane).toNat, 0 < (rowBytes frame plane).toNat →
    r * (frame.linesize plane).toInt < 4294967296

theorem toUInt32_toNat {x : Int32} (h : 0 ≤ x.toInt) : (x.toUInt32.toNat : Int) = x.toInt := by
  have hx : (0 : Int32) ≤ x := Int32.le_iff_toInt_le.mpr (by simpa using h)
  rw [Int32.toNat_toUInt32_of_le hx, Int32.toInt_eq_toNatClampNeg hx]

/-- A picture within the bound of libavutil is far from wrapping any size. -/
theorem planeSize_fits {frame : AVFrame} (hwidth : 0 ≤ frame.width.toInt)
    (hheight : 0 ≤ frame.height.toInt)
    (hsize : frame.width.toInt * frame.height.toInt < 268435456) :
    planeSize frame 0 < 4294967296 := by
  rw [← toUInt32_toNat hwidth, ← toUInt32_toNat hheight, ← Int.natCast_mul] at hsize
  have hplane : planeSize frame 0 = frame.width.toUInt32.toNat * frame.height.toUInt32.toNat :=
    rfl
  omega

theorem Yuv420p.fits {frame : AVFrame} (h : Yuv420p frame) : planeSize frame 0 < 4294967296 :=
  planeSize_fits h.width h.height h.size

/-- The byte of the picture at row `r` and column `c`: the source offset is the 32-bit
product. -/
theorem pictureOf_sample (frame : AVFrame) {plane r c : Nat} (hplane : plane < 3)
    (hr : r < (rowCount frame plane).toNat) (hc : c < (rowBytes frame plane).toNat) :
    ((pictureOf frame).plane plane)[r * (rowBytes frame plane).toNat + c]? =
      some (frame.load plane ((sourceOffset frame plane (UInt32.ofNat r)).toNat + c)) := by
  have hplaneBytes : (pictureOf frame).plane plane = planeBytes frame plane := by
    match plane, hplane with
    | 0, _ => rfl
    | 1, _ => rfl
    | 2, _ => rfl
  rw [hplaneBytes, planeBytes, Buffer.getElem?_rows (fun _ => readRow_length frame plane _) hr hc]
  simp [readRow, hc]

theorem toUInt32_toNat_emod (x : Int32) : (x.toUInt32.toNat : Int) = x.toInt % 4294967296 := by
  have hlt := x.toBitVec.isLt
  rw [← Int32.toNat_toBitVec, ← Int32.toInt_toBitVec, BitVec.toInt_eq_toNat_cond]
  split <;> omega

/-- A source offset, as the remainder of the exact product. -/
theorem sourceOffset_toNat (frame : AVFrame) {plane r : Nat}
    (hr : r < (rowCount frame plane).toNat) :
    ((sourceOffset frame plane (UInt32.ofNat r)).toNat : Int) =
      r * (frame.linesize plane).toInt % 4294967296 := by
  have hcount := (rowCount frame plane).toNat_lt
  have hr32 : r % 2 ^ 32 = r := Nat.mod_eq_of_lt (by omega)
  calc ((sourceOffset frame plane (UInt32.ofNat r)).toNat : Int)
      = r * (frame.linesize plane).toUInt32.toNat % 4294967296 := by
        rw [sourceOffset, UInt32.toNat_mul, UInt32.toNat_ofNat', hr32, Int.natCast_emod,
          Int.natCast_mul]
        rfl
    _ = r * (frame.linesize plane).toInt % 4294967296 := by
        rw [toUInt32_toNat_emod, Int.mul_emod, Int.emod_emod, ← Int.mul_emod]

/-- The picture read back shows the frame when no source offset wraps. -/
theorem picture_shows {frame : AVFrame} (h : Yuv420p frame) (hfit : OffsetsFit frame) :
    (pictureOf frame).Shows frame := by
  refine ⟨rfl, toUInt32_toNat h.width, toUInt32_toNat h.height, ?_⟩
  intro plane hplane r hr c hc
  have hoffset := sourceOffset_toNat frame hr
  have hnonneg : 0 ≤ (r : Int) * (frame.linesize plane).toInt := by
    have hle := h.linesize plane hplane
    exact Int.mul_nonneg (Int.natCast_nonneg r) (by omega)
  rw [Int.emod_eq_of_lt hnonneg (hfit plane hplane r hr (by omega))] at hoffset
  rw [pictureOf_sample frame hplane hr hc, hoffset]

/-! ## Frames of one geometry -/

/-- The same picture geometry with other samples. -/
def withData (frame : AVFrame) (samples : Nat → Int → UInt8) : AVFrame :=
  { frame with data := fun plane => (frame.data plane).map fun _ => samples plane }

theorem Yuv420p.withData {frame : AVFrame} (h : Yuv420p frame) (samples : Nat → Int → UInt8) :
    Yuv420p (withData frame samples) where
  planes plane hplane := by simpa [Publisher.withData] using h.planes plane hplane
  width := h.width
  height := h.height
  size := h.size
  linesize := h.linesize

theorem load_withData {frame : AVFrame} {plane : Nat} (hplane : (frame.data plane).isSome)
    (samples : Nat → Int → UInt8) (offset : Int) :
    (withData frame samples).load plane offset = samples plane offset := by
  rcases Option.isSome_iff_exists.mp hplane with ⟨memory, hmemory⟩
  simp [AVFrame.load, withData, hmemory]

/-- A frame holds its own samples. -/
theorem withData_load (frame : AVFrame) : withData frame frame.load = frame := by
  have hdata : (fun plane => (frame.data plane).map fun _ => frame.load plane) = frame.data := by
    funext plane
    cases hplane : frame.data plane with
    | none => rfl
    | some memory =>
        refine congrArg some (funext fun offset => ?_)
        simp [AVFrame.load, hplane]
  rw [withData, hdata]

/-- Samples that tell every offset below from every other: the byte at the given offset
is 1, all others are 0. -/
def marked (offset : Int) : Nat → Int → UInt8 :=
  fun _ o => if o = offset then 1 else 0

/-- The marked byte is read through the source offset only if that is exact. -/
theorem offset_fits_of_marked {frame : AVFrame} {plane r : Nat}
    (hplane : (frame.data plane).isSome) (hr : r < (rowCount frame plane).toNat)
    (hread : (withData frame (marked (r * (frame.linesize plane).toInt))).load plane
        (sourceOffset frame plane (UInt32.ofNat r)).toNat =
      (withData frame (marked (r * (frame.linesize plane).toInt))).load plane
        (r * (frame.linesize plane).toInt)) :
    0 ≤ r * (frame.linesize plane).toInt ∧ r * (frame.linesize plane).toInt < 4294967296 := by
  rw [load_withData hplane, load_withData hplane, sourceOffset_toNat frame hr] at hread
  have hsame : r * (frame.linesize plane).toInt % 4294967296 =
      r * (frame.linesize plane).toInt := by
    by_contra hne
    simp [marked, hne] at hread
  rw [← hsame]
  constructor
  · exact Int.emod_nonneg _ (by omega)
  · exact Int.emod_lt_of_pos _ (by omega)

/-- If a source offset wraps, some samples are not shown. -/
theorem exists_not_shows {frame : AVFrame} (h : Yuv420p frame) (hfit : ¬ OffsetsFit frame) :
    ∃ samples, ¬ (pictureOf (withData frame samples)).Shows (withData frame samples) := by
  simp only [OffsetsFit, not_forall, not_lt] at hfit
  rcases hfit with ⟨plane, hplane, r, hr, hc, hwrap⟩
  let frame' := withData frame (marked (r * (frame.linesize plane).toInt))
  refine ⟨marked (r * (frame.linesize plane).toInt), fun hshows => ?_⟩
  have hcopied := pictureOf_sample frame' hplane hr hc
  have hsample := Option.some.inj (hcopied.symm.trans (hshows.samples plane hplane r hr 0 hc))
  simp only [Int.natCast_zero, add_zero] at hsample
  have hlt := (offset_fits_of_marked (h.planes plane hplane) hr hsample).2
  omega

/-- For one geometry, the picture read back shows the frame, whatever its samples are,
exactly when no source offset wraps. -/
theorem picture_shows_iff {frame : AVFrame} (h : Yuv420p frame) :
    (∀ samples, (pictureOf (withData frame samples)).Shows (withData frame samples)) ↔
      OffsetsFit frame := by
  constructor
  · intro hall
    by_contra hfit
    rcases exists_not_shows h hfit with ⟨samples, hsamples⟩
    exact hsamples (hall samples)
  · intro hfit samples
    exact picture_shows (h.withData samples) hfit

end Publisher

end FrameProcessor
