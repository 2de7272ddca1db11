import FrameProcessor.Publisher.Serialization
import FrameProcessor.StreamIo.FilterGraph
import FrameProcessor.Worker.Processing

/-!
# components/publisher - Pixel formats on the way to the batch

The reader's sinks deliver the codec's own pixel format, the worker's sink keeps the format
of its input, and `batching_loop` copies three planes without looking at the format.  What
the copied bytes mean is then decided by libavutil's description of the codec's format.

Main results:

- Theorem `Publisher.published_iff`: for one picture geometry, the entry holds the planes of
  the picture in YUV420P, whatever its samples are, exactly when every plane that is not
  empty is stored as in YUV420P and its row offsets are exact.
- Theorem `Publisher.published_whole_iff`: the same with chroma sizes rounded up.
- Theorem `Publisher.serialised_published_iff`: the two for every frame of every stream, in
  terms of the format of the codec parameters.
-/

namespace FrameProcessor

/-! ## Pixel format descriptors -/

/-- `AVComponentDescriptor`: where one component of a picture is stored. -/
structure AVComponentDescriptor where
  plane : Nat
  /-- Bytes from one sample to the next in a row. -/
  step : Nat
  /-- Bytes before the first sample of a row. -/
  offset : Nat
  /-- Low bits of a sample to drop. -/
  shift : Nat
  /-- Bits of a sample. -/
  depth : Nat
deriving DecidableEq

/-- `AVPixFmtDescriptor`, with the flags that matter here. -/
structure AVPixFmtDescriptor where
  log2ChromaW : Nat
  log2ChromaH : Nat
  comp : List AVComponentDescriptor
  be : Bool := false
  pal : Bool := false
  bitstream : Bool := false
  hwaccel : Bool := false
  rgb : Bool := false
  bayer : Bool := false
  xyz : Bool := false
deriving DecidableEq

namespace AVPixFmtDescriptor

/-- The components are luma and chroma samples in addressable memory. -/
def isYuv (d : AVPixFmtDescriptor) : Bool :=
  !(d.pal || d.bitstream || d.hwaccel || d.rgb || d.bayer || d.xyz)

/-- The sample of a component at row `r` and column `c` of its grid, as
`av_read_image_line` reads it from a format of up to 16 bits that is no bitstream. -/
def sample (d : AVPixFmtDescriptor) (frame : AVFrame) (component r c : Nat) : Nat :=
  match d.comp[component]? with
  | none => 0
  | some comp =>
      let address : Int := r * (frame.linesize comp.plane).toInt + (c * comp.step + comp.offset)
      let byte (k : Int) : Nat := (frame.load comp.plane (address + k)).toNat
      let value :=
        if comp.shift + comp.depth ≤ 8 then byte (if d.be then 1 else 0)
        else if d.be then byte 0 * 256 + byte 1
        else byte 1 * 256 + byte 0
      value / 2 ^ comp.shift % 2 ^ comp.depth

/-- The format has the plane and stores the same samples there as YUV420P does. -/
def storedAsYuv420p (d : AVPixFmtDescriptor) (plane : Nat) : Bool :=
  d.isYuv && !d.be && d.comp[plane]? == some ⟨plane, 1, 0, 0, 8⟩ &&
    (plane == 0 || d.log2ChromaW == 1 && d.log2ChromaH == 1)

/-- Where a plane is stored as in YUV420P, its samples are its bytes. -/
theorem sample_of_stored {d : AVPixFmtDescriptor} {plane : Nat}
    (h : d.storedAsYuv420p plane = true) (frame : AVFrame) (r c : Nat) :
    d.sample frame plane r c =
      (frame.load plane (r * (frame.linesize plane).toInt + c)).toNat := by
  simp only [storedAsYuv420p, Bool.and_eq_true, Bool.not_eq_eq_eq_not, Bool.not_true,
    beq_iff_eq] at h
  rcases h with ⟨⟨⟨-, hbe⟩, hcomp⟩, -⟩
  simp [sample, hbe, hcomp]

end AVPixFmtDescriptor

namespace Publisher

/-! ## The planes of a picture -/

/-- The columns of a plane, where chroma planes have `half` the width. -/
def planeWidth (half : Nat → Nat) (frame : AVFrame) (plane : Nat) : Nat :=
  if plane = 0 then frame.width.toUInt32.toNat else half frame.width.toUInt32.toNat

/-- The rows of a plane, where chroma planes have `half` the height. -/
def planeHeight (half : Nat → Nat) (frame : AVFrame) (plane : Nat) : Nat :=
  if plane = 0 then frame.height.toUInt32.toNat else half frame.height.toUInt32.toNat

/-- The samples of a plane of the picture in YUV420P, row by row. -/
def planeSamples (half : Nat → Nat) (d : AVPixFmtDescriptor) (frame : AVFrame) (plane : Nat) :
    List Nat :=
  (List.range (planeHeight half frame plane)).flatMap fun r =>
    (List.range (planeWidth half frame plane)).map fun c => d.sample frame plane r c

/-- The documented size of a chroma plane: half, rounded down. -/
def documentedHalf (n : Nat) : Nat :=
  n / 2

/-- The size of a chroma plane of YUV420P: half, rounded up. -/
def wholeHalf (n : Nat) : Nat :=
  (n + 1) / 2

/-- The entry of the frame is its header and the Y, U and V planes of the picture in 8-bit
YUV420P, and every plane that is read exists and is stored as in YUV420P. -/
structure Published (half : Nat → Nat) (d : AVPixFmtDescriptor) (frame : AVFrame) : Prop where
  bytes : (serializeFrame frame).map UInt8.toNat =
    (frameHeader frame).bytes.map UInt8.toNat ++ planeSamples half d frame 0 ++
      planeSamples half d frame 1 ++ planeSamples half d frame 2
  reads : ∀ plane < 3, 0 < planeSize frame plane →
    (frame.data plane).isSome ∧ d.storedAsYuv420p plane = true

/-- What libavutil guarantees of a picture of a format: its planes exist, and its size is
non-negative and bounded. -/
structure Allocated (d : AVPixFmtDescriptor) (frame : AVFrame) : Prop where
  planes : ∀ comp ∈ d.comp, (frame.data comp.plane).isSome
  width : 0 ≤ frame.width.toInt
  height : 0 ≤ frame.height.toInt
  size : frame.width.toInt * frame.height.toInt < 268435456

/-- The row offsets of a plane fit in 32 bits. -/
def OffsetsExact (frame : AVFrame) (plane : Nat) : Prop :=
  ∀ r < (rowCount frame plane).toNat,
    0 ≤ r * (frame.linesize plane).toInt ∧ r * (frame.linesize plane).toInt < 4294967296

/-- Every plane that is not empty is stored as in YUV420P, at offsets that fit. -/
def CopiedAsYuv420p (d : AVPixFmtDescriptor) (frame : AVFrame) : Prop :=
  ∀ plane < 3, 0 < planeSize frame plane →
    d.storedAsYuv420p plane = true ∧ OffsetsExact frame plane

/-- Rounding the chroma sizes up or down is the same. -/
def EvenOrEmpty (frame : AVFrame) : Prop :=
  frame.width.toUInt32.toNat = 0 ∨ frame.height.toUInt32.toNat = 0 ∨
    frame.width.toUInt32.toNat % 2 = 0 ∧ frame.height.toUInt32.toNat % 2 = 0

/-! ## Plane by plane -/

theorem Allocated.fits {d : AVPixFmtDescriptor} {frame : AVFrame} (h : Allocated d frame) :
    planeSize frame 0 < 4294967296 :=
  planeSize_fits h.width h.height h.size

theorem planeWidth_documented (frame : AVFrame) (plane : Nat) :
    planeWidth documentedHalf frame plane = (rowBytes frame plane).toNat := by
  unfold planeWidth rowBytes documentedHalf
  split
  · rfl
  · simp

theorem planeHeight_documented (frame : AVFrame) (plane : Nat) :
    planeHeight documentedHalf frame plane = (rowCount frame plane).toNat := by
  unfold planeHeight rowCount documentedHalf
  split
  · rfl
  · simp

theorem planeSamples_length (half : Nat → Nat) (d : AVPixFmtDescriptor) (frame : AVFrame)
    (plane : Nat) :
    (planeSamples half d frame plane).length =
      planeWidth half frame plane * planeHeight half frame plane := by
  simp [planeSamples, List.length_flatMap, Nat.mul_comm]

/-- The copied rows of a plane are its samples exactly when every copied byte is. -/
theorem planeBytes_eq_samples_iff (d : AVPixFmtDescriptor) (frame : AVFrame) (plane : Nat) :
    (planeBytes frame plane).map UInt8.toNat = planeSamples documentedHalf d frame plane ↔
      ∀ r < (rowCount frame plane).toNat, ∀ c < (rowBytes frame plane).toNat,
        (frame.load plane ((sourceOffset frame plane (UInt32.ofNat r)).toNat + c)).toNat =
          d.sample frame plane r c := by
  have hcopied : (planeBytes frame plane).map UInt8.toNat =
      (List.range (rowCount frame plane).toNat).flatMap fun r =>
        (List.range (rowBytes frame plane).toNat).map fun (c : Nat) =>
          (frame.load plane ((sourceOffset frame plane (UInt32.ofNat r)).toNat + c)).toNat := by
    simp [planeBytes, readRow, List.map_flatMap, Function.comp_def]
  rw [hcopied, planeSamples, planeWidth_documented, planeHeight_documented]
  constructor
  · intro heq r hr c hc
    have hget := congrArg (·[r * (rowBytes frame plane).toNat + c]?) heq
    rw [Buffer.getElem?_rows (by simp) hr hc, Buffer.getElem?_rows (by simp) hr hc] at hget
    simpa [hc] using hget
  · intro hall
    refine List.flatMap_congr fun r hr => List.map_congr_left fun c hc => ?_
    exact hall r (List.mem_range.mp hr) c (List.mem_range.mp hc)

/-- The entry is made of the planes exactly when each copied plane is. -/
theorem serializeFrame_eq_planes_iff {d : AVPixFmtDescriptor} {frame : AVFrame}
    (hfit : planeSize frame 0 < 4294967296) :
    (serializeFrame frame).map UInt8.toNat =
        (frameHeader frame).bytes.map UInt8.toNat ++ planeSamples documentedHalf d frame 0 ++
          planeSamples documentedHalf d frame 1 ++ planeSamples documentedHalf d frame 2 ↔
      ∀ plane < 3,
        (planeBytes frame plane).map UInt8.toNat = planeSamples documentedHalf d frame plane := by
  have hlength : ∀ plane, ((planeBytes frame plane).map UInt8.toNat).length =
      (planeSamples documentedHalf d frame plane).length := by
    intro plane
    rw [planeSamples_length, planeWidth_documented, planeHeight_documented, List.length_map,
      planeBytes_length, planeSize]
  rw [serializeFrame_eq hfit]
  simp only [List.map_append]
  constructor
  · intro heq
    rcases List.append_inj' heq (hlength 2) with ⟨heq, htwo⟩
    rcases List.append_inj' heq (hlength 1) with ⟨heq, hone⟩
    rcases List.append_inj' heq (hlength 0) with ⟨-, hzero⟩
    intro plane hplane
    rcases (by omega : plane = 0 ∨ plane = 1 ∨ plane = 2) with rfl | rfl | rfl
    · exact hzero
    · exact hone
    · exact htwo
  · intro hall
    rw [hall 0 (by omega), hall 1 (by omega), hall 2 (by omega)]

/-! ## Pictures of one geometry -/

theorem Allocated.withData {d : AVPixFmtDescriptor} {frame : AVFrame} (h : Allocated d frame)
    (samples : Nat → Int → UInt8) : Allocated d (withData frame samples) where
  planes comp hcomp := by simpa [Publisher.withData] using h.planes comp hcomp
  width := h.width
  height := h.height
  size := h.size

/-- A plane that the format stores as YUV420P does is not null. -/
theorem Allocated.isSome_of_stored {d : AVPixFmtDescriptor} {frame : AVFrame}
    (h : Allocated d frame) {plane : Nat} (hstored : d.storedAsYuv420p plane = true) :
    (frame.data plane).isSome := by
  simp only [AVPixFmtDescriptor.storedAsYuv420p, Bool.and_eq_true, beq_iff_eq] at hstored
  exact h.planes _ (List.mem_of_getElem? hstored.1.2)

/-- Every byte of a stored plane is copied from its place, whatever the samples are, exactly
when the row offsets fit. -/
theorem copied_samples_iff {d : AVPixFmtDescriptor} {frame : AVFrame} {plane : Nat}
    (hplane : (frame.data plane).isSome) (hstored : d.storedAsYuv420p plane = true)
    (hcols : 0 < (rowBytes frame plane).toNat) :
    (∀ samples, (planeBytes (withData frame samples) plane).map UInt8.toNat =
        planeSamples documentedHalf d (withData frame samples) plane) ↔
      OffsetsExact frame plane := by
  constructor
  · intro hall r hr
    have hcopied := (planeBytes_eq_samples_iff d _ plane).mp
      (hall (marked (r * (frame.linesize plane).toInt))) r hr 0 hcols
    rw [AVPixFmtDescriptor.sample_of_stored hstored, UInt8.toNat_inj] at hcopied
    simp only [Int.natCast_zero, add_zero] at hcopied
    exact offset_fits_of_marked hplane hr hcopied
  · intro hexact samples
    refine (planeBytes_eq_samples_iff d _ plane).mpr fun r hr c hc => ?_
    have hoffset : ((sourceOffset (withData frame samples) plane (UInt32.ofNat r)).toNat : Int) =
        r * (frame.linesize plane).toInt := by
      rw [sourceOffset_toNat (withData frame samples) hr]
      exact Int.emod_eq_of_lt (hexact r hr).1 (hexact r hr).2
    rw [AVPixFmtDescriptor.sample_of_stored hstored, hoffset]
    rfl

/-- For one geometry: the entry is made of the documented planes, and nothing else is read,
exactly when every plane that is not empty is stored as in YUV420P at offsets that fit. -/
theorem published_iff {d : AVPixFmtDescriptor} {frame : AVFrame} (h : Allocated d frame) :
    (∀ samples, Published documentedHalf d (withData frame samples)) ↔
      CopiedAsYuv420p d frame := by
  constructor
  · intro hall plane hplane hsize
    have hreads := (hall frame.load).reads plane hplane hsize
    have hcols : 0 < (rowBytes frame plane).toNat := Nat.pos_of_mul_pos_right hsize
    refine ⟨hreads.2, (copied_samples_iff (h.isSome_of_stored hreads.2) hreads.2 hcols).mp ?_⟩
    intro samples
    exact (serializeFrame_eq_planes_iff (h.withData samples).fits).mp (hall samples).bytes
      plane hplane
  · intro hcopied samples
    refine ⟨(serializeFrame_eq_planes_iff (h.withData samples).fits).mpr fun plane hplane => ?_,
      fun plane hplane hsize => ?_⟩
    · rcases Nat.eq_zero_or_pos (planeSize frame plane) with hempty | hsize
      · have hbytes : (planeBytes (withData frame samples) plane).length = 0 :=
          (planeBytes_length _ plane).trans hempty
        have hsamples :
            (planeSamples documentedHalf d (withData frame samples) plane).length = 0 := by
          rw [planeSamples_length, planeWidth_documented, planeHeight_documented]
          exact hempty
        rw [List.length_eq_zero_iff.mp hbytes, List.length_eq_zero_iff.mp hsamples]
        rfl
      · rcases hcopied plane hplane hsize with ⟨hstored, hexact⟩
        have hcols : 0 < (rowBytes frame plane).toNat := Nat.pos_of_mul_pos_right hsize
        exact (copied_samples_iff (h.isSome_of_stored hstored) hstored hcols).mpr hexact samples
    · have hstored := (hcopied plane hplane hsize).1
      exact ⟨(h.withData samples).isSome_of_stored hstored, hstored⟩

/-! ## Whole chroma planes -/

/-- Half of both sizes, rounded up or down, gives the same area only without rounding. -/
theorem whole_area_eq_iff (w h : Nat) :
    wholeHalf w * wholeHalf h = documentedHalf w * documentedHalf h ↔
      w = 0 ∨ h = 0 ∨ w % 2 = 0 ∧ h % 2 = 0 := by
  unfold wholeHalf documentedHalf
  constructor
  · intro harea
    by_contra hodd
    have hw : w / 2 ≤ (w + 1) / 2 := Nat.div_le_div_right (Nat.le_succ w)
    have hh : h / 2 ≤ (h + 1) / 2 := Nat.div_le_div_right (Nat.le_succ h)
    have hone : w % 2 = 1 ∨ h % 2 = 1 := by omega
    rcases hone with hw2 | hh2
    · have hlt : w / 2 * ((h + 1) / 2) < (w + 1) / 2 * ((h + 1) / 2) :=
        Nat.mul_lt_mul_of_pos_right (by omega) (by omega)
      have hle : w / 2 * (h / 2) ≤ w / 2 * ((h + 1) / 2) := Nat.mul_le_mul_left _ hh
      omega
    · have hlt : (w + 1) / 2 * (h / 2) < (w + 1) / 2 * ((h + 1) / 2) :=
        Nat.mul_lt_mul_of_pos_left (by omega) (by omega)
      have hle : w / 2 * (h / 2) ≤ (w + 1) / 2 * (h / 2) := Nat.mul_le_mul_right _ hw
      omega
  · rintro (rfl | rfl | ⟨hw, hh⟩)
    · simp
    · simp
    · rw [show (w + 1) / 2 = w / 2 by omega, show (h + 1) / 2 = h / 2 by omega]

theorem planeSamples_whole {d : AVPixFmtDescriptor} {frame : AVFrame} (h : EvenOrEmpty frame)
    (plane : Nat) :
    planeSamples wholeHalf d frame plane = planeSamples documentedHalf d frame plane := by
  by_cases hplane : plane = 0
  · subst hplane
    rfl
  · have hempty : ∀ half, planeWidth half frame plane * planeHeight half frame plane = 0 →
        planeSamples half d frame plane = [] := by
      intro half harea
      exact List.length_eq_zero_iff.mp ((planeSamples_length half d frame plane).trans harea)
    rcases h with hw | hh | ⟨hw, hh⟩
    · rw [hempty, hempty] <;> simp [planeWidth, hplane, hw, wholeHalf, documentedHalf]
    · rw [hempty, hempty] <;> simp [planeHeight, hplane, hh, wholeHalf, documentedHalf]
    · have hwidth : planeWidth wholeHalf frame plane = planeWidth documentedHalf frame plane := by
        simp only [planeWidth, hplane, if_false, wholeHalf, documentedHalf]
        omega
      have hheight : planeHeight wholeHalf frame plane =
          planeHeight documentedHalf frame plane := by
        simp only [planeHeight, hplane, if_false, wholeHalf, documentedHalf]
        omega
      rw [planeSamples, planeSamples, hwidth, hheight]

/-- With chroma sizes rounded up the entry is complete only when there is nothing to round. -/
theorem Published.evenOrEmpty {d : AVPixFmtDescriptor} {frame : AVFrame}
    (hfit : planeSize frame 0 < 4294967296) (h : Published wholeHalf d frame) :
    EvenOrEmpty frame := by
  have hlength := congrArg List.length h.bytes
  have hdocumented : planeSize frame 1 =
      documentedHalf frame.width.toUInt32.toNat * documentedHalf frame.height.toUInt32.toNat := by
    rw [planeSize, ← planeWidth_documented, ← planeHeight_documented]
    rfl
  have hluma : (planeSamples wholeHalf d frame 0).length = planeSize frame 0 :=
    planeSamples_length _ _ _ _
  have hchroma : ∀ plane, plane ≠ 0 → (planeSamples wholeHalf d frame plane).length =
      wholeHalf frame.width.toUInt32.toNat * wholeHalf frame.height.toUInt32.toNat := by
    intro plane hplane
    simp [planeSamples_length, planeWidth, planeHeight, hplane]
  simp only [List.length_append, List.length_map, serializeFrame_length hfit,
    FrameHeader.bytes_length, hluma, hchroma 1 (by omega), hchroma 2 (by omega)] at hlength
  exact (whole_area_eq_iff _ _).mp (by omega)

/-- For one geometry and chroma sizes rounded up: both sizes are also even. -/
theorem published_whole_iff {d : AVPixFmtDescriptor} {frame : AVFrame} (h : Allocated d frame) :
    (∀ samples, Published wholeHalf d (withData frame samples)) ↔
      CopiedAsYuv420p d frame ∧ EvenOrEmpty frame := by
  have hsame : EvenOrEmpty frame → ∀ samples,
      (Published wholeHalf d (withData frame samples) ↔
        Published documentedHalf d (withData frame samples)) := by
    intro heven samples
    have hplanes : ∀ plane, planeSamples wholeHalf d (withData frame samples) plane =
        planeSamples documentedHalf d (withData frame samples) plane :=
      planeSamples_whole heven
    constructor
    · rintro ⟨hbytes, hreads⟩
      exact ⟨by simpa only [hplanes] using hbytes, hreads⟩
    · rintro ⟨hbytes, hreads⟩
      exact ⟨by simpa only [hplanes] using hbytes, hreads⟩
  constructor
  · intro hall
    have heven : EvenOrEmpty frame := by
      have hown := hall frame.load
      rw [withData_load] at hown
      exact hown.evenOrEmpty h.fits
    exact ⟨(published_iff h).mp fun samples => (hsame heven samples).mp (hall samples), heven⟩
  · rintro ⟨hcopied, heven⟩ samples
    exact (hsame heven samples).mpr ((published_iff h).mpr hcopied samples)

/-! ## From the codec to the batch -/

/-- The frame is published as the picture it is, going by its own pixel format. -/
def FramePublished (avPixFmtDescGet : Int32 → Option AVPixFmtDescriptor) (half : Nat → Nat)
    (frame : AVFrame) : Prop :=
  ∃ d, avPixFmtDescGet frame.format = some d ∧ Published half d frame

/-- What a worker makes of a frame of a stream has the preferred pixel format of the stream,
whatever the worker handled before. -/
theorem output_format {ρ γ : Type*} {reader : MultiOutputAvfilter ρ}
    {readerFormat : ρ → Nat → Option Int32}
    (hreader : StreamIoManager.DeliversSinkFormats reader readerFormat)
    {av : Avfilter γ} {sinkFormat : γ → Int32} (hav : Worker.DeliversSinkFormat av sinkFormat)
    {quotient : RateQuotient} {rounds : Nat} {config : StreamConfig} {videoStream : AVStream}
    {rawFrames : List AVFrame} {input output : DecodedFrame AVFrame}
    (handled : List (DecodedFrame AVFrame))
    (hinput : input ∈
      StreamIoManager.connection quotient reader rounds config videoStream rawFrames)
    (houtput : output ∈ (Worker.processFrame av (Worker.contextsAfter av handled) input).1) :
    output.frame.format = StreamIoManager.preferredFormat videoStream.codecpar := by
  have hcontexts := Worker.contextsAfter_format hav handled
  calc output.frame.format
      = input.frame.format := (Worker.processFrame_format hav hcontexts input).1 output houtput
    _ = StreamIoManager.preferredFormat videoStream.codecpar :=
        StreamIoManager.connection_format hreader quotient rounds videoStream rawFrames input
          hinput

/-- For every stream, every sequence of decoded frames, every crop and scale setting and every
history of the worker: the entries of the frames that come out are the planes of the pictures
in 8-bit YUV420P, at the documented or at the whole chroma size, exactly when the format of
the codec parameters stores the planes as YUV420P does, the row offsets fit, and, for the
whole size, both sizes are even. -/
theorem serialised_published_iff {ρ γ : Type*} {reader : MultiOutputAvfilter ρ}
    {readerFormat : ρ → Nat → Option Int32}
    (hreader : StreamIoManager.DeliversSinkFormats reader readerFormat)
    {av : Avfilter γ} {sinkFormat : γ → Int32} (hav : Worker.DeliversSinkFormat av sinkFormat)
    {avPixFmtDescGet : Int32 → Option AVPixFmtDescriptor} {d : AVPixFmtDescriptor}
    {quotient : RateQuotient} {rounds : Nat} {config : StreamConfig} {videoStream : AVStream}
    {rawFrames : List AVFrame} {input output : DecodedFrame AVFrame}
    (handled : List (DecodedFrame AVFrame))
    (hinput : input ∈
      StreamIoManager.connection quotient reader rounds config videoStream rawFrames)
    (houtput : output ∈ (Worker.processFrame av (Worker.contextsAfter av handled) input).1)
    (hd : avPixFmtDescGet (StreamIoManager.preferredFormat videoStream.codecpar) = some d)
    (hallocated : Allocated d output.frame) :
    ((∀ samples, FramePublished avPixFmtDescGet documentedHalf (withData output.frame samples)) ↔
        CopiedAsYuv420p d output.frame) ∧
      ((∀ samples, FramePublished avPixFmtDescGet wholeHalf (withData output.frame samples)) ↔
        CopiedAsYuv420p d output.frame ∧ EvenOrEmpty output.frame) := by
  have hformat := output_format hreader hav handled hinput houtput
  have hown : ∀ half samples, FramePublished avPixFmtDescGet half (withData output.frame samples) ↔
      Published half d (withData output.frame samples) := by
    intro half samples
    have hdesc : avPixFmtDescGet (withData output.frame samples).format = some d := by
      rw [← hd, ← hformat]
      rfl
    simp [FramePublished, hdesc]
  simp only [hown]
  exact ⟨published_iff hallocated, published_whole_iff hallocated⟩

/-! ## Streams of one picture -/

/-- `yuv420p`, and `yuvj420p` as well. -/
def yuv420p : AVPixFmtDescriptor where
  log2ChromaW := 1
  log2ChromaH := 1
  comp := [⟨0, 1, 0, 0, 8⟩, ⟨1, 1, 0, 0, 8⟩, ⟨2, 1, 0, 0, 8⟩]

/-- `nv12`: both chroma components share a plane. -/
def nv12 : AVPixFmtDescriptor where
  log2ChromaW := 1
  log2ChromaH := 1
  comp := [⟨0, 1, 0, 0, 8⟩, ⟨1, 2, 0, 0, 8⟩, ⟨1, 2, 1, 0, 8⟩]

/-- `gray`. -/
def gray : AVPixFmtDescriptor where
  log2ChromaW := 0
  log2ChromaH := 0
  comp := [⟨0, 1, 0, 0, 8⟩]

/-- `rgb24`. -/
def rgb24 : AVPixFmtDescriptor where
  log2ChromaW := 0
  log2ChromaH := 0
  comp := [⟨0, 3, 0, 0, 8⟩, ⟨0, 3, 1, 0, 8⟩, ⟨0, 3, 2, 0, 8⟩]
  rgb := true

-- planar formats with other subsampling or depth are not stored as YUV420P either
example :
    [yuv420p, { yuv420p with log2ChromaH := 0 },
      { yuv420p with log2ChromaW := 0, log2ChromaH := 0 },
      { yuv420p with comp := [⟨0, 2, 0, 0, 10⟩, ⟨1, 2, 0, 0, 10⟩, ⟨2, 2, 0, 0, 10⟩] }, nv12, gray,
      rgb24].map (fun d => (List.range 3).map d.storedAsYuv420p) =
    [[true, true, true], [true, false, false], [true, false, false], [false, false, false],
      [true, false, false], [true, false, false], [false, false, false]] := by
  decide

/-- `av_pix_fmt_desc_get` on some formats. -/
def somePixFmts (format : Int32) : Option AVPixFmtDescriptor :=
  if format = 0 ∨ format = 12 then some yuv420p
  else if format = 2 then some rgb24
  else if format = 8 then some gray
  else if format = 23 then some nv12
  else none

/-- A graph that hands the last frame to every sink, or fails where it would have to convert;
its state is the formats of the sinks and the frame each has yet to deliver. -/
def splitGraph : MultiOutputAvfilter (List Int32 × (Nat → Option AVFrame)) where
  configure _ pixFmts _ := some (pixFmts, fun _ => none)
  addFrame graph frame := (true, graph.1, fun _ => some frame)
  getFrame graph sink :=
    match graph.2 sink with
    | none => (.again, graph)
    | some frame =>
        if graph.1[sink]? = some frame.format then
          (.frame frame, graph.1, Function.update graph.2 sink none)
        else (.error, graph)

/-- A graph that hands the frame through, or fails where it would have to convert. -/
def nullGraph : Avfilter (Int32 × Option AVFrame) where
  configure _ pixFmt _ := some (pixFmt, none)
  cloneFrame frame := some frame
  addFrame graph frame := (true, graph.1, some frame)
  getFrame graph _ :=
    match graph.2 with
    | none => (.again, graph)
    | some frame =>
        if frame.format = graph.1 then (.frame frame, graph.1, none) else (.error, graph)

theorem splitGraph_delivers :
    StreamIoManager.DeliversSinkFormats splitGraph fun graph sink => graph.1[sink]? where
  configure args pixFmts spec graph h sink := by
    cases h
    rfl
  addFrame graph frame := rfl
  getFrame graph sink := by
    simp only [splitGraph]
    split
    · rfl
    · split <;> rfl
  delivered graph sink frame h pixFmt hpixFmt := by
    simp only [splitGraph] at h
    split at h
    · cases h
    · split at h
      · next hformat =>
        cases h
        exact Option.some.inj (hformat.symm.trans hpixFmt)
      · cases h

theorem nullGraph_delivers : Worker.DeliversSinkFormat nullGraph Prod.fst where
  configure args pixFmt spec graph h := by
    cases h
    rfl
  addFrame graph frame := rfl
  getFrame graph noRequest := by
    simp only [nullGraph]
    split
    · rfl
    · split <;> rfl
  delivered graph noRequest frame h := by
    simp only [nullGraph] at h
    split at h
    · cases h
    · split at h
      · next hformat =>
        cases h
        exact hformat
      · cases h

/-- A 2 × 2 picture with the given number of planes. -/
def smallPicture (format : Int32) (planes : Nat) : AVFrame where
  width := 2
  height := 2
  format := format
  pts := 0
  sampleAspectRatio := ⟨1, 1⟩
  data plane := if plane < planes then some fun _ => 0 else none
  linesize _ := 2

/-- A stream of small pictures. -/
def smallStream (format : Int32) : AVStream where
  codecpar := ⟨2, 2, format, ⟨1, 1⟩⟩
  timeBase := ⟨1, 90000⟩
  avgFrameRate := ⟨1, 1⟩
  rFrameRate := ⟨1, 1⟩

/-- A camera with one event. -/
def oneEvent : StreamConfig where
  id := 1
  url := "rtsp://a"
  targetFps := 1
  waitForKeyframe := false
  enabled := true
  events := [{ name := "motion" }]

/-- The frame that the reader pushes and the worker hands on. -/
def smallFrame (format : Int32) (planes : Nat) : DecodedFrame AVFrame where
  frame := smallPicture format planes
  sourceConfig := oneEvent
  eventConfig := { name := "motion" }

/-- A YUV420P picture is published, whole. -/
theorem yuv420p_published :
    smallFrame 0 3 ∈ (Worker.processFrame nullGraph (Worker.contextsAfter nullGraph [])
      (smallFrame 0 3)).1 ∧
    FramePublished somePixFmts documentedHalf (smallFrame 0 3).frame ∧
    FramePublished somePixFmts wholeHalf (smallFrame 0 3).frame := by
  have hpushed : StreamIoManager.connection exactQuotient splitGraph 2 oneEvent (smallStream 0)
      [smallPicture 0 3] = [smallFrame 0 3] :=
    rfl
  have hprocessed : (Worker.processFrame nullGraph (Worker.contextsAfter nullGraph [])
      (smallFrame 0 3)).1 = [smallFrame 0 3] :=
    rfl
  have hinput := List.mem_singleton.mpr (Eq.refl (smallFrame 0 3))
  have houtput := hinput
  rw [← hpushed] at hinput
  rw [← hprocessed] at houtput
  have hd : somePixFmts (StreamIoManager.preferredFormat (smallStream 0).codecpar) =
      some yuv420p :=
    rfl
  have hallocated : Allocated yuv420p (smallFrame 0 3).frame :=
    ⟨by decide, by decide, by decide, by decide⟩
  have hcopied : CopiedAsYuv420p yuv420p (smallFrame 0 3).frame := by
    unfold CopiedAsYuv420p OffsetsExact
    decide
  have heven : EvenOrEmpty (smallFrame 0 3).frame := Or.inr (Or.inr (by decide))
  rcases serialised_published_iff splitGraph_delivers nullGraph_delivers [] hinput houtput hd
    hallocated with ⟨hdocumented, hwhole⟩
  have hown := withData_load (smallFrame 0 3).frame
  refine ⟨houtput, ?_, ?_⟩
  · rw [← hown]
    exact hdocumented.mpr hcopied _
  · rw [← hown]
    exact hwhole.mpr ⟨hcopied, heven⟩ _

/-- An NV12 picture goes through both graphs unchanged, and its third plane, which does not
exist, is read. -/
theorem nv12_not_published :
    ¬ ∀ (config : StreamConfig) (videoStream : AVStream) (rawFrames : List AVFrame)
      (input output : DecodedFrame AVFrame),
      input ∈ StreamIoManager.connection exactQuotient splitGraph 2 config videoStream rawFrames →
      output ∈ (Worker.processFrame nullGraph (Worker.contextsAfter nullGraph []) input).1 →
      FramePublished somePixFmts documentedHalf output.frame := by
  intro hall
  have hpushed : StreamIoManager.connection exactQuotient splitGraph 2 oneEvent (smallStream 23)
      [smallPicture 23 2] = [smallFrame 23 2] :=
    rfl
  have hprocessed : (Worker.processFrame nullGraph (Worker.contextsAfter nullGraph [])
      (smallFrame 23 2)).1 = [smallFrame 23 2] :=
    rfl
  have hpublished := hall oneEvent (smallStream 23) [smallPicture 23 2] (smallFrame 23 2)
    (smallFrame 23 2) (by simp [hpushed]) (by simp [hprocessed])
  rcases hpublished with ⟨d, -, hd⟩
  have hread := (hd.reads 2 (by omega) (by decide)).1
  cases hread

end Publisher

end FrameProcessor
