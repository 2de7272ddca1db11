import FrameProcessor.Publisher.Batching

/-!
# components/publisher - Reading a batch back

A consumer reads frames from `data_buffer` until it is exhausted; there is no count and
no length in it.  The sizes in a batch always agree, so the frames are found again
whatever their dimensions.  Their samples are right as long as no source offset, a
32-bit product of a row and the line size, wraps.

Main results:

- Theorem `Publisher.decodeBatch_packed`: a batch is read back frame by frame.
- Theorem `Publisher.batches_roundTrip_iff`: for a sequence of frame geometries, every
  batch shows its frames, whatever their samples, exactly when no source offset wraps.
-/

namespace FrameProcessor

namespace Publisher

/-! ## One batch -/

/-- A batch is read back frame by frame. -/
theorem decodeBatch_packed {batch : PackedBatch}
    (hfit : ∀ frame ∈ batch.frames, planeSize frame.frame 0 < 4294967296) :
    decodeBatch batch.dataBuffer =
      some (batch.frames.map fun frame => pictureOf frame.frame) := by
  have hne : ∀ frame ∈ batch.frames, serializeFrame frame.frame ≠ [] := by
    intro frame hframe hnil
    have hlength := serializeFrame_length (hfit frame hframe)
    rw [hnil, List.length_nil] at hlength
    omega
  unfold decodeBatch
  rw [batch.packed]
  exact Framing.decodeAll_flatMap
    (fun frame hframe rest => decodeFrame_serializeFrame (hfit frame hframe) rest) hne
    (Framing.length_le_flatMap hne)

/-- What the documentation promises a consumer of a batch: reading frames until the buffer
is exhausted succeeds and yields `frame_count` pictures, which show the batch's frames in
order of arrival. -/
structure RoundTrips (popped : List (DecodedFrame AVFrame)) (batch : PackedBatch) : Prop where
  arrival : batch.frames.Sublist popped
  decoded : ∃ pictures, decodeBatch batch.dataBuffer = some pictures ∧
    pictures.length = batch.frameCount ∧
    List.Forall₂ (fun picture frame => picture.Shows frame.frame) pictures batch.frames

/-- A batch whose buffer is read back frame by frame round-trips exactly when the picture
of each of its frames shows it. -/
theorem roundTrips_iff {popped : List (DecodedFrame AVFrame)} {batch : PackedBatch}
    (hmem : batch ∈ batchingLoop popped)
    (hfit : ∀ frame ∈ batch.frames, planeSize frame.frame 0 < 4294967296) :
    RoundTrips popped batch ↔
      ∀ frame ∈ batch.frames, (pictureOf frame.frame).Shows frame.frame := by
  have hdecode := decodeBatch_packed hfit
  have hforall : List.Forall₂ (fun (picture : Picture) (frame : DecodedFrame AVFrame) =>
      picture.Shows frame.frame) (batch.frames.map fun frame => pictureOf frame.frame)
        batch.frames ↔ ∀ frame ∈ batch.frames, (pictureOf frame.frame).Shows frame.frame := by
    rw [List.forall₂_map_left_iff, List.forall₂_same]
  constructor
  · intro htrip
    rcases htrip.decoded with ⟨pictures, hpictures, -, hshows⟩
    rw [hdecode] at hpictures
    cases hpictures
    exact hforall.mp hshows
  · intro hshows
    refine ⟨sublist_of_mem_batchingLoop hmem, _, hdecode, ?_, hforall.mpr hshows⟩
    rw [List.length_map, batch.counted]

/-! ## Every batch of a run -/

/-- The same frames with other samples. -/
def SameGeometry (popped popped' : List (DecodedFrame AVFrame)) : Prop :=
  List.Forall₂ (fun frame frame' =>
    ∃ samples, frame' = { frame with frame := withData frame.frame samples }) popped popped'

theorem SameGeometry.refl (popped : List (DecodedFrame AVFrame)) : SameGeometry popped popped := by
  rw [SameGeometry, List.forall₂_same]
  exact fun frame _ => ⟨frame.frame.load, by rw [withData_load]⟩

theorem SameGeometry.exists_of_mem {popped popped' : List (DecodedFrame AVFrame)}
    (h : SameGeometry popped popped') {frame' : DecodedFrame AVFrame} (hmem : frame' ∈ popped') :
    ∃ frame ∈ popped, ∃ samples, frame'.frame = withData frame.frame samples := by
  induction h with
  | nil => cases hmem
  | cons hhead htail ih =>
      rcases hhead with ⟨samples, rfl⟩
      rcases List.mem_cons.mp hmem with rfl | hmem
      · exact ⟨_, List.mem_cons_self, samples, rfl⟩
      · rcases ih hmem with ⟨frame, hframe, hsame⟩
        exact ⟨frame, List.mem_cons_of_mem _ hframe, hsame⟩

/-- A frame with its samples replaced. -/
def resampled (samples : Nat → Int → UInt8) (frame : DecodedFrame AVFrame) :
    DecodedFrame AVFrame :=
  { frame with frame := withData frame.frame samples }

theorem sameGeometry_map (popped : List (DecodedFrame AVFrame)) (samples : Nat → Int → UInt8) :
    SameGeometry popped (popped.map (resampled samples)) := by
  rw [SameGeometry, List.forall₂_map_right_iff, List.forall₂_same]
  exact fun frame _ => ⟨samples, rfl⟩

/-- Every frame popped is in some batch pushed. -/
theorem exists_batch_of_mem {popped : List (DecodedFrame AVFrame)} {frame : DecodedFrame AVFrame}
    (h : frame ∈ popped) : ∃ batch ∈ batchingLoop popped, frame ∈ batch.frames := by
  have hmem : frame ∈ framesOf (batchingLoop popped) := by
    rw [batchingLoop_frames]
    exact Multiset.mem_coe.mpr h
  exact List.mem_flatMap.mp (Multiset.mem_coe.mp hmem)

/-- Every batch round-trips when no source offset wraps. -/
theorem roundTrips_of_offsetsFit {popped : List (DecodedFrame AVFrame)}
    (h : ∀ frame ∈ popped, Yuv420p frame.frame ∧ OffsetsFit frame.frame) {batch : PackedBatch}
    (hmem : batch ∈ batchingLoop popped) : RoundTrips popped batch := by
  have hpopped : ∀ frame ∈ batch.frames, frame ∈ popped :=
    fun frame hframe => (sublist_of_mem_batchingLoop hmem).subset hframe
  rw [roundTrips_iff hmem fun frame hframe => (h frame (hpopped frame hframe)).1.fits]
  intro frame hframe
  rcases h frame (hpopped frame hframe) with ⟨hyuv, hfit⟩
  exact picture_shows hyuv hfit

/-- If a source offset wraps, some samples are not read back. -/
theorem exists_not_roundTrips {popped : List (DecodedFrame AVFrame)}
    (h : ∀ frame ∈ popped, Yuv420p frame.frame) {frame : DecodedFrame AVFrame}
    (hframe : frame ∈ popped) (hwrap : ¬ OffsetsFit frame.frame) :
    ∃ popped', SameGeometry popped popped' ∧
      ∃ batch ∈ batchingLoop popped', ¬ RoundTrips popped' batch := by
  rcases exists_not_shows (h frame hframe) hwrap with ⟨samples, hsamples⟩
  have hsame := sameGeometry_map popped samples
  rcases exists_batch_of_mem (List.mem_map_of_mem hframe) with ⟨batch, hbatch, hin⟩
  refine ⟨_, hsame, batch, hbatch, fun htrip => hsamples ?_⟩
  have hfit : ∀ frame' ∈ batch.frames, planeSize frame'.frame 0 < 4294967296 := by
    intro frame' hframe'
    have hpopped := (sublist_of_mem_batchingLoop hbatch).subset hframe'
    rcases hsame.exists_of_mem hpopped with ⟨source, hsource, samples', heq⟩
    rw [heq]
    exact ((h source hsource).withData samples').fits
  exact (roundTrips_iff hbatch hfit).mp htrip _ hin

/-- For every sequence of YUV420P frames of any sizes and any batch sizes: all batches
round-trip, whatever the samples of the frames are, exactly when no source offset of a
copied row exceeds 32 bits. -/
theorem batches_roundTrip_iff {popped : List (DecodedFrame AVFrame)}
    (h : ∀ frame ∈ popped, Yuv420p frame.frame) :
    (∀ popped', SameGeometry popped popped' →
        ∀ batch ∈ batchingLoop popped', RoundTrips popped' batch) ↔
      ∀ frame ∈ popped, OffsetsFit frame.frame := by
  constructor
  · intro hall frame hframe
    by_contra hwrap
    rcases exists_not_roundTrips h hframe hwrap with ⟨popped', hsame, batch, hbatch, hbad⟩
    exact hbad (hall popped' hsame batch hbatch)
  · intro hfit popped' hsame batch hbatch
    refine roundTrips_of_offsetsFit (fun frame hframe => ?_) hbatch
    rcases hsame.exists_of_mem hframe with ⟨source, hsource, samples, heq⟩
    rw [heq]
    exact ⟨(h source hsource).withData samples, hfit source hsource⟩

/-! ## Two sizes in one batch, and a long row -/

theorem blackFrame_yuv420p {width height linesize : Int32} (hwidth : 0 ≤ width.toInt)
    (hheight : 0 ≤ height.toInt) (hsize : width.toInt * height.toInt < 268435456)
    (hline : width.toInt ≤ linesize.toInt) :
    Yuv420p (blackFrame width height linesize).frame := by
  refine ⟨fun _ _ => rfl, hwidth, hheight, hsize, fun plane _ => le_trans ?_ hline⟩
  rw [← toUInt32_toNat hwidth]
  have hbytes : (rowBytes (blackFrame width height linesize).frame plane).toNat ≤
      width.toUInt32.toNat := by
    unfold rowBytes
    split
    · exact le_rfl
    · rw [UInt32.toNat_div]
      exact Nat.div_le_self _ _
  exact_mod_cast hbytes

/-- A 4x2 and a 6x4 frame of the same event are read back from their batch. -/
theorem batches_roundTrip_mixed :
    ∃ batch, batchingLoop [blackFrame 4 2 8, blackFrame 6 4 8] = [batch] ∧
      batch.frameCount = 2 ∧ RoundTrips [blackFrame 4 2 8, blackFrame 6 4 8] batch := by
  have hrun : ∃ batch, batchingLoop [blackFrame 4 2 8, blackFrame 6 4 8] = [batch] ∧
      batch.frameCount = 2 :=
    ⟨_, rfl, rfl⟩
  have hframes : ∀ frame ∈ [blackFrame 4 2 8, blackFrame 6 4 8],
      Yuv420p frame.frame ∧ OffsetsFit frame.frame := by
    intro frame hframe
    simp only [List.mem_cons, List.not_mem_nil, or_false] at hframe
    unfold OffsetsFit
    rcases hframe with rfl | rfl
    · exact ⟨blackFrame_yuv420p (by decide) (by decide) (by decide) (by decide), by decide⟩
    · exact ⟨blackFrame_yuv420p (by decide) (by decide) (by decide) (by decide), by decide⟩
  have hall := (batches_roundTrip_iff fun frame hframe => (hframes frame hframe).1).mpr
    fun frame hframe => (hframes frame hframe).2
  rcases hrun with ⟨batch, hbatch, hcount⟩
  exact ⟨batch, hbatch, hcount, hall _ (SameGeometry.refl _) batch (by simp [hbatch])⟩

/-- With rows 2^30 bytes apart, the fifth row is read from the offset of the first. -/
theorem batches_long_row_not_roundTrip :
    ¬ ∀ popped : List (DecodedFrame AVFrame), (∀ frame ∈ popped, Yuv420p frame.frame) →
      ∀ batch ∈ batchingLoop popped, RoundTrips popped batch := by
  intro hall
  have hyuv : ∀ frame ∈ [blackFrame 2 6 1073741824], Yuv420p frame.frame := by
    intro frame hframe
    rw [List.mem_singleton.mp hframe]
    exact blackFrame_yuv420p (by decide) (by decide) (by decide) (by decide)
  have hwrap : ¬ OffsetsFit (blackFrame 2 6 1073741824).frame := by
    intro hfit
    have hlt := hfit 0 (by decide) 4 (by decide) (by decide)
    revert hlt
    decide
  rcases exists_not_roundTrips hyuv List.mem_cons_self hwrap with
    ⟨popped', hsame, batch, hbatch, hbad⟩
  refine hbad (hall popped' (fun frame hframe => ?_) batch hbatch)
  rcases hsame.exists_of_mem hframe with ⟨source, hsource, samples, heq⟩
  rw [heq]
  exact (hyuv source hsource).withData samples

end Publisher

end FrameProcessor
