import FrameProcessor.Publisher.PixelFormats

/-!
# components/publisher - Whole pictures

A YUV420P picture has chroma planes of half the size, rounded up; an entry holds chroma
planes of half the size, rounded down, and finds the rows of every plane through 32-bit
offsets.  This file states exactly when an entry still holds every sample of the picture,
and when it therefore tells different pictures apart.

The argument follows the last sample of a plane: all offsets that are read lie before it,
unless the plane is copied in full and its last row is found.

Main results:

- Theorem `Publisher.last_unread`: a plane with a missing row or column, or a last row whose
  offset wraps, has its last sample unread.
- Theorem `Publisher.sample_in_entry`: where a sample of a whole picture is in its entry.
- Theorem `Publisher.whole_picture_iff`: when an entry holds the whole picture, and when
  entries tell pictures apart.
-/

namespace FrameProcessor

namespace Publisher

/-! ## Pictures and what is read of them -/

/-- A YUV420P picture of positive size, as libavutil allocates it: three planes, each with
rows as long as the picture needs. -/
structure YuvPicture (frame : AVFrame) : Prop where
  planes : ∀ plane < 3, (frame.data plane).isSome
  width : 0 < frame.width.toInt
  height : 0 < frame.height.toInt
  size : frame.width.toInt * frame.height.toInt < 268435456
  linesize : ∀ plane < 3, (planeWidth wholeHalf frame plane : Int) ≤ (frame.linesize plane).toInt

theorem YuvPicture.fits {frame : AVFrame} (h : YuvPicture frame) : planeSize frame 0 < 4294967296 :=
  planeSize_fits (Int.le_of_lt h.width) (Int.le_of_lt h.height) h.size

/-- The width and the height are even. -/
def EvenSize (frame : AVFrame) : Prop :=
  frame.width.toInt % 2 = 0 ∧ frame.height.toInt % 2 = 0

/-- Where a sample of the picture is in memory, from the plane's pointer on. -/
def sampleOffset (frame : AVFrame) (plane r c : Nat) : Int :=
  r * (frame.linesize plane).toInt + c

/-- The sample at row `r` and column `c` of a plane belongs to the picture. -/
def Visible (frame : AVFrame) (plane r c : Nat) : Prop :=
  plane < 3 ∧ r < planeHeight wholeHalf frame plane ∧ c < planeWidth wholeHalf frame plane

/-- The entry has a place for every sample of the picture, whatever the samples are. -/
def HoldsPicture (frame : AVFrame) : Prop :=
  ∀ plane r c, Visible frame plane r c → ∃ i : Nat, ∀ samples : Nat → Int → UInt8,
    (serializeFrame (withData frame samples))[i]? =
      some (samples plane (sampleOffset frame plane r c))

/-- Pictures of two geometries whose entries are the same bytes have the same samples. -/
def TellsApart (frame frame' : AVFrame) : Prop :=
  ∀ samples samples' : Nat → Int → UInt8,
    serializeFrame (withData frame samples) = serializeFrame (withData frame' samples') →
      ∀ plane r c, Visible frame plane r c →
        samples plane (sampleOffset frame plane r c) =
          samples' plane (sampleOffset frame' plane r c)

/-! ## Sizes -/

theorem rowBytes_le (frame : AVFrame) (plane : Nat) :
    (rowBytes frame plane).toNat ≤ planeWidth wholeHalf frame plane := by
  rw [← planeWidth_documented]
  unfold planeWidth documentedHalf wholeHalf
  split
  · exact le_rfl
  · omega

theorem rowCount_le (frame : AVFrame) (plane : Nat) :
    (rowCount frame plane).toNat ≤ planeHeight wholeHalf frame plane := by
  rw [← planeHeight_documented]
  unfold planeHeight documentedHalf wholeHalf
  split
  · exact le_rfl
  · omega

theorem YuvPicture.width_pos {frame : AVFrame} (h : YuvPicture frame) (plane : Nat) :
    0 < planeWidth wholeHalf frame plane := by
  have hwidth := toUInt32_toNat (Int.le_of_lt h.width)
  have hpos := h.width
  unfold planeWidth wholeHalf
  split <;> omega

theorem YuvPicture.height_pos {frame : AVFrame} (h : YuvPicture frame) (plane : Nat) :
    0 < planeHeight wholeHalf frame plane := by
  have hheight := toUInt32_toNat (Int.le_of_lt h.height)
  have hpos := h.height
  unfold planeHeight wholeHalf
  split <;> omega

/-- With even sizes all rows and columns of every plane are copied. -/
theorem EvenSize.rowBytes_eq {frame : AVFrame} (heven : EvenSize frame) (h : YuvPicture frame)
    (plane : Nat) : (rowBytes frame plane).toNat = planeWidth wholeHalf frame plane := by
  have hwidth := toUInt32_toNat (Int.le_of_lt h.width)
  have hmod := heven.1
  rw [← planeWidth_documented]
  unfold planeWidth documentedHalf wholeHalf
  split
  · rfl
  · omega

theorem EvenSize.rowCount_eq {frame : AVFrame} (heven : EvenSize frame) (h : YuvPicture frame)
    (plane : Nat) : (rowCount frame plane).toNat = planeHeight wholeHalf frame plane := by
  have hheight := toUInt32_toNat (Int.le_of_lt h.height)
  have hmod := heven.2
  rw [← planeHeight_documented]
  unfold planeHeight documentedHalf wholeHalf
  split
  · rfl
  · omega

/-- With an odd size a chroma plane misses its last column or its last row. -/
theorem missing_of_odd {frame : AVFrame} (h : YuvPicture frame) (hodd : ¬ EvenSize frame) :
    (rowBytes frame 1).toNat < planeWidth wholeHalf frame 1 ∨
      (rowCount frame 1).toNat < planeHeight wholeHalf frame 1 := by
  have hwidth := toUInt32_toNat (Int.le_of_lt h.width)
  have hheight := toUInt32_toNat (Int.le_of_lt h.height)
  rw [← planeWidth_documented, ← planeHeight_documented]
  simp only [planeWidth, planeHeight, documentedHalf, wholeHalf, one_ne_zero, if_false]
  unfold EvenSize at hodd
  omega

/-! ## The last sample of a plane -/

/-- The last sample of a plane. -/
def lastOffset (frame : AVFrame) (plane : Nat) : Int :=
  sampleOffset frame plane (planeHeight wholeHalf frame plane - 1)
    (planeWidth wholeHalf frame plane - 1)

theorem YuvPicture.last_visible {frame : AVFrame} (h : YuvPicture frame) {plane : Nat}
    (hplane : plane < 3) : Visible frame plane (planeHeight wholeHalf frame plane - 1)
      (planeWidth wholeHalf frame plane - 1) := by
  have hwidth := h.width_pos plane
  have hheight := h.height_pos plane
  exact ⟨hplane, by omega, by omega⟩

/-- A plane that misses a column or a row, or whose last row is at an offset of more than 32
bits, is read only before its last sample. -/
theorem last_unread {frame : AVFrame} (h : YuvPicture frame) {plane : Nat} (hplane : plane < 3)
    (hwhy : (rowBytes frame plane).toNat < planeWidth wholeHalf frame plane ∨
      (rowCount frame plane).toNat < planeHeight wholeHalf frame plane ∨
      4294967296 ≤ ((planeHeight wholeHalf frame plane - 1 : Nat) : Int) *
        (frame.linesize plane).toInt)
    {r c : Nat} (hr : r < (rowCount frame plane).toNat) (hc : c < (rowBytes frame plane).toNat) :
    ((sourceOffset frame plane (UInt32.ofNat r)).toNat : Int) + c ≠ lastOffset frame plane := by
  have hwidth := h.width_pos plane
  have hcols := rowBytes_le frame plane
  have hrows := rowCount_le frame plane
  have hline := h.linesize plane hplane
  have hexact : 0 ≤ (r : Int) * (frame.linesize plane).toInt :=
    Int.mul_nonneg (Int.natCast_nonneg r) (by omega)
  have hoffset := sourceOffset_toNat frame hr
  have hmod : (r : Int) * (frame.linesize plane).toInt % 4294967296 ≤
      r * (frame.linesize plane).toInt := by omega
  have hlt : (r : Int) * (frame.linesize plane).toInt % 4294967296 < 4294967296 :=
    Int.emod_lt_of_pos _ (by omega)
  unfold lastOffset sampleOffset
  by_cases hlast : r = planeHeight wholeHalf frame plane - 1
  · -- the last row is copied, so a column is missing or its offset wraps
    subst hlast
    rcases hwhy with hcolumn | hrow | hwrap <;> omega
  · have hle : ((r : Int) + 1) * (frame.linesize plane).toInt ≤
        ((planeHeight wholeHalf frame plane - 1 : Nat) : Int) * (frame.linesize plane).toInt :=
      Int.mul_le_mul_of_nonneg_right (by omega) (by omega)
    rw [Int.add_mul] at hle
    omega

/-! ## Pictures that an entry does not tell apart -/

/-- The picture with one sample set and all others zero. -/
def singleSample (plane : Nat) (offset : Int) : Nat → Int → UInt8 :=
  fun p o => if p = plane ∧ o = offset then 1 else 0

/-- The picture with all samples zero. -/
def zeroSamples : Nat → Int → UInt8 :=
  fun _ _ => 0

/-- The rows of a plane depend only on the samples at the offsets that are read. -/
theorem planeBytes_congr {frame : AVFrame} {plane : Nat} (hplane : (frame.data plane).isSome)
    {samples samples' : Nat → Int → UInt8}
    (h : ∀ r < (rowCount frame plane).toNat, ∀ c < (rowBytes frame plane).toNat,
      samples plane ((sourceOffset frame plane (UInt32.ofNat r)).toNat + c) =
        samples' plane ((sourceOffset frame plane (UInt32.ofNat r)).toNat + c)) :
    planeBytes (withData frame samples) plane = planeBytes (withData frame samples') plane := by
  refine List.flatMap_congr fun r hr => List.map_congr_left fun c hc => ?_
  rw [load_withData hplane, load_withData hplane]
  exact h r (List.mem_range.mp hr) c (List.mem_range.mp hc)

/-- So does the entry. -/
theorem serializeFrame_congr {frame : AVFrame} (h : YuvPicture frame)
    {samples samples' : Nat → Int → UInt8}
    (hread : ∀ plane < 3, ∀ r < (rowCount frame plane).toNat, ∀ c < (rowBytes frame plane).toNat,
      samples plane ((sourceOffset frame plane (UInt32.ofNat r)).toNat + c) =
        samples' plane ((sourceOffset frame plane (UInt32.ofNat r)).toNat + c)) :
    serializeFrame (withData frame samples) = serializeFrame (withData frame samples') := by
  have hplane : ∀ plane < 3, planeBytes (withData frame samples) plane =
      planeBytes (withData frame samples') plane := fun plane hlt =>
    planeBytes_congr (h.planes plane hlt) (hread plane hlt)
  have hfit : ∀ samples, planeSize (withData frame samples) 0 < 4294967296 := fun _ => h.fits
  rw [serializeFrame_eq (hfit _), serializeFrame_eq (hfit _), hplane 0 (by omega),
    hplane 1 (by omega), hplane 2 (by omega)]
  rfl

/-- The rows of a plane of zeros. -/
theorem planeBytes_zero {frame : AVFrame} {plane : Nat} (hplane : (frame.data plane).isSome) :
    planeBytes (withData frame zeroSamples) plane = List.replicate (planeSize frame plane) 0 := by
  refine List.eq_replicate_iff.mpr ⟨planeBytes_length _ _, fun byte hbyte => ?_⟩
  rcases List.mem_flatMap.mp hbyte with ⟨r, -, hrow⟩
  rcases List.mem_map.mp hrow with ⟨c, -, rfl⟩
  exact load_withData hplane zeroSamples _

/-- The entry of a picture of zeros depends on its time stamp and size only. -/
theorem serializeFrame_zero {frame frame' : AVFrame} (h : YuvPicture frame)
    (h' : YuvPicture frame') (hpts : frame.pts = frame'.pts) (hwidth : frame.width = frame'.width)
    (hheight : frame.height = frame'.height) :
    serializeFrame (withData frame zeroSamples) = serializeFrame (withData frame' zeroSamples) := by
  have hsize : ∀ plane, planeSize frame plane = planeSize frame' plane := by
    intro plane
    simp only [planeSize, rowBytes, rowCount, hwidth, hheight]
  have hheader : frameHeader (withData frame zeroSamples) =
      frameHeader (withData frame' zeroSamples) := by
    simp only [frameHeader, withData, hpts, hwidth, hheight]
  have hfit : planeSize (withData frame zeroSamples) 0 < 4294967296 := h.fits
  have hfit' : planeSize (withData frame' zeroSamples) 0 < 4294967296 := h'.fits
  have hplane : ∀ plane < 3, planeBytes (withData frame zeroSamples) plane =
      planeBytes (withData frame' zeroSamples) plane := by
    intro plane hlt
    rw [planeBytes_zero (h.planes plane hlt), planeBytes_zero (h'.planes plane hlt), hsize]
  rw [serializeFrame_eq hfit, serializeFrame_eq hfit', hheader, hplane 0 (by omega),
    hplane 1 (by omega), hplane 2 (by omega)]

/-- A picture whose sizes are not even, or one of whose rows is not found, has a plane whose
last sample does not matter to the entry. -/
theorem exists_blind_plane {frame : AVFrame} (h : YuvPicture frame)
    (hnot : ¬ (EvenSize frame ∧ OffsetsFit frame)) :
    ∃ plane < 3, serializeFrame (withData frame (singleSample plane (lastOffset frame plane))) =
      serializeFrame (withData frame zeroSamples) := by
  have hblind : ∀ plane < 3,
      ((rowBytes frame plane).toNat < planeWidth wholeHalf frame plane ∨
        (rowCount frame plane).toNat < planeHeight wholeHalf frame plane ∨
        4294967296 ≤ ((planeHeight wholeHalf frame plane - 1 : Nat) : Int) *
          (frame.linesize plane).toInt) →
      serializeFrame (withData frame (singleSample plane (lastOffset frame plane))) =
        serializeFrame (withData frame zeroSamples) := by
    intro plane hplane hwhy
    refine serializeFrame_congr h fun p hp r hr c hc => ?_
    refine if_neg ?_
    rintro ⟨rfl, hoffset⟩
    exact last_unread h hp hwhy hr hc hoffset
  by_cases heven : EvenSize frame
  · have hfit : ¬ OffsetsFit frame := fun hfit => hnot ⟨heven, hfit⟩
    simp only [OffsetsFit, not_forall, not_lt] at hfit
    rcases hfit with ⟨plane, hplane, r, hr, -, hwrap⟩
    refine ⟨plane, hplane, hblind plane hplane (Or.inr (Or.inr (hwrap.trans ?_)))⟩
    have hline := h.linesize plane hplane
    have hrows := rowCount_le frame plane
    exact Int.mul_le_mul_of_nonneg_right (by omega) (by omega)
  · rcases missing_of_odd h heven with hcolumn | hrow
    · exact ⟨1, by omega, hblind 1 (by omega) (Or.inl hcolumn)⟩
    · exact ⟨1, by omega, hblind 1 (by omega) (Or.inr (Or.inl hrow))⟩

/-! ## Where a whole picture is in its entry -/

/-- Where the rows of a plane begin in an entry. -/
def planeStart (frame : AVFrame) (plane : Nat) : Nat :=
  match plane with
  | 0 => 16
  | 1 => 16 + planeSize frame 0
  | _ => 16 + planeSize frame 0 + planeSize frame 1

/-- Where a sample is in an entry that holds all rows and columns. -/
def samplePosition (frame : AVFrame) (plane r c : Nat) : Nat :=
  planeStart frame plane + (r * (rowBytes frame plane).toNat + c)

/-- The bytes of a plane in the entry. -/
theorem getElem?_plane (frame : AVFrame) (hfit : planeSize frame 0 < 4294967296) {plane k : Nat}
    (hplane : plane < 3) (hk : k < planeSize frame plane) :
    (serializeFrame frame)[planeStart frame plane + k]? = (planeBytes frame plane)[k]? := by
  rw [serializeFrame_eq hfit]
  have hzero : planeStart frame 0 = 16 := rfl
  have hone : planeStart frame 1 = 16 + planeSize frame 0 := rfl
  have htwo : planeStart frame 2 = 16 + planeSize frame 0 + planeSize frame 1 := rfl
  rcases (by omega : plane = 0 ∨ plane = 1 ∨ plane = 2) with rfl | rfl | rfl
  · rw [List.append_assoc, List.append_assoc, hzero, List.getElem?_append_right (by simp),
      List.getElem?_append_left (by simpa using hk)]
    simp
  · rw [List.append_assoc, hone, List.getElem?_append_right (by simp),
      List.getElem?_append_left (by simpa using hk)]
    simp
  · have hfront : ((frameHeader frame).bytes ++ planeBytes frame 0 ++ planeBytes frame 1).length =
        planeStart frame 2 := by
      rw [htwo]
      simp [Nat.add_assoc]
    rw [← hfront, List.getElem?_append_right (Nat.le_add_right _ _), Nat.add_sub_cancel_left]

/-- With even sizes and offsets that fit, every sample is at its position in the entry. -/
theorem sample_in_entry {frame : AVFrame} (h : YuvPicture frame) (heven : EvenSize frame)
    (hfit : OffsetsFit frame) {plane r c : Nat} (hvisible : Visible frame plane r c)
    (samples : Nat → Int → UInt8) :
    (serializeFrame (withData frame samples))[samplePosition frame plane r c]? =
      some (samples plane (sampleOffset frame plane r c)) := by
  rcases hvisible with ⟨hplane, hr, hc⟩
  rw [← heven.rowCount_eq h] at hr
  rw [← heven.rowBytes_eq h] at hc
  have hk : r * (rowBytes frame plane).toNat + c < planeSize frame plane := by
    have hle : (r + 1) * (rowBytes frame plane).toNat ≤
        (rowCount frame plane).toNat * (rowBytes frame plane).toNat :=
      Nat.mul_le_mul_right _ hr
    rw [Nat.succ_mul] at hle
    rw [planeSize, Nat.mul_comm (rowBytes frame plane).toNat]
    omega
  have hoffset : ((sourceOffset frame plane (UInt32.ofNat r)).toNat : Int) =
      r * (frame.linesize plane).toInt := by
    rw [sourceOffset_toNat frame hr]
    have hline := h.linesize plane hplane
    exact Int.emod_eq_of_lt (Int.mul_nonneg (Int.natCast_nonneg r) (by omega))
      (hfit plane hplane r hr (by omega))
  have hentry : (serializeFrame (withData frame samples))[samplePosition frame plane r c]? =
      (planeBytes (withData frame samples) plane)[r * (rowBytes frame plane).toNat + c]? :=
    getElem?_plane (withData frame samples) h.fits hplane hk
  have hrow : (planeBytes (withData frame samples) plane)[r * (rowBytes frame plane).toNat + c]? =
      (readRow (withData frame samples) plane (UInt32.ofNat r))[c]? :=
    Buffer.getElem?_rows (fun _ => readRow_length _ plane _) hr hc
  have hbyte : (readRow (withData frame samples) plane (UInt32.ofNat r))[c]? =
      some ((withData frame samples).load plane
        ((sourceOffset frame plane (UInt32.ofNat r)).toNat + c)) := by
    have hcols : c < (rowBytes (withData frame samples) plane).toNat := hc
    simp [readRow, hcols]
    rfl
  rw [hentry, hrow, hbyte, load_withData (h.planes plane hplane), hoffset, sampleOffset]

/-! ## Whole pictures -/

/-- The entry holds the whole picture exactly when both sizes are even and every row is
found. -/
theorem holdsPicture_iff {frame : AVFrame} (h : YuvPicture frame) :
    HoldsPicture frame ↔ EvenSize frame ∧ OffsetsFit frame := by
  constructor
  · intro hholds
    by_contra hnot
    rcases exists_blind_plane h hnot with ⟨plane, hplane, hsame⟩
    rcases hholds plane _ _ (h.last_visible hplane) with ⟨i, hi⟩
    have hone := hi (singleSample plane (lastOffset frame plane))
    rw [hsame, hi zeroSamples] at hone
    simp [singleSample, zeroSamples, lastOffset] at hone
  · rintro ⟨heven, hfit⟩ plane r c hvisible
    exact ⟨samplePosition frame plane r c, sample_in_entry h heven hfit hvisible⟩

/-- Entries tell the pictures of two geometries of one size apart exactly when the size is
even and every row of both is found. -/
theorem tellsApart_iff {frame frame' : AVFrame} (h : YuvPicture frame) (h' : YuvPicture frame')
    (hpts : frame.pts = frame'.pts) (hwidth : frame.width = frame'.width)
    (hheight : frame.height = frame'.height) :
    TellsApart frame frame' ↔ EvenSize frame ∧ OffsetsFit frame ∧ OffsetsFit frame' := by
  have hzero := serializeFrame_zero h h' hpts hwidth hheight
  have heven_iff : EvenSize frame ↔ EvenSize frame' := by
    unfold EvenSize
    rw [hwidth, hheight]
  have hvisible_iff : ∀ plane r c, Visible frame plane r c ↔ Visible frame' plane r c := by
    intro plane r c
    simp only [Visible, planeWidth, planeHeight, hwidth, hheight]
  constructor
  · intro htells
    have hleft : EvenSize frame ∧ OffsetsFit frame := by
      by_contra hnot
      rcases exists_blind_plane h hnot with ⟨plane, hplane, hsame⟩
      have hequal := htells _ _ (hsame.trans hzero) plane _ _ (h.last_visible hplane)
      simp [singleSample, zeroSamples, lastOffset] at hequal
    have hright : EvenSize frame' ∧ OffsetsFit frame' := by
      by_contra hnot
      rcases exists_blind_plane h' hnot with ⟨plane, hplane, hsame⟩
      have hequal := htells _ _ (hzero.trans hsame.symm) plane _ _
        ((hvisible_iff _ _ _).mpr (h'.last_visible hplane))
      simp [singleSample, zeroSamples, lastOffset] at hequal
    exact ⟨hleft.1, hleft.2, hright.2⟩
  · rintro ⟨heven, hfit, hfit'⟩ samples samples' hequal plane r c hvisible
    have hposition : samplePosition frame plane r c = samplePosition frame' plane r c := by
      simp only [samplePosition, planeStart, planeSize, rowBytes, rowCount, hwidth, hheight]
    have hleft := sample_in_entry h heven hfit hvisible samples
    have hright := sample_in_entry h' (heven_iff.mp heven) hfit'
      ((hvisible_iff _ _ _).mp hvisible) samples'
    rw [hequal, hposition, hright] at hleft
    exact (Option.some.inj hleft).symm

/-- For all YUV420P pictures of one size and time stamp: the entry holds the whole picture,
whatever its samples are, exactly when both sizes are even and no row offset leaves 32 bits;
and entries tell the pictures apart exactly when this is so for both. -/
theorem whole_picture_iff {frame frame' : AVFrame} (h : YuvPicture frame) (h' : YuvPicture frame')
    (hpts : frame.pts = frame'.pts) (hwidth : frame.width = frame'.width)
    (hheight : frame.height = frame'.height) :
    (HoldsPicture frame ↔ EvenSize frame ∧ OffsetsFit frame) ∧
      (TellsApart frame frame' ↔ EvenSize frame ∧ OffsetsFit frame ∧ OffsetsFit frame') :=
  ⟨holdsPicture_iff h, tellsApart_iff h h' hpts hwidth hheight⟩

/-- Pictures of 4 by 2 samples with different padding are told apart. -/
theorem whole_picture_padded :
    HoldsPicture (blackFrame 4 2 8).frame ∧
      TellsApart (blackFrame 4 2 8).frame (blackFrame 4 2 32).frame := by
  have hpicture : YuvPicture (blackFrame 4 2 8).frame :=
    ⟨fun _ _ => rfl, by decide, by decide, by decide, by decide⟩
  have hpicture' : YuvPicture (blackFrame 4 2 32).frame :=
    ⟨fun _ _ => rfl, by decide, by decide, by decide, by decide⟩
  have heven : EvenSize (blackFrame 4 2 8).frame := ⟨by decide, by decide⟩
  have hfit : ∀ linesize : Int32, linesize.toInt < 4294967296 →
      OffsetsFit (blackFrame 4 2 linesize).frame := by
    intro linesize hlinesize plane hplane r hr _
    have hcount : (rowCount (blackFrame 4 2 linesize).frame plane).toNat ≤ 2 := by
      unfold rowCount
      split
      · exact Nat.le_refl 2
      · exact (by decide : ((2 : Int32).toUInt32 / 2).toNat ≤ 2)
    have hrow : r = 0 ∨ r = 1 := by omega
    rcases hrow with rfl | rfl
    · simp
    · simpa [blackFrame] using hlinesize
  rcases whole_picture_iff hpicture hpicture' rfl rfl rfl with ⟨hholds, htells⟩
  exact ⟨hholds.mpr ⟨heven, hfit 8 (by decide)⟩,
    htells.mpr ⟨heven, hfit 8 (by decide), hfit 32 (by decide)⟩⟩

/-- For the scale target 853x479, two pictures that differ in the last chroma sample have the
same entry. -/
theorem odd_pictures_not_told_apart :
    ¬ ∀ frame frame' : AVFrame, YuvPicture frame → YuvPicture frame' → frame.pts = frame'.pts →
      frame.width = frame'.width → frame.height = frame'.height → TellsApart frame frame' := by
  intro hall
  have hpicture : YuvPicture (blackFrame 853 479 896).frame :=
    ⟨fun _ _ => rfl, by decide, by decide, by decide, by decide⟩
  have htells := hall _ _ hpicture hpicture rfl rfl rfl
  have heven := ((tellsApart_iff hpicture hpicture rfl rfl rfl).mp htells).1
  exact absurd heven.1 (by decide)

end Publisher

end FrameProcessor
