import Mathlib.Tactic.Linarith
import FrameProcessor.Publisher.Serialization

/-!
# components/publisher - Row offsets in 32 and in 64 bits

`batching_loop` copies its rows inline, with 32-bit unsigned row offsets.  The helper
`copy_plane_remove_stride`, which nothing calls, multiplies in 64 bits.  `MAX_FRAME_BYTES` is
defined beside it and compared with nothing, so the sizes are those of the frame.  A row
distance may be negative: the picture is then stored bottom up.

Main results:

- Theorem `Publisher.displacement_strideOffset`: the offsets of the helper are exact.
- Theorem `Publisher.inside_entry`: whatever wraps, a row is written inside the entry.
- Theorem `Publisher.copiesExactly_iff`: the inline copies have the exact offsets, and agree
  with the helper, if and only if the last row of each plane starts below `2 ^ 32` in the
  entry and in a plane that is stored top down, or the plane has one row at most.
-/

namespace FrameProcessor

namespace Publisher

/-! ## The helper -/

/-- The signed distance by which a `size_t` moves a pointer. -/
def displacement (offset : UInt64) : Int :=
  offset.toInt64.toInt

/-- `static_cast<size_t>(r) * bytes` -/
def strideOffset (r bytes : Int32) : UInt64 :=
  r.toInt64.toUInt64 * bytes.toInt64.toUInt64

/-- `copy_plane_remove_stride`: the rows are read with `load` and written into the buffer from
`dest` on. -/
def copyPlaneRemoveStride (buffer : Bytes) (dest : Nat) (load : Int → UInt8)
    (srcLinesize rowBytes rows : Int32) : Bytes :=
  (List.range rows.toInt.toNat).foldl
    (fun buffer r =>
      Buffer.writeAt buffer
        (dest + displacement (strideOffset (Int32.ofNat r) rowBytes)).toNat
        ((List.range rowBytes.toInt.toNat).map fun (c : Nat) =>
          load (displacement (strideOffset (Int32.ofNat r) srcLinesize) + c)))
    buffer

/-- The 64-bit product of two `int` values is exact. -/
theorem displacement_strideOffset (r bytes : Int32) :
    displacement (strideOffset r bytes) = r.toInt * bytes.toInt := by
  have hr := r.le_toInt
  have hr' := r.toInt_lt
  have hbytes := bytes.le_toInt
  have hbytes' := bytes.toInt_lt
  have hlower : -(2 ^ 62 : Int) ≤ r.toInt * bytes.toInt := by nlinarith
  have hupper : r.toInt * bytes.toInt ≤ (2 ^ 62 : Int) := by nlinarith
  unfold displacement strideOffset
  rw [UInt64.toInt64_mul, Int64.toInt64_toUInt64, Int64.toInt64_toUInt64, Int64.toInt_mul,
    Int32.toInt_toInt64, Int32.toInt_toInt64, Int.bmod_eq_iff (by decide)]
  omega

/-! ## Rows of a plane -/

/-- The row sizes of a frame are those of the picture, halved for the second and third
plane. -/
theorem rowBytes_lt {frame : AVFrame} (hwidth : 0 < frame.width.toInt) (plane : Nat) :
    (rowBytes frame plane).toNat < 2147483648 := by
  have hexact := toUInt32_toNat hwidth.le
  have hmax := frame.width.toInt_lt
  unfold rowBytes
  split
  · omega
  · rw [UInt32.toNat_div]
    have hle := Nat.div_le_self frame.width.toUInt32.toNat (2 : UInt32).toNat
    omega

theorem rowCount_lt {frame : AVFrame} (hheight : 0 < frame.height.toInt) (plane : Nat) :
    (rowCount frame plane).toNat < 2147483648 := by
  have hexact := toUInt32_toNat hheight.le
  have hmax := frame.height.toInt_lt
  unfold rowCount
  split
  · omega
  · rw [UInt32.toNat_div]
    have hle := Nat.div_le_self frame.height.toUInt32.toNat (2 : UInt32).toNat
    omega

/-- An unsigned number below `2 ^ 31` as an `int`. -/
theorem toInt_toInt32_of_lt {x : UInt32} (h : x.toNat < 2147483648) :
    x.toInt32.toInt = x.toNat := by
  have hx : x.toInt32 = Int32.ofNat x.toNat := by
    conv_lhs => rw [← UInt32.ofNat_toNat (x := x)]
    exact UInt32.toInt32_ofNat'
  rw [hx, Int32.toInt_ofNat_of_lt h]

/-- Where the rows of a plane begin in an entry. -/
def planeBase (frame : AVFrame) : (plane : Nat) → Nat
  | 0 => 16
  | plane + 1 => planeBase frame plane + planeSize frame plane

/-- `total_entry_size` -/
def entrySize (frame : AVFrame) : Nat :=
  16 + (planeSize frame 0 + planeSize frame 1 + planeSize frame 1)

/-- The offset of a row in its plane of the entry, as the code computes it. -/
def destOffset (frame : AVFrame) (plane i : Nat) : Nat :=
  (UInt32.ofNat i * rowBytes frame plane).toNat

/-- A computed offset is the exact one modulo `2 ^ 32`. -/
theorem destOffset_eq (frame : AVFrame) {plane i : Nat}
    (hi : i < (rowCount frame plane).toNat) :
    destOffset frame plane i = i * (rowBytes frame plane).toNat % 2 ^ 32 := by
  have hcount := (rowCount frame plane).toNat_lt
  unfold destOffset
  rw [UInt32.toNat_mul, UInt32.toNat_ofNat', Nat.mod_eq_of_lt (by omega : i < 2 ^ 32)]

/-- The three planes fill the entry. -/
theorem planeBase_add_planeSize_le (frame : AVFrame) {plane : Nat} (hplane : plane < 3) :
    planeBase frame plane + planeSize frame plane ≤ entrySize frame := by
  have htwo := planeSize_two frame
  match plane, hplane with
  | 0, _ => simp only [planeBase, entrySize]; omega
  | 1, _ => simp only [planeBase, entrySize]; omega
  | 2, _ => simp only [planeBase, entrySize]; omega

/-- A row is written inside the entry, whether its offset has wrapped or not. -/
theorem inside_entry (frame : AVFrame) {plane i : Nat} (hplane : plane < 3)
    (hi : i < (rowCount frame plane).toNat) :
    planeBase frame plane + destOffset frame plane i + (rowBytes frame plane).toNat ≤
      entrySize frame := by
  have hplanes := planeBase_add_planeSize_le frame hplane
  have hwrapped : destOffset frame plane i ≤ i * (rowBytes frame plane).toNat := by
    rw [destOffset_eq frame hi]
    exact Nat.mod_le _ _
  have hrow : i * (rowBytes frame plane).toNat + (rowBytes frame plane).toNat ≤
      planeSize frame plane := by
    calc
      i * (rowBytes frame plane).toNat + (rowBytes frame plane).toNat =
          (i + 1) * (rowBytes frame plane).toNat := (Nat.succ_mul _ _).symm
      _ ≤ (rowCount frame plane).toNat * (rowBytes frame plane).toNat :=
          Nat.mul_le_mul_right _ hi
      _ = planeSize frame plane := Nat.mul_comm _ _
  omega

/-! ## Exact copies -/

/-- The rows of a plane are read and written at their exact offsets and inside the entry,
and the inline loop does what the helper does. -/
structure CopiesExactly (frame : AVFrame) (plane : Nat) : Prop where
  reads : ∀ i < (rowCount frame plane).toNat,
    ((sourceOffset frame plane (UInt32.ofNat i)).toNat : Int) =
      i * (frame.linesize plane).toInt
  writes : ∀ i < (rowCount frame plane).toNat,
    destOffset frame plane i = i * (rowBytes frame plane).toNat
  inside : ∀ i < (rowCount frame plane).toNat,
    planeBase frame plane + destOffset frame plane i + (rowBytes frame plane).toNat ≤
      entrySize frame
  agrees : ∀ base entry,
    copyPlane frame plane base entry =
      copyPlaneRemoveStride entry base (frame.load plane) (frame.linesize plane)
        (rowBytes frame plane).toInt32 (rowCount frame plane).toInt32

/-- A plane has one row at most, or it is stored top down and its last row begins below
`2 ^ 32` both in the plane and in the entry. -/
def OffsetsInRange (frame : AVFrame) (plane : Nat) : Prop :=
  (rowCount frame plane).toNat ≤ 1 ∨
    0 ≤ (frame.linesize plane).toInt ∧
      ((rowCount frame plane).toNat - 1 : Nat) * (frame.linesize plane).toInt < 2 ^ 32 ∧
      ((rowCount frame plane).toNat - 1) * (rowBytes frame plane).toNat < 2 ^ 32

/-- With exact offsets the inline loop does what the helper does. -/
theorem copyPlane_eq_copyPlaneRemoveStride {frame : AVFrame} {plane : Nat}
    (hwidth : 0 < frame.width.toInt) (hheight : 0 < frame.height.toInt)
    (hreads : ∀ i < (rowCount frame plane).toNat,
      ((sourceOffset frame plane (UInt32.ofNat i)).toNat : Int) =
        i * (frame.linesize plane).toInt)
    (hwrites : ∀ i < (rowCount frame plane).toNat,
      destOffset frame plane i = i * (rowBytes frame plane).toNat)
    (base : Nat) (entry : Bytes) :
    copyPlane frame plane base entry =
      copyPlaneRemoveStride entry base (frame.load plane) (frame.linesize plane)
        (rowBytes frame plane).toInt32 (rowCount frame plane).toInt32 := by
  have hbytes := toInt_toInt32_of_lt (rowBytes_lt hwidth plane)
  have hrows := toInt_toInt32_of_lt (rowCount_lt hheight plane)
  unfold copyPlane copyPlaneRemoveStride
  rw [hrows, hbytes, Int.toNat_natCast, Int.toNat_natCast]
  refine List.foldl_ext _ _ _ fun entry i hi => ?_
  have hlt := List.mem_range.mp hi
  have hindex : (Int32.ofNat i).toInt = i :=
    Int32.toInt_ofNat_of_lt (hlt.trans (rowCount_lt hheight plane))
  have hdest : (base + displacement (strideOffset (Int32.ofNat i)
      (rowBytes frame plane).toInt32)).toNat = base + destOffset frame plane i := by
    rw [displacement_strideOffset, hindex, hbytes, hwrites i hlt]
    omega
  have hsource : displacement (strideOffset (Int32.ofNat i) (frame.linesize plane)) =
      (sourceOffset frame plane (UInt32.ofNat i)).toNat := by
    rw [displacement_strideOffset, hindex, hreads i hlt]
  rw [hdest, hsource]
  rfl

/-- A plane is copied exactly when its offsets are in range. -/
theorem copiesExactly_plane_iff {frame : AVFrame} (hwidth : 0 < frame.width.toInt)
    (hheight : 0 < frame.height.toInt) {plane : Nat} (hplane : plane < 3) :
    CopiesExactly frame plane ↔ OffsetsInRange frame plane := by
  constructor
  · intro h
    by_cases hrows : (rowCount frame plane).toNat ≤ 1
    · exact Or.inl hrows
    · right
      have hlast : (rowCount frame plane).toNat - 1 < (rowCount frame plane).toNat := by omega
      refine ⟨?_, ?_, ?_⟩
      · have hsecond := h.reads 1 (by omega)
        omega
      · rw [← h.reads _ hlast]
        exact_mod_cast (sourceOffset frame plane _).toNat_lt
      · rw [← h.writes _ hlast]
        exact (UInt32.ofNat _ * rowBytes frame plane).toNat_lt
  · intro h
    have hreads : ∀ i < (rowCount frame plane).toNat,
        ((sourceOffset frame plane (UInt32.ofNat i)).toNat : Int) =
          i * (frame.linesize plane).toInt := by
      intro i hi
      rw [sourceOffset_toNat frame hi]
      rcases h with hone | ⟨hnonneg, hsource, -⟩
      · have hzero : i = 0 := by omega
        rw [hzero]
        simp
      · have hle : (i : Int) * (frame.linesize plane).toInt ≤
            ((rowCount frame plane).toNat - 1 : Nat) * (frame.linesize plane).toInt :=
          Int.mul_le_mul_of_nonneg_right (by omega) hnonneg
        exact Int.emod_eq_of_lt (Int.mul_nonneg (Int.natCast_nonneg i) hnonneg)
          (lt_of_le_of_lt hle hsource)
    have hwrites : ∀ i < (rowCount frame plane).toNat,
        destOffset frame plane i = i * (rowBytes frame plane).toNat := by
      intro i hi
      rw [destOffset_eq frame hi]
      rcases h with hone | ⟨-, -, hdest⟩
      · have hzero : i = 0 := by omega
        rw [hzero, Nat.zero_mul, Nat.zero_mod]
      · have hle : i * (rowBytes frame plane).toNat ≤
            ((rowCount frame plane).toNat - 1) * (rowBytes frame plane).toNat :=
          Nat.mul_le_mul_right _ (by omega)
        exact Nat.mod_eq_of_lt (lt_of_le_of_lt hle hdest)
    exact ⟨hreads, hwrites, fun i hi => inside_entry frame hplane hi,
      copyPlane_eq_copyPlaneRemoveStride hwidth hheight hreads hwrites⟩

/-- The inline copies of a frame have the exact offsets of the helper exactly when the
offsets of each plane are in range. -/
theorem copiesExactly_iff {frame : AVFrame} (hwidth : 0 < frame.width.toInt)
    (hheight : 0 < frame.height.toInt) :
    (∀ plane < 3, CopiesExactly frame plane) ↔ ∀ plane < 3, OffsetsInRange frame plane := by
  constructor
  · intro h plane hplane
    exact (copiesExactly_plane_iff hwidth hheight hplane).mp (h plane hplane)
  · intro h plane hplane
    exact (copiesExactly_plane_iff hwidth hheight hplane).mpr (h plane hplane)

/-- A picture of two by two samples with the rows two bytes apart. -/
theorem smallPicture_copiesExactly :
    CopiesExactly (blackFrame 2 2 2).frame 0 ∧ CopiesExactly (blackFrame 2 2 2).frame 1 ∧
      CopiesExactly (blackFrame 2 2 2).frame 2 := by
  have hwidth : 0 < (blackFrame 2 2 2).frame.width.toInt := by decide
  have hheight : 0 < (blackFrame 2 2 2).frame.height.toInt := by decide
  have hrange : ∀ plane < 3, OffsetsInRange (blackFrame 2 2 2).frame plane := by
    intro plane hplane
    match plane, hplane with
    | 0, _ => exact Or.inr (by decide)
    | 1, _ => exact Or.inl (by decide)
    | 2, _ => exact Or.inl (by decide)
  have hexact := (copiesExactly_iff hwidth hheight).mpr hrange
  exact ⟨hexact 0 (by decide), hexact 1 (by decide), hexact 2 (by decide)⟩

/-- Stored bottom up, its second row is read four gigabytes further on. -/
theorem bottomUp_not_copiesExactly :
    (sourceOffset (blackFrame 2 2 (-2)).frame 0 1).toNat = 4294967294 ∧
      ¬∀ plane < 3, CopiesExactly (blackFrame 2 2 (-2)).frame plane := by
  constructor
  · rfl
  · intro h
    have hsecond := (h 0 (by decide)).reads 1 (by decide)
    revert hsecond
    decide

end Publisher

end FrameProcessor
