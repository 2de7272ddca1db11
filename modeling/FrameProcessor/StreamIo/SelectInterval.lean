import Mathlib.Tactic.FieldSimp
import Mathlib.Tactic.Linarith
import FrameProcessor.StreamIo.Sampling

/-!
# components/stream_io - The range of the sampling interval

`setup_multi_output_filter_graph` divides the rate of the source by the rate an event asks
for and converts the quotient to `int`.  Doubles are read as exact rationals.  The
conversion drops the fraction and is undefined when the rest is no value of the type, so
the interval is a partial function here; nothing in the parser or the reader keeps a
positive target rate away from zero.

Main results:

- Theorem `StreamIoManager.selectInterval?_eq_some`: where the conversion is defined and nothing
  is rounded, the interval is the one that the filter chain of the reader is made from.
- Theorem `StreamIoManager.boundsInterval_iff`: the interval is the quotient rounded down,
  at least 1, with the sampling bounds that follow, if and only if the quotient is below
  `2 ^ 31`.
-/

namespace FrameProcessor

/-- The conversion drops the fraction of a number that is not negative. -/
theorem Double.tdiv_eq_floor {x : Double} (hx : 0 ≤ x) : x.num.tdiv x.den = ⌊x⌋ := by
  rw [Rat.floor_def', Int.tdiv_eq_ediv_of_nonneg (Rat.num_nonneg.mpr hx)]

/-- Of the numbers that are not negative, those below `2 ^ 31` can be converted. -/
theorem Double.toInt32?_eq_some_iff {x : Double} (hx : 0 ≤ x) (value : Int32) :
    x.toInt32? = some value ↔ x < 2 ^ 31 ∧ value.toInt = ⌊x⌋ := by
  have hfloor : 0 ≤ ⌊x⌋ := Int.floor_nonneg.mpr hx
  have hlt : ⌊x⌋ < 2 ^ 31 ↔ x < 2 ^ 31 := by
    rw [Int.floor_lt]
    norm_num
  unfold Double.toInt32?
  rw [Double.tdiv_eq_floor hx]
  by_cases hrange : x < 2 ^ 31
  · have hbelow : ⌊x⌋ < 2 ^ 31 := hlt.mpr hrange
    have htoInt : (Int32.ofInt ⌊x⌋).toInt = ⌊x⌋ :=
      Int32.toInt_ofInt_of_le (by omega) (by omega)
    rw [if_pos ⟨by omega, hbelow⟩]
    constructor
    · intro heq
      cases heq
      exact ⟨hrange, htoInt⟩
    · intro ⟨_, hvalue⟩
      rw [← hvalue, Int32.ofInt_toInt]
  · rw [if_neg fun hboth => hrange (hlt.mp hboth.2)]
    constructor
    · intro heq
      cases heq
    · intro ⟨hlt', _⟩
      exact absurd hlt' hrange

namespace StreamIoManager

/-! ## The interval as an int -/

/-- `interval`, with the conversion as far as it is defined. -/
def selectInterval? (fps : Double) (event : EventConfig) : Option Int32 :=
  (fps / targetRate event).toInt32?.map fun interval => if interval < 1 then 1 else interval

/-- A target rate is positive. -/
theorem targetRate_pos (event : EventConfig) : 0 < targetRate event := by
  unfold targetRate
  split
  · exact one_pos
  · next hpos => exact not_le.mp hpos

/-- `av_q2d` of a rational with positive parts is positive. -/
theorem avQ2d_pos {q : AVRational} (hden : q.den > 0) (hnum : q.num > 0) : 0 < avQ2d q := by
  have hden' : 0 < q.den.toInt := Int32.lt_iff_toInt_lt.mp hden
  have hnum' : 0 < q.num.toInt := Int32.lt_iff_toInt_lt.mp hnum
  exact div_pos (Int.cast_pos.mpr hnum') (Int.cast_pos.mpr hden')

/-- The rate of a source is positive, whichever of the three is chosen. -/
theorem sourceFps_pos (videoStream : AVStream) : 0 < sourceFps videoStream := by
  unfold sourceFps
  split
  · next hboth =>
    rw [Bool.and_eq_true, decide_eq_true_eq, decide_eq_true_eq] at hboth
    exact avQ2d_pos hboth.1 hboth.2
  · split
    · next hboth =>
      rw [Bool.and_eq_true, decide_eq_true_eq, decide_eq_true_eq] at hboth
      exact avQ2d_pos hboth.1 hboth.2
    · exact one_pos

/-- The clamp of an `int` to at least 1. -/
theorem toInt_clamp (value : Int32) :
    (if value < 1 then (1 : Int32) else value).toInt = max 1 value.toInt := by
  have hone : (1 : Int32).toInt = 1 := rfl
  have hiff : value < 1 ↔ value.toInt < 1 := by
    rw [Int32.lt_iff_toInt_lt, hone]
  by_cases hlt : value < 1
  · have hle : value.toInt ≤ 1 := (hiff.mp hlt).le
    rw [if_pos hlt, hone, max_eq_left hle]
  · have hle : 1 ≤ value.toInt := not_lt.mp fun h => hlt (hiff.mpr h)
    rw [if_neg hlt, max_eq_right hle]

/-- The interval is defined when the quotient of the rates is below `2 ^ 31`, and is then
the quotient rounded down, at least 1. -/
theorem selectInterval?_eq_some_iff {fps : Double} (hfps : 0 ≤ fps) (event : EventConfig)
    (interval : Int32) :
    selectInterval? fps event = some interval ↔
      fps / targetRate event < 2 ^ 31 ∧ interval.toInt = max 1 ⌊fps / targetRate event⌋ := by
  have hquotient : 0 ≤ fps / targetRate event := div_nonneg hfps (targetRate_pos event).le
  unfold selectInterval?
  rw [Option.map_eq_some_iff]
  constructor
  · intro ⟨value, hvalue, hinterval⟩
    rcases (Double.toInt32?_eq_some_iff hquotient value).mp hvalue with ⟨hrange, htoInt⟩
    rw [← hinterval, toInt_clamp, htoInt]
    exact ⟨hrange, rfl⟩
  · intro ⟨hrange, htoInt⟩
    have hfloor : 0 ≤ ⌊fps / targetRate event⌋ := Int.floor_nonneg.mpr hquotient
    have hbelow : ⌊fps / targetRate event⌋ < 2 ^ 31 := by
      rw [Int.floor_lt]
      exact_mod_cast hrange
    have hvalue : (Int32.ofInt ⌊fps / targetRate event⌋).toInt = ⌊fps / targetRate event⌋ :=
      Int32.toInt_ofInt_of_le (by omega) (by omega)
    refine ⟨Int32.ofInt ⌊fps / targetRate event⌋,
      (Double.toInt32?_eq_some_iff hquotient _).mpr ⟨hrange, hvalue⟩, ?_⟩
    apply Int32.toInt_inj.mp
    rw [toInt_clamp, hvalue, htoInt]

/-- Where the conversion is defined and the machine does not round, the filter chain is made from
the value of the conversion. -/
theorem selectInterval?_eq_some {quotient : RateQuotient} {fps : Double} {event : EventConfig}
    (h : (fps / targetRate event).toInt32? = some (quotient fps (targetRate event))) :
    selectInterval? fps event = some (selectInterval quotient fps event) := by
  unfold selectInterval? selectInterval
  rw [h, Option.map_some]

/-! ## The bounds of the interval -/

/-- The rate `t` that an event is sampled at lies between the rate that is left of `r` and
that rate times `(interval + 1) / interval`. -/
def RateBounds (r t : Double) (interval : Int32) : Prop :=
  t ≤ r / interval.toInt ∧ r / interval.toInt < t * (interval.toInt + 1) / interval.toInt

/-- The interval of an event is an `int`, the quotient of the rates rounded down and at
least 1; a source that is fast enough leaves at least the target rate and less than one
step of the interval above it, and of a slower source every frame is kept. -/
def BoundsInterval (videoStream : AVStream) (event : EventConfig) : Prop :=
  ∃ interval, selectInterval? (sourceFps videoStream) event = some interval ∧
    interval.toInt = max 1 ⌊sourceFps videoStream / targetRate event⌋ ∧
    (targetRate event ≤ sourceFps videoStream →
      RateBounds (sourceFps videoStream) (targetRate event) interval) ∧
    (sourceFps videoStream < targetRate event → ∀ n : Nat, (n : Int) % interval.toInt = 0)

/-- A quotient of at least 1, rounded down, bounds the rate that is left. -/
theorem rateBounds_of_floor {r t : Double} (ht : 0 < t) (hle : t ≤ r) {interval : Int32}
    (h : interval.toInt = max 1 ⌊r / t⌋) : RateBounds r t interval := by
  have hone : 1 ≤ ⌊r / t⌋ := by
    rw [Int.le_floor, Int.cast_one, le_div_iff₀ ht, one_mul]
    exact hle
  rw [max_eq_right hone] at h
  have hpos : (0 : ℚ) < interval.toInt := by
    rw [h]
    exact_mod_cast hone
  have hlower : (interval.toInt : ℚ) * t ≤ r := by
    rw [h]
    exact (le_div_iff₀ ht).mp (Int.floor_le _)
  have hupper : r < (interval.toInt + 1) * t := by
    rw [h]
    exact (div_lt_iff₀ ht).mp (Int.lt_floor_add_one _)
  constructor
  · rw [le_div_iff₀ hpos]
    linarith
  · exact div_lt_div_of_pos_right (by linarith) hpos

/-- The interval keeps its bounds exactly when the quotient of the rates is below
`2 ^ 31`. -/
theorem boundsInterval_iff (videoStream : AVStream) (event : EventConfig) :
    BoundsInterval videoStream event ↔
      sourceFps videoStream / targetRate event < 2 ^ 31 := by
  have hfps := sourceFps_pos videoStream
  have htarget := targetRate_pos event
  constructor
  · intro ⟨interval, hinterval, _⟩
    exact ((selectInterval?_eq_some_iff hfps.le event interval).mp hinterval).1
  · intro hrange
    have hbelow : ⌊sourceFps videoStream / targetRate event⌋ < 2 ^ 31 := by
      rw [Int.floor_lt]
      exact_mod_cast hrange
    have hvalue : (Int32.ofInt (max 1 ⌊sourceFps videoStream / targetRate event⌋)).toInt =
        max 1 ⌊sourceFps videoStream / targetRate event⌋ :=
      Int32.toInt_ofInt_of_le (by omega) (by omega)
    refine ⟨Int32.ofInt (max 1 ⌊sourceFps videoStream / targetRate event⌋),
      (selectInterval?_eq_some_iff hfps.le event _).mpr ⟨hrange, hvalue⟩, hvalue,
      fun hle => rateBounds_of_floor htarget hle hvalue, fun hlt n => ?_⟩
    have hfloor : ⌊sourceFps videoStream / targetRate event⌋ < 1 := by
      rw [Int.floor_lt, Int.cast_one, div_lt_iff₀ htarget, one_mul]
      exact hlt
    rw [hvalue, max_eq_left hfloor.le]
    exact Int.emod_one _

/-- An event that asks for one frame in some thirty years. -/
def slowEvent : EventConfig where
  name := "archive"
  targetFps := 1 / 1000000000
  batchSize := 8

/-- With the source at 30 frames per second the conversion leaves the range of `int`. -/
theorem slowEvent_not_boundsInterval : ¬BoundsInterval thirtyFps slowEvent := by
  intro ⟨interval, hinterval, _⟩
  have hfps : sourceFps thirtyFps = 30 := by
    have hrate : sourceFps thirtyFps = ((30 : Int) : ℚ) / ((1 : Int) : ℚ) := rfl
    rw [hrate]
    norm_num
  have htarget : targetRate slowEvent = 1 / 1000000000 := by
    apply if_neg
    change ¬(1 / 1000000000 : ℚ) ≤ 0
    norm_num
  have hrange :=
    ((selectInterval?_eq_some_iff (sourceFps_pos thirtyFps).le slowEvent interval).mp
      hinterval).1
  rw [hfps, htarget] at hrange
  norm_num at hrange

end StreamIoManager

end FrameProcessor
