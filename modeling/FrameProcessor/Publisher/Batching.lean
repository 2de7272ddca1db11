import Mathlib.Algebra.Order.Group.Multiset
import Mathlib.Tactic.Abel
import FrameProcessor.Foundations.Table
import FrameProcessor.Publisher.Serialization

/-!
# components/publisher - Batching

`batching_loop` keeps one open batch per stream and event, appends each frame to its
batch and hands the batch on when it is full; what is still open at the end is flushed.
A batch of the model also names the frames packed into it, with the fact that its count
and its buffer are exactly those of the frames.

Main results:

- Theorem `Publisher.batchFrame_frames`: a frame is added to the open batches, and what is
  handed on is taken out of them.
- Theorem `Publisher.batchingLoop_frames`: the batches handed on, the flush included,
  contain every frame exactly once.
- Theorem `Publisher.sublist_of_mem_batchingLoop`: a batch has its frames in order of
  arrival.
-/

namespace FrameProcessor

open Std

namespace Publisher

/-! ## Batches -/

/-- `FrameBatch`. -/
structure FrameBatch where
  streamId : Int64
  eventName : String
  frameCount : Nat := 0
  dataBuffer : Bytes := []
deriving DecidableEq

/-- A batch that holds the given frames, at least one. -/
structure PackedBatch extends FrameBatch where
  frames : List (DecodedFrame AVFrame)
  nonempty : frames ≠ []
  counted : frameCount = frames.length
  packed : dataBuffer = frames.flatMap fun frame => serializeFrame frame.frame

/-- `BatchKey`. -/
abbrev BatchKey := Int64 × String

/-- The order of `std::pair`. -/
instance : Ord BatchKey :=
  lexOrd

/-- `current_batches`: the open batch of every stream and event. -/
abbrev CurrentBatches := ExtTreeMap BatchKey PackedBatch

/-- The key of a frame's batch. -/
def batchKey (frame : DecodedFrame AVFrame) : BatchKey :=
  (frame.sourceConfig.id, frame.eventConfig.name)

/-- A new batch for the stream and event of a frame. -/
def newBatch (frame : DecodedFrame AVFrame) : FrameBatch where
  streamId := frame.sourceConfig.id
  eventName := frame.eventConfig.name

/-- Append the entry of a frame and count it. -/
def FrameBatch.append (batch : FrameBatch) (frame : AVFrame) : FrameBatch :=
  { batch with
    frameCount := batch.frameCount + 1
    dataBuffer := batch.dataBuffer ++ serializeFrame frame }

/-- A new batch with its first frame. -/
def PackedBatch.single (frame : DecodedFrame AVFrame) : PackedBatch where
  toFrameBatch := (newBatch frame).append frame.frame
  frames := [frame]
  nonempty := List.cons_ne_nil _ _
  counted := rfl
  packed := by simp [FrameBatch.append, newBatch]

/-- An open batch with one more frame. -/
def PackedBatch.add (batch : PackedBatch) (frame : DecodedFrame AVFrame) : PackedBatch where
  toFrameBatch := batch.toFrameBatch.append frame.frame
  frames := batch.frames ++ [frame]
  nonempty := by simp
  counted := by simp [FrameBatch.append, batch.counted]
  packed := by simp [FrameBatch.append, batch.packed]

/-! ## The loop -/

/-- The batch of a frame with the frame appended; the batch is created if there is none. -/
def extendBatch (current : CurrentBatches) (frame : DecodedFrame AVFrame) : PackedBatch :=
  match current[batchKey frame]? with
  | none => .single frame
  | some batch => batch.add frame

/-- One iteration of `batching_loop` for a popped frame: the open batches afterwards and
the batch handed on, if it is full. -/
def batchFrame (current : CurrentBatches) (frame : DecodedFrame AVFrame) :
    CurrentBatches × Option PackedBatch :=
  let batch := extendBatch current frame
  if batch.frameCount ≥ frame.eventConfig.batchSize.toInt then
    (current.erase (batchKey frame), some batch)
  else (current.insert (batchKey frame) batch, none)

/-- The flush of the partial batches, in key order. -/
def flush (current : CurrentBatches) : List PackedBatch :=
  (current.toList.map Prod.snd).filter fun batch => batch.frameCount > 0

/-- The loop over the popped frames: the batches handed on and those still open. -/
def batchFrames : CurrentBatches → List (DecodedFrame AVFrame) → List PackedBatch × CurrentBatches
  | current, [] => ([], current)
  | current, frame :: frames =>
      let (current', full) := batchFrame current frame
      let (pushed, final) := batchFrames current' frames
      (full.toList ++ pushed, final)

/-- Every batch that `batching_loop` pushes when it pops the given frames and then ends. -/
def batchingLoop (popped : List (DecodedFrame AVFrame)) : List PackedBatch :=
  let (pushed, current) := batchFrames ∅ popped
  pushed ++ flush current

/-! ## Every frame is in one batch -/

/-- The frames of a list of batches. -/
def framesOf (batches : List PackedBatch) : Multiset (DecodedFrame AVFrame) :=
  ↑(batches.flatMap PackedBatch.frames)

/-- The frames of the open batches. -/
def openFrames (current : CurrentBatches) : Multiset (DecodedFrame AVFrame) :=
  framesOf (current.toList.map Prod.snd)

@[simp]
theorem framesOf_nil : framesOf [] = 0 :=
  rfl

@[simp]
theorem framesOf_cons (batch : PackedBatch) (batches : List PackedBatch) :
    framesOf (batch :: batches) = ↑batch.frames + framesOf batches := by
  simp [framesOf]

@[simp]
theorem framesOf_append (batches batches' : List PackedBatch) :
    framesOf (batches ++ batches') = framesOf batches + framesOf batches' := by
  simp [framesOf]

theorem framesOf_perm {batches batches' : List PackedBatch} (h : batches.Perm batches') :
    framesOf batches = framesOf batches' :=
  Multiset.coe_eq_coe.mpr (h.flatMap_right _)

/-- Batches without frames are no batches. -/
theorem framesOf_eq_zero {batches : List PackedBatch} : framesOf batches = 0 ↔ batches = [] := by
  rw [framesOf, Multiset.coe_eq_zero, List.flatMap_eq_nil_iff]
  constructor
  · intro hnil
    refine List.eq_nil_iff_forall_not_mem.mpr fun batch hbatch => ?_
    exact batch.nonempty (hnil batch hbatch)
  · rintro rfl
    simp

/-- No open batch is empty, so the flush skips none. -/
theorem flush_eq (current : CurrentBatches) : flush current = current.toList.map Prod.snd := by
  refine List.filter_eq_self.mpr fun batch _ => ?_
  have hpos := List.length_pos_iff.mpr batch.nonempty
  simpa [batch.counted] using hpos

/-- A frame is appended to its open batch, or starts one. -/
theorem extendBatch_frames (current : CurrentBatches) (frame : DecodedFrame AVFrame) :
    (↑(extendBatch current frame).frames : Multiset (DecodedFrame AVFrame)) +
        openFrames (current.erase (batchKey frame)) = openFrames current + {frame} := by
  unfold extendBatch openFrames
  split
  · next hnone =>
    rw [Table.erase_of_getElem?_eq_none hnone, add_comm]
    rfl
  · next batch hsome =>
    have hperm := (Table.toList_perm_of_getElem? hsome).map Prod.snd
    rw [framesOf_perm hperm, List.map_cons, framesOf_cons]
    simp only [PackedBatch.add, ← Multiset.coe_add, Multiset.coe_singleton]
    abel

/-- Everything one iteration can do: hand the extended batch on, or keep it open. -/
theorem batchFrame_cases (current : CurrentBatches) (frame : DecodedFrame AVFrame) :
    batchFrame current frame =
        (current.erase (batchKey frame), some (extendBatch current frame)) ∨
      batchFrame current frame =
        (current.insert (batchKey frame) (extendBatch current frame), none) := by
  simp only [batchFrame]
  split
  · exact Or.inl rfl
  · exact Or.inr rfl

/-- A frame is added to the open batches, and what is handed on is taken out of them. -/
theorem batchFrame_frames (current : CurrentBatches) (frame : DecodedFrame AVFrame) :
    framesOf (batchFrame current frame).2.toList + openFrames (batchFrame current frame).1 =
      openFrames current + {frame} := by
  have hextend := extendBatch_frames current frame
  rcases batchFrame_cases current frame with heq | heq
  · rw [heq]
    simpa using hextend
  · have hperm := (Table.toList_insert_perm current (batchKey frame)
      (extendBatch current frame)).map Prod.snd
    rw [heq, openFrames, framesOf_perm hperm, List.map_cons, framesOf_cons]
    simpa [openFrames] using hextend

/-- The loop neither loses nor duplicates a frame. -/
theorem batchFrames_frames (current : CurrentBatches) (popped : List (DecodedFrame AVFrame)) :
    framesOf (batchFrames current popped).1 + openFrames (batchFrames current popped).2 =
      openFrames current + ↑popped := by
  induction popped generalizing current with
  | nil => simp [batchFrames, framesOf]
  | cons frame popped ih =>
      have hone := batchFrame_frames current frame
      have hrest := ih (batchFrame current frame).1
      simp only [batchFrames, framesOf_append]
      rw [add_assoc, hrest, ← add_assoc, hone, ← Multiset.cons_coe, ← Multiset.singleton_add,
        add_assoc]

/-- The batches pushed, the flush included, contain every frame exactly once. -/
theorem batchingLoop_frames (popped : List (DecodedFrame AVFrame)) :
    framesOf (batchingLoop popped) = ↑popped := by
  have hloop := batchFrames_frames ∅ popped
  have hempty : openFrames ∅ = 0 := rfl
  rw [hempty, zero_add] at hloop
  rw [← hloop]
  simp only [batchingLoop, framesOf_append, flush_eq, openFrames]

/-! ## Frames stay in order of arrival -/

/-- Every open batch has its frames in order of arrival. -/
def OpenInOrder (arrived : List (DecodedFrame AVFrame)) (current : CurrentBatches) : Prop :=
  ∀ (key : BatchKey) (batch : PackedBatch), current[key]? = some batch →
    batch.frames.Sublist arrived

/-- The batch of a frame keeps its frames in order of arrival. -/
theorem extendBatch_sublist {current : CurrentBatches} {arrived : List (DecodedFrame AVFrame)}
    (h : OpenInOrder arrived current) (frame : DecodedFrame AVFrame) :
    (extendBatch current frame).frames.Sublist (arrived ++ [frame]) := by
  unfold extendBatch
  split
  · exact List.sublist_append_right _ _
  · next batch hbatch =>
    exact (h _ batch hbatch).append (List.Sublist.refl _)

/-- An iteration keeps the open batches, and the one handed on, in order of arrival. -/
theorem batchFrame_sublist {current : CurrentBatches} {arrived : List (DecodedFrame AVFrame)}
    (h : OpenInOrder arrived current) (frame : DecodedFrame AVFrame) :
    OpenInOrder (arrived ++ [frame]) (batchFrame current frame).1 ∧
      ∀ batch ∈ (batchFrame current frame).2.toList, batch.frames.Sublist (arrived ++ [frame]) := by
  have hextend := extendBatch_sublist h frame
  have hgrow : ∀ {batch : PackedBatch}, batch.frames.Sublist arrived →
      batch.frames.Sublist (arrived ++ [frame]) :=
    fun hsub => hsub.trans (List.sublist_append_left _ _)
  rcases batchFrame_cases current frame with heq | heq
  · rw [heq]
    refine ⟨fun key batch hbatch => ?_, by simpa using hextend⟩
    rw [ExtTreeMap.getElem?_erase] at hbatch
    split at hbatch
    · cases hbatch
    · exact hgrow (h key batch hbatch)
  · rw [heq]
    refine ⟨fun key batch hbatch => ?_, by simp⟩
    rw [ExtTreeMap.getElem?_insert] at hbatch
    split at hbatch
    · cases hbatch
      exact hextend
    · exact hgrow (h key batch hbatch)

/-- Batches have their frames in the order in which they arrived. -/
theorem batchFrames_sublist {current : CurrentBatches} {arrived : List (DecodedFrame AVFrame)}
    (h : OpenInOrder arrived current) (popped : List (DecodedFrame AVFrame)) :
    (∀ batch ∈ (batchFrames current popped).1, batch.frames.Sublist (arrived ++ popped)) ∧
      OpenInOrder (arrived ++ popped) (batchFrames current popped).2 := by
  induction popped generalizing current arrived with
  | nil =>
      rw [List.append_nil]
      exact ⟨fun _ hmem => absurd hmem List.not_mem_nil, h⟩
  | cons frame popped ih =>
      rcases batchFrame_sublist h frame with ⟨hcurrent, hfull⟩
      have hrest := ih hcurrent
      rw [List.append_assoc, List.singleton_append] at hrest
      refine ⟨fun batch hbatch => ?_, hrest.2⟩
      rcases List.mem_append.mp hbatch with hmem | hmem
      · refine (hfull batch hmem).trans ?_
        simp
      · exact hrest.1 batch hmem

/-- Every batch pushed has its frames in order of arrival. -/
theorem sublist_of_mem_batchingLoop {popped : List (DecodedFrame AVFrame)} {batch : PackedBatch}
    (h : batch ∈ batchingLoop popped) : batch.frames.Sublist popped := by
  have hempty : OpenInOrder [] ∅ := fun key batch hbatch => by simp at hbatch
  rcases batchFrames_sublist hempty popped with ⟨hpushed, hopen⟩
  rcases List.mem_append.mp h with hmem | hmem
  · exact hpushed batch hmem
  · rw [flush_eq] at hmem
    rcases List.mem_map.mp hmem with ⟨⟨key, batch'⟩, hentry, rfl⟩
    exact hopen key _ (ExtTreeMap.mem_toList_iff_getElem?_eq_some.mp hentry)

end Publisher

end FrameProcessor
