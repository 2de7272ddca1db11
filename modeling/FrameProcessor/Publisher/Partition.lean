import FrameProcessor.Publisher.Batching

/-!
# components/publisher - The partition of the frames into batches

`batching_loop` sorts an interleaved sequence of frames into batches by stream and event.
The size limit of a batch is that of the latest frame, so it may change while a batch is
open.  This file follows one key through the loop: what its batches contain, and how
large a batch can become.

Main results:

- Theorem `Publisher.batchFrames_filter`: for each key, the batches handed on and the open
  one contain the key's frames in order.
- Theorem `Publisher.OpenInvariant.batchFrame`: an open batch has the tags of its key and is
  smaller than the limit of its last frame.
- Theorem `Publisher.batchingLoop_partitions`: the loop partitions the popped frames.
-/

namespace FrameProcessor

open Std

namespace Publisher

/-! ## Batches of one key -/

/-- The key that a batch is published under. -/
def FrameBatch.key (batch : FrameBatch) : BatchKey :=
  (batch.streamId, batch.eventName)

/-- Every frame of a batch belongs to the stream and event of the batch. -/
def PackedBatch.Tagged (batch : PackedBatch) : Prop :=
  ∀ frame ∈ batch.frames, batchKey frame = batch.key

@[simp]
theorem PackedBatch.single_key (frame : DecodedFrame AVFrame) :
    (PackedBatch.single frame).key = batchKey frame :=
  rfl

theorem PackedBatch.frameCount_pos (batch : PackedBatch) : 1 ≤ batch.frameCount := by
  rw [batch.counted]
  exact List.length_pos_iff.mpr batch.nonempty

/-- The batch limit of the last frame of a batch. -/
def PackedBatch.BelowLimit (batch : PackedBatch) : Prop :=
  ∃ earlier last, batch.frames = earlier ++ [last] ∧
    (batch.frameCount : Int) < last.eventConfig.batchSize.toInt

/-- What the batch under a key of `current_batches` is like. -/
structure OpenUnder (key : BatchKey) (batch : PackedBatch) : Prop where
  key_eq : batch.key = key
  tagged : batch.Tagged
  below : batch.BelowLimit

/-- Every open batch is a partial batch of its key. -/
def OpenInvariant (current : CurrentBatches) : Prop :=
  ∀ (key : BatchKey) (batch : PackedBatch), current[key]? = some batch → OpenUnder key batch

theorem OpenInvariant.empty : OpenInvariant ∅ := by
  intro key batch hbatch
  simp at hbatch

/-- The frames of a key that are in its open batch. -/
def openOf (current : CurrentBatches) (key : BatchKey) : List (DecodedFrame AVFrame) :=
  (current[key]?).elim [] PackedBatch.frames

/-- The batches of a key among some batches. -/
def batchesOf (key : BatchKey) (batches : List PackedBatch) : List PackedBatch :=
  batches.filter fun batch => batch.key == key

/-! ## One iteration -/

/-- The extended batch belongs to the frame's key and ends with the frame. -/
theorem extendBatch_key {current : CurrentBatches} (h : OpenInvariant current)
    (frame : DecodedFrame AVFrame) : (extendBatch current frame).key = batchKey frame := by
  unfold extendBatch
  split
  · exact PackedBatch.single_key frame
  · next batch hbatch => exact (h _ batch hbatch).key_eq

theorem extendBatch_frames_eq (current : CurrentBatches) (frame : DecodedFrame AVFrame) :
    (extendBatch current frame).frames = openOf current (batchKey frame) ++ [frame] := by
  unfold extendBatch openOf
  cases current[batchKey frame]? with
  | none => rfl
  | some batch => rfl

theorem extendBatch_tagged {current : CurrentBatches} (h : OpenInvariant current)
    (frame : DecodedFrame AVFrame) : (extendBatch current frame).Tagged := by
  intro member hmember
  rw [extendBatch_key h]
  rw [extendBatch_frames_eq, List.mem_append, List.mem_singleton] at hmember
  rcases hmember with hold | rfl
  · unfold openOf at hold
    cases hbatch : current[batchKey frame]? with
    | none =>
        rw [hbatch] at hold
        cases hold
    | some batch =>
        rw [hbatch] at hold
        have hopen := h _ batch hbatch
        exact (hopen.tagged member hold).trans hopen.key_eq
  · rfl

/-- Everything one iteration can do, with the test it makes: hand the extended batch on
when it has reached the limit of the frame, or keep it open. -/
theorem batchFrame_limit (current : CurrentBatches) (frame : DecodedFrame AVFrame) :
    (batchFrame current frame =
        (current.erase (batchKey frame), some (extendBatch current frame)) ∧
      frame.eventConfig.batchSize.toInt ≤ (extendBatch current frame).frameCount) ∨
    (batchFrame current frame =
        (current.insert (batchKey frame) (extendBatch current frame), none) ∧
      ((extendBatch current frame).frameCount : Int) < frame.eventConfig.batchSize.toInt) := by
  simp only [batchFrame]
  split
  · next hfull => exact Or.inl ⟨rfl, hfull⟩
  · next hpartial => exact Or.inr ⟨rfl, by omega⟩

/-- An iteration keeps every open batch a partial batch of its key. -/
theorem OpenInvariant.batchFrame {current : CurrentBatches} (h : OpenInvariant current)
    (frame : DecodedFrame AVFrame) : OpenInvariant (batchFrame current frame).1 := by
  intro key batch hbatch
  rcases batchFrame_limit current frame with ⟨heq, -⟩ | ⟨heq, hbelow⟩
  · rw [heq, ExtTreeMap.getElem?_erase] at hbatch
    split at hbatch
    · cases hbatch
    · exact h key batch hbatch
  · rw [heq, ExtTreeMap.getElem?_insert] at hbatch
    split at hbatch
    · next hkey =>
      cases hbatch
      have hkey : batchKey frame = key := LawfulEqCmp.eq_of_compare hkey
      refine ⟨(extendBatch_key h frame).trans hkey, extendBatch_tagged h frame, ?_⟩
      exact ⟨_, frame, extendBatch_frames_eq current frame, hbelow⟩
    · exact h key batch hbatch

/-- An iteration adds the frame to what its key has, and changes no other key. -/
theorem batchFrame_filter {current : CurrentBatches} (h : OpenInvariant current)
    (frame : DecodedFrame AVFrame) (key : BatchKey) :
    (batchesOf key (batchFrame current frame).2.toList).flatMap PackedBatch.frames ++
        openOf (batchFrame current frame).1 key =
      openOf current key ++ [frame].filter fun frame => batchKey frame == key := by
  have hkey := extendBatch_key h frame
  have hframes := extendBatch_frames_eq current frame
  by_cases hsame : batchKey frame = key
  · subst hsame
    rcases batchFrame_limit current frame with ⟨heq, -⟩ | ⟨heq, -⟩
    · simp [heq, batchesOf, hkey, hframes, openOf]
    · simpa [heq, batchesOf, openOf] using hframes
  · have hcmp : ¬ compare (batchKey frame) key = .eq :=
      fun hcompare => hsame (LawfulEqCmp.eq_of_compare hcompare)
    rcases batchFrame_limit current frame with ⟨heq, -⟩ | ⟨heq, -⟩
    · simp [heq, batchesOf, hkey, hsame, openOf, ExtTreeMap.getElem?_erase, hcmp]
    · simp [heq, batchesOf, hsame, openOf, ExtTreeMap.getElem?_insert, hcmp]

/-! ## The whole loop -/

theorem OpenInvariant.batchFrames {current : CurrentBatches} (h : OpenInvariant current)
    (popped : List (DecodedFrame AVFrame)) : OpenInvariant (batchFrames current popped).2 := by
  induction popped generalizing current with
  | nil => exact h
  | cons frame popped ih => exact ih (h.batchFrame frame)

/-- For each key, the batches handed on and then the open one contain the key's frames in
the order in which they were popped. -/
theorem batchFrames_filter {current : CurrentBatches} (h : OpenInvariant current)
    (popped : List (DecodedFrame AVFrame)) (key : BatchKey) :
    (batchesOf key (batchFrames current popped).1).flatMap PackedBatch.frames ++
        openOf (batchFrames current popped).2 key =
      openOf current key ++ popped.filter fun frame => batchKey frame == key := by
  induction popped generalizing current with
  | nil => simp [batchFrames, batchesOf]
  | cons frame popped ih =>
      have hone := batchFrame_filter h frame key
      have hrest := ih (h.batchFrame frame)
      rw [← List.singleton_append, List.filter_append, ← List.append_assoc, ← hone,
        List.append_assoc, ← hrest]
      simp [batchFrames, batchesOf]

/-- The flush pushes the open batch of a key, if there is one. -/
theorem batchesOf_flush {current : CurrentBatches} (h : OpenInvariant current) (key : BatchKey) :
    batchesOf key (flush current) = (current[key]?).toList := by
  have hkeys : ∀ entry ∈ current.toList, entry.2.key = entry.1 := fun entry hentry =>
    (h _ _ (ExtTreeMap.mem_toList_iff_getElem?_eq_some.mp hentry)).key_eq
  have hfilter : batchesOf key (flush current) =
      (current.toList.filter fun entry => entry.1 = key).map Prod.snd := by
    rw [flush_eq, batchesOf, List.filter_map]
    congr 1
    apply List.filter_congr
    intro entry hentry
    rw [Bool.eq_iff_iff]
    simp [hkeys entry hentry]
  rw [hfilter, Table.toList_filter_key, List.map_map]
  cases current[key]? with
  | none => rfl
  | some batch => rfl

/-! ## How large a batch becomes -/

/-- A batch with its count in the range of `int`. -/
def PackedBatch.CountFits (batch : PackedBatch) : Prop :=
  (batch.frameCount : Int) < 2147483648

theorem PackedBatch.BelowLimit.countFits {batch : PackedBatch} (h : batch.BelowLimit) :
    batch.CountFits := by
  rcases h with ⟨earlier, last, -, hbelow⟩
  have hmax := last.eventConfig.batchSize.toInt_lt
  unfold PackedBatch.CountFits
  omega

/-- The size of the extended batch: one more than the open batch. -/
theorem extendBatch_count (current : CurrentBatches) (frame : DecodedFrame AVFrame) :
    (extendBatch current frame).frameCount = (openOf current (batchKey frame)).length + 1 := by
  rw [(extendBatch current frame).counted, extendBatch_frames_eq, List.length_append]
  rfl

/-- Incrementing `frame_count` does not overflow: the open batch was below a limit. -/
theorem extendBatch_countFits {current : CurrentBatches} (h : OpenInvariant current)
    (frame : DecodedFrame AVFrame) : (extendBatch current frame).CountFits := by
  unfold PackedBatch.CountFits
  rw [extendBatch_count]
  cases hbatch : current[batchKey frame]? with
  | none => simp [openOf, hbatch]
  | some batch =>
      rcases (h _ batch hbatch).below with ⟨earlier, last, hframes, hbelow⟩
      have hmax := last.eventConfig.batchSize.toInt_lt
      rw [batch.counted] at hbelow
      simp only [openOf, hbatch, Option.elim_some]
      omega

/-- A batch has exactly `b` frames if all of them ask for `b`. -/
def PackedBatch.Exact (batch : PackedBatch) : Prop :=
  ∀ b : Int32, 1 ≤ b.toInt → (∀ frame ∈ batch.frames, frame.eventConfig.batchSize = b) →
    (batch.frameCount : Int) = b.toInt

/-- A batch that has reached the limit of its last frame has not passed it, unless the
limit changed while it was open. -/
theorem extendBatch_exact {current : CurrentBatches} (h : OpenInvariant current)
    {frame : DecodedFrame AVFrame}
    (hfull : frame.eventConfig.batchSize.toInt ≤ (extendBatch current frame).frameCount) :
    (extendBatch current frame).Exact := by
  intro b hb hsame
  rw [extendBatch_frames_eq] at hsame
  have hlimit : frame.eventConfig.batchSize = b := hsame frame (by simp)
  rw [hlimit] at hfull
  rw [extendBatch_count] at hfull ⊢
  have hopen : ((openOf current (batchKey frame)).length : Int) < b.toInt := by
    cases hbatch : current[batchKey frame]? with
    | none =>
        simp only [openOf, hbatch, Option.elim_none, List.length_nil]
        omega
    | some batch =>
        rcases (h _ batch hbatch).below with ⟨earlier, last, hframes, hbelow⟩
        have hlast : last.eventConfig.batchSize = b := by
          apply hsame last
          simp [openOf, hbatch, hframes]
        rw [hlast, batch.counted] at hbelow
        simpa [openOf, hbatch] using hbelow
  omega

/-- What is true of every batch when it is handed on. -/
structure HandedOn (batch : PackedBatch) : Prop where
  tagged : batch.Tagged
  fits : batch.CountFits

theorem batchFrame_handedOn {current : CurrentBatches} (h : OpenInvariant current)
    {frame : DecodedFrame AVFrame} {batch : PackedBatch}
    (hbatch : batch ∈ (batchFrame current frame).2.toList) : HandedOn batch ∧ batch.Exact := by
  rcases batchFrame_limit current frame with ⟨heq, hfull⟩ | ⟨heq, -⟩
  · have hsame : batch = extendBatch current frame := by simpa [heq] using hbatch
    subst hsame
    exact ⟨⟨extendBatch_tagged h frame, extendBatch_countFits h frame⟩,
      extendBatch_exact h hfull⟩
  · simp [heq] at hbatch

/-- Every batch handed on before the flush. -/
theorem batchFrames_handedOn {current : CurrentBatches} (h : OpenInvariant current)
    (popped : List (DecodedFrame AVFrame)) {batch : PackedBatch}
    (hbatch : batch ∈ (batchFrames current popped).1) : HandedOn batch ∧ batch.Exact := by
  induction popped generalizing current with
  | nil => cases hbatch
  | cons frame popped ih =>
      rcases List.mem_append.mp hbatch with hmem | hmem
      · exact batchFrame_handedOn h hmem
      · exact ih (h.batchFrame frame) hmem

/-- The batches of the flush are partial batches of their keys. -/
theorem handedOn_of_mem_flush {current : CurrentBatches} (h : OpenInvariant current)
    {batch : PackedBatch} (hbatch : batch ∈ flush current) : HandedOn batch := by
  rw [flush_eq] at hbatch
  rcases List.mem_map.mp hbatch with ⟨⟨key, batch'⟩, hentry, rfl⟩
  have hopen := h key _ (ExtTreeMap.mem_toList_iff_getElem?_eq_some.mp hentry)
  exact ⟨hopen.tagged, hopen.below.countFits⟩

/-! ## The partition -/

theorem batchFrames_append (current : CurrentBatches) (popped : List (DecodedFrame AVFrame))
    (frame : DecodedFrame AVFrame) :
    (batchFrames current (popped ++ [frame])).2 =
      (batchFrame (batchFrames current popped).2 frame).1 := by
  induction popped generalizing current with
  | nil => rfl
  | cons first popped ih => exact ih _

/-- After a frame, the batch still held for its key is smaller than the frame's limit. -/
theorem batchFrame_partial {current : CurrentBatches} {frame : DecodedFrame AVFrame}
    {batch : PackedBatch} (hbatch : (batchFrame current frame).1[batchKey frame]? = some batch) :
    (batch.frameCount : Int) < frame.eventConfig.batchSize.toInt := by
  rcases batchFrame_limit current frame with ⟨heq, -⟩ | ⟨heq, hbelow⟩
  · simp [heq] at hbatch
  · have hsame : extendBatch current frame = batch := by simpa [heq] using hbatch
    rw [← hsame]
    exact hbelow

/-- What `batching_loop` promises for the frames it pops until it ends. -/
structure Partitioned (popped : List (DecodedFrame AVFrame)) : Prop where
  /-- The batches of a key, the flush included, contain the frames of the key, in order. -/
  frames_eq : ∀ key, (batchesOf key (batchingLoop popped)).flatMap PackedBatch.frames =
    popped.filter fun frame => batchKey frame == key
  /-- A batch is published under the key of all its frames. -/
  tagged : ∀ batch ∈ batchingLoop popped, batch.Tagged
  /-- The buffer has one entry per frame; `frame_count` counts them, at least one, and never
  leaves the range of `int`. -/
  counted : ∀ batch ∈ batchingLoop popped,
    batch.dataBuffer = (batch.frames.map fun frame => serializeFrame frame.frame).flatten ∧
      batch.frameCount = batch.frames.length ∧ 1 ≤ batch.frameCount ∧ batch.CountFits
  /-- A batch still held after a frame is below the limit of that frame. -/
  below : ∀ earlier frame later, popped = earlier ++ frame :: later →
    ∀ batch, (batchFrames ∅ (earlier ++ [frame])).2[batchKey frame]? = some batch →
      (batch.frameCount : Int) < frame.eventConfig.batchSize.toInt
  /-- A batch pushed before the flush has as many frames as they all ask for. -/
  exact : ∀ batch ∈ (batchFrames ∅ popped).1, ∀ b : Int32, 1 ≤ b.toInt →
    (∀ frame ∈ batch.frames, frame.eventConfig.batchSize = b) →
      (batch.frames.length : Int) = b.toInt

/-- For every sequence of popped frames, with any mix of keys and any batch sizes, the
loop and its flush partition the frames. -/
theorem batchingLoop_partitions (popped : List (DecodedFrame AVFrame)) : Partitioned popped := by
  have hopen := OpenInvariant.empty.batchFrames popped
  have hhanded : ∀ batch ∈ batchingLoop popped, HandedOn batch := by
    intro batch hbatch
    rcases List.mem_append.mp hbatch with hmem | hmem
    · exact (batchFrames_handedOn .empty popped hmem).1
    · exact handedOn_of_mem_flush hopen hmem
  constructor
  · intro key
    have hloop := batchFrames_filter OpenInvariant.empty popped key
    have hflush : (batchesOf key (flush (batchFrames ∅ popped).2)).flatMap PackedBatch.frames =
        openOf (batchFrames ∅ popped).2 key := by
      rw [batchesOf_flush hopen, openOf]
      cases (batchFrames ∅ popped).2[key]? with
      | none => rfl
      | some batch => simp
    have hempty : openOf ∅ key = [] := by simp [openOf]
    rw [hempty, List.nil_append, ← hflush, ← List.flatMap_append] at hloop
    simpa [batchingLoop, batchesOf] using hloop
  · exact fun batch hbatch => (hhanded batch hbatch).tagged
  · intro batch hbatch
    refine ⟨?_, batch.counted, batch.frameCount_pos, (hhanded batch hbatch).fits⟩
    rw [batch.packed, List.flatMap_def]
  · intro earlier frame later _ batch hbatch
    rw [batchFrames_append] at hbatch
    exact batchFrame_partial hbatch
  · intro batch hbatch b hb hsame
    rw [← batch.counted]
    exact (batchFrames_handedOn .empty popped hbatch).2 b hb hsame

end Publisher

end FrameProcessor
