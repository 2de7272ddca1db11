import FrameProcessor.Utils.FrameSaver
import FrameProcessor.Worker.Shutdown

/-!
# components/worker - Saving processed frames

Before a worker thread pushes an output it counts it in `frames_processed_local` and hands it
to `FrameSaver::save_frame` with the count as frame index.  The count is of the thread and
runs over the frames of all streams, while other threads count other frames of the same
streams.

Main results:

- Theorem `Worker.sampled_concat`: what a further call of `save_frame` must do so that one in
  every N frames of each stream is saved, to files of their own.
- Theorem `Worker.saves_sampled_iff`: a run samples each stream and overwrites no file if and only
  if the count of the thread agrees with the stream's whenever a thread saves, and no saved
  frame of the stream had the same count.
-/

namespace FrameProcessor

/-- A call of `save_frame` in `worker_loop`, with the file it wrote. -/
structure SaveEvent where
  streamId : Int64
  frameIndex : UInt64
  file : Option Bytes

/-- A worker pool with what its threads need to save frames. -/
structure SavingWorker (γ : Type*) (n : Nat) where
  pool : Worker γ n := {}
  framesProcessedLocal : Fin n → UInt64 := fun _ => 0
  /-- Whether a thread has been through the saving of the output that it pushes next. -/
  saved : Fin n → Bool := fun _ => false
  history : List SaveEvent := []

namespace Worker

/-! ## One frame in every N -/

/-- How many frames of a stream have been processed. -/
def processedCount (history : List SaveEvent) (streamId : Int64) : Nat :=
  history.countP fun event => event.streamId == streamId

/-- How many of them have been saved. -/
def savedCount (history : List SaveEvent) (streamId : Int64) : Nat :=
  history.countP fun event => event.streamId == streamId && event.file.isSome

/-- The files that have been written. -/
def files (history : List SaveEvent) : List Bytes :=
  history.filterMap SaveEvent.file

/-- However many frames of the stream have been processed, one in every `interval` of them
has been saved. -/
def OneIn (interval : Nat) (history : List SaveEvent) (streamId : Int64) : Prop :=
  ∀ earlier, earlier <+: history →
    savedCount earlier streamId = processedCount earlier streamId / interval

/-- Each stream is sampled, and no file is written twice. -/
structure Sampled (interval : Nat) (history : List SaveEvent) : Prop where
  oneIn : ∀ streamId, OneIn interval history streamId
  distinct : (files history).Nodup

variable {interval : Nat} {history : List SaveEvent} {event : SaveEvent}

theorem oneIn_concat {streamId : Int64} :
    OneIn interval (history ++ [event]) streamId ↔
      OneIn interval history streamId ∧
        savedCount (history ++ [event]) streamId =
          processedCount (history ++ [event]) streamId / interval := by
  constructor
  · intro h
    exact ⟨fun earlier hearlier => h earlier (hearlier.trans (List.prefix_append _ _)),
      h _ List.prefix_rfl⟩
  · intro ⟨hhistory, hlast⟩ earlier hearlier
    rcases List.prefix_concat_iff.mp hearlier with heq | hearlier
    · rw [heq]
      exact hlast
    · exact hhistory earlier hearlier

/-- The counts after a further call change for the stream of the call only. -/
theorem processedCount_concat (streamId : Int64) :
    processedCount (history ++ [event]) streamId =
      processedCount history streamId + if event.streamId = streamId then 1 else 0 := by
  simp [processedCount, List.countP_cons]

theorem savedCount_concat (streamId : Int64) :
    savedCount (history ++ [event]) streamId =
      savedCount history streamId +
        if event.streamId = streamId ∧ event.file.isSome then 1 else 0 := by
  simp [savedCount, List.countP_cons]

/-- The counts of the stream of a call stay right when it saves just the frames whose number
in the stream is a multiple of the interval. -/
theorem count_step (h : savedCount history event.streamId =
      processedCount history event.streamId / interval) :
    savedCount (history ++ [event]) event.streamId =
        processedCount (history ++ [event]) event.streamId / interval ↔
      (interval ∣ processedCount history event.streamId + 1 ↔ event.file.isSome) := by
  rw [savedCount_concat, processedCount_concat, h]
  simp only [true_and, if_true, Nat.succ_div]
  by_cases hdvd : interval ∣ processedCount history event.streamId + 1
  · cases event.file with
    | none => simp [hdvd]
    | some file => simp [hdvd]
  · cases event.file with
    | none => simp [hdvd]
    | some file => simp [hdvd]

theorem nodup_files_concat :
    (files (history ++ [event])).Nodup ↔
      (files history).Nodup ∧ ∀ file, event.file = some file → file ∉ files history := by
  unfold files
  rw [List.filterMap_append]
  cases event with
  | mk streamId frameIndex file =>
      cases file with
      | none => simp
      | some file =>
          simp only [List.filterMap_cons_some, List.filterMap_nil, Option.some.injEq]
          rw [List.nodup_append_comm, List.singleton_append, List.nodup_cons, and_comm]
          simp

/-- A further call must save the frame exactly when its number in the stream is a multiple of
the interval, and to a new file. -/
theorem sampled_concat :
    Sampled interval (history ++ [event]) ↔
      Sampled interval history ∧
        (interval ∣ processedCount history event.streamId + 1 ↔ event.file.isSome) ∧
        ∀ file, event.file = some file → file ∉ files history := by
  constructor
  · intro ⟨honeIn, hdistinct⟩
    rcases nodup_files_concat.mp hdistinct with ⟨hfiles, hnew⟩
    have hhistory : ∀ streamId, OneIn interval history streamId :=
      fun streamId => (oneIn_concat.mp (honeIn streamId)).1
    refine ⟨⟨hhistory, hfiles⟩, ?_, hnew⟩
    have hnow := hhistory event.streamId history List.prefix_rfl
    exact (count_step hnow).mp (oneIn_concat.mp (honeIn event.streamId)).2
  · intro ⟨⟨honeIn, hdistinct⟩, hcount, hnew⟩
    refine ⟨fun streamId => oneIn_concat.mpr ⟨honeIn streamId, ?_⟩,
      nodup_files_concat.mpr ⟨hdistinct, hnew⟩⟩
    have hnow := honeIn streamId history List.prefix_rfl
    by_cases hstream : event.streamId = streamId
    · subst hstream
      exact (count_step hnow).mpr hcount
    · rw [savedCount_concat, processedCount_concat]
      simpa [hstream] using hnow

theorem sampled_nil : Sampled interval [] := by
  constructor
  · intro streamId earlier hearlier
    rw [List.prefix_nil.mp hearlier]
    simp [savedCount, processedCount]
  · exact List.nodup_nil

/-! ## The pool while it saves -/

variable {γ : Type*} {n : Nat}

/-- The popped frame and its output that a thread saves with its next step. -/
def toSave (self : FrameSaver) (s : SavingWorker γ n) (i : Fin n) :
    Option (DecodedFrame AVFrame × DecodedFrame AVFrame) :=
  match (s.pool.workers i).pc with
  | .pushing frame (output :: _) =>
      if self.saveProcessedEnabled && !s.saved i then some (frame, output) else none
  | _ => none

/-- Count an output and hand it to `save_frame`. -/
def save (self : FrameSaver) (ensureDirectoryExists : Bytes → Bool)
    (encodeAndSaveJpeg : AVFrame → Bytes → Bool) (s : SavingWorker γ n) (i : Fin n)
    (frame output : DecodedFrame AVFrame) : SavingWorker γ n :=
  let frameIndex := s.framesProcessedLocal i + 1
  { s with
    framesProcessedLocal := Function.update s.framesProcessedLocal i frameIndex
    saved := Function.update s.saved i true
    history := s.history ++
      [{ streamId := frame.sourceConfig.id
         frameIndex
         file := self.saveFrame ensureDirectoryExists encodeAndSaveJpeg output.frame
           frame.sourceConfig.id frameIndex "processed" }] }

/-- The pool with the saving of frames, each a step of its own before the push. -/
def savingMachine (av : Avfilter γ) (self : FrameSaver) (ensureDirectoryExists : Bytes → Bool)
    (encodeAndSaveJpeg : AVFrame → Bytes → Bool) (n : Nat) :
    Machine (SavingWorker γ n) (Action n) where
  init s := s = {}
  step s
    | .worker i =>
        match toSave self s i with
        | some (frame, output) =>
            some (save self ensureDirectoryExists encodeAndSaveJpeg s i frame output)
        | none =>
            ((machine av n).step s.pool (.worker i)).map fun pool =>
              { s with pool, saved := Function.update s.saved i false }
    | a => ((machine av n).step s.pool a).map fun pool => { s with pool }

variable {av : Avfilter γ} {self : FrameSaver} {ensureDirectoryExists : Bytes → Bool}
  {encodeAndSaveJpeg : AVFrame → Bytes → Bool} {s s' : SavingWorker γ n} {a : Action n}

/-- Everything a step can do: save a frame, or take a step of the pool. -/
theorem savingStep_cases
    (h : (savingMachine av self ensureDirectoryExists encodeAndSaveJpeg n).step s a = some s') :
    (∃ i frame output, a = .worker i ∧ toSave self s i = some (frame, output) ∧
      s' = save self ensureDirectoryExists encodeAndSaveJpeg s i frame output) ∨
    ((∀ i, a = .worker i → toSave self s i = none) ∧ s'.history = s.history ∧
      (machine av n).step s.pool a = some s'.pool) := by
  cases a with
  | worker i =>
      simp only [savingMachine] at h
      split at h
      · next frame output hsave =>
        exact Or.inl ⟨i, frame, output, rfl, hsave, (Option.some.inj h).symm⟩
      · next hnone =>
        rcases Option.map_eq_some_iff.mp h with ⟨pool, hstep, rfl⟩
        refine Or.inr ⟨?_, rfl, hstep⟩
        intro j hj
        cases hj
        exact hnone
  | accept | consume | stop =>
      simp only [savingMachine] at h
      rcases Option.map_eq_some_iff.mp h with ⟨pool, hstep, rfl⟩
      refine Or.inr ⟨?_, rfl, hstep⟩
      intro i hi
      cases hi

/-- Saving frames leaves the pool as it is without. -/
theorem pool_reachable
    (h : (savingMachine av self ensureDirectoryExists encodeAndSaveJpeg n).Reachable s) :
    (machine av n).Reachable s.pool := by
  apply Machine.reachable_induction (P := fun s => (machine av n).Reachable s.pool) _ _ h
  · intro s hs
    rw [hs]
    exact Machine.Reachable.of_init _ rfl
  · intro s a s' hs hstep
    rcases savingStep_cases hstep with ⟨i, frame, output, -, -, rfl⟩ | ⟨-, -, hpool⟩
    · exact hs
    · exact hs.step hpool

/-! ## Counts of threads and counts of streams -/

/-- Every file of the history has the path of its call. -/
def FilesNamed (self : FrameSaver) (history : List SaveEvent) : Prop :=
  ∀ event ∈ history, ∀ file, event.file = some file →
    file = self.filePath event.streamId event.frameIndex "processed"

/-- When a thread saves, its count is a multiple of the interval, with a picture that has a
size, exactly when the count of the stream is one; and then no frame of the stream was saved
under the same count before. -/
def CountsStream (self : FrameSaver) (s : SavingWorker γ n) (a : Action n) : Prop :=
  ∀ i frame output, a = .worker i → toSave self s i = some (frame, output) →
    (self.interval ∣ processedCount s.history frame.sourceConfig.id + 1 ↔
      self.Saves output.frame (s.framesProcessedLocal i + 1)) ∧
    (self.Saves output.frame (s.framesProcessedLocal i + 1) →
      ∀ event ∈ s.history, event.streamId = frame.sourceConfig.id →
        event.frameIndex = s.framesProcessedLocal i + 1 → event.file = none)

theorem enabled_of_toSave {i : Fin n} {frame output : DecodedFrame AVFrame}
    (h : toSave self s i = some (frame, output)) : self.saveProcessedEnabled = true := by
  unfold toSave at h
  split at h
  · split at h
    · next henabled => exact (Bool.and_eq_true_iff.mp henabled).1
    · cases h
  · cases h

/-- A file is new exactly when no frame of its stream was saved under its index. -/
theorem filePath_notMem_files (hnamed : FilesNamed self history) (streamId : Int64)
    (frameIndex : UInt64) :
    self.filePath streamId frameIndex "processed" ∉ files history ↔
      ∀ event ∈ history, event.streamId = streamId → event.frameIndex = frameIndex →
        event.file = none := by
  unfold files
  rw [List.mem_filterMap, not_exists]
  constructor
  · intro h event hmem hstream hindex
    cases hfile : event.file with
    | none => rfl
    | some file =>
        have hpath := hnamed event hmem file hfile
        rw [hpath, hstream, hindex] at hfile
        exact absurd ⟨hmem, hfile⟩ (h event)
  · intro h event ⟨hmem, hfile⟩
    rcases FrameSaver.filePath_inj.mp (hnamed event hmem _ hfile) with ⟨hstream, hindex⟩
    rw [h event hmem hstream.symm hindex.symm] at hfile
    cases hfile

section

variable (hensure : ∀ path, ensureDirectoryExists path = true)
  (hencode : ∀ frame path, encodeAndSaveJpeg frame path = true)

include hensure hencode

theorem filesNamed_step (hnamed : FilesNamed self s.history)
    (h : (savingMachine av self ensureDirectoryExists encodeAndSaveJpeg n).step s a = some s') :
    FilesNamed self s'.history := by
  rcases savingStep_cases h with ⟨i, frame, output, -, hsave, rfl⟩ | ⟨-, hhistory, -⟩
  · intro event hmem file hfile
    rcases List.mem_append.mp hmem with hmem | hlast
    · exact hnamed event hmem file hfile
    · rw [List.mem_singleton.mp hlast] at hfile ⊢
      rw [FrameSaver.saveFrame_eq (enabled_of_toSave hsave) hensure hencode] at hfile
      split at hfile
      · exact (Option.some.inj hfile).symm
      · cases hfile
  · rw [hhistory]
    exact hnamed

/-- The history stays sampled exactly when the count of the thread counts for the stream. -/
theorem sampled_step (hnamed : FilesNamed self s.history)
    (h : (savingMachine av self ensureDirectoryExists encodeAndSaveJpeg n).step s a = some s') :
    Sampled self.interval s'.history ↔
      Sampled self.interval s.history ∧ CountsStream self s a := by
  rcases savingStep_cases h with ⟨i, frame, output, rfl, hsave, rfl⟩ | ⟨hnone, hhistory, -⟩
  · have hcounts : CountsStream self s (.worker i) ↔
        (self.interval ∣ processedCount s.history frame.sourceConfig.id + 1 ↔
          self.Saves output.frame (s.framesProcessedLocal i + 1)) ∧
        (self.Saves output.frame (s.framesProcessedLocal i + 1) →
          self.filePath frame.sourceConfig.id (s.framesProcessedLocal i + 1) "processed" ∉
            files s.history) := by
      rw [filePath_notMem_files hnamed]
      constructor
      · intro hmeets
        exact hmeets i frame output rfl hsave
      · intro hmeets j frame' output' hj hsave'
        cases hj
        cases hsave.symm.trans hsave'
        exact hmeets
    rw [hcounts]
    simp only [save, sampled_concat,
      FrameSaver.saveFrame_eq (enabled_of_toSave hsave) hensure hencode]
    by_cases hsaves : self.Saves output.frame (s.framesProcessedLocal i + 1)
    · simp [hsaves]
    · simp [hsaves]
  · have hmeets : CountsStream self s a := by
      intro i frame output ha hsave
      rw [hnone i ha] at hsave
      cases hsave
    rw [hhistory]
    exact (and_iff_left hmeets).symm

end

/-- In a run each stream has one in every N of its processed frames saved, and no file is
written twice, if and only if whenever a thread saves a frame its count is a multiple of N
exactly when the count of the stream is, and was not used for the stream before. -/
theorem saves_sampled_iff (hensure : ∀ path, ensureDirectoryExists path = true)
    (hencode : ∀ frame path, encodeAndSaveJpeg frame path = true)
    {schedule : List (Action n)} {t : SavingWorker γ n}
    (hrun : (savingMachine av self ensureDirectoryExists encodeAndSaveJpeg n).exec {} schedule =
      some t) :
    Sampled self.interval t.history ↔
      (savingMachine av self ensureDirectoryExists encodeAndSaveJpeg n).Meets
        (CountsStream self) {} schedule := by
  have hstart : FilesNamed self ({} : SavingWorker γ n).history := by
    intro event hmem
    exact absurd hmem List.not_mem_nil
  rw [Machine.kept_iff_meets
    (I := fun s => FilesNamed self s.history) (P := fun s => Sampled self.interval s.history)
    (fun s a s' hs hstep => filesNamed_step hensure hencode hs hstep)
    (fun s a s' hs hstep => sampled_step hensure hencode hs hstep) hstart hrun]
  exact and_iff_right sampled_nil

/-! ## Two threads and one stream -/

/-- A saver of every second processed frame. -/
def everySecond : FrameSaver where
  baseOutputDir := Bytes.ofString "/tmp/output"
  saveInterval := FrameSaver.clampInterval 2
  saveDecodedEnabled := false
  saveProcessedEnabled := true
  saveInterval_pos := FrameSaver.clampInterval_pos 2

example :
    FrameSaver.construct
      { saveFrameInterval := some (Bytes.ofString "2")
        saveProcessedFrames := some (Bytes.ofString "True") } = .ok everySecond :=
  rfl

/-- A frame of stream 1 is read and a thread takes it from the head of its loop back there. -/
def serve (i : Fin n) : List (Action n) :=
  .accept (blackFrame 2 2 2) :: List.replicate 6 (.worker i)

/-- The first of two threads. -/
def firstThread : Fin 2 :=
  ⟨0, Nat.zero_lt_two⟩

/-- The second of two threads. -/
def secondThread : Fin 2 :=
  ⟨1, Nat.one_lt_two⟩

/-- Where the second frame of stream 1 is saved. -/
def secondFile : Bytes :=
  everySecond.filePath 1 2 "processed"

/-- One thread saves the second of two frames. -/
theorem oneThread_sampled :
    ∃ t, (savingMachine passThrough everySecond (fun _ => true) (fun _ _ => true) 2).exec {}
        (serve firstThread ++ serve firstThread) = some t ∧
      t.history = [⟨1, 1, none⟩, ⟨1, 2, some secondFile⟩] ∧
      (Sampled everySecond.interval t.history ↔
        (savingMachine passThrough everySecond (fun _ => true) (fun _ _ => true) 2).Meets
          (CountsStream everySecond) {} (serve firstThread ++ serve firstThread)) := by
  have hrun : ∃ t, (savingMachine passThrough everySecond (fun _ => true)
      (fun _ _ => true) 2).exec {} (serve firstThread ++ serve firstThread) = some t ∧
      t.history = [⟨1, 1, none⟩, ⟨1, 2, some secondFile⟩] :=
    ⟨_, rfl, rfl⟩
  rcases hrun with ⟨t, hexec, hhistory⟩
  exact ⟨t, hexec, hhistory, saves_sampled_iff (fun _ => rfl) (fun _ _ => rfl) hexec⟩

/-- Two threads in turn: of the first two frames of the stream none is saved, of the next two
both are, to the same file. -/
theorem twoThreads_not_sampled :
    ∃ t, (savingMachine passThrough everySecond (fun _ => true) (fun _ _ => true) 2).exec {}
        (serve firstThread ++ serve secondThread ++ serve firstThread ++ serve secondThread) =
          some t ∧
      t.history = [⟨1, 1, none⟩, ⟨1, 1, none⟩, ⟨1, 2, some secondFile⟩,
        ⟨1, 2, some secondFile⟩] ∧
      ¬Sampled everySecond.interval t.history := by
  have hrun : ∃ t, (savingMachine passThrough everySecond (fun _ => true)
      (fun _ _ => true) 2).exec {}
        (serve firstThread ++ serve secondThread ++ serve firstThread ++ serve secondThread) =
          some t ∧
      t.history = [⟨1, 1, none⟩, ⟨1, 1, none⟩, ⟨1, 2, some secondFile⟩,
        ⟨1, 2, some secondFile⟩] :=
    ⟨_, rfl, rfl⟩
  rcases hrun with ⟨t, hexec, hhistory⟩
  refine ⟨t, hexec, hhistory, fun hsampled => ?_⟩
  have hdistinct := hsampled.distinct
  rw [hhistory] at hdistinct
  exact (List.nodup_cons.mp hdistinct).1 List.mem_cons_self

end Worker

end FrameProcessor
