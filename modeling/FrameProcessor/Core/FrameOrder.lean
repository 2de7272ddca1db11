import FrameProcessor.Core.Pipeline
import FrameProcessor.Publisher.SingleThread
import FrameProcessor.Worker.Turns

/-!
# core/main - The order of the published frames

Each queue of the pipeline is first in, first out, but several workers pop one queue and
several publisher threads another, and a batch that could not be sent goes back to the
end.  The frames of a stream and event are published in the order in which they were
captured as long as no thread overtakes another.

Main results:

- Theorem `Pipeline.numbered_exec`: the numbers that the order is stated with do not
  influence the pipeline.
- Theorem `Pipeline.ordered_step`: a step in which no thread overtakes another keeps the
  frames of a stream and event in order.
- Theorem `Pipeline.keepsOrder_of_single`: with one worker, one publisher thread and a Redis
  that accepts every command, no thread overtakes another.
- Theorem `Pipeline.published_in_order`: the frames are published in order in every run in
  which no thread overtakes another.
-/

namespace FrameProcessor

open Publisher (PackedBatch BatchKey batchKey batchesOf)

/-- The pipeline with the numbers of its frames and batches. -/
structure NumberedPipeline (γ : Type*) (n m : Nat) extends Pipeline γ n m where
  frames : FrameNumbers n := {}
  batches : BatchNumbers m := {}

namespace Pipeline

variable {γ : Type*} {n m : Nat}

/-- The numbers of the frames after a step. -/
def nextFrames (s : NumberedPipeline γ n m) : Action n m → FrameNumbers n
  | .worker i => Worker.nextNumbers s.worker s.frames i
  | _ => s.frames

/-- The numbers of the batches after a step. -/
def nextBatches (s : NumberedPipeline γ n m) : Action n m → BatchNumbers m
  | .batcher => Publisher.batcherNumbers s.publisher s.batches
  | .publisher k outcome => Publisher.publisherNumbers s.publisher s.batches k outcome
  | _ => s.batches

/-- The pipeline with the numbers, step by step. -/
def numbered (av : Avfilter γ) (dryRun : Bool) (n m : Nat) :
    Machine (NumberedPipeline γ n m) (Action n m) where
  init s := s = {}
  step s a := ((machine av dryRun n m).step s.toPipeline a).map fun s' =>
    { toPipeline := s', frames := nextFrames s a, batches := nextBatches s a }

/-- The numbers do not influence the pipeline. -/
theorem numbered_exec (av : Avfilter γ) (dryRun : Bool) (s : NumberedPipeline γ n m)
    (schedule : List (Action n m)) :
    ((numbered av dryRun n m).exec s schedule).map NumberedPipeline.toPipeline =
      (machine av dryRun n m).exec s.toPipeline schedule := by
  induction schedule generalizing s with
  | nil => rfl
  | cons a schedule ih =>
      rw [Machine.exec_cons, Machine.exec_cons]
      cases hstep : (machine av dryRun n m).step s.toPipeline a with
      | none => simp [numbered, hstep]
      | some s' =>
          have hnumbered : (numbered av dryRun n m).step s a =
              some { toPipeline := s', frames := nextFrames s a, batches := nextBatches s a } := by
            simp [numbered, hstep]
          rw [hnumbered, Option.bind_some, Option.bind_some]
          exact ih _

/-! ## Published in order -/

/-- The frames published under a key, batch by batch. -/
def publishedFrames (s : Pipeline γ n m) (key : BatchKey) : List (DecodedFrame AVFrame) :=
  (batchesOf key s.stored).flatMap PackedBatch.frames

/-- The frames published under a key are outputs handed on by the workers, each at most
once, and the frames that these were made from were accepted in the same order. -/
structure PublishedInOrder (key : BatchKey) (s : NumberedPipeline γ n m)
    (entries : List (Nat × DecodedFrame AVFrame × DecodedFrame AVFrame)) : Prop where
  outputs : s.frames.outputs.map Prod.snd = s.delivered
  sublist : entries.Sublist s.frames.outputs
  accepted : ∀ entry ∈ entries, s.accepted[entry.1]? = some entry.2.1
  published : entries.map (fun entry => entry.2.2) = publishedFrames s.toPipeline key
  sorted : entries.Pairwise fun earlier later => earlier.1 ≤ later.1

/-- The step lets no thread overtake another for a stream and event. -/
def KeepsOrder (key : BatchKey) (s : NumberedPipeline γ n m) (a : Action n m) : Prop :=
  match a with
  | .worker i => Worker.OvertakesNone key s.worker s.frames i
  | .publisher k outcome => Publisher.StoresInTurn key s.publisher s.batches k outcome
  | _ => True

/-- The invariant: all three stages keep the frames of a stream and event in order. -/
structure Ordered (key : BatchKey) (s : NumberedPipeline γ n m) : Prop where
  workers : Worker.InOrder key s.worker s.frames
  batched : Publisher.Batched key s.publisher s.batches.formed
  stored : Publisher.StoredInTurn key s.publisher s.batches

theorem ordered_init (key : BatchKey) : Ordered key ({} : NumberedPipeline γ n m) where
  workers := Worker.inOrder_init key
  batched := Publisher.batched_init key
  stored := Publisher.storedInTurn_init key

/-- The frames published under a key are in order. -/
theorem Ordered.published {key : BatchKey} {s : NumberedPipeline γ n m} (hs : Ordered key s) :
    ∃ entries, PublishedInOrder key s entries := by
  have hstored := Publisher.storedFrames_sublist hs.stored hs.batched
  have houtputs : s.publisher.accepted.filter (fun frame => batchKey frame == key) =
      (Worker.outputsOf key s.frames).map fun entry => entry.2.2 := by
    change (s.worker.delivered.map Prod.snd).filter _ = _
    rw [← hs.workers.delivered, List.map_map, List.filter_map]
    rfl
  rw [houtputs] at hstored
  rcases List.sublist_map_iff.mp hstored with ⟨entries, hsub, hentries⟩
  have hsub' : entries.Sublist s.frames.outputs := hsub.trans List.filter_sublist
  refine ⟨entries, hs.workers.delivered, hsub', ?_, hentries.symm, ?_⟩
  · exact fun entry hentry => hs.workers.accepted entry (hsub'.subset hentry)
  · exact (List.pairwise_map.mp hs.workers.turns.sorted).sublist hsub

/-! ## Every step -/

section Steps

variable {key : BatchKey} {s : NumberedPipeline γ n m}

/-- A step of the workers, as the publisher sees it. -/
theorem Ordered.setWorker (hs : Ordered key s) {w : Worker γ n} {frames : FrameNumbers n}
    (hworkers : Worker.InOrder key w frames)
    (hbatched : Publisher.Batched key (s.toPipeline.setWorker w).publisher s.batches.formed) :
    Ordered key
      { toPipeline := s.toPipeline.setWorker w, frames := frames, batches := s.batches } := by
  refine ⟨hworkers, hbatched, ?_⟩
  exact hs.stored.move rfl rfl rfl hs.stored.waiting fun _ _ hbatch => hbatch

/-- A step of the publisher, as the workers see it. -/
theorem Ordered.setPublisher (hs : Ordered key s) {p : Publisher m} {batches : BatchNumbers m}
    (haccepted : p.accepted = s.publisher.accepted)
    (hbatched : Publisher.Batched key p batches.formed)
    (hstored : Publisher.StoredInTurn key p batches) :
    Ordered key
      { toPipeline := s.toPipeline.setPublisher p, frames := s.frames, batches := batches } := by
  refine ⟨hs.workers.outQueue p.frameQueue, ?_, ?_⟩
  · rw [publisher_setPublisher haccepted]
    exact hbatched
  · rw [publisher_setPublisher haccepted]
    exact hstored

/-- A step of a worker that overtakes no other. -/
theorem Ordered.work {av : Avfilter γ} (hs : Ordered key s) {i : Fin n}
    (hguard : Worker.OvertakesNone key s.worker s.frames i) {q : WorkerQueues}
    {w : WorkerThread γ}
    (hstep : Worker.threadStep av s.worker.toWorkerQueues (s.workers i) = some (q, w)) :
    Ordered key
      { toPipeline := s.toPipeline.setWorker
          { s.worker with toWorkerQueues := q, workers := Function.update s.workers i w }
        frames := Worker.nextNumbers s.worker s.frames i
        batches := s.batches } := by
  refine hs.setWorker (hs.workers.threadStep hguard hstep) ?_
  rcases ((hs.workers.outputsMade i).threadStep hstep).2 with
    ⟨hout, hdelivered⟩ | ⟨frame, output, -, rfl⟩
  · rw [publisher_setWorker, hout, hdelivered]
    exact hs.batched
  · rw [publisher_deliver]
    exact hs.batched.accept output

/-- A step of `Worker::stop`. -/
theorem Ordered.stopWorker (hs : Ordered key s) {w : Worker γ n}
    (hstep : Worker.stopStep s.worker = some w) :
    Ordered key
      { toPipeline := s.toPipeline.setWorker w, frames := s.frames, batches := s.batches } := by
  refine hs.setWorker (hs.workers.stop hstep) ?_
  rw [publisher_setWorker]
  rcases Worker.stopStep_cases hstep with ⟨-, rfl⟩ | ⟨-, rfl⟩ | ⟨_, _, _, -, -, rfl⟩
  · exact hs.batched
  · exact hs.batched.frameQueue rfl
  · exact hs.batched

/-- A step of the batching thread. -/
theorem Ordered.batch (hs : Ordered key s) {q : PublisherQueues} {t : BatcherThread}
    (hstep : Publisher.batcherStep s.publisher.toPublisherQueues s.batcher = some (q, t)) :
    Ordered key
      { toPipeline := s.toPipeline.setPublisher
          { s.publisher with toPublisherQueues := q, batcher := t }
        frames := s.frames
        batches := Publisher.batcherNumbers s.publisher s.batches } := by
  have haccepted := (Publisher.batcherStep_frame hstep).2.2.1
  refine hs.setPublisher haccepted ?_ (hs.stored.batcherStep hstep)
  rw [Publisher.batcherNumbers_formed]
  exact hs.batched.step hstep

/-- A step of a publisher thread that stores its batch in turn, or stores none. -/
theorem Ordered.publish {dryRun : Bool} {outcome : RedisOutcome} (hs : Ordered key s)
    {k : Fin (m + 1)} (hguard : Publisher.StoresInTurn key s.publisher s.batches k outcome)
    {q : PublisherQueues} {t : PublisherThread}
    (hstep : Publisher.publisherStep dryRun outcome s.publisher.toPublisherQueues
      (s.publishers k) = some (q, t)) :
    Ordered key
      { toPipeline := s.toPipeline.setPublisher
          { s.publisher with
            toPublisherQueues := q
            publishers := Function.update s.publishers k t }
        frames := s.frames
        batches := Publisher.publisherNumbers s.publisher s.batches k outcome } := by
  rcases Publisher.publisherStep_frame hstep with ⟨hframes, -, haccepted, -⟩
  refine hs.setPublisher haccepted ?_ (hs.stored.publisherStep hguard hstep)
  refine ⟨hs.batched.tagged, ?_⟩
  rw [hframes, haccepted, Publisher.publisherNumbers_formed]
  exact hs.batched.frames

/-- A step in which no thread overtakes another keeps the frames in order. -/
theorem ordered_step {av : Avfilter γ} {dryRun : Bool} (s : NumberedPipeline γ n m)
    (a : Action n m) (s' : NumberedPipeline γ n m) (hs : Ordered key s) (ha : KeepsOrder key s a)
    (hstep : (numbered av dryRun n m).step s a = some s') : Ordered key s' := by
  rcases Option.map_eq_some_iff.mp hstep with ⟨t, hpipeline, rfl⟩
  cases a with
  | accept frame =>
      cases hpipeline
      exact hs.setWorker (hs.workers.accept frame) hs.batched
  | worker i =>
      rcases Option.map_eq_some_iff.mp hpipeline with ⟨w, hworker, rfl⟩
      rcases Option.map_eq_some_iff.mp hworker with ⟨⟨q, w⟩, hthread, rfl⟩
      exact hs.work ha hthread
  | stopWorker =>
      rcases Option.map_eq_some_iff.mp hpipeline with ⟨w, hworker, rfl⟩
      exact hs.stopWorker hworker
  | batcher =>
      rcases Option.map_eq_some_iff.mp hpipeline with ⟨p, hbatcher, rfl⟩
      rcases Option.map_eq_some_iff.mp hbatcher with ⟨⟨q, t⟩, hthread, rfl⟩
      exact hs.batch hthread
  | publisher k outcome =>
      rcases Option.map_eq_some_iff.mp hpipeline with ⟨p, hpublisher, rfl⟩
      rcases Option.map_eq_some_iff.mp hpublisher with ⟨⟨q, t⟩, hthread, rfl⟩
      exact hs.publish ha hthread
  | stopPublisher =>
      rcases Option.map_eq_some_iff.mp hpipeline with ⟨p, hpublisher, rfl⟩
      have haccepted : p.accepted = s.publisher.accepted := by
        cases Publisher.stopStep_moves hpublisher <;> rfl
      exact hs.setPublisher haccepted (hs.batched.stop hpublisher) (hs.stored.stop hpublisher)

end Steps

/-! ## One thread each -/

/-- Redis accepts every connection and every command. -/
def Accepts (a : Action n m) : Prop :=
  ∀ k outcome, a = .publisher k outcome → outcome.connects = true ∧ outcome.reply = .normal

/-- With a single worker and a single publisher thread, and a Redis that accepts every
command, no thread overtakes another. -/
theorem keepsOrder_of_single {av : Avfilter γ} {dryRun : Bool} (key : BatchKey)
    {schedule : List (Action 1 0)} (haccepts : ∀ a ∈ schedule, Accepts a) :
    (numbered av dryRun 1 0).Meets (KeepsOrder key) {} schedule := by
  have hkeeps : ∀ (s : NumberedPipeline γ 1 0) (a : Action 1 0),
      Ordered key s ∧ Publisher.NoneRequeued s.publishers s.batches → Accepts a →
        KeepsOrder key s a := by
    rintro s a ⟨-, hnone⟩ ha
    cases a with
    | worker i =>
        intro frame output outputs _ _ j _ _ _
        rw [Subsingleton.elim i j]
    | publisher k outcome => exact hnone.storesInTurn (ha k outcome rfl).2 k
    | accept | stopWorker | batcher | stopPublisher => trivial
  refine Machine.Meets.of_invariant (G := fun _ a => Accepts a)
    (I := fun s => Ordered key s ∧ Publisher.NoneRequeued s.publishers s.batches) ?_ hkeeps
    (Machine.meets_of_forall haccepts)
    ⟨ordered_init key, Publisher.noneRequeued_init⟩
  rintro s a s' ⟨hordered, hnone⟩ ha hstep
  refine ⟨ordered_step s a s' hordered (hkeeps s a ⟨hordered, hnone⟩ ha) hstep, ?_⟩
  rcases Option.map_eq_some_iff.mp hstep with ⟨t, hpipeline, rfl⟩
  cases a with
  | accept frame =>
      cases hpipeline
      exact hnone
  | worker i | stopWorker =>
      rcases Option.map_eq_some_iff.mp hpipeline with ⟨w, hworker, rfl⟩
      exact hnone
  | batcher =>
      rcases Option.map_eq_some_iff.mp hpipeline with ⟨p, hbatcher, rfl⟩
      rcases Option.map_eq_some_iff.mp hbatcher with ⟨⟨q, t⟩, hthread, rfl⟩
      exact hnone.batcherStep s.publisher
  | publisher k outcome =>
      rcases Option.map_eq_some_iff.mp hpipeline with ⟨p, hpublisher, rfl⟩
      rcases Option.map_eq_some_iff.mp hpublisher with ⟨⟨q, t⟩, hthread, rfl⟩
      rcases ha k outcome rfl with ⟨hconnects, hreply⟩
      exact Publisher.NoneRequeued.publisherStep (s := s.publisher) hnone hordered.stored
        hconnects hreply hthread
  | stopPublisher =>
      rcases Option.map_eq_some_iff.mp hpipeline with ⟨p, hpublisher, rfl⟩
      exact Publisher.NoneRequeued.stop (s := s.publisher) hnone hpublisher

/-! ## Every run -/

/-- For any number of workers and publisher threads, every interleaving of all threads and
of the stopping, and any behaviour of the filter graphs and of Redis: in every run in which
no thread overtakes another for a stream and event, its frames are published in the order
in which they were accepted. -/
theorem published_in_order {av : Avfilter γ} {dryRun : Bool} {key : BatchKey}
    {schedule : List (Action n m)} {s : NumberedPipeline γ n m}
    (hrun : (numbered av dryRun n m).exec {} schedule = some s)
    (hkeeps : (numbered av dryRun n m).Meets (KeepsOrder key) {} schedule) :
    ∃ entries, PublishedInOrder key s entries := by
  have hordered := Machine.exec_induction_of_meets ordered_step
    (ordered_init key) hkeeps hrun
  exact hordered.published

/-- The key of the frames in the runs below. -/
def motionKey : BatchKey :=
  (1, "motion")

/-- Two frames in turn: each is batched on its own and stored at once. -/
def orderlySchedule : List (Action 1 0) :=
  let worker : Action 1 0 := .worker (Fin.last 0)
  let answered : Action 1 0 := .publisher (Fin.last 0) ⟨true, .normal⟩
  [.accept (tinyFrame 1 1), .accept (tinyFrame 2 1)] ++ List.replicate 10 worker ++
    List.replicate 6 .batcher ++ List.replicate 9 answered

/-- In that run both frames are published, in order. -/
theorem published_in_order_orderly :
    ∃ s, (numbered Worker.passThrough false 1 0).exec {} orderlySchedule = some s ∧
      (publishedFrames s.toPipeline motionKey).length = 2 ∧
        ∃ entries, PublishedInOrder motionKey s entries := by
  have hrun : ∃ s, (numbered Worker.passThrough false 1 0).exec {} orderlySchedule = some s ∧
      (publishedFrames s.toPipeline motionKey).length = 2 :=
    ⟨_, rfl, rfl⟩
  have haccepts : ∀ a ∈ orderlySchedule, Accepts a := by
    simp [orderlySchedule, Accepts, List.replicate]
  rcases hrun with ⟨s, hexec, hlength⟩
  exact ⟨s, hexec, hlength, published_in_order hexec (keepsOrder_of_single motionKey haccepts)⟩

/-! ## Overtaking -/

/-- Where time stamps are kept by the processing and grow at the source, frames published
in order have growing time stamps. -/
theorem PublishedInOrder.timestamps {key : BatchKey} {s : NumberedPipeline γ n m}
    {entries : List (Nat × DecodedFrame AVFrame × DecodedFrame AVFrame)}
    (h : PublishedInOrder key s entries)
    (hkept : ∀ pair ∈ s.delivered, pair.2.frame.pts = pair.1.frame.pts)
    (hgrow : (s.accepted.map fun frame => frame.frame.pts).Pairwise (· ≤ ·)) :
    ((publishedFrames s.toPipeline key).map fun frame => frame.frame.pts).Pairwise (· ≤ ·) := by
  have hpts : ∀ entry ∈ entries,
      (s.accepted.map fun frame => frame.frame.pts)[entry.1]? = some entry.2.2.frame.pts := by
    intro entry hentry
    have hpair : entry.2 ∈ s.delivered := by
      rw [← h.outputs]
      exact List.mem_map_of_mem (h.sublist.subset hentry)
    rw [List.getElem?_map, h.accepted entry hentry, Option.map_some, hkept _ hpair]
  rw [← h.published, List.map_map, List.pairwise_map]
  refine h.sorted.imp_of_mem fun {earlier later} hearlier hlater hle => ?_
  rcases List.getElem?_eq_some_iff.mp (hpts earlier hearlier) with ⟨hlt, heq⟩
  rcases List.getElem?_eq_some_iff.mp (hpts later hlater) with ⟨hlt', heq'⟩
  change earlier.2.2.frame.pts ≤ later.2.2.frame.pts
  rw [← heq, ← heq']
  rcases Nat.lt_or_eq_of_le hle with hless | hsame
  · exact List.pairwise_iff_getElem.mp hgrow _ _ hlt hlt' hless
  · simp only [hsame]
    exact Int64.le_refl _

/-- The second worker hands on its frame while the first holds an earlier one. -/
def overtakingSchedule : List (Action 2 0) :=
  let first : Action 2 0 := .worker (Fin.last 0).castSucc
  let second : Action 2 0 := .worker (Fin.last 1)
  let answered : Action 2 0 := .publisher (Fin.last 0) ⟨true, .normal⟩
  [.accept (tinyFrame 1 1), .accept (tinyFrame 2 1), first, first] ++ List.replicate 4 second ++
    List.replicate 2 first ++ List.replicate 6 .batcher ++ List.replicate 9 answered

/-- The first batch gets no reply, and nothing is stored, so it goes back behind the second. -/
def requeueSchedule : List (Action 1 0) :=
  let worker : Action 1 0 := .worker (Fin.last 0)
  let unanswered : Action 1 0 := .publisher (Fin.last 0) ⟨true, .null false⟩
  let answered : Action 1 0 := .publisher (Fin.last 0) ⟨true, .normal⟩
  [.accept (tinyFrame 1 1), .accept (tinyFrame 2 1)] ++ List.replicate 10 worker ++
    List.replicate 6 .batcher ++ List.replicate 6 unanswered ++ List.replicate 8 answered

/-- A batch of two is stored without a reply, and stored again. -/
def duplicateSchedule : List (Action 1 0) :=
  let worker : Action 1 0 := .worker (Fin.last 0)
  let unanswered : Action 1 0 := .publisher (Fin.last 0) ⟨true, .null true⟩
  let answered : Action 1 0 := .publisher (Fin.last 0) ⟨true, .normal⟩
  [.accept (tinyFrame 1 2), .accept (tinyFrame 2 2)] ++ List.replicate 10 worker ++
    List.replicate 6 .batcher ++ List.replicate 6 unanswered ++ List.replicate 4 answered

/-- Frames whose time stamps are not in order are not published in order. -/
theorem not_publishedInOrder {key : BatchKey} {s : NumberedPipeline γ n m}
    (hkept : s.delivered.map (fun pair => pair.2.frame.pts) =
      s.delivered.map fun pair => pair.1.frame.pts)
    {captured published : List Int64}
    (hcaptured : s.accepted.map (fun frame => frame.frame.pts) = captured)
    (hpublished : (publishedFrames s.toPipeline key).map (fun frame => frame.frame.pts) = published)
    (hgrow : captured.Pairwise (· ≤ ·)) (hshrink : ¬published.Pairwise (· ≤ ·)) :
    ¬∃ entries, PublishedInOrder key s entries := by
  rintro ⟨entries, horder⟩
  apply hshrink
  rw [← hpublished]
  apply horder.timestamps (List.map_inj_left.mp hkept)
  rw [hcaptured]
  exact hgrow

/-- Neither a second worker, nor a missing reply, nor an entry stored without a reply keeps
the frames in order. -/
theorem overtaken_frames_out_of_order :
    (∃ s, (numbered Worker.passThrough false 2 0).exec {} overtakingSchedule = some s ∧
      ¬∃ entries, PublishedInOrder motionKey s entries) ∧
    (∃ s, (numbered Worker.passThrough false 1 0).exec {} requeueSchedule = some s ∧
      ¬∃ entries, PublishedInOrder motionKey s entries) ∧
    ∃ s, (numbered Worker.passThrough false 1 0).exec {} duplicateSchedule = some s ∧
      ¬∃ entries, PublishedInOrder motionKey s entries := by
  have hgrow : ([1, 2] : List Int64).Pairwise (· ≤ ·) := by decide
  refine ⟨⟨_, rfl, ?_⟩, ⟨_, rfl, ?_⟩, _, rfl, ?_⟩
  · exact not_publishedInOrder rfl rfl rfl hgrow (by decide)
  · exact not_publishedInOrder rfl rfl rfl hgrow (by decide)
  · exact not_publishedInOrder rfl rfl rfl hgrow (by decide)

end Pipeline

end FrameProcessor
