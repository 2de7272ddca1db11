import FrameProcessor.Foundations.Ownership

/-!
# components/publisher - What a publisher thread allocates

`publisher_loop` with the connections and replies it allocates, as a program over what hiredis
returns for each batch.  A `RedisConnection` frees its context in its destructor, and drops it
at once when the connection could not be made; a lost connection is reset after the error text
has been read from its context.

Main results:

- Theorem `ConnectionObjects.publishBatch_obeys`: a batch leaves at most the context of the
  current connection.
- Theorem `ConnectionObjects.publisherLoop_frees`: over any number of batches and lost
  connections a thread never has more than two objects, frees every reply, and closes its
  connection when it ends.
-/

namespace FrameProcessor

open Ownership

/-- What a publisher thread allocates. -/
inductive ConnectionObject where
  | redisContext
  | redisReply
deriving DecidableEq

/-- What `redisConnectWithTimeout` returns: a context or none, perhaps with an error. -/
structure ConnectCalls where
  contextAlloc : Bool
  err : Bool

/-- What the calls for one batch return; `reply` tells whether there is one. -/
structure PublishCalls where
  connect : ConnectCalls
  reply : Bool

/-- `context_` of a `RedisConnection`. -/
structure RedisConnection where
  context : Option (Handle ConnectionObject)

namespace ConnectionObjects

/-- `RedisConnection::RedisConnection` -/
def connect (calls : ConnectCalls) : Routine ConnectionObject RedisConnection := do
  match ← tryAcquire calls.contextAlloc .redisContext with
  | none => return ⟨none⟩
  | some context =>
      use context
      if calls.err then
        use context
        release context
        return ⟨none⟩
      else
        use context
        return ⟨some context⟩

/-- Giving up what a `unique_ptr` to a connection holds. -/
def reset : Option RedisConnection → Routine ConnectionObject Unit
  | none => pure ()
  | some redisConn => free redisConn.context

/-- Sending a batch over a connection; what `redis_conn` holds afterwards. -/
def send (calls : PublishCalls) (redisConn : RedisConnection) :
    Routine ConnectionObject (Option RedisConnection) := do
  match redisConn.context with
  | none => return none
  | some ctx =>
      use ctx
      match ← tryAcquire calls.reply .redisReply with
      | none =>
          use ctx
          reset (some redisConn)
          return none
      | some reply =>
          release reply
          return some redisConn

/-- One round of the loop that is not a dry run. -/
def publishBatch (calls : PublishCalls) (redisConn : Option RedisConnection) :
    Routine ConnectionObject (Option RedisConnection) := do
  match redisConn.filter fun redisConn => redisConn.context.isSome with
  | some redisConn => send calls redisConn
  | none =>
      let newConn ← connect calls.connect
      reset redisConn
      if newConn.context.isSome then
        send calls newConn
      else
        return some newConn

/-- The batches that the thread pops. -/
def publishBatches (dryRunMode : Bool) :
    List PublishCalls → Option RedisConnection → Routine ConnectionObject (Option RedisConnection)
  | [], redisConn => pure redisConn
  | calls :: rest, redisConn => do
      let redisConn ← if dryRunMode then pure redisConn else publishBatch calls redisConn
      publishBatches dryRunMode rest redisConn

/-- `Publisher::publisher_loop` -/
def publisherLoop (dryRunMode : Bool) (first : ConnectCalls) (batches : List PublishCalls) :
    Routine ConnectionObject Unit := do
  let redisConn ← connect first
  let redisConn ← publishBatches dryRunMode batches (some redisConn)
  reset redisConn

/-! ## One connection at a time -/

/-- The context of the current connection, if there is one. -/
def context (redisConn : Option RedisConnection) : Finset (Handle ConnectionObject) :=
  (redisConn.bind RedisConnection.context).toFinset

variable {n : ℕ}

theorem connect_obeys (calls : ConnectCalls) {T : Finset (Handle ConnectionObject)}
    (hT : T.card < n) :
    Obeys ∅ T n (connect calls) fun redisConn T' => T' = T ∪ redisConn.context.toFinset ∧
      Disjoint T redisConn.context.toFinset := by
  refine .tryAcquire_bind hT (fun _ ctx hctx => ?_) fun _ => .pure (by simp)
  refine .use_bind (by simp) (.ite (fun _ => ?_) fun _ => ?_)
  · refine .use_bind (by simp) (.release_bind (by simp) (.pure ?_))
    simpa using Finset.erase_insert hctx
  · refine .use_bind (by simp) (.pure ⟨?_, by simpa using hctx⟩)
    rw [Option.toFinset_some, Finset.union_comm]
    rfl

theorem reset_obeys {T : Finset (Handle ConnectionObject)} (redisConn : Option RedisConnection)
    (hsub : context redisConn ⊆ T) :
    Obeys ∅ T n (reset redisConn) fun _ T' => T' = T \ context redisConn := by
  cases redisConn with
  | none => exact .pure (by simp [context])
  | some redisConn =>
      rcases redisConn with ⟨ctx⟩
      cases ctx with
      | none => exact .pure (by simp [context])
      | some ctx =>
          exact .release (hsub (by simp [context])) (Finset.sdiff_singleton_eq_erase ctx T).symm

theorem send_obeys (calls : PublishCalls) (redisConn : RedisConnection) (hn : 2 ≤ n) :
    Obeys ∅ redisConn.context.toFinset n (send calls redisConn)
      fun redisConn' T => T = context redisConn' := by
  rcases redisConn with ⟨_ | ctx⟩
  · exact .pure rfl
  · refine .use_bind (by simp) ?_
    refine .tryAcquire_bind (by simp; omega) (fun _ reply hreply => ?_) fun _ => ?_
    · refine .release_bind (by simp) (.pure ?_)
      exact Finset.erase_insert hreply
    · refine .use_bind (by simp) ((reset_obeys (some ⟨some ctx⟩) (by simp [context])).bind ?_)
      rintro - T rfl
      exact .pure (by simp [context])

/-- A batch leaves at most the context of the current connection. -/
theorem publishBatch_obeys (calls : PublishCalls) (redisConn : Option RedisConnection)
    (hn : 2 ≤ n) :
    Obeys ∅ (context redisConn) n (publishBatch calls redisConn)
      fun redisConn' T => T = context redisConn' := by
  cases hvalid : redisConn.filter fun redisConn => redisConn.context.isSome with
  | some valid =>
      have hsame := (Option.filter_eq_some_iff.mp hvalid).1
      subst hsame
      have hrun : publishBatch calls (some valid) = send calls valid := by
        simp only [publishBatch, hvalid]
      rw [hrun]
      exact send_obeys calls valid hn
  | none =>
      -- the old connection has no context, so nothing is lost with it
      have hnone : context redisConn = ∅ := by
        rcases redisConn with _ | ⟨_ | ctx⟩
        · rfl
        · rfl
        · simp at hvalid
      have hrun : publishBatch calls redisConn = (do
          let newConn ← connect calls.connect
          reset redisConn
          if newConn.context.isSome then send calls newConn else return some newConn) := by
        simp only [publishBatch, hvalid]
      rw [hrun, hnone]
      refine (connect_obeys calls.connect (by simp; omega)).bind ?_
      rintro newConn T ⟨rfl, -⟩
      refine (reset_obeys redisConn (by simp [hnone])).bind ?_
      rintro - T rfl
      rw [hnone, Finset.sdiff_empty, Finset.empty_union]
      exact .ite (fun _ => send_obeys calls newConn hn) fun _ => .pure rfl

theorem publishBatches_obeys (dryRunMode : Bool) (batches : List PublishCalls)
    (redisConn : Option RedisConnection) (hn : 2 ≤ n) :
    Obeys ∅ (context redisConn) n (publishBatches dryRunMode batches redisConn)
      fun redisConn' T => T = context redisConn' := by
  induction batches generalizing redisConn with
  | nil => exact .pure rfl
  | cons calls rest ih =>
      refine .ite (fun _ => ih redisConn) fun _ => ?_
      refine (publishBatch_obeys calls redisConn hn).bind ?_
      rintro redisConn' T rfl
      exact ih redisConn'

/-- Over any number of batches, refused and lost connections: no context or reply is used or
freed after it was freed, a thread never has more than a connection and a reply, and when it
ends both are freed. -/
theorem publisherLoop_frees (dryRunMode : Bool) (first : ConnectCalls)
    (batches : List PublishCalls) :
    ∃ l, publisherLoop dryRunMode first batches Ledger.empty = some ((), l) ∧ l.live = ∅ ∧
      l.peak ≤ 2 := by
  have hloop : Obeys ∅ ∅ 2 (publisherLoop dryRunMode first batches)
      fun _ T => T = ∅ ∧ True := by
    refine (connect_obeys first (by simp)).bind ?_
    rintro redisConn T ⟨rfl, -⟩
    rw [Finset.empty_union]
    refine (publishBatches_obeys dryRunMode batches (some redisConn) (Nat.le_refl 2)).bind ?_
    rintro redisConn' T rfl
    refine (reset_obeys redisConn' (Finset.Subset.refl _)).imp ?_
    rintro - T rfl
    exact ⟨Finset.sdiff_self _, trivial⟩
  rcases hloop.exists_run (Finset.empty_subset Ledger.empty.live) with
    ⟨⟨⟩, l, hrun, -, hlive, hpeak⟩
  exact ⟨l, hrun, hlive, by simpa [Ledger.empty] using hpeak⟩

end ConnectionObjects

end FrameProcessor
