import Rdma4py.Lib.CyclicIds
import Rdma4py.ReadScheduler.State

/-!
# The pipeline: posting chunks and routing completions

The private methods of `RdmaReadScheduler` and the body of `progress`. A method that can raise returns the state it
leaves behind together with the exception, since a Python object keeps the changes made before a raise. What the
method cannot know in advance (whether an `sge` or a `post_send` raises, what a CQ reports) is an argument.
-/

namespace Rdma4py.ReadScheduler

open Rdma4py.Lib

/-! ## `_allocate_wr_id` -/

/-- `_allocate_wr_id`: the next free id, or `none` where the source raises. -/
def allocateWrId (s : Scheduler) : Option Nat × Scheduler :=
  let r := CyclicIds.scan maxWrId (fun x => x ∈ s.pending) maxWrId s.nextWrId
  (r.1, { s with nextWrId := r.2 })

/-! ## `_refill` -/

/-- What the world answers in one `_refill`: whether building the `i`-th work request raises (`local_mr.sge` or
`SendWR`), and whether `post_send` raises on a QP. -/
structure RefillEnv where
  build : Nat → Option Exn
  post : Nat → Option Exn

/-- An entry of the local `posts` lists. -/
structure Staged where
  wrId : Nat
  chunk : ReadChunk
  wr : SendWR
  deriving DecidableEq

/-- The locals of `_refill` next to the fields it advances; `built` counts the work requests built so far. -/
structure Staging where
  scheduler : Scheduler
  posts : Nat → List Staged
  built : Nat

/-- How one turn of the inner loop of `_refill` ends. -/
inductive Turn
  /-- `continue`: the QP is full. -/
  | full
  /-- `break`: the generator is exhausted. -/
  | exhausted (st : Staging)
  | raised (st : Staging) (e : Exn)
  | staged (st : Staging)

/-- The body of `for qp_index in range(self.qp_count)`. -/
def stageOne (env : RefillEnv) (q : Nat) (st : Staging) : Turn :=
  if st.scheduler.config.queueDepth ≤ st.scheduler.outstanding q + (st.posts q).length then .full
  else
    match st.scheduler.chunkIter with
    | none => .raised st (.typeError "'NoneType' object is not an iterator")
    | some [] => .exhausted { st with scheduler := { st.scheduler with inputExhausted := true } }
    | some (chunk :: rest) =>
        let s := { st.scheduler with chunkIter := some rest }
        match allocateWrId s with
        | (none, s) => .raised { st with scheduler := s } (.rdmaReadError "no free RDMA work-request IDs")
        | (some wrId, s) =>
            match env.build st.built with
            | some e => .raised { st with scheduler := s } e
            | none =>
                .staged { scheduler := s
                          posts := Function.update st.posts q (st.posts q ++ [⟨wrId, chunk, chunk.sendWR wrId⟩])
                          built := st.built + 1 }

/-- The inner loop over the QPs that are left. The flag is `made_progress`. -/
def stagePass (env : RefillEnv) : List Nat → Bool → Staging → Staging × Bool × Option Exn
  | [], made, st => (st, made, none)
  | q :: qs, made, st =>
      match stageOne env q st with
      | .full => stagePass env qs made st
      | .exhausted st => (st, made, none)
      | .raised st e => (st, made, some e)
      | .staged st => stagePass env qs true st

/-- `while not self._input_exhausted and made_progress`. Every pass that makes progress takes a chunk, so the number of
chunks left bounds the number of passes. -/
def stageLoop (env : RefillEnv) : Nat → Staging → Staging × Option Exn
  | 0, st => (st, none)
  | passes + 1, st =>
      if st.scheduler.inputExhausted then (st, none)
      else
        match stagePass env (List.range st.scheduler.config.qpCount) false st with
        | (st, _, some e) => (st, some e)
        | (st, true, none) => stageLoop env passes st
        | (st, false, none) => (st, none)

/-- The first part of `_refill`: it fills `posts`. -/
def stage (env : RefillEnv) (s : Scheduler) : Staging × Option Exn :=
  stageLoop env ((s.chunkIter.getD []).length + 1) { scheduler := s, posts := fun _ => [], built := 0 }

/-- One turn of the second loop of `_refill`: the staged work requests of one QP become pending and are posted. -/
def postOne (env : RefillEnv) (b : BatchId) (q : Nat) (queued : List Staged) (s : Scheduler) :
    Scheduler × Option Exn :=
  let s := { s with
    pending := s.pending.update (queued.map fun x => (x.wrId, ⟨q, x.chunk⟩))
    provider := { s.provider with posts := s.provider.posts ++ [⟨b, q, queued.map Staged.wr⟩] } }
  match env.post q with
  | some e => (s, some e)
  | none =>
      ({ s with
          outstanding := Function.update s.outstanding q (s.outstanding q + queued.length)
          provider := { s.provider with
            inflight := Function.update s.provider.inflight q
              (s.provider.inflight q ++ queued.map Staged.wrId) } }, none)

/-- The second loop of `_refill`, over the QPs that are left. -/
def postAll (env : RefillEnv) (b : BatchId) (posts : Nat → List Staged) :
    List Nat → Scheduler → Scheduler × Option Exn
  | [], s => (s, none)
  | q :: qs, s =>
      if posts q = [] then postAll env b posts qs s
      else
        match postOne env b q (posts q) s with
        | (s, some e) => (s, some e)
        | (s, none) => postAll env b posts qs s

/-- `_refill` while `b` is the active batch. -/
def refill (env : RefillEnv) (b : BatchId) (s : Scheduler) : Scheduler × Option Exn :=
  match stage env s with
  | (st, some e) => (st.scheduler, some e)
  | (st, none) => postAll env b st.posts (List.range s.config.qpCount) st.scheduler

/-! ## The end of a batch -/

/-- The scheduler and the batch that a method works on. -/
structure Session where
  scheduler : Scheduler
  batch : Batch

/-- `_finish_success` up to the call of `_on_complete`; the flag says whether the callback is called. -/
def finishSuccess (x : Session) : Session × Bool :=
  let s := { x.scheduler with active := none, chunkIter := none }
  if x.batch.onComplete ∧ x.batch.callbackCalled = false then
    (⟨s, { x.batch with done := true, callbackCalled := true }⟩, true)
  else (⟨s, { x.batch with done := true }⟩, false)

/-- `_close_owned`: the first exception, if any, when `env` says which closes raise. -/
def closeOwned (env : Resource → Option Exn) (s : Scheduler) : Scheduler × Option Exn :=
  if s.ownsResources then
    let resources := (List.range s.config.qpCount).reverse.map Resource.qp ++
      (List.range s.config.qpCount).reverse.map Resource.cq
    ({ s with ownsResources := false, provider := { s.provider with closes := s.provider.closes ++ resources } },
      resources.findSome? env)
  else (s, none)

/-- `_poison_resources`. With `suppress=True` no close raises. -/
def poisonResources (s : Scheduler) : Scheduler :=
  if s.ownsResources then (closeOwned (fun _ => none) { s with poisoned := true, closed := true }).1
  else { s with poisoned := true }

/-- The exception that `_fail_transport` stores. -/
def transportError (error : Exn) (message : Option String) : Exn :=
  match message with
  | none => error
  | some m => if error.isReadErrorOrTimeout then error else .wrapped (m ++ ": " ++ error.text) error

/-- `_fail_transport`. -/
def failTransport (x : Session) (error : Exn) (message : Option String) : Session where
  batch := { x.batch with error := some (transportError error message), done := true }
  scheduler := poisonResources { x.scheduler with
    active := none, chunkIter := none, inputExhausted := true, pending := ∅, outstanding := fun _ => 0 }

/-! ## The body of `progress` -/

/-- A completion: its `wr_id`, and what `raise_for_status` raises. -/
structure WC where
  wrId : Nat
  status : Option Exn
  deriving DecidableEq, Repr

/-- What the world answers in one `progress`: what polling a CQ reports, and the answers to `_refill`. -/
structure ProgressEnv where
  poll : Nat → Except Exn (List WC)
  refill : RefillEnv

/-- `for wc in cq.poll(count)` for the CQ of QP `q`; the number is `completed`. -/
def routeCompletions (b : BatchId) (q : Nat) : List WC → Session → Nat → Session × Nat × Option Exn
  | [], x, completed => (x, completed, none)
  | wc :: wcs, x, completed =>
      match x.scheduler.pending.lookup wc.wrId with
      | none => (x, completed, some (.rdmaReadError ("completion has unknown wr_id " ++ toString wc.wrId)))
      | some pending =>
          let s := { x.scheduler with pending := x.scheduler.pending.erase wc.wrId }
          if pending.qpIndex ≠ q then
            (⟨s, x.batch⟩, completed,
              some (.rdmaReadError ("completion wr_id " ++ toString wc.wrId ++ " arrived on the wrong CQ")))
          else
            let s := { s with outstanding := Function.update s.outstanding q (s.outstanding q - 1) }
            match wc.status with
            | some e => (⟨s, x.batch⟩, completed, some e)
            | none =>
                routeCompletions b q wcs
                  { scheduler := { s with
                      provider := { s.provider with completions := s.provider.completions ++ [(b, wc.wrId)] } }
                    batch := { x.batch with
                      completedChunks := x.batch.completedChunks + 1
                      completedBytes := x.batch.completedBytes + pending.chunk.length } }
                  (completed + 1)

/-- The CQ of QP `q` handed out these completions. -/
def Scheduler.reap (s : Scheduler) (q : Nat) (wcs : List WC) : Scheduler :=
  { s with provider := { s.provider with
      inflight := Function.update s.provider.inflight q ((s.provider.inflight q).diff (wcs.map WC.wrId)) } }

/-- `for qp_index, cq in enumerate(self.cqs)`, over the CQs that are left. -/
def pollCqs (env : ProgressEnv) (b : BatchId) : List Nat → Session → Nat → Session × Nat × Option Exn
  | [], x, completed => (x, completed, none)
  | q :: qs, x, completed =>
      let count := min x.scheduler.config.pollBatch (x.scheduler.outstanding q)
      if count = 0 then pollCqs env b qs x completed
      else
        match env.poll q with
        | .error e => (x, completed, some e)
        | .ok wcs =>
            match routeCompletions b q wcs { x with scheduler := x.scheduler.reap q wcs } completed with
            | (x, completed, some e) => (x, completed, some e)
            | (x, completed, none) => pollCqs env b qs x completed

/-- How the `try` block of `progress` ends; in the last case the batch finished and its callback is called. -/
inductive ProgressEnd
  | raised (e : Exn)
  | returned (completed : Nat)
  | callback (completed : Nat)

/-- `if self._input_exhausted and not self._pending`. -/
def finishIfDrained (x : Session) (completed : Nat) : Session × ProgressEnd :=
  if x.scheduler.inputExhausted ∧ x.scheduler.pending.isEmpty then
    match finishSuccess x with
    | (x, true) => (x, .callback completed)
    | (x, false) => (x, .returned completed)
  else (x, .returned completed)

/-- The `try` block of `progress`. -/
def progressTry (env : ProgressEnv) (b : BatchId) (x : Session) : Session × ProgressEnd :=
  match pollCqs env b (List.range x.scheduler.config.qpCount) x 0 with
  | (x, _, some e) => (x, .raised e)
  | (x, completed, none) =>
      if completed = 0 then finishIfDrained x completed
      else
        match refill env.refill b x.scheduler with
        | (s, some e) => ({ x with scheduler := s }, .raised e)
        | (s, none) => finishIfDrained { x with scheduler := s } completed

/-- `progress` on an unfinished batch: the `try` block and its handler. -/
def progressBody (env : ProgressEnv) (b : BatchId) (x : Session) : Session × ProgressEnd :=
  match progressTry env b x with
  | (x, .raised e) =>
      (failTransport x e (some "RDMA read progress failed"),
        .raised (transportError e (some "RDMA read progress failed")))
  | r => r

end Rdma4py.ReadScheduler
