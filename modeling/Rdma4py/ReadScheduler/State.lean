import Mathlib.Algebra.Ring.Nat
import Rdma4py.Lib.Dict
import Rdma4py.ReadScheduler.Request

/-!
# The state of a scheduler and of its batches

Besides the fields of the objects, a scheduler's state records what its QPs and CQs were asked to do (`Provider`). The
code never reads that record: it is what the properties of the scheduler talk about.
-/

namespace Rdma4py.ReadScheduler

open Rdma4py.Lib

/-- The identity of an `RdmaReadBatch` object. -/
abbrev BatchId := Nat

/-- The identity of an `RdmaReadScheduler` object. -/
abbrev SchedulerId := Nat

/-! ## Batches -/

/-- `RdmaReadBatch`. `onComplete` says whether `_on_complete` is a callback. -/
structure Batch where
  scheduler : SchedulerId
  requests : List RdmaReadRequest
  totalBytes : Nat
  totalChunks : Nat
  completedBytes : Nat := 0
  completedChunks : Nat := 0
  error : Option Exn := none
  onComplete : Bool
  callbackCalled : Bool := false
  done : Bool := false

/-- `RdmaReadBatch.__init__`. -/
def Batch.new (scheduler : SchedulerId) (requests : List RdmaReadRequest) (totalChunks : Nat) (onComplete : Bool) :
    Batch :=
  { scheduler := scheduler, requests := requests, totalBytes := (requests.map RdmaReadRequest.length).sum
    totalChunks := totalChunks, onComplete := onComplete }

/-! ## The provider's record -/

/-- A QP or CQ of a scheduler, by its index. -/
inductive Resource
  | qp (i : Nat)
  | cq (i : Nat)
  deriving DecidableEq, Repr

/-- One call of `post_send`. -/
structure Post where
  batch : BatchId
  qpIndex : Nat
  wrs : List SendWR
  deriving DecidableEq, Repr

/-- One state transition of a QP that `connect` asked for. -/
inductive Transition
  | toInit (qp : Nat)
  | toRtr (qp mtu : Nat) (maxDestRdAtomic : Int)
  | toRts (qp : Nat) (psn maxRdAtomic : Int)
  deriving DecidableEq, Repr

/-- What the QPs and CQs of a scheduler saw: the calls of `post_send`, the work requests that were posted on each QP
and whose completion was not polled yet, the successful completions that `progress` took in, the transitions and the
closed resources. -/
structure Provider where
  posts : List Post := []
  inflight : Nat → List Nat := fun _ => []
  completions : List (BatchId × Nat) := []
  transitions : List Transition := []
  closes : List Resource := []

/-- The work requests handed to `post_send` for a batch, in the order of the calls. -/
def Provider.postedFor (p : Provider) (b : BatchId) : List SendWR :=
  (p.posts.filter fun post => post.batch = b).flatMap Post.wrs

/-- The `wr_id`s of the completions taken in for a batch. -/
def Provider.completedFor (p : Provider) (b : BatchId) : List Nat :=
  (p.completions.filter fun c => c.1 = b).map Prod.snd

/-! ## Schedulers -/

/-- The settings that `__init__` accepts; they never change. -/
structure Config where
  qpCount : Nat
  queueDepth : Nat
  chunkSize : Nat
  pollBatch : Nat
  qpCount_pos : 0 < qpCount
  queueDepth_pos : 0 < queueDepth
  chunkSize_pos : 0 < chunkSize
  chunkSize_le : chunkSize ≤ maxSgeLength
  pollBatch_pos : 0 < pollBatch

/-- `RdmaReadScheduler`. `hasContext` says whether `context` is set. -/
structure Scheduler where
  config : Config
  hasContext : Bool
  ownsResources : Bool
  active : Option BatchId := none
  chunkIter : Option (List ReadChunk) := none
  inputExhausted : Bool := true
  pending : Dict Nat PendingRead := ∅
  outstanding : Nat → Nat := fun _ => 0
  nextWrId : Nat := 1
  closed : Bool := false
  poisoned : Bool := false
  provider : Provider := {}

/-- `RdmaReadScheduler.__init__`, its checks in the order of the source. -/
def Scheduler.init (qps cqs : Nat) (queueDepth chunkSize : Int) (pollBatch : Option Int)
    (hasContext ownsResources clockCallable : Bool) : Except Exn Scheduler :=
  if h₁ : qps = 0 then .error (.valueError "at least one QP is required")
  else if qps ≠ cqs then .error (.valueError "qps and cqs must have the same length")
  else if h₂ : queueDepth ≤ 0 then .error (.valueError "queue_depth must be positive")
  else if h₃ : chunkSize ≤ 0 ∨ chunkSize > maxSgeLength then
    .error (.valueError "chunk_size must be between 1 and 2**32 - 1")
  else if h₄ : pollBatch.getD queueDepth ≤ 0 then .error (.valueError "poll_batch must be positive")
  else if clockCallable = false then .error (.typeError "clock must be callable")
  else
    .ok { config := { qpCount := qps, queueDepth := queueDepth.toNat, chunkSize := chunkSize.toNat
                      pollBatch := (pollBatch.getD queueDepth).toNat, qpCount_pos := by omega
                      queueDepth_pos := by omega, chunkSize_pos := by omega, chunkSize_le := by omega
                      pollBatch_pos := by omega }
          hasContext := hasContext, ownsResources := ownsResources }

/-- A scheduler as `__init__` leaves it. -/
def Scheduler.Fresh (s : Scheduler) : Prop :=
  ∃ hasContext ownsResources, s = { config := s.config, hasContext := hasContext, ownsResources := ownsResources }

theorem Scheduler.init_eq {qps cqs : Nat} {queueDepth chunkSize : Int} {pollBatch : Option Int}
    {hasContext ownsResources clockCallable : Bool} {s : Scheduler}
    (h : Scheduler.init qps cqs queueDepth chunkSize pollBatch hasContext ownsResources clockCallable = .ok s) :
    s.config.qpCount = qps ∧ s = { config := s.config, hasContext := hasContext, ownsResources := ownsResources } := by
  simp only [Scheduler.init] at h
  repeat' split at h
  all_goals first
    | cases h; done
    | (simp only [Except.ok.injEq] at h; subst h; exact ⟨rfl, rfl⟩)

/-- The keys of `_pending` whose work request was posted on a QP. -/
def Scheduler.pendingOn (s : Scheduler) (q : Nat) : List Nat :=
  Dict.keysWhere (fun p : PendingRead => p.qpIndex = q) s.pending

/-- The chunks that the generator still has to yield. -/
def Scheduler.remaining (s : Scheduler) : List ReadChunk := s.chunkIter.getD []

/-! ## The world -/

/-- A `wait` or `wait_async` between two iterations of its loop. -/
structure Waiter where
  scheduler : SchedulerId
  batch : BatchId
  deadline : Option Int
  idleSleep : Int
  deriving DecidableEq, Repr

/-- What is left to do in the method that called `_finish_success` when the callback returns. -/
inductive Caller
  | submit
  | progress (completed : Nat)
  | wait
  deriving DecidableEq, Repr

/-- A method of a scheduler that has not returned: a running `_on_complete` of a batch, or a `wait` between two
iterations. -/
inductive Frame
  | callback (batch : BatchId) (caller : Caller)
  | wait (waiter : Waiter)
  deriving DecidableEq, Repr

/-- All schedulers and batches of the process, the calls in progress on its one thread, innermost first, and the
suspended `wait_async` tasks. -/
structure World where
  schedulers : SchedulerId → Scheduler
  batches : BatchId → Batch
  nextBatch : BatchId
  stack : List Frame
  tasks : List Waiter

end Rdma4py.ReadScheduler
