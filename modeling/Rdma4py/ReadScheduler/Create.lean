import Rdma4py.Lib.Resources
import Rdma4py.ReadScheduler.State

/-!
# `RdmaReadScheduler.create`

The QPs and CQs are created in a loop whose handler closes them; the scheduler is constructed behind it. Every call that
can raise is answered by the environment, and every `close` succeeds.
-/

namespace Rdma4py.ReadScheduler

open Rdma4py.Lib

/-- The identity of a context. -/
abbrev ContextId := Nat

/-- What `int(poll_batch)` gives in `create`, and then in `__init__`. -/
structure PollBatch where
  first : Except Exn Int
  second : Except Exn Int

/-- The arguments of `create`: what `int()` makes of the numbers, whether the clock is callable, the context and the
attribute `context` of the PD, if it has one. -/
structure CreateArgs where
  qpCount : Except Exn Int := .ok 1
  queueDepth : Except Exn Int := .ok 64
  chunkSize : Except Exn Int := .ok (1 <<< 20)
  pollBatch : Option PollBatch := none
  cqSlack : Except Exn Int := .ok 8
  clockCallable : Bool := true
  context : ContextId
  pdContext : Option ContextId

/-- The values that `create` goes on with. -/
structure Settings where
  qpCount : Nat
  queueDepth : Int
  chunkSize : Int
  cqSlack : Int

/-! ## The checks -/

/-- A check that raises `ValueError`. -/
def refuse (bad : Prop) [Decidable bad] (text : String) : Except Exn Unit :=
  if bad then .error (.valueError text) else .ok ()

/-- `poll_batch is not None and int(poll_batch) <= 0`. -/
def checkPollBatch : Option PollBatch → Except Exn Unit
  | none => .ok ()
  | some p => do
      let pollBatch ← p.first
      refuse (pollBatch ≤ 0) "poll_batch must be positive"

/-- The conversions and checks of `create`. -/
def CreateArgs.check (a : CreateArgs) : Except Exn Settings := do
  let qpCount ← a.qpCount
  let queueDepth ← a.queueDepth
  let chunkSize ← a.chunkSize
  let cqSlack ← a.cqSlack
  refuse (qpCount ≤ 0) "qp_count must be positive"
  refuse (queueDepth ≤ 0) "queue_depth must be positive"
  refuse (chunkSize ≤ 0 ∨ chunkSize > maxSgeLength) "chunk_size must be between 1 and 2**32 - 1"
  checkPollBatch a.pollBatch
  refuse (cqSlack < 0) "cq_slack must be non-negative"
  refuse (a.pdContext.getD a.context ≠ a.context) "pd must belong to context"
  return ⟨qpCount.toNat, queueDepth, chunkSize, cqSlack⟩

/-! ## The allocations -/

/-- Whether the `i`-th `create_cq` of some entries raises, and the `i`-th `create_qp` of some send and receive work
requests. -/
structure CreateEnv where
  createCq : Nat → Int → Option Exn
  createQp : Nat → Int → Int → Option Exn

/-- The loop of the `try` block, over the QPs that are left. -/
def allocate (env : CreateEnv) (x : Settings) : List Nat → Run Resource Exn Unit
  | [] => pure ()
  | i :: is => do
      let _ ← Run.acquire (env.createCq i (x.queueDepth + x.cqSlack)) (.cq i)
      let _ ← Run.acquire (env.createQp i (x.queueDepth + x.cqSlack) (max 1 x.cqSlack)) (.qp i)
      allocate env x is

/-- The resource is a QP. -/
def Resource.isQp : Resource → Bool
  | .qp _ => true
  | .cq _ => false

@[simp] theorem Resource.isQp_qp (i : Nat) : (Resource.qp i).isQp = true := rfl

@[simp] theorem Resource.isQp_cq (i : Nat) : (Resource.cq i).isQp = false := rfl

/-- The handler: the QPs that were created, then the CQs, both in reverse. -/
def closeCreated (created : List Resource) : Run Resource Exn Unit :=
  Run.release ((created.filter Resource.isQp).reverse ++ (created.filter fun r => !r.isQp).reverse)

/-- `cls(...)`. What `__init__` checks before it converts `poll_batch` was checked by `create`. -/
def CreateArgs.construct (a : CreateArgs) (x : Settings) : Except Exn Scheduler :=
  match a.pollBatch with
  | none => Scheduler.init x.qpCount x.qpCount x.queueDepth x.chunkSize none true true a.clockCallable
  | some p => do
      let pollBatch ← p.second
      Scheduler.init x.qpCount x.qpCount x.queueDepth x.chunkSize (some pollBatch) true true a.clockCallable

/-- `create`. -/
def create (a : CreateArgs) (env : CreateEnv) : Run Resource Exn Scheduler := do
  let x ← Run.eval a.check
  Run.onError (allocate env x (List.range x.qpCount)) fun created _ => closeCreated created
  Run.eval (a.construct x)

end Rdma4py.ReadScheduler
