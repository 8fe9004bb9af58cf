import Rdma4py.Lib.Copy
import Rdma4py.ReadScheduler.Lemmas.Soundness

/-!
# The bytes that a batch moves

The process with the memory that its requests name. While the work request of a chunk is in flight, the NIC writes to the
targets of the chunk, in any order and as often as it likes; it reports success when the bytes are there. Others write to
any memory but that of the batch that the scheduler works on.
-/

namespace Rdma4py.ReadScheduler

open Rdma4py.Lib

variable {π β : Type*}

/-- Where the bytes are: those of a local memory object by their offset, remote ones by their key and address. -/
structure Addressing (π : Type*) where
  localByte : Nat → Nat → π
  remoteByte : Nat → Nat → π

/-- The bytes of a work request, from the remote side to the local one for a read. -/
def SendWR.copy (a : Addressing π) (wr : SendWR) : Copy π :=
  match wr.opcode with
  | .rdmaRead =>
      { length := wr.sge.length
        source := fun i => a.remoteByte wr.rkey (wr.remoteAddr + i)
        target := fun i => a.localByte wr.sge.mr (wr.sge.offset + i) }
  | .rdmaWrite =>
      { length := wr.sge.length
        source := fun i => a.localByte wr.sge.mr (wr.sge.offset + i)
        target := fun i => a.remoteByte wr.rkey (wr.remoteAddr + i) }

/-- The bytes that a request asks for. -/
def RdmaReadRequest.copy (a : Addressing π) (r : RdmaReadRequest) : Copy π :=
  match r.cls with
  | .read =>
      { length := r.length
        source := fun i => a.remoteByte r.rkey (r.remoteAddr + r.remoteOffset + i)
        target := fun i => a.localByte r.localMr (r.localOffset + i) }
  | .write =>
      { length := r.length
        source := fun i => a.localByte r.localMr (r.localOffset + i)
        target := fun i => a.remoteByte r.rkey (r.remoteAddr + r.remoteOffset + i) }

/-- The work request with this identifier that was posted last on a QP. -/
def Provider.posted? (p : Provider) (q wrId : Nat) : Option SendWR :=
  ((p.posts.filter fun post => post.qpIndex = q).flatMap Post.wrs).reverse.find? fun wr => wr.wrId = wrId

/-! ## The machine -/

/-- The process and the memory, and the memory as it was when each batch was submitted. -/
structure Transfers (π β : Type*) where
  world : World
  memory : π → β
  submitted : BatchId → π → β

/-- The process goes on, or somebody writes to the memory. -/
inductive TransferEvent (π β : Type*)
  | process (e : Event)
  | memory (m : π → β)

/-- The process and the memory as a machine. -/
def transfers (a : Addressing π) (s : SchedulerId) : Machine (Transfers π β) (TransferEvent π β) where
  Enabled x
    | .process e => x.world.Enabled e
    | .memory m =>
        (∃ q wrId wr, wrId ∈ (x.world.schedulers s).provider.inflight q ∧
          (x.world.schedulers s).provider.posted? q wrId = some wr ∧ (wr.copy a).Within x.memory m) ∨
        ∀ b, (x.world.schedulers s).active = some b →
          ∀ r ∈ (x.world.batches b).requests, (r.copy a).Untouched x.memory m
  next x
    | .process e =>
        { world := (x.world.step e).1, memory := x.memory
          submitted := fun b => if b < x.world.nextBatch then x.submitted b else x.memory }
    | .memory m => { x with memory := m }

/-- When the event polls the CQs of `s`, they report success only for work requests whose bytes have arrived. -/
def HonestSuccess (a : Addressing π) (s : SchedulerId) (x : Transfers π β) (e : Event) : Prop :=
  ∀ env q wcs wc wr, e.polls x.world = some (s, env) → env.poll q = .ok wcs → wc ∈ wcs → wc.status = none →
    wc.wrId ∈ (x.world.schedulers s).provider.inflight q →
    (x.world.schedulers s).provider.posted? q wc.wrId = some wr → (wr.copy a).Done x.memory

/-- When the event submits a batch to `s`, its requests do not meet. -/
def SeparateRequests (a : Addressing π) (s : SchedulerId) (e : Event) : Prop :=
  ∀ items oc env requests, e = .call s (.submit items oc env) → items.mapM id = some requests →
    Copy.Separate (requests.map (RdmaReadRequest.copy a))

/-- What is assumed of the NIC and of those who submit batches to `s`. -/
def Reliable (a : Addressing π) (s : SchedulerId) (x : Transfers π β) : TransferEvent π β → Prop
  | .process e => HonestSuccess a s x e ∧ SeparateRequests a s e ∧ EnoughIds s x.world e
  | .memory _ => True

/-- The batch was submitted to `s` and ended well. -/
structure EndedWell (s : SchedulerId) (b : BatchId) (w : World) : Prop where
  submitted : b < w.nextBatch
  scheduler : (w.batches b).scheduler = s
  done : (w.batches b).done = true
  error : (w.batches b).error = none

end Rdma4py.ReadScheduler
