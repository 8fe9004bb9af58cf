import Mathlib.Algebra.Ring.Nat

/-!
# Posting on the GPU

`post_rdma` and `post_send`: a transfer is cut into work queue entries of at most `DOCA_GPUNETIO_VERBS_MAX_TRANSFER_SIZE`
bytes. The result of `doca_gpu_dev_verbs_reserve_wq_slots`, the first slot, is an argument; the other calls are recorded.
-/

namespace Rdma4py.Device

/-- A value of the type `uint64_t`. -/
def u64 (n : Nat) : Nat := n % 2 ^ 64

/-- `static_cast<uint32_t>`. -/
def u32 (n : Nat) : Nat := n % 2 ^ 32

/-- `doca_gpu_dev_verbs_addr`. -/
structure Addr where
  addr : Nat
  key : Nat
  deriving DecidableEq, Repr

/-- The opcodes of a write. -/
inductive WriteOpcode
  | rdmaWrite
  | rdmaWriteImm
  deriving DecidableEq, Repr

/-- What a work queue entry is prepared with. All of them ask for a completion. -/
inductive Wqe
  | read (remoteAddr remoteKey localAddr localKey bytes : Nat)
  | write (opcode : WriteOpcode) (immediate remoteAddr remoteKey localAddr localKey bytes : Nat)
  | send (localAddr localKey bytes : Nat)
  | dump (addr key bytes : Nat)
  deriving DecidableEq, Repr

/-- The calls on the queue. -/
inductive Op
  | reserve (slots : Nat)
  | prepare (slot : Nat) (wqe : Wqe)
  | markReady (first last : Nat)
  | submit (prodIndex : Nat)
  deriving DecidableEq, Repr

/-- The returned ticket, and the calls in order. -/
structure Posting where
  ticket : Nat
  ops : List Op
  deriving DecidableEq, Repr

/-- `chunks`. -/
def chunkCount (max length : Nat) : Nat := u64 (length + max - 1) / max

/-- The loop over the chunks from `i` on, `left` of them; `wqe` prepares one from its displacement, its bytes and whether it
is the last. The result is `last`, with the calls. -/
def postChunks (wqe : Nat → Nat → Bool → Wqe) (max base chunks : Nat) :
    (left i remaining last : Nat) → Nat × List Op
  | 0, _, _, last => (last, [])
  | left + 1, i, remaining, _ =>
      let last := u64 (base + i)
      let bytes := u32 (if remaining > max then max else remaining)
      let r := postChunks wqe max base chunks left (i + 1) (u64 (remaining + 2 ^ 64 - bytes)) last
      (r.1, .prepare last (wqe (u64 (i * max)) bytes (u64 (i + 1) = chunks)) :: r.2)

/-- The template parameters of `post_rdma`. -/
structure Variant where
  isRead : Bool
  withMcst : Bool
  withImm : Bool
  deriving DecidableEq, Repr

/-- The entry of a chunk. -/
def Variant.wqe (v : Variant) (remote local' : Addr) (immediate displacement bytes : Nat) (lastChunk : Bool) : Wqe :=
  if v.isRead then
    .read (u64 (remote.addr + displacement)) remote.key (u64 (local'.addr + displacement)) local'.key bytes
  else
    .write (if v.withImm && lastChunk then .rdmaWriteImm else .rdmaWrite) (if v.withImm && lastChunk then immediate else 0)
      (u64 (remote.addr + displacement)) remote.key (u64 (local'.addr + displacement)) local'.key bytes

/-- `post_rdma`. -/
def postRdma (v : Variant) (max base : Nat) (remote local' : Addr) (length : Nat) (dump : Addr) (immediate : Nat) :
    Posting :=
  let chunks := chunkCount max length
  let r := postChunks (v.wqe remote local' immediate) max base chunks chunks 0 length base
  let last := if v.withMcst then u64 (base + chunks) else r.1
  { ticket := last
    ops := .reserve (u64 (chunks + if v.withMcst then 1 else 0)) ::
      (r.2 ++ (if v.withMcst then [.prepare last (.dump dump.addr dump.key 1)] else []) ++
        [.markReady base last, .submit (u64 (last + 1))]) }

/-- The entry of a chunk of `post_send`. -/
def sendWqe (local' : Addr) (displacement bytes : Nat) (_lastChunk : Bool) : Wqe :=
  .send (u64 (local'.addr + displacement)) local'.key bytes

/-- `post_send`. -/
def postSend (max base : Nat) (local' : Addr) (length : Nat) : Posting :=
  let chunks := chunkCount max length
  let r := postChunks (sendWqe local') max base chunks chunks 0 length base
  { ticket := r.1
    ops := .reserve chunks :: (r.2 ++ [.markReady base r.1, .submit (u64 (r.1 + 1))]) }

end Rdma4py.Device
