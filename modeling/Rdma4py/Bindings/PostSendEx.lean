import Rdma4py.Bindings.Exn
import Rdma4py.Bindings.Words
import Rdma4py.Lib.Memory

/-!
# `_post_send_ex`: posting to an EFA queue pair

The extended API builds a batch call by call between `ibv_wr_start` and `ibv_wr_complete`. The entries of a work request
are copied into arrays on the stack, which all of them use one after the other.
-/

namespace Rdma4py.Bindings.Efa

open Lib

def OPS_RDMA_WRITE : UInt64 := 1
def OPS_RDMA_WRITE_WITH_IMM : UInt64 := 2
def OPS_SEND : UInt64 := 4
def OPS_SEND_WITH_IMM : UInt64 := 8
def OPS_RDMA_READ : UInt64 := 16

structure SendWR where
  wrId : UInt64
  sgList : List SGE
  opcode : Int
  sendFlags : UInt32
  remoteAddr : UInt64
  rkey : UInt32
  immData : UInt32
  ah : Option AH
  remoteQpn : UInt32
  remoteQkey : UInt32
  deriving DecidableEq, Repr

/-- `_op_required_bit`. -/
def opRequiredBit (opcode : Int) : UInt64 :=
  if opcode = WR_SEND then OPS_SEND
  else if opcode = WR_SEND_WITH_IMM then OPS_SEND_WITH_IMM
  else if opcode = WR_RDMA_READ then OPS_RDMA_READ
  else if opcode = WR_RDMA_WRITE then OPS_RDMA_WRITE
  else if opcode = WR_RDMA_WRITE_WITH_IMM then OPS_RDMA_WRITE_WITH_IMM
  else 0

/-- The builders of the provider, with their arguments. -/
inductive Op
  | send
  | sendImm (immData : UInt32)
  | rdmaRead (rkey : UInt32) (remoteAddr : UInt64)
  | rdmaWrite (rkey : UInt32) (remoteAddr : UInt64)
  | rdmaWriteImm (rkey : UInt32) (remoteAddr : UInt64) (immData : UInt32)
  deriving DecidableEq, Repr

/-- The builder that is called for a work request. -/
def op (w : SendWR) : Option Op :=
  if w.opcode = WR_SEND then some .send
  else if w.opcode = WR_SEND_WITH_IMM then some (.sendImm (htonl w.immData))
  else if w.opcode = WR_RDMA_READ then some (.rdmaRead w.rkey w.remoteAddr)
  else if w.opcode = WR_RDMA_WRITE then some (.rdmaWrite w.rkey w.remoteAddr)
  else if w.opcode = WR_RDMA_WRITE_WITH_IMM then some (.rdmaWriteImm w.rkey w.remoteAddr (htonl w.immData))
  else none

/-- The calls of the provider. A builder sees `wr_id` and `wr_flags`; a list of entries is a number and what the array
has there. -/
inductive Call
  | start
  | build (wrId : UInt64) (wrFlags : UInt32) (op : Op)
  | setUdAddr (ah : UInt64) (remoteQpn remoteQkey : UInt32)
  | setInlineDataList (numBuf : UInt64) (bufs : List (UInt64 × UInt32))
  | setSgeList (numSge : UInt64) (sges : List SGE)
  | complete (rc : Int)
  | abort
  deriving DecidableEq, Repr

/-- `sges` and `bufs`: what is on the stack at first is unknown. -/
structure Buffers where
  sges : Memory SGE
  bufs : Memory (UInt64 × UInt32)

/-- The number of entries in each of the arrays. -/
def arrayLength : Nat := 64

def unsupported (opcode : Int) : Exn :=
  .valueError (s!"EFA supports SEND, SEND_WITH_IMM, RDMA_READ, RDMA_WRITE and RDMA_WRITE_WITH_IMM (got opcode {opcode})")

/-- The checks of the loop, in their order. -/
def check (allowedOps : UInt64) (w : SendWR) : Except Exn UInt64 :=
  match w.ah with
  | none => .error (.valueError
      "EFA sends are connectionless: each SendWR needs a destination (dest=Peer or ah/remote_qpn/remote_qkey)")
  | some ah =>
      match ah.ah with
      | none => .error (.efaError "address handle is closed" EBADF none)
      | some p =>
          if 64 < cInt w.sgList.length then .error (.valueError "at most 64 SGEs per work request")
          else if opRequiredBit w.opcode = 0 then .error (unsupported w.opcode)
          else if allowedOps &&& opRequiredBit w.opcode = 0 then
            .error (.valueError s!"opcode {w.opcode} is not enabled in this QP's send_ops_flags")
          else .ok p

/-- The last call for a work request. -/
def setList (w : SendWR) (b : Buffers) : Call × Buffers :=
  let nsge := cInt w.sgList.length
  let sges := w.sgList.take (cRange nsge)
  if w.sendFlags &&& SEND_INLINE ≠ 0 then
    let b := { b with bufs := b.bufs.write (sges.map fun s => (s.addr, s.length)) 0 }
    (.setInlineDataList (cSize nsge) (b.bufs.read (min (cSize nsge).toNat arrayLength) 0), b)
  else
    let b := { b with sges := b.sges.write sges 0 }
    (.setSgeList (cSize nsge) (b.sges.read (min (cSize nsge).toNat arrayLength) 0), b)

/-- The body of the loop. -/
def postOne (allowedOps : UInt64) (w : SendWR) (b : Buffers) : Except Exn (List Call × Buffers) :=
  match check allowedOps w with
  | .error e => .error e
  | .ok p =>
      match op w with
      | none => .error (unsupported w.opcode)
      | some o =>
          match setList w b with
          | (list, b) => .ok ([.build w.wrId w.sendFlags o, .setUdAddr p w.remoteQpn w.remoteQkey, list], b)

/-- The loop: the calls of the builders, and what it raises. -/
def postAll (allowedOps : UInt64) : List SendWR → Buffers → List Call × Option Exn
  | [], _ => ([], none)
  | w :: wrs, b =>
      match postOne allowedOps w b with
      | .error e => ([], some e)
      | .ok (calls, b) =>
          match postAll allowedOps wrs b with
          | (rest, raised) => (calls ++ rest, raised)

/-- `_post_send_ex`, where `ibv_wr_complete` returns `rc`. -/
def postSendEx (allowedOps : UInt64) (wrs : List SendWR) (stack : Buffers) (rc : Int) : List Call × Except Exn Unit :=
  let n := cInt wrs.length
  if n = 0 then ([], .ok ())
  else
    match postAll allowedOps (wrs.take (cRange n)) stack with
    | (calls, some e) => (.start :: calls ++ [.abort], .error e)
    | (calls, none) =>
        (.start :: calls ++ [.complete rc], if rc ≠ 0 then .error (.efaError "ibv_wr_complete" rc none) else .ok ())

end Rdma4py.Bindings.Efa
