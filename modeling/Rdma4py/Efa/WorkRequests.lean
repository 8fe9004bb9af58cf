import Mathlib.Algebra.Order.Ring.Int

/-!
# Work requests of a bulk transfer

`_chunked_rdma_wrs` of the EFA helpers with the constructors that it calls. The fields of `SGE` and `SendWR` are unsigned C
integers, and a Python integer that does not fit one raises.
-/

namespace Rdma4py.Efa

/-- The exceptions, with their texts. -/
inductive Exn
  | valueError (text : String)
  | overflowError
  deriving DecidableEq, Repr

/-- An integer that is assigned to an unsigned field. -/
def unsigned (bits : Nat) (n : Int) : Except Exn Nat :=
  if 0 ≤ n ∧ n < 2 ^ bits then .ok n.toNat else .error .overflowError

/-! ## `SGE` and `SendWR` -/

/-- `SGE`. -/
structure SGE where
  addr : Nat
  length : Nat
  lkey : Nat
  deriving DecidableEq, Repr

/-- `SGE.__init__` with an integer as its target. -/
def SGE.init (target length lkey offset : Int) : Except Exn SGE :=
  if length < 0 ∨ 0xFFFFFFFF < length then .error (.valueError "SGE length must be between 0 and 2**32 - 1")
  else if offset < 0 then .error (.valueError "SGE offset must be non-negative")
  else if lkey < 0 ∨ 0xFFFFFFFF < lkey then .error (.valueError "SGE lkey must be between 0 and 2**32 - 1")
  else if target < 0 ∨ 0xFFFFFFFFFFFFFFFF < target then
    .error (.valueError "SGE address must be between 0 and 2**64 - 1")
  else if 0xFFFFFFFFFFFFFFFF < target + offset then .error (.valueError "SGE address plus offset exceeds 2**64 - 1")
  else .ok ⟨(target + offset).toNat, length.toNat, lkey.toNat⟩

/-- `Peer`, or another object with these attributes. Address handles are numbered. -/
structure Peer where
  ah : Nat
  qpNum : Int
  qkey : Int
  deriving DecidableEq, Repr

/-- The opcodes of `WROpcode` for a bulk transfer. -/
inductive Opcode
  | rdmaWrite
  | rdmaRead
  deriving DecidableEq, Repr

/-- `SendFlags.SIGNALED`. -/
def signaled : Nat := 2

/-- `SendWR`. -/
structure SendWR where
  wrId : Nat
  sgList : List SGE
  opcode : Opcode
  sendFlags : Nat
  remoteAddr : Nat
  rkey : Nat
  ah : Option Nat
  remoteQpn : Nat
  remoteQkey : Nat
  deriving DecidableEq, Repr

/-- `SendWR.__init__` with the arguments of a bulk transfer. -/
def SendWR.init (wrId : Int) (sgList : List SGE) (opcode : Opcode) (sendFlags : Nat) (remoteAddr rkey : Int)
    (dest : Option Peer) : Except Exn SendWR := do
  let wrId ← unsigned 64 wrId
  let remoteAddr ← unsigned 64 remoteAddr
  let rkey ← unsigned 32 rkey
  match dest with
  | some dest =>
      let remoteQpn ← unsigned 32 dest.qpNum
      let remoteQkey ← unsigned 32 dest.qkey
      return ⟨wrId, sgList, opcode, sendFlags, remoteAddr, rkey, some dest.ah, remoteQpn, remoteQkey⟩
  | none => return ⟨wrId, sgList, opcode, sendFlags, remoteAddr, rkey, none, 0, 0⟩

/-! ## `_chunked_rdma_wrs` -/

/-- A memory region, or another object with these attributes. -/
structure MR where
  addr : Nat
  length : Nat
  lkey : Nat
  fits : addr + length ≤ 2 ^ 64
  lkey_lt : lkey < 2 ^ 32
  deriving DecidableEq, Repr

/-- The variables of `_chunked_rdma_wrs` that its loop reads, after the check of `chunk`. -/
structure Transfer where
  opcode : Opcode
  mr : MR
  dest : Option Peer
  remoteAddr : Int
  rkey : Int
  length : Int
  offset : Int
  chunk : Int
  wrId : Int
  chunk_pos : 0 < chunk

/-- The loop of `_chunked_rdma_wrs`. -/
def Transfer.loop (t : Transfer) (pos : Int) (wrs : List SendWR) : Except Exn (List SendWR) :=
  if pos < t.length then do
    let n := min t.chunk (t.length - pos)
    let sge ← SGE.init (t.mr.addr + t.offset + pos) n t.mr.lkey 0
    let wr ← SendWR.init (t.wrId + wrs.length) [sge] t.opcode signaled (t.remoteAddr + pos) t.rkey t.dest
    t.loop (pos + n) (wrs ++ [wr])
  else .ok wrs
termination_by (t.length - pos).toNat
decreasing_by
  have := t.chunk_pos
  omega

/-- `_chunked_rdma_wrs`. -/
def chunkedRdmaWrs (opcode : Opcode) (mr : MR) (dest : Option Peer) (remoteAddr rkey : Int) (length : Option Int)
    (offset chunk wrId : Int) : Except Exn (List SendWR) :=
  let length := length.getD (mr.length - offset)
  if h : chunk ≤ 0 then .error (.valueError "chunk must be positive")
  else if offset < 0 ∨ length ≤ 0 ∨ mr.length < offset + length then
    .error (.valueError "range exceeds the memory region")
  else
    Transfer.loop ⟨opcode, mr, dest, remoteAddr, rkey, length, offset, chunk, wrId, Int.not_le.mp h⟩ 0 []

/-- `write_wrs`. -/
def writeWrs : MR → Option Peer → Int → Int → Option Int → Int → Int → Int → Except Exn (List SendWR) :=
  chunkedRdmaWrs .rdmaWrite

/-- `read_wrs`. -/
def readWrs : MR → Option Peer → Int → Int → Option Int → Int → Int → Int → Except Exn (List SendWR) :=
  chunkedRdmaWrs .rdmaRead

end Rdma4py.Efa
