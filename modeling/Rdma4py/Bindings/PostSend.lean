import Rdma4py.Bindings.Exn
import Rdma4py.Bindings.Words
import Rdma4py.Lib.Fields
import Rdma4py.Lib.Memory

/-!
# `_post_send` and `_post_recv_chain`: the chains of work requests

`ibv_post_send` and `ibv_post_recv` take a chain of C structures. The bindings allocate an array of nodes and an array for
the entries of all of them, and fill both in one loop. Pointers into the arrays are indexes here.
-/

namespace Rdma4py.Bindings.Verbs

open Lib

structure SendWR where
  wrId : UInt64
  sgList : List SGE
  opcode : Int
  sendFlags : UInt32
  remoteAddr : UInt64
  rkey : UInt32
  immData : UInt32
  compareAdd : UInt64
  swap : UInt64
  ah : Option AH
  remoteQpn : UInt32
  remoteQkey : UInt32

structure RecvWR where
  wrId : UInt64
  sgList : List SGE

/-! ## The own fields of `struct ibv_send_wr` -/

/-- The bytes of the union `wr`: its largest member, `atomic`, with the padding of the structure. -/
def unionSize : Nat := 32

def isAtomic (opcode : Int) : Bool := opcode = WR_ATOMIC_CMP_AND_SWP || opcode = WR_ATOMIC_FETCH_AND_ADD

def isRdma (opcode : Int) : Bool :=
  opcode = WR_RDMA_WRITE || opcode = WR_RDMA_WRITE_WITH_IMM || opcode = WR_RDMA_READ

/-- The assignments to the members of the union, after `calloc`. They alias: each stands at its offset of the same bytes. -/
def union (w : SendWR) : List UInt8 :=
  let wr := List.replicate unionSize 0
  match w.ah with
  | some ah =>
      let wr := patch wr 0 (leBytes 8 (ah.ah.getD 0).toNat)
      let wr := patch wr 8 (leBytes 4 w.remoteQpn.toNat)
      patch wr 12 (leBytes 4 w.remoteQkey.toNat)
  | none =>
      if isAtomic w.opcode then
        let wr := patch wr 0 (leBytes 8 w.remoteAddr.toNat)
        let wr := patch wr 8 (leBytes 8 w.compareAdd.toNat)
        let wr := patch wr 16 (leBytes 8 w.swap.toNat)
        patch wr 24 (leBytes 4 w.rkey.toNat)
      else if isRdma w.opcode then
        let wr := patch wr 0 (leBytes 8 w.remoteAddr.toNat)
        patch wr 8 (leBytes 4 w.rkey.toNat)
      else wr

/-- The fields that only a send has. The immediate and the union are as they stand in memory. -/
structure SendFields where
  opcode : Int
  sendFlags : UInt32
  immData : List UInt8
  wr : List UInt8

def sendFields (w : SendWR) : SendFields where
  opcode := w.opcode
  sendFlags := w.sendFlags
  immData := leBytes 4 (htonl w.immData).toNat
  wr := union w

/-! ## Chains -/

/-- A node: an entry of the array of `struct ibv_send_wr` or `struct ibv_recv_wr`. -/
structure Node (β : Type) where
  wrId : UInt64
  next : Option Nat
  sgList : Option Int
  numSge : Int32
  own : β

/-- What the provider is given: the arrays, the second one with its length. -/
structure Chain (β : Type) where
  nodes : List (Node β)
  sges : Memory SGE
  sgeCount : Nat

/-- What one kind of work request has of its own. -/
structure Kind (ω β : Type) where
  wrId : ω → UInt64
  sgList : ω → List SGE
  own : ω → β
  operation : String

def sends : Kind SendWR SendFields := ⟨SendWR.wrId, SendWR.sgList, sendFields, "ibv_post_send"⟩

def recvs : Kind RecvWR Unit := ⟨RecvWR.wrId, RecvWR.sgList, fun _ => (), "ibv_post_recv"⟩

variable {ω β : Type}

/-- `_count_sges`. -/
def countSges (k : Kind ω β) (wrs : List ω) : Int32 :=
  wrs.foldl (fun total w => total + cInt (k.sgList w).length) 0

/-- `_fill_sges`. What it writes before the array is lost. -/
def fillSges (sges : Memory SGE) (offset : Int32) (sgList : List SGE) : Memory SGE :=
  if offset.toInt < 0 then sges else sges.write sgList offset.toInt.toNat

/-- The `i`-th node, whose entries start at `offset`. -/
def node (k : Kind ω β) (n : Int32) (i : Nat) (offset : Int32) (w : ω) : Node β where
  wrId := k.wrId w
  next := if (i : Int) + 1 < n.toInt then some (i + 1) else none
  sgList := if cInt (k.sgList w).length ≠ 0 then some offset.toInt else none
  numSge := cInt (k.sgList w).length
  own := k.own w

/-- The loop over the work requests, from the `i`-th on. -/
def fill (k : Kind ω β) (n : Int32) : Nat → List ω → Memory SGE → Int32 → List (Node β) × Memory SGE
  | _, [], sges, _ => ([], sges)
  | i, w :: wrs, sges, offset =>
      let nsge := cInt (k.sgList w).length
      let (nodes, filled) :=
        if nsge ≠ 0 then fill k n (i + 1) wrs (fillSges sges offset (k.sgList w)) (offset + nsge)
        else fill k n (i + 1) wrs sges offset
      (node k n i offset w :: nodes, filled)

/-- `calloc` of a C `int`: a negative one asks for more than there is. -/
def calloc (available : Bool) (count : Int32) : Option Nat :=
  if count.toInt < 0 ∨ !available then none else some count.toInt.toNat

/-- What a call gives to the provider, and how it ends. -/
structure Run (β : Type) where
  chain : Option (Chain β)
  result : Except Exn Unit

/-- What comes from outside: whether there is memory for each array, and what the provider returns. -/
structure Env where
  nodes : Bool
  sges : Bool
  rc : Int

/-- `_post_send` and `_post_recv_chain`. -/
def post (k : Kind ω β) (env : Env) (wrs : List ω) : Run β :=
  let n := cInt wrs.length
  if n = 0 then ⟨none, .ok ()⟩
  else
    let total := countSges k wrs
    match calloc env.nodes n, calloc env.sges (if total ≠ 0 then total else 1) with
    | some count, some sgeCount =>
        let (nodes, sges) := fill k n 0 (wrs.take count) (fun _ => ⟨0, 0, 0⟩) 0
        ⟨some ⟨nodes, sges, sgeCount⟩, if env.rc ≠ 0 then .error (.verbsError k.operation env.rc none) else .ok ()⟩
    | _, _ => ⟨none, .error .memoryError⟩

/-- `_post_send`. -/
def postSend : Env → List SendWR → Run SendFields := post sends

/-- `_post_recv_chain`, for a QP and for an SRQ. -/
def postRecvChain : Env → List RecvWR → Run Unit := post recvs

end Rdma4py.Bindings.Verbs
