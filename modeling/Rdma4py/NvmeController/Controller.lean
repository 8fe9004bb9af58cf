import Rdma4py.NvmeController.Namespace
import Rdma4py.NvmeQueue.Handed

/-!
# Identifying a namespace

`Controller.identify_namespace` allocates a buffer inside a `with` block and executes an Identify command that points at
it. The machine interleaves such calls with polls of the admin queue and with whatever the namespaces do to the I/O
queue. A poll may be handed completions of every kind, so that it can also raise.
-/

namespace Rdma4py.NvmeController

open Rdma4py.Lib
open NvmeQueue (Exn World Handed Turn Traffic executeStart executeTurn)

/-- `NamespaceInfo`. -/
structure NamespaceInfo where
  nsid : Int
  sizeLbas : Nat
  capacityLbas : Nat
  usedLbas : Nat
  lbaSize : Nat
  metadataSize : Nat
  deriving DecidableEq, Repr

/-- `NamespaceInfo.from_bytes`. -/
def NamespaceInfo.fromBytes (nsid : Int) (data : List UInt8) : Except Exn NamespaceInfo :=
  if data.length < 4096 then .error (.valueError "Identify Namespace data must be 4096 bytes")
  else
    let fmt := (data.getD 26 0).toNat &&& 0x0F
    if (data.getD 25 0).toNat < fmt then
      .error (.valueError "Identify Namespace selected an invalid LBA format")
    else
      let lbaf := 128 + fmt * 4
      let metadataSize := leNat (slice data lbaf 2)
      let dataShift := leNat (slice data (lbaf + 2) 1)
      if dataShift < 9 ∨ 31 < dataShift then .error (.valueError "unsupported namespace LBA data size")
      else
        .ok
          { nsid := nsid
            sizeLbas := leNat (slice data 0 8)
            capacityLbas := leNat (slice data 8 8)
            usedLbas := leNat (slice data 16 8)
            lbaSize := 1 <<< dataShift
            metadataSize := metadataSize }

/-! ## The state -/

/-- A `HostBuffer` that the controller created, with what a keyed SGL says of it. -/
structure HostMemory where
  region : Region
  closed : Bool
  deriving DecidableEq, Repr

/-- A call of `identify_namespace` in progress: its buffer and its argument. -/
structure Identifying where
  buffer : Nat
  nsid : Int

/-- `Controller`, with the buffers that it created in the order of their creation. -/
structure Controller where
  admin : World
  io : World
  namespaceCount : Int
  maxTransferBytes : Int
  timeout : Int
  buffers : List HostMemory
  identifying : Option Identifying

/-- How a call, or a stretch of it, ends. -/
inductive Result
  | raised (e : Exn)
  | notImplemented (text : String)
  | identified (ns : Namespace)
  | queue (o : NvmeQueue.Outcome)

/-- The end of a `with` block: `HostBuffer.close`, where `dereg` is what `ibv_dereg_mr` raises. -/
def exitBuffer (c : Controller) (i : Nat) (dereg : Option Exn) (result : Result) : Controller × Result :=
  match dereg with
  | some e => (c, .raised e)
  | none => ({ c with buffers := c.buffers.modify i fun b => { b with closed := true } }, result)

/-! ## `identify_namespace` -/

/-- `identify_namespace` up to the loop of `execute`; `memory` is the address and the key of the new buffer, or what its
registration raises. -/
def identifyNamespace (c : Controller) (nsid : Int) (memory : Except Exn (Int × Int)) (now : Int)
    (post dereg : Option Exn) : Controller × Result :=
  if nsid ≤ 0 ∨ c.namespaceCount < nsid then
    (c, .raised (.valueError "namespace ID is outside the controller's range"))
  else
    match memory with
    | .error e => (c, .raised e)
    | .ok (addr, rkey) =>
        let region : Region := ⟨addr, 4096, rkey⟩
        let i := c.buffers.length
        let c := { c with buffers := c.buffers ++ [⟨region, false⟩] }
        match identify region nsid false with
        | .error e => exitBuffer c i dereg (.raised e)
        | .ok command =>
            match executeStart c.admin command (some i) c.timeout now post with
            | (admin, .raised e) => exitBuffer { c with admin := admin } i dereg (.raised e)
            | (admin, o) => ({ c with admin := admin, identifying := some ⟨i, nsid⟩ }, .queue o)

/-- `identify_namespace` after its `execute`; `data` is what the buffer holds. -/
def namespaceResult (c : Controller) (nsid : Int) (data : List UInt8) : Result :=
  match NamespaceInfo.fromBytes nsid data with
  | .error e => .raised e
  | .ok info =>
      if info.metadataSize ≠ 0 then .notImplemented "namespaces with separate metadata are unsupported"
      else .identified ⟨info.nsid, info.lbaSize, info.sizeLbas, c.maxTransferBytes⟩

/-- An iteration of the `execute` in progress. When it ends, in whatever way, the `with` block does. -/
def identifyIteration (c : Controller) (x : Identifying) (e : NvmeQueue.Execution) (turn : Turn) (dereg : Option Exn)
    (data : List UInt8) : Controller × Result :=
  match executeTurn c.admin e turn with
  | (admin, .running) => ({ c with admin := admin }, .queue .running)
  | (admin, .raised err) => exitBuffer { c with admin := admin, identifying := none } x.buffer dereg (.raised err)
  | (admin, _) =>
      exitBuffer { c with admin := admin, identifying := none } x.buffer dereg (namespaceResult c x.nsid data)

/-! ## The machine -/

/-- An event of the machine. Whatever completions the links hand out, and whatever lies in the receive buffers then, is
part of it. -/
inductive Event
  | identifyNamespace (nsid : Int) (memory : Except Exn (Int × Int)) (now : Int) (post dereg : Option Exn)
  /-- The next iteration of the `execute` of `identify_namespace`. -/
  | iterate (turn : Turn) (dereg : Option Exn) (data : List UInt8)
  /-- The caller polls the admin queue. -/
  | poll (responses : Memory UInt8) (handed : List Handed)
  /-- The caller uses the I/O queue: reads, writes and flushes of namespaces execute commands there. -/
  | io (e : Traffic)

/-- One thread makes the calls. -/
def Controller.Enabled (c : Controller) : Event → Prop
  | .identifyNamespace .. | .poll .. => c.identifying.isNone ∧ c.io.executing.isNone
  | .iterate .. => c.identifying.isSome ∧ c.admin.executing.isSome
  | .io e => c.identifying.isNone ∧ c.io.Carries e

instance : DecidableRel Controller.Enabled
  | c, .identifyNamespace .. | c, .poll .. => inferInstanceAs (Decidable (c.identifying.isNone ∧ c.io.executing.isNone))
  | c, .iterate .. => inferInstanceAs (Decidable (c.identifying.isSome ∧ c.admin.executing.isSome))
  | c, .io e => inferInstanceAs (Decidable (c.identifying.isNone ∧ c.io.Carries e))

/-- The controller after an event, and how the call ended. -/
def Controller.step (c : Controller) : Event → Controller × Result
  | .identifyNamespace nsid memory now post dereg => NvmeController.identifyNamespace c nsid memory now post dereg
  | .iterate turn dereg data =>
      match c.identifying, c.admin.executing with
      | some x, some e => identifyIteration c x e turn dereg data
      | _, _ => (c, .queue .running)
  | .poll responses handed =>
      let (admin, o) := c.admin.carry (.poll responses handed)
      ({ c with admin := admin }, .queue o)
  | .io e =>
      let (io, o) := c.io.carry e
      ({ c with io := io }, .queue o)

/-- The controller as a machine. -/
def process : Machine Controller Event where
  Enabled := Controller.Enabled
  next c e := (c.step e).1

instance : DecidableRel process.Enabled := inferInstanceAs (DecidableRel Controller.Enabled)

/-- A connected controller that has not identified a namespace yet: no command of the connection is left. -/
structure Controller.Initial (c : Controller) : Prop where
  opened : c.admin.queue.closed = false
  pending : ∀ cid r, c.admin.queue.pending.lookup cid ≠ some r
  executing : c.admin.executing = none
  buffers : c.buffers = []
  identifying : c.identifying = none

end Rdma4py.NvmeController
