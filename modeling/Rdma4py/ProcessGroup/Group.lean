import Rdma4py.Lib.Machine
import Rdma4py.ProcessGroup.Members

/-!
# The process group

The fields of `ProcessGroup` that `_reconfigure`, `_allreduce_tensor`, `abort` and `close` change, and these calls. What
happens outside the group during a call (the peers, the NIC, the GPU, the clock) is an argument of the call.

The machine keeps a history beside the group: the calls that were made, with what their callers gave and got. No call reads or
writes it.
-/

namespace Rdma4py.ProcessGroup

/-! ## The fields -/

/-- The addresses and keys of the buffers of the next rank. -/
structure Buffers where
  workAddr : Int
  workRkey : Int
  scratchAddr : Int
  scratchRkey : Int
  deriving DecidableEq, Repr

/-- `_GpuNetIOState`, by the lanes whose QPs were exported into it. -/
structure GpuNetIOState where
  outgoing : List Nat
  incoming : List Nat
  deriving DecidableEq, Repr

/-- What a successful `_reconfigure` built. Lanes are numbered in the order in which they were created. -/
structure Built where
  uuid : Int
  rank : Int
  size : Nat
  outgoing : List Nat
  incoming : List Nat
  nextBuffers : Option Buffers
  gpunetio : Option GpuNetIOState
  deriving DecidableEq, Repr

/-- The mutable fields. The last two are not the source's: the number of lanes created so far, and those that were closed. -/
structure Group where
  rank : Int
  size : Nat
  uuid : Option Int
  failed : Bool
  closed : Bool
  outgoing : List Nat
  incoming : List Nat
  nextBuffers : Option Buffers
  gpunetio : Option GpuNetIOState
  usedUuids : List Int
  created : Nat
  closedLanes : List Nat
  deriving DecidableEq, Repr

/-- A new group. -/
def Group.initial : Group where
  rank := -1
  size := 0
  uuid := none
  failed := false
  closed := false
  outgoing := []
  incoming := []
  nextBuffers := none
  gpunetio := none
  usedUuids := []
  created := 0
  closedLanes := []

namespace Group

/-- `_close_lanes`. Exceptions of the lanes and of the exported state are dropped. -/
def closeLanes (g : Group) : Group :=
  { g with
    gpunetio := none
    closedLanes := (g.outgoing ++ g.incoming).reverse ++ g.closedLanes
    outgoing := []
    incoming := []
    nextBuffers := none }

/-- No communicator: the fields as `_reconfigure` and `abort` leave them first. -/
def revoke (g : Group) : Group := { g.closeLanes with failed := true, rank := -1, size := 0, uuid := none }

/-! ## `_reconfigure` -/

/-- The checks of `_reconfigure`, up to the deadline: the rank and the number of members. -/
def validateReconfigure (cfg : Config) (uuid : Int) (handles : Handles) (timeout : Option Duration) (g : Group) :
    Except Exn (Nat × Nat) := do
  if g.closed then throw (.reconfigureError "process group is closed")
  if uuid ∈ g.usedUuids then throw (.reconfigureError "each reconfigure() requires a fresh uuid")
  let members ← checkHandles cfg handles
  let _ ← seconds timeout cfg.timeout
  return (members.findIdx (·.raw = cfg.handle), members.length)

/-- How the rest of a `_reconfigure` with several members goes: what raises while the lanes are created, while the request
is put together, and in the `try` block before the export, which otherwise has the buffers of the next member, and in the
export. -/
structure Attempt where
  createLanes : Option Exn
  laneInfos : Option Exn
  connect : Except Exn Buffers
  exportGpunetio : Option Exn

/-- `_create_lanes`, in order: for each QP an outgoing and an incoming lane. -/
def createLanes (qps created : Nat) : List Nat × List Nat :=
  ((List.range qps).map fun i => created + 2 * i, (List.range qps).map fun i => created + 2 * i + 1)

/-- The communicator that an attempt with several members builds. -/
def buildOf (cfg : Config) (uuid : Int) (rank size : Nat) (buffers : Buffers) (created : Nat) : Built :=
  let lanes := createLanes cfg.qps created
  ⟨uuid, rank, size, lanes.1, lanes.2, some buffers, some ⟨lanes.1, lanes.2⟩⟩

/-- Stores what was built. -/
def commit (b : Built) (g : Group) : Group :=
  { g with
    outgoing := b.outgoing
    incoming := b.incoming
    nextBuffers := b.nextBuffers
    gpunetio := b.gpunetio
    rank := b.rank
    size := b.size
    uuid := some b.uuid
    failed := false
    usedUuids := b.uuid :: g.usedUuids }

/-- An attempt that raises after the teardown, with the lanes that were created and those that were closed again. -/
def failAttempt (created : Nat) (closed : List Nat) (g : Group) : Group :=
  { g with
    created := g.created + created
    closedLanes := closed ++ g.closedLanes }

/-- `_reconfigure` after its checks. -/
def rebuild (cfg : Config) (uuid : Int) (rank size : Nat) (attempt : Attempt) (g : Group) : Group × Except Exn Int :=
  let g := g.revoke
  if size = 1 then (g.commit ⟨uuid, 0, 1, [], [], none, none⟩, .ok 0)
  else
    match attempt.createLanes with
    | some e => (g.failAttempt 0 [], .error e)
    | none =>
        let lanes := createLanes cfg.qps g.created
        match attempt.laneInfos with
        -- outside the `try` block: the lanes are dropped without being closed
        | some e => (g.failAttempt (2 * cfg.qps) [], .error e)
        | none =>
            match attempt.connect with
            | .error e => (g.failAttempt (2 * cfg.qps) (lanes.1 ++ lanes.2).reverse, .error e)
            | .ok buffers =>
                match attempt.exportGpunetio with
                | some e => (g.failAttempt (2 * cfg.qps) (lanes.1 ++ lanes.2).reverse, .error e)
                | none =>
                    ({ g.commit (buildOf cfg uuid rank size buffers g.created) with
                       created := g.created + 2 * cfg.qps }, .ok rank)

/-- `_reconfigure`. -/
def reconfigure (cfg : Config) (uuid : Int) (handles : Handles) (timeout : Option Duration) (attempt : Attempt)
    (g : Group) : Group × Except Exn Int :=
  match g.validateReconfigure cfg uuid handles timeout with
  | .error e => (g, .error e)
  | .ok (rank, size) => g.rebuild cfg uuid rank size attempt

/-! ## `_allreduce_tensor` -/

/-- The checks of `_allreduce_tensor`, up to the deadline. The name of the operation is in lower case. -/
def validateAllreduce (cfg : Config) (op : String) (tensor : Tensor) (timeout : Option Duration) (g : Group) :
    Except Exn (Nat × String × Nat) := do
  if op ≠ "sum" then throw (.notImplementedError "only SUM all-reduce is implemented")
  if g.closed then throw (.allReduceError "process group is closed")
  if g.uuid = none ∨ g.size = 0 then throw (.allReduceError "call reconfigure() before allreduce()")
  if g.failed then throw (.allReduceError "process group failed; reconfigure it before reuse")
  let checked ← checkTensor cfg.maxBytes tensor
  let _ ← seconds timeout cfg.timeout
  return checked

/-- How the `try` block goes: what raises in the copy to the work buffer, between it and the launch, in the launch, the
synchronization or the reading of the statuses, and in the copy back. Each part includes the checks of the deadline. -/
structure Collective where
  copyIn : Option Exn
  prepare : Option Exn
  kernel : Except Exn (List Int)
  copyOut : Option Exn

/-- The arguments of the kernel launch that come from the communicator. -/
structure Launch where
  outgoing : List Nat
  incoming : List Nat
  rank : Int
  world : Nat
  remoteBuffers : Buffers
  count : Nat
  itemsize : Nat
  deriving DecidableEq, Repr

/-- What the statuses of the channels say: the first that is not zero decides. -/
def checkStatuses (statuses : List Int) : Except Exn Unit :=
  match statuses.find? (· ≠ 0) with
  | none => .ok ()
  | some status =>
      if status = -110 then .error (.allReduceTimeoutError "timed out in the GPUNetIO all-reduce kernel")
      else .error (.allReduceError s!"GPUNetIO all-reduce failed with DOCA status {status}")

/-- A step that may raise. -/
def raising (e : Option Exn) : Except Exn Unit :=
  match e with
  | none => .ok ()
  | some e => .error e

/-- The `try` block, with the launch if it gets there. -/
def runCollective (cfg : Config) (tensor : Tensor) (count itemsize : Nat) (c : Collective) (g : Group) :
    Option Launch × Except Exn Unit :=
  let copies := tensor.dataPtr ≠ cfg.workPtr
  match if copies then raising c.copyIn else .ok () with
  | .error e => (none, .error e)
  | .ok () =>
      if g.size = 1 then (none, if copies then raising c.copyOut else .ok ())
      else
        match g.gpunetio, g.nextBuffers with
        | some gpunetio, some buffers =>
            match raising c.prepare with
            | .error e => (none, .error e)
            | .ok () =>
                (some ⟨gpunetio.outgoing, gpunetio.incoming, g.rank, g.size, buffers, count, itemsize⟩, do
                  let statuses ← c.kernel
                  checkStatuses statuses
                  if copies then raising c.copyOut else .ok ())
        | _, _ => (none, .error (.allReduceError "GPUNetIO communicator is not exported"))

/-- `_allreduce_tensor`, with the launch if it gets there. -/
def allreduceTensor (cfg : Config) (op : String) (tensor : Tensor) (timeout : Option Duration) (c : Collective)
    (g : Group) : Group × Option Launch × Except Exn Unit :=
  match g.validateAllreduce cfg op tensor timeout with
  | .error e => (g, none, .error e)
  | .ok (count, _, itemsize) =>
      match g.runCollective cfg tensor count itemsize c with
      | (launch, .error e) => ({ g with failed := true }, launch, .error e)
      | (launch, .ok ()) => (g, launch, .ok ())

/-! ## `abort` and `close` -/

/-- `abort`. -/
def abort (g : Group) : Group := if g.closed then g else g.revoke

/-- `close`; `failure` is what raises after the lanes are closed. -/
def close (failure : Option Exn) (g : Group) : Group × Except Exn Unit :=
  if g.closed then (g, .ok ())
  else
    let g := g.closeLanes
    match failure with
    | some e => (g, .error e)
    | none => ({ g with closed := true }, .ok ())

end Group

/-! ## The machine -/

/-- A call. -/
inductive Call
  | reconfigure (uuid : Int) (handles : Handles) (timeout : Option Duration) (attempt : Group.Attempt)
  | allreduceTensor (op : String) (tensor : Tensor) (timeout : Option Duration) (c : Group.Collective)
  | abort
  | close (failure : Option Exn)

def next (cfg : Config) (g : Group) : Call → Group
  | .reconfigure uuid handles timeout attempt => (g.reconfigure cfg uuid handles timeout attempt).1
  | .allreduceTensor op tensor timeout c => (g.allreduceTensor cfg op tensor timeout c).1
  | .abort => g.abort
  | .close failure => (g.close failure).1

/-- A call that was made: its arguments, whether the checks at its start accepted them, the number of the first lane that a
`_reconfigure` can have created, and the result. -/
inductive Past
  | reconfigure (uuid : Int) (handles : Handles) (attempt : Group.Attempt) (accepted : Bool) (firstLane : Nat)
      (result : Except Exn Int)
  | allreduceTensor (accepted : Bool) (result : Except Exn Unit)
  | abort
  | close

/-- What the history keeps of a call to a group. -/
def past (cfg : Config) (g : Group) : Call → Past
  | .reconfigure uuid handles timeout attempt =>
      .reconfigure uuid handles attempt (g.validateReconfigure cfg uuid handles timeout).isOk g.created
        (g.reconfigure cfg uuid handles timeout attempt).2
  | .allreduceTensor op tensor timeout c =>
      .allreduceTensor (g.validateAllreduce cfg op tensor timeout).isOk (g.allreduceTensor cfg op tensor timeout c).2.2
  | .abort => .abort
  | .close _ => .close

/-- A group and its history, newest call first. -/
structure Session where
  group : Group
  history : List Past

/-- A new group that nobody has called. -/
def Session.initial : Session := ⟨.initial, []⟩

/-- Every sequence of calls is possible. -/
def machine (cfg : Config) : Lib.Machine Session Call :=
  ⟨fun _ _ => True, fun s call => ⟨next cfg s.group call, past cfg s.group call :: s.history⟩⟩

end Rdma4py.ProcessGroup
