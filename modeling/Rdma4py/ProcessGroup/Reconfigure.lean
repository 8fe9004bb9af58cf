import Rdma4py.Lib.Resources
import Rdma4py.ProcessGroup.Group

/-!
# One attempt to reconfigure, call by call

`_reconfigure` after the teardown of the old lanes, with `_create_lanes`, `_lane_infos`, `_connect_until`,
`_accept_member` and `_export_gpunetio`: what every call opens, what the handlers close. Which calls raise is an argument.
Closing succeeds, and so does `settimeout` on an open socket.
-/

namespace Rdma4py.ProcessGroup

open Lib

/-! ## Resources and calls -/

/-- What an attempt opens. Lanes are numbered as in `Group`, accepted sockets in the order of `accept`. -/
inductive Resource
  | qp (lane : Nat)
  | cq (lane : Nat)
  | nextSocket
  | accepted (n : Nat)
  | device (lane : Nat)
  | allocation (n : Nat)
  | signalMr
  deriving DecidableEq, Repr

/-- The calls and computations that may raise. A Boolean says whether it is about the incoming lanes. -/
inductive Site
  | createCq (lane : Nat)
  | initAttr (lane : Nat)
  | createQp (lane : Nat)
  | queryPort (incoming : Bool)
  | queryGid (incoming : Bool)
  | localQpInfo (lane : Nat)
  | bufferInfo (incoming : Bool)
  | sendRequest
  | sendResponse
  | recvResponse
  | checkResponse
  | qpInfos
  | connectRc (lane : Nat)
  | importDeviceQP
  | exportQp (lane : Nat)
  | allocate (n : Nat)
  | writePointers (incoming : Bool)
  | zeroStatus
  | regSignal
  | clockRate
  deriving DecidableEq, Repr

/-- An iteration of `_connect_until`. -/
inductive ConnectTry
  /-- An `OSError`. -/
  | refused
  | raises (e : Exn)
  | connected
  deriving DecidableEq, Repr

/-- What `_recv_frame` makes of an accepted connection. -/
inductive Frame
  /-- An `OSError` or an `AllReduceError`. -/
  | unreadable
  | raises (e : Exn)
  | message (matching : Bool)
  deriving DecidableEq, Repr

/-- An iteration of `_accept_member` before its deadline. -/
inductive Arrival
  /-- `select` or `accept` raises. -/
  | raises (e : Exn)
  | accepted (frame : Frame)
  deriving DecidableEq, Repr

/-- The world during an attempt. The deadline passes when a list is exhausted. -/
structure Env where
  raises : Site → Option Exn
  connects : List ConnectTry
  connectTimeout : String
  arrivals : List Arrival
  nextBuffers : Except Exn Buffers

namespace Env

variable (env : Env)

/-- A call of the environment. -/
def call (site : Site) : Run Resource Exn Unit := Run.call (env.raises site)

/-! ## `_create_lanes` and `_lane_infos` -/

/-- The local lists of `_create_lanes`. -/
structure Lanes where
  outgoing : List Nat
  incoming : List Nat
  deriving DecidableEq, Repr

/-- `lane.close()` for the lanes of a list. -/
def closeLanes (lanes : List Nat) : Run Resource Exn Unit := Run.release (lanes.flatMap fun n => [.qp n, .cq n])

/-- The body of the inner loop of `_create_lanes`. -/
def createLane (n : Nat) : Run Resource Exn Nat := do
  let cq ← Run.acquire (env.raises (.createCq n)) (.cq n)
  let _ ← Run.onError
    (do
      env.call (.initAttr n)
      Run.acquire (env.raises (.createQp n)) (.qp n))
    (fun _ _ => Run.release [cq])
  return n

/-- The statements of the `try` block of `_create_lanes`. -/
def laneSteps (qps created : Nat) : List (Lanes → Run Resource Exn Lanes) :=
  (List.range qps).flatMap fun i =>
    [fun lanes => do
      let n ← env.createLane (created + 2 * i)
      return { lanes with outgoing := lanes.outgoing ++ [n] },
     fun lanes => do
      let n ← env.createLane (created + 2 * i + 1)
      return { lanes with incoming := lanes.incoming ++ [n] }]

/-- `_create_lanes`. -/
def createLanes (qps created : Nat) : Run Resource Exn Lanes :=
  Run.tryBlock (env.laneSteps qps created) ⟨[], []⟩ (fun lanes => closeLanes (lanes.outgoing ++ lanes.incoming).reverse)
    fun _ => pure ()

/-- `_lane_infos`. -/
def laneInfos (incoming : Bool) (lanes : List Nat) : Run Resource Exn Unit := do
  env.call (.queryPort incoming)
  env.call (.queryGid incoming)
  lanes.forM fun n => env.call (.localQpInfo n)

/-! ## Sockets -/

/-- `_connect_until`. -/
def connectUntil : List ConnectTry → Run Resource Exn Resource
  | [] => Run.raise (.allReduceTimeoutError env.connectTimeout)
  | .refused :: tries => connectUntil tries
  | .raises e :: _ => Run.raise e
  | .connected :: _ => Run.acquire none .nextSocket

/-- `_accept_member`; `n` counts the connections that it accepted before. -/
def acceptMember : List Arrival → Nat → Run Resource Exn Resource
  | [], _ => Run.raise (.allReduceTimeoutError "timed out accepting the previous ring peer")
  | .raises e :: _, _ => Run.raise e
  | .accepted frame :: arrivals, n => do
      let sock ← Run.acquire none (.accepted n)
      match frame with
      | .message true => return sock
      -- only `OSError` and `AllReduceError` are caught: the socket is not closed
      | .raises e => Run.raise e
      | .message false | .unreadable =>
          Run.release [sock]
          acceptMember arrivals (n + 1)

/-! ## `_export_gpunetio` -/

/-- The local variables of `_export_gpunetio`. -/
structure Exported where
  outgoing : List Resource
  incoming : List Resource
  allocations : List Resource
  signalMr : Option Resource
  deriving DecidableEq, Repr

/-- What the handler of `_export_gpunetio` closes, in order. -/
def Exported.rollback (x : Exported) : List Resource :=
  x.signalMr.toList ++ x.allocations.reverse ++ (x.outgoing ++ x.incoming).reverse

/-- What `_GpuNetIOState.close` closes, in order. -/
def Exported.close (x : Exported) : List Resource :=
  (x.outgoing ++ x.incoming).reverse ++ x.allocations.reverse ++ x.signalMr.toList

/-- A statement that stores nothing. -/
def callStep {σ : Type} (site : Site) (x : σ) : Run Resource Exn σ := do
  env.call site
  return x

/-- The statements of the `try` block of `_export_gpunetio`. -/
def exportSteps (lanes : Lanes) : List (Exported → Run Resource Exn Exported) :=
  (lanes.outgoing.map fun n x => do
    let handle ← Run.acquire (env.raises (.exportQp n)) (.device n)
    return { x with outgoing := x.outgoing ++ [handle] }) ++
  (lanes.incoming.map fun n x => do
    let handle ← Run.acquire (env.raises (.exportQp n)) (.device n)
    return { x with incoming := x.incoming ++ [handle] }) ++
  ([0, 1, 2].map fun n x => do
    let allocation ← Run.acquire (env.raises (.allocate n)) (.allocation n)
    return { x with allocations := x.allocations ++ [allocation] }) ++
  [env.callStep (.writePointers false), env.callStep (.writePointers true), env.callStep .zeroStatus,
   fun x => do
    let mr ← Run.acquire (env.raises .regSignal) .signalMr
    return { x with signalMr := some mr },
   env.callStep .clockRate]

/-- `_export_gpunetio`. -/
def exportGpunetio (lanes : Lanes) : Run Resource Exn Exported := do
  env.call .importDeviceQP
  Run.tryBlock (env.exportSteps lanes) ⟨[], [], [], none⟩ (fun x => Run.release x.rollback) fun _ => pure ()

/-! ## The `try` block of `_reconfigure` -/

/-- The local variables. -/
structure Locals where
  nextSocket : Option Resource
  prevSocket : Option Resource
  nextBuffers : Option Buffers
  gpunetio : Option Exported
  deriving DecidableEq, Repr

/-- The statements up to the call of `_accept_member`. -/
def requestSteps : List (Locals → Run Resource Exn Locals) :=
  [fun x => do
    let sock ← env.connectUntil env.connects
    return { x with nextSocket := some sock },
   env.callStep .sendRequest]

def acceptStep (x : Locals) : Run Resource Exn Locals := do
  let sock ← acceptMember env.arrivals 0
  return { x with prevSocket := some sock }

/-- The statements after it. -/
def responseSteps (lanes : Lanes) : List (Locals → Run Resource Exn Locals) :=
  [fun x => do
    env.laneInfos true lanes.incoming
    env.call (.bufferInfo true)
    return x,
   env.callStep .sendResponse, env.callStep .recvResponse, env.callStep .checkResponse, env.callStep .qpInfos] ++
  (lanes.outgoing ++ lanes.incoming).map (fun n => env.callStep (.connectRc n)) ++
  [fun x => match env.nextBuffers with
    | .error e => Run.raise e
    | .ok buffers => pure { x with nextBuffers := some buffers },
   fun x => do
    let state ← env.exportGpunetio lanes
    return { x with gpunetio := some state }]

def handler (lanes : Lanes) (x : Locals) : Run Resource Exn Unit := do
  Run.release (x.gpunetio.elim [] Exported.close)
  closeLanes (lanes.outgoing ++ lanes.incoming).reverse

/-- The `finally` block. -/
def final (x : Locals) : Run Resource Exn Unit := Run.release (x.nextSocket.toList ++ x.prevSocket.toList)

def connect (lanes : Lanes) : Run Resource Exn Locals :=
  Run.tryBlock (env.requestSteps ++ env.acceptStep :: env.responseSteps lanes) ⟨none, none, none, none⟩
    (handler lanes) final

/-- The request, whose parts are computed outside of the `try` block. -/
def request (lanes : Lanes) : Run Resource Exn Unit := do
  env.laneInfos false lanes.outgoing
  env.call (.bufferInfo false)

/-- `_reconfigure` with several members, after the teardown. -/
def attempt (qps created : Nat) : Run Resource Exn Locals := do
  let lanes ← env.createLanes qps created
  env.request lanes
  env.connect lanes

/-! ## `_reconfigure` -/

/-- What `x` raises. -/
def raised {α : Type} (x : Run Resource Exn α) : Option Exn :=
  match x.result with
  | .ok _ => none
  | .error e => some e

/-- The parts of an attempt that matter to the fields of the group. -/
def outcome (qps created : Nat) : Group.Attempt where
  createLanes := raised (env.createLanes qps created)
  laneInfos := match (env.createLanes qps created).result with
    | .ok lanes => raised (env.request lanes)
    | .error _ => none
  connect := match (env.attempt qps created).result with
    | .ok _ => env.nextBuffers
    | .error e => .error e
  exportGpunetio := none

/-- `_reconfigure`: the group afterwards, and what happened to the resources. -/
def reconfigure (cfg : Config) (uuid : Int) (handles : Handles) (timeout : Option Duration) (g : Group) :
    Group × Run Resource Exn Int :=
  let after := g.reconfigure cfg uuid handles timeout (env.outcome cfg.qps g.created)
  match g.validateReconfigure cfg uuid handles timeout with
  | .error _ => (after.1, ⟨after.2, [], []⟩)
  | .ok (_, size) =>
      if size = 1 then (after.1, ⟨after.2, [], []⟩)
      else
        let run := env.attempt cfg.qps g.created
        (after.1, ⟨after.2, run.opened, run.closed⟩)

end Env

end Rdma4py.ProcessGroup
