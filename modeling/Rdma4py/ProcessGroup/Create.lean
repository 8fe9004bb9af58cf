import Rdma4py.ProcessGroup.Reconfigure

/-!
# The creation of a group

`ProcessGroup.create` with the constructor, `_initialize` and `close`: what every call opens, what the handlers close. Which
calls raise is an argument. A protection domain is not deallocated while one of its memory regions is registered, and a
device context is not closed while a completion queue of it is open; closing succeeds otherwise.
-/

namespace Rdma4py.ProcessGroup.Create

open Lib

/-- What `create` opens. -/
inductive Resource
  | context
  | pd
  | workMr
  | scratchMr
  | listener
  | attempt (r : ProcessGroup.Resource)
  deriving DecidableEq, Repr

/-- The memory regions. -/
def Resource.isMr : Resource → Bool
  | .workMr | .scratchMr | .attempt .signalMr => true
  | _ => false

/-- The completion queues. -/
def Resource.isCq : Resource → Bool
  | .attempt (.cq _) => true
  | _ => false

/-- The calls and computations that may raise, in order. -/
inductive Site
  | nightly
  | gpu
  | setDevice
  | findDevice
  | openDevice
  | allocPd
  | findGidIndex
  | emptyWork
  | emptyScratch
  | initNightly
  | superInit
  | checks
  | registerWork
  | registerScratch
  | socket
  | setsockopt
  | bind
  | listen
  | getsockname
  | getfqdn
  | queryGid
  | encodeHandle
  | storeSet
  | storeGet (rank : Nat)
  deriving DecidableEq, Repr

/-- The arguments that matter, and the world during the call. -/
structure Env where
  initialSize : Nat
  gidIndex : Option Nat
  advertiseHost : Option String
  timeout : Option Duration
  initializes : Bool
  raises : Site → Option Exn
  /-- The handles in the store. -/
  stored : Nat → String
  /-- The first attempt to reconfigure. -/
  attempt : ProcessGroup.Env

namespace Env

variable (env : Env)

/-- Calls, in order. -/
def calls (sites : List Site) : Run Resource Exn Unit := sites.forM fun site => Run.call (env.raises site)

/-! ## Closing -/

/-- `pd.close()`, after what was opened and closed. -/
def closePd (opened closed : List Resource) : Run Resource Exn Unit :=
  if ∃ r ∈ opened, r.isMr ∧ r ∉ closed then Run.raise (.external "ibv_dealloc_pd failed") else Run.release [.pd]

/-- `context.close()`. -/
def closeContext (opened closed : List Resource) : Run Resource Exn Unit :=
  if ∃ r ∈ opened, r.isCq ∧ r ∉ closed then Run.raise (.external "cannot close context with open child resource(s)")
  else Run.release [.context]

/-- `close` of the group `g`. -/
def close (g : Group) (opened closed : List Resource) : Run Resource Exn Unit := do
  let lanes := (g.outgoing ++ g.incoming).reverse.flatMap fun n => [.attempt (.qp n), .attempt (.cq n)]
  Run.release (lanes ++ [.listener, .scratchMr, .workMr])
  closePd opened (closed ++ lanes)
  closeContext opened (closed ++ lanes)

/-! ## The constructor -/

/-- `__init__`. -/
def construct : Run Resource Exn Unit := do
  env.calls [.initNightly, .superInit, .checks]
  let work ← Run.acquire (env.raises .registerWork) .workMr
  let scratch ← Run.onError (Run.acquire (env.raises .registerScratch) .scratchMr) fun _ _ => Run.release [work]
  let sock ← Run.acquire (env.raises .socket) .listener
  env.calls [.setsockopt]
  Run.onError (env.calls [.bind, .listen]) fun _ _ => Run.release [scratch, work, sock]
  env.calls
    (.getsockname :: (if env.advertiseHost.getD "" = "" then [.getfqdn] else []) ++ [.queryGid, .encodeHandle])

/-! ## `_initialize` -/

/-- The exchange of the handles. -/
def exchange : Run Resource Exn Unit := env.calls (.storeSet :: (List.range env.initialSize).map .storeGet)

/-- The first `_reconfigure`. -/
def reconfigure (cfg : Config) : Group × Run ProcessGroup.Resource Exn Int :=
  env.attempt.reconfigure cfg 0 ⟨true, .ok ((List.range env.initialSize).map env.stored)⟩ env.timeout .initial

/-- `_initialize`: the group afterwards, and what happened to the resources. -/
def runInitialize (cfg : Config) : Group × Run Resource Exn Unit :=
  (match env.exchange.result with
    | .ok _ => (env.reconfigure cfg).1
    | .error _ => .initial,
   do
    env.exchange
    let _ ← (env.reconfigure cfg).2.rename .attempt
    return)

/-! ## `create` -/

/-- The calls before the device is open, and `device.open()`. -/
def openDevice : Run Resource Exn Unit := do
  env.calls [.nightly, .gpu, .setDevice, .findDevice]
  let _ ← Run.acquire (env.raises .openDevice) .context
  return

def allocPd : Run Resource Exn Unit := do
  let _ ← Run.acquire (env.raises .allocPd) .pd
  return

/-- The first `try` block. -/
def build : Run Resource Exn Unit := do
  env.calls ((if env.gidIndex = none then [.findGidIndex] else []) ++ [.emptyWork, .emptyScratch])
  env.construct

/-- The second `try` block. -/
def start (cfg : Config) : Run Resource Exn Unit := if env.initializes then (env.runInitialize cfg).2 else pure ()

/-- `ProcessGroup.create`. -/
def create (cfg : Config) : Run Resource Exn Unit := do
  env.openDevice
  env.allocPd
  Run.onError env.build fun opened closed => do
    closePd opened closed
    closeContext opened closed
  Run.onError (env.start cfg) (close (env.runInitialize cfg).1)

/-- `create` without its handlers: the exception is the original one. -/
def unhandled (cfg : Config) : Run Resource Exn Unit := do
  env.openDevice
  env.allocPd
  env.build
  env.start cfg

end Env

end Rdma4py.ProcessGroup.Create
