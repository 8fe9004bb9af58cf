import Rdma4py.Lib.Release
import Rdma4py.NvmeQueue.Calls

/-!
# Construction and shutdown of the queue

`RDMAQueue.__init__` opens the resources of a queue one after the other and calls `close` when a statement raises;
`close` releases what is held and may be called again.
-/

namespace Rdma4py.NvmeQueue

open Rdma4py.Lib

/-- An `OSError`, by its `errno`. -/
structure OSError where
  errno : Int
  deriving DecidableEq, Repr

/-- The attributes that hold a resource of the queue. -/
inductive Resource
  | commands
  | responses
  | qp
  | cq
  | pd
  | cm
  deriving DecidableEq, Repr

/-- The order in which `close` releases them. -/
def Resource.order : List Resource := [.commands, .responses, .qp, .cq, .pd, .cm]

/-- A queue with its resources. `world` is the queue for those who use it: its buffers are those of the attributes
`commands` and `responses` while these hold one. -/
structure Owner where
  world : World
  resources : Holder Resource OSError
  /-- `cm.connected`. -/
  connected : Bool

/-! ## `close` -/

/-- What the calls of one `close` raise: `cm.disconnect`, and the `close` of each resource. -/
structure Closing where
  disconnect : Option OSError := none
  raises : Resource → Option OSError := fun _ => none

/-- `self._closed = True`. -/
def World.shut (w : World) : World := { w with queue := { w.queue with closed := true } }

/-- `self.cm.disconnect()`, when there is a connected ID. What it raises is dropped. -/
def Owner.disconnect (s : Owner) (c : Closing) : Owner :=
  if s.resources.held .cm ∧ s.connected ∧ c.disconnect = none then { s with connected := false } else s

/-- `close`, and what it raises. The five resources of the loop and `cm` after it are closed in the same way. -/
def Owner.close (s : Owner) (c : Closing) : Owner × Option OSError :=
  if s.world.queue.closed ∧ ∀ r ∈ Resource.order, s.resources.held r = false then (s, none)
  else
    let s := { s with world := s.world.shut }
    let s := s.disconnect c
    let (resources, errors) := s.resources.release c.raises Resource.order
    ({ s with resources := resources }, errors.head?)

/-! ## `__init__` -/

/-- The statements of the `try` block of `__init__`. -/
inductive Stage
  | resolve
  | context
  | allocPd
  | createCq
  | createQp
  | queryDevice
  | connect
  /-- `parse_rdma_cm_response`, and the comparison of the depths. -/
  | response
  | commands
  | responses
  | postRecv
  deriving DecidableEq, Repr

/-- The statements in their order. -/
def Stage.order : List Stage :=
  [.resolve, .context, .allocPd, .createCq, .createQp, .queryDevice, .connect, .response, .commands, .responses,
    .postRecv]

/-- The resource that a statement assigns. -/
def Stage.resource : Stage → Option Resource
  | .resolve => some .cm
  | .allocPd => some .pd
  | .createCq => some .cq
  | .createQp => some .qp
  | .commands => some .commands
  | .responses => some .responses
  | .context | .queryDevice | .connect | .response | .postRecv => none

/-- A statement that does not raise. -/
def Owner.run (s : Owner) (stage : Stage) : Owner :=
  match stage.resource with
  | some r => { s with resources := s.resources.hold r }
  | none =>
      match stage with
      | .connect => { s with connected := true }
      | .postRecv =>
          { s with world := { s.world with
              link := { s.world.link with recvs := (List.range s.world.queue.depth).map recvWr } } }
      | _ => s

/-- The statements up to the first that raises. -/
def Owner.runAll (raises : Stage → Option Exn) : List Stage → Owner → Owner × Option Exn
  | [], s => (s, none)
  | stage :: stages, s =>
      match raises stage with
      | some e => (s, some e)
      | none => runAll raises stages (s.run stage)

/-- The attributes before the `try` block. -/
def Owner.blank (depth : Nat) (commands responses : Memory UInt8) : Owner where
  world := { World.initial depth commands responses with link := {} }
  resources := {}
  connected := false

/-- `__init__` once its arguments are accepted, and what it raises. An `OSError` of `close` is dropped. -/
def Owner.construct (depth : Nat) (commands responses : Memory UInt8) (raises : Stage → Option Exn) (c : Closing) :
    Owner × Option Exn :=
  match (blank depth commands responses).runAll raises Stage.order with
  | (s, none) => (s, none)
  | (s, some e) => ((s.close c).1, some e)

/-! ## The machine -/

/-- A call of `close`, or another event of the queue. -/
inductive Call
  | close (c : Closing)
  | event (e : Event)

/-- A queue in use, which may be closed at any time and any number of times. -/
def ownership : Machine Owner Call where
  Enabled
    | _, .close _ => True
    | s, .event e => process.Enabled s.world e
  next
    | s, .close c => (s.close c).1
    | s, .event e => { s with world := process.next s.world e }

end Rdma4py.NvmeQueue
