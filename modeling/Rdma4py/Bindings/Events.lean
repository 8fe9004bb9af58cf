import Rdma4py.Bindings.Exn
import Rdma4py.Lib.Machine

/-!
# Completion queues: events

`CompChannel.get_cq_event` counts the events of a CQ in `_unacked`, a C `int`; `ack_events` and the end of the CQ
acknowledge them. The bindings of libibverbs and of EFA do the same with them. They differ in what they raise, and the CQ
of libibverbs is not closed under an external data path.
-/

namespace Rdma4py.Bindings

open Lib

/-- What a class of CQs has of its own. -/
structure CQClass where
  error : String → Int → Option String → Exn
  externalDatapath : Bool

/-- `ibverbs.CQ`. -/
def verbsCQ : CQClass := ⟨.verbsError, true⟩

/-- `efa.CQ`. -/
def efaCQ : CQClass := ⟨.efaError, false⟩

/-- `efa.CQEx`. What it has of its own is how it is polled. -/
def efaCQEx : CQClass := ⟨.efaError, false⟩

/-- A CQ object, and what the provider knows of the events: those it handed out and those acknowledged to it. -/
structure CQ where
  isOpen : Bool
  unacked : Int32
  externalUsers : Int
  received : Nat
  acknowledged : Nat
  destroyed : Bool
  collected : Bool
  deriving DecidableEq

namespace CQ

/-- `Context.create_cq`. -/
def create : CQ := ⟨true, 0, 0, 0, 0, false, false⟩

/-- The end of `CompChannel.get_cq_event`, after the provider returned an event of the CQ. -/
def getCqEvent (cq : CQ) : CQ := { cq with unacked := cq.unacked + 1, received := cq.received + 1 }

/-- `ack_events`. -/
def ackEvents (cls : CQClass) (nevents : UInt32) (cq : CQ) : CQ × Except Exn Unit :=
  if !cq.isOpen then (cq, .error (cls.error "completion queue is closed" EBADF none))
  else if nevents = 0 then (cq, .error (.valueError "nevents must be positive"))
  else if cq.unacked < nevents.toInt32 then
    (cq, .error (.valueError "cannot acknowledge more CQ events than were received"))
  else
    ({ cq with
      acknowledged := cq.acknowledged + nevents.toNat
      unacked := cq.unacked - nevents.toInt32 }, .ok ())

/-- The provider is told of the events that are left. -/
def ackRest (cq : CQ) : CQ := { cq with acknowledged := cq.acknowledged + cq.unacked.toUInt32.toNat }

/-- `close`, where the provider returns `rc` for the destruction and sets `errno`. -/
def close (cls : CQClass) (rc errno : Int) (cq : CQ) : CQ × Except Exn Unit :=
  if !cq.isOpen then (cq, .ok ())
  else if cls.externalDatapath && cq.externalUsers != 0 then
    (cq, .error (cls.error "ibv_destroy_cq" EBUSY (some "close the active external GPU data path first")))
  else
    let cq := if 0 < cq.unacked then { cq.ackRest with unacked := 0 } else cq
    if rc ≠ 0 then (cq, .error (cls.error "ibv_destroy_cq" (errorFromRc rc errno) none))
    else ({ cq with isOpen := false, destroyed := true }, .ok ())

/-- `__dealloc__`: the object is gone, whatever the provider returns. -/
def dealloc (rc : Int) (cq : CQ) : CQ :=
  if !cq.isOpen then { cq with collected := true }
  else
    let cq := if 0 < cq.unacked then cq.ackRest else cq
    { cq with isOpen := false, destroyed := rc = 0, collected := true }

inductive Event
  | getCqEvent
  | ackEvents (nevents : UInt32)
  | users (n : Int)
  | close (rc errno : Int)
  | dealloc (rc : Int)

/-- Only a CQ that exists has events, and only an object that exists has methods. -/
def Enabled (cq : CQ) : Event → Prop
  | .getCqEvent => cq.destroyed = false ∧ cq.collected = false
  | _ => cq.collected = false

instance (cq : CQ) : ∀ e, Decidable (cq.Enabled e)
  | .getCqEvent => inferInstanceAs (Decidable (_ ∧ _))
  | .ackEvents _ | .users _ | .close .. | .dealloc _ => inferInstanceAs (Decidable (_ = _))

def next (cls : CQClass) (cq : CQ) : Event → CQ
  | .getCqEvent => cq.getCqEvent
  | .ackEvents nevents => (cq.ackEvents cls nevents).1
  | .users n => { cq with externalUsers := n }
  | .close rc errno => (cq.close cls rc errno).1
  | .dealloc rc => cq.dealloc rc

def machine (cls : CQClass) : Machine CQ Event where
  Enabled := Enabled
  next := next cls

end CQ

end Rdma4py.Bindings
