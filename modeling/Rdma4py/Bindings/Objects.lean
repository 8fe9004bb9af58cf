import Mathlib.Algebra.Ring.Nat
import Rdma4py.Bindings.Events
import Rdma4py.Lib.Handles

/-!
# The objects of the bindings

The classes of `_ibverbs` and `_efa` that hold a native object: what creates them, `close` and `__dealloc__`. What the
provider and librdmacm return is part of an event. They fault on a pointer that is NULL or stale. An object is deallocated
when nothing refers to it any more; the cycle collector, which clears references first, has no event.
-/

namespace Rdma4py.Bindings.Objects

open Lib

/-! ## The classes -/

/-- The classes of native objects. -/
inductive Kind
  | context
  | pd
  | mr
  | compChannel
  | cq
  | qp
  | ah
  | srq
  | cmId
  deriving DecidableEq, Repr

/-- The classes that a context counts in `_children`. -/
def Kind.child : Kind → Bool
  | .pd | .compChannel | .cq => true
  | _ => false

/-- What the objects of a class are made from. -/
inductive Kind.On : Kind → Kind → Prop
  | pd : On .pd .context
  | compChannel : On .compChannel .context
  | cq : On .cq .context
  | cqChannel : On .cq .compChannel
  | mr : On .mr .pd
  | ah : On .ah .pd
  | srq : On .srq .pd
  | qp : On .qp .pd
  | qpCq : On .qp .cq
  | qpSrq : On .qp .srq
  | qpCmId : On .qp .cmId

structure Context where
  ctx : Option Nat
  owned : Bool
  children : Nat
  deriving DecidableEq

structure PD where
  pd : Option Nat
  context : Nat
  deriving DecidableEq

structure MR where
  mr : Option Nat
  pd : Nat
  deriving DecidableEq

structure CompChannel where
  chan : Option Nat
  context : Nat
  deriving DecidableEq

/-- A `CQ` or `CQEx`. Its pointer is `handle` while it is open. -/
structure CQ where
  handle : Nat
  events : Bindings.CQ
  context : Nat
  channel : Option Nat
  deriving DecidableEq

structure QP where
  qp : Option Nat
  pd : Nat
  sendCq : Nat
  recvCq : Nat
  srq : Option Nat
  cmId : Option Nat
  cmOwner : Option Nat
  externalUsers : Int
  deriving DecidableEq

structure AH where
  ah : Option Nat
  pd : Nat
  deriving DecidableEq

structure SRQ where
  srq : Option Nat
  pd : Nat
  deriving DecidableEq

structure CMID where
  id : Option Nat
  context : Nat
  connected : Bool
  deriving DecidableEq

inductive Object
  | context (self : Context)
  | pd (self : PD)
  | mr (self : MR)
  | compChannel (self : CompChannel)
  | cq (self : CQ)
  | qp (self : QP)
  | ah (self : AH)
  | srq (self : SRQ)
  | cmId (self : CMID)
  deriving DecidableEq

def CQ.ptr (self : CQ) : Option Nat := if self.events.isOpen then some self.handle else none

/-- The objects that its native object was made from. -/
def Object.bases : Object → List Nat
  | .context _ | .cmId _ => []
  | .pd x => [x.context]
  | .mr x => [x.pd]
  | .compChannel x => [x.context]
  | .cq x => x.context :: x.channel.toList
  | .qp x => [x.pd, x.sendCq, x.recvCq] ++ (x.srq.toList ++ x.cmOwner.toList)
  | .ah x => [x.pd]
  | .srq x => [x.pd]

/-- Its native object, with the objects that its fields refer to. -/
def Object.wrapper (o : Object) : Wrapper Kind :=
  match o with
  | .context x => ⟨.context, x.ctx, o.bases, o.bases⟩
  | .pd x => ⟨.pd, x.pd, o.bases, o.bases⟩
  | .mr x => ⟨.mr, x.mr, o.bases, o.bases⟩
  | .compChannel x => ⟨.compChannel, x.chan, o.bases, o.bases⟩
  | .cq x => ⟨.cq, x.ptr, o.bases, o.bases⟩
  | .qp x => ⟨.qp, x.qp, o.bases, o.bases⟩
  | .ah x => ⟨.ah, x.ah, o.bases, o.bases⟩
  | .srq x => ⟨.srq, x.srq, o.bases, o.bases⟩
  | .cmId x => ⟨.cmId, x.id, o.bases, [x.context]⟩

/-- The context that counts it. -/
def Object.parent : Object → Option Nat
  | .pd x => some x.context
  | .compChannel x => some x.context
  | .cq x => some x.context
  | _ => none

/-- A context with another `_children`. -/
def Object.onChildren (f : Nat → Nat) : Object → Object
  | .context c => .context { c with children := f c.children }
  | o => o

/-- What the two bindings have of their own. A QP of the second is created with the context, as an extended QP. -/
structure Binding where
  error : String → Int → Option String → Exn
  cqClass : CQClass
  extended : Bool

def verbs : Binding := ⟨.verbsError, verbsCQ, false⟩

def efa : Binding := ⟨.efaError, efaCQ, true⟩

/-- `_fail`. -/
def Binding.fail (b : Binding) (op : String) (errno : Int) : Exn := b.error op (if errno ≠ 0 then errno else EIO) none

/-- `_fail_rc`. -/
def Binding.failRc (b : Binding) (op : String) (rc errno : Int) : Exn := b.error op (errorFromRc rc errno) none

/-! ## The process -/

/-- The objects, by identity; the native objects; the devices that librdmacm has opened, which stay open; the QP of each of
its endpoints (`rdma_cm_id.qp`); and the pointers that native functions should not have been given. -/
structure World where
  objects : Nat → Option Object
  fresh : Nat
  natives : List (Native Kind)
  cmDevices : List Nat
  endpointQp : Nat → Option Nat
  faults : List (Option Nat)

namespace World

def initial : World := ⟨fun _ => none, 0, [], [], fun _ => none, []⟩

def isLive (w : World) : Option Nat → Bool
  | none => false
  | some p => w.natives.any fun n => n.ptr = p

/-- A native function is given these pointers. -/
def use (w : World) (args : List (Option Nat)) : World :=
  { w with faults := w.faults ++ args.filter fun p => !w.isLive p }

def put (w : World) (i : Nat) (o : Option Object) : World := { w with objects := Function.update w.objects i o }

/-- The native object is destroyed. -/
def destroyed (w : World) (p : Nat) : World := { w with natives := w.natives.filter fun n => n.ptr ≠ p }

/-- What becomes of `_children` of the context with the identity. -/
def onChildren (w : World) (f : Nat → Nat) (i : Option Nat) : World :=
  { w with objects := fun j => if i = some j then (w.objects j).map (Object.onChildren f) else w.objects j }

/-- `_add_child`. -/
def addChild (w : World) (parent : Option Nat) : World := w.onChildren (fun n => (n + 1) % 2 ^ 32) parent

/-- `_release_child`. -/
def releaseChild (w : World) (parent : Option Nat) : World :=
  w.onChildren (fun n => if 0 < n then n - 1 else n) parent

/-- `_wrap`. -/
def wrap (w : World) (o : Object) (n : Native Kind) : World :=
  { w with
    objects := Function.update w.objects w.fresh (some o)
    fresh := w.fresh + 1
    natives := n :: w.natives }

/-- `_wrap_borrowed`. -/
def wrapBorrowed (w : World) (o : Object) : World :=
  { w with objects := Function.update w.objects w.fresh (some o), fresh := w.fresh + 1 }

/-- librdmacm opens a device, unless it has. -/
def cmOpen (w : World) (ctx : Nat) : World :=
  if ctx ∈ w.cmDevices then w
  else { w with natives := ⟨ctx, .context, [], []⟩ :: w.natives, cmDevices := ctx :: w.cmDevices }

/-- The end of a function that creates an object, where the provider returns an address or NULL. -/
def created (w : World) (b : Binding) (op : String) (result : Option Nat) (errno : Int) (kind : Kind) (needs : List Nat)
    (o : Nat → Object) : World × Except Exn Nat :=
  match result with
  | none => (w, .error (b.fail op errno))
  | some p => ((w.wrap (o p) ⟨p, kind, needs, (o p).bases⟩).addChild (o p).parent, .ok w.fresh)

/-- The end of `close`: the provider destroys the object and returns `rc`; zero means that it did. -/
def closed (w : World) (b : Binding) (op : String) (rc errno : Int) (i p : Nat) (rest : Object) :
    World × Except Exn Unit :=
  let w := w.use [some p]
  if rc ≠ 0 then (w, .error (b.failRc op rc errno))
  else (((w.destroyed p).put i (some rest)).releaseChild rest.parent, .ok ())

/-- `__dealloc__` of an object with this pointer. -/
def dealloced (w : World) (rc : Int) (i : Nat) (p parent : Option Nat) : World :=
  match p with
  | none => w.put i none
  | some p =>
      let w := w.use [some p]
      if rc = 0 then ((w.destroyed p).put i none).releaseChild parent else w.put i none

end World

/-! ## Creation -/

/-- `Device.open`: the list of devices may be NULL, and the device may be missing or not open. -/
def Device.open (b : Binding) (name : String) (listed : Bool) (result : Option Nat) (errno : Int) (w : World) :
    World × Except Exn Nat :=
  if !listed then (w, .error (b.fail "ibv_get_device_list" errno))
  else
    match result with
    | none => (w, .error (b.error ("ibv_open_device(" ++ name ++ ")") errno none))
    | some ctx => (w.wrap (.context ⟨some ctx, true, 0⟩) ⟨ctx, .context, [], []⟩, .ok w.fresh)

namespace Context

def closedError (b : Binding) : Exn := b.error "context is closed" EBADF none

/-- `alloc_pd`. -/
def allocPd (b : Binding) (i : Nat) (self : Context) (result : Option Nat) (errno : Int) (w : World) :
    World × Except Exn Nat :=
  match self.ctx with
  | none => (w, .error (closedError b))
  | some ctx =>
      (w.use [some ctx]).created b "ibv_alloc_pd" result errno .pd [ctx] fun p => .pd ⟨some p, i⟩

/-- `create_comp_channel`. -/
def createCompChannel (b : Binding) (i : Nat) (self : Context) (result : Option Nat) (errno : Int) (w : World) :
    World × Except Exn Nat :=
  match self.ctx with
  | none => (w, .error (closedError b))
  | some ctx =>
      (w.use [some ctx]).created b "ibv_create_comp_channel" result errno .compChannel [ctx] fun p =>
        .compChannel ⟨some p, i⟩

/-- The completion channel of a `create_cq`, and its pointer: none, or one that is open and belongs to the context. -/
def channel (b : Binding) (i : Nat) : Option (Nat × CompChannel) → Except Exn (List Nat)
  | none => .ok []
  | some (_, ch) =>
      match ch.chan with
      | none => .error (b.error "completion channel is closed" EBADF none)
      | some chan =>
          if ch.context ≠ i then .error (.valueError "completion channel must belong to this context") else .ok [chan]

/-- `create_cq`, and `create_cq_ex`, which differs in the name `op` of what it calls. -/
def createCq (b : Binding) (op : String) (i : Nat) (self : Context) (cqe : Int) (ch : Option (Nat × CompChannel))
    (compVector numCompVectors : Int) (result : Option Nat) (errno : Int) (w : World) : World × Except Exn Nat :=
  match self.ctx with
  | none => (w, .error (closedError b))
  | some ctx =>
      if cqe ≤ 0 then (w, .error (.valueError "cqe must be positive"))
      else if compVector < 0 ∨ numCompVectors ≤ compVector then
        (w.use [some ctx], .error (.valueError "comp_vector is outside the context's range"))
      else
        match channel b i ch with
        | .error e => (w.use [some ctx], .error e)
        | .ok chan =>
            (w.use (some ctx :: chan.map some)).created b op result errno .cq (ctx :: chan) fun p =>
              .cq ⟨p, .create, i, ch.map Prod.fst⟩

end Context

namespace PD

def closedError (b : Binding) : Exn := b.error "pd is closed" EBADF none

/-- `reg_mr`. -/
def regMr (b : Binding) (i : Nat) (self : PD) (addr length : Int) (result : Option Nat) (errno : Int) (w : World) :
    World × Except Exn Nat :=
  match self.pd with
  | none => (w, .error (closedError b))
  | some pd =>
      if addr < 0 ∨ 0xFFFFFFFFFFFFFFFF < addr then (w, .error (.valueError "addr must be between 0 and 2**64 - 1"))
      else if length ≤ 0 ∨ 0xFFFFFFFFFFFFFFFF < length then
        (w, .error (.valueError "length must be between 1 and 2**64 - 1"))
      else if 0x10000000000000000 < addr + length then
        (w, .error (.valueError "memory region address range exceeds 2**64"))
      else (w.use [some pd]).created b "ibv_reg_mr" result errno .mr [pd] fun p => .mr ⟨some p, i⟩

/-- `create_ah`. -/
def createAh (b : Binding) (i : Nat) (self : PD) (result : Option Nat) (errno : Int) (w : World) :
    World × Except Exn Nat :=
  match self.pd with
  | none => (w, .error (closedError b))
  | some pd => (w.use [some pd]).created b "ibv_create_ah" result errno .ah [pd] fun p => .ah ⟨some p, i⟩

/-- `create_srq`. -/
def createSrq (b : Binding) (i : Nat) (self : PD) (result : Option Nat) (errno : Int) (w : World) :
    World × Except Exn Nat :=
  match self.pd with
  | none => (w, .error (closedError b))
  | some pd => (w.use [some pd]).created b "ibv_create_srq" result errno .srq [pd] fun p => .srq ⟨some p, i⟩

end PD

/-- The queues of a QP, each with its identity. -/
structure QueueArgs where
  sendCq : Nat × CQ
  recvCq : Nat × CQ
  srq : Option (Nat × SRQ)

/-- The checks of the queues of a QP and their pointers. A text names what the CQs must belong to. -/
def QueueArgs.check (b : Binding) (context pd : Nat) (owner : String) (args : QueueArgs) : Except Exn (List Nat) :=
  let cqClosed := b.error "completion queue is closed" EBADF none
  match args.sendCq.2.ptr with
  | none => .error cqClosed
  | some scq =>
      match args.recvCq.2.ptr with
      | none => .error cqClosed
      | some rcq =>
          if args.sendCq.2.context ≠ context ∨ args.recvCq.2.context ≠ context then
            .error (.valueError ("queue-pair CQs must belong to " ++ owner))
          else
            match args.srq with
            | none => .ok [scq, rcq]
            | some (_, srq) =>
                match srq.srq with
                | none => .error (b.error "shared receive queue is closed" EBADF none)
                | some p =>
                    if srq.pd ≠ pd then .error (.valueError "queue-pair SRQ must belong to this PD")
                    else .ok [scq, rcq, p]

/-- `QP._wrap`. -/
def QueueArgs.qp (args : QueueArgs) (pd : Nat) (cmId cmOwner : Option Nat) (p : Nat) : Object :=
  .qp ⟨some p, pd, args.sendCq.1, args.recvCq.1, args.srq.map Prod.fst, cmId, cmOwner, 0⟩

/-- `PD.create_qp`. The binding of EFA passes the context of the PD too, and asks for the extended QP: where it gets NULL
(`ex` is false), it destroys the QP again, and the provider returns `rc`. -/
def PD.createQp (b : Binding) (i : Nat) (self : PD) (args : QueueArgs) (result : Option Nat) (ex : Bool)
    (rc errno : Int) (w : World) : World × Except Exn Nat :=
  match self.pd with
  | none => (w, .error (PD.closedError b))
  | some pd =>
      match args.check b self.context i "the PD's context" with
      | .error e => (w, .error e)
      | .ok queues =>
          if !b.extended then
            (w.use (some pd :: queues.map some)).created b "ibv_create_qp" result errno .qp (pd :: queues)
              (args.qp i none none)
          else
            let ctx := match w.objects self.context with
              | some (.context c) => c.ctx
              | _ => none
            let w := w.use (ctx :: some pd :: queues.map some)
            match ex, result with
            | false, some p =>
                let lost : Native Kind := ⟨p, .qp, pd :: queues, (args.qp i none none p).bases⟩
                ({ w with natives := if rc = 0 then w.natives else lost :: w.natives },
                  .error (b.fail "ibv_qp_to_qp_ex" errno))
            | _, _ => w.created b "efadv_create_qp_ex" result errno .qp (pd :: queues) (args.qp i none none)

namespace CMID

/-- `resolve`, from the result of `rdma_create_ep`: an endpoint and the device that it was resolved on, or an endpoint
without one, which is destroyed again. -/
def resolve (b : Binding) (result : Except Int (Option (Nat × Nat))) (errno : Int) (w : World) : World × Except Exn Nat :=
  match result with
  | .error rc => (w, .error (b.failRc "rdma_create_ep" rc errno))
  | .ok none => (w, .error (b.error "rdma_create_ep" EIO (some "resolved endpoint has no device")))
  | .ok (some (id, ctx)) =>
      let context := w.fresh
      let w := (w.cmOpen ctx).wrapBorrowed (.context ⟨some ctx, false, 0⟩)
      ({ w.wrap (.cmId ⟨some id, context, false⟩) ⟨id, .cmId, [], []⟩ with
        endpointQp := Function.update w.endpointQp id none }, .ok w.fresh)

def closedError (b : Binding) : Exn := b.error "rdma_cm_id is closed" EBADF none

/-- `create_qp`, where `rdma_create_qp` returns a code or the address of the QP. -/
def createQp (b : Binding) (i : Nat) (self : CMID) (pdId : Nat) (pd : PD) (args : QueueArgs) (rc : Bool)
    (result : Except Int Nat) (errno : Int) (w : World) : World × Except Exn Nat :=
  match self.id with
  | none => (w, .error (closedError b))
  | some id =>
      match pd.pd with
      | none => (w, .error (PD.closedError b))
      | some p =>
          let w := w.use [some id]
          if (w.endpointQp id).isSome then
            (w, .error (b.error "rdma_create_qp" EBUSY (some "endpoint already has a QP")))
          else if pd.context ≠ self.context then
            (w, .error (.valueError "protection domain must belong to this CM context"))
          else
            match args.check b self.context pdId "this CM context" with
            | .error e => (w, .error e)
            | .ok queues =>
                if !rc then (w, .error (.valueError "RDMA-CM endpoint requires an RC queue pair"))
                else
                  let w := w.use (some id :: some p :: queues.map some)
                  match result with
                  | .error rc => (w, .error (b.failRc "rdma_create_qp" rc errno))
                  | .ok qp =>
                      let o := args.qp pdId (some id) (some i) qp
                      ({ w.wrap o ⟨qp, .qp, (p :: queues) ++ [id], o.bases⟩ with
                        endpointQp := Function.update w.endpointQp id (some qp) }, .ok w.fresh)

/-- `connect`, from the checks of its arguments on. -/
def connect (b : Binding) (i : Nat) (self : CMID) (rc errno : Int) (w : World) : World × Except Exn Unit :=
  match self.id with
  | none => (w, .error (closedError b))
  | some id =>
      let w := w.use [some id]
      if (w.endpointQp id).isNone then
        (w, .error (b.error "rdma_connect" EBADF (some "create a QP before connecting")))
      else if rc ≠ 0 then (w, .error (b.failRc "rdma_connect" rc errno))
      else (w.put i (some (.cmId { self with connected := true })), .ok ())

/-- `disconnect`. -/
def disconnect (b : Binding) (i : Nat) (self : CMID) (rc errno : Int) (w : World) : World × Except Exn Unit :=
  match self.id with
  | none => (w, .error (closedError b))
  | some id =>
      if !self.connected then (w, .ok ())
      else
        let w := w.use [some id]
        if rc ≠ 0 then (w, .error (b.failRc "rdma_disconnect" rc errno))
        else (w.put i (some (.cmId { self with connected := false })), .ok ())

end CMID

/-! ## Release -/

namespace Context

/-- `close`. -/
def close (b : Binding) (i : Nat) (self : Context) (rc errno : Int) (w : World) : World × Except Exn Unit :=
  match self.ctx with
  | none => (w, .ok ())
  | some ctx =>
      if !self.owned then
        (w, .error (b.error "ibv_close_device" EBUSY (some "context is owned by an RDMA CM endpoint")))
      else if self.children ≠ 0 then
        (w, .error (b.error "ibv_close_device" EBUSY
          (some ("cannot close context with " ++ toString self.children ++ " open child resource(s)"))))
      else
        let w := w.use [some ctx]
        if rc ≠ 0 then (w, .error (b.fail "ibv_close_device" errno))
        else ((w.destroyed ctx).put i (some (.context { self with ctx := none })), .ok ())

/-- `__dealloc__`. -/
def dealloc (i : Nat) (self : Context) (rc : Int) (w : World) : World :=
  if self.owned ∧ self.children = 0 then w.dealloced rc i self.ctx none else w.put i none

end Context

/-- `PD.close`. -/
def PD.close (b : Binding) (i : Nat) (self : PD) (rc errno : Int) (w : World) : World × Except Exn Unit :=
  match self.pd with
  | none => (w, .ok ())
  | some p => w.closed b "ibv_dealloc_pd" rc errno i p (.pd { self with pd := none })

/-- `MR.close`. -/
def MR.close (b : Binding) (i : Nat) (self : MR) (rc errno : Int) (w : World) : World × Except Exn Unit :=
  match self.mr with
  | none => (w, .ok ())
  | some p => w.closed b "ibv_dereg_mr" rc errno i p (.mr { self with mr := none })

/-- `CompChannel.close`. -/
def CompChannel.close (b : Binding) (i : Nat) (self : CompChannel) (rc errno : Int) (w : World) :
    World × Except Exn Unit :=
  match self.chan with
  | none => (w, .ok ())
  | some p => w.closed b "ibv_destroy_comp_channel" rc errno i p (.compChannel { self with chan := none })

/-- `AH.close`. -/
def AH.close (b : Binding) (i : Nat) (self : AH) (rc errno : Int) (w : World) : World × Except Exn Unit :=
  match self.ah with
  | none => (w, .ok ())
  | some p => w.closed b "ibv_destroy_ah" rc errno i p (.ah { self with ah := none })

/-- `SRQ.close`. -/
def SRQ.close (b : Binding) (i : Nat) (self : SRQ) (rc errno : Int) (w : World) : World × Except Exn Unit :=
  match self.srq with
  | none => (w, .ok ())
  | some p => w.closed b "ibv_destroy_srq" rc errno i p (.srq { self with srq := none })

/-- `CQ.close`, with its events. -/
def CQ.close (b : Binding) (i : Nat) (self : CQ) (rc errno : Int) (w : World) : World × Except Exn Unit :=
  if !self.events.isOpen then (w, .ok ())
  else if b.cqClass.externalDatapath && self.events.externalUsers != 0 then
    (w, (self.events.close b.cqClass rc errno).2)
  else
    let rest := Object.cq { self with events := (self.events.close b.cqClass rc errno).1 }
    let w := w.use [some self.handle]
    if rc ≠ 0 then (w.put i (some rest), (self.events.close b.cqClass rc errno).2)
    else (((w.destroyed self.handle).put i (some rest)).releaseChild rest.parent, .ok ())

/-- `rdma_destroy_qp`, where the QP is the one that librdmacm has for the endpoint. -/
def World.cmDestroyQp (w : World) (id : Nat) : World :=
  let w := w.use [some id, w.endpointQp id]
  match w.endpointQp id with
  | none => w
  | some p => { w.destroyed p with endpointQp := Function.update w.endpointQp id none }

/-- `QP.close`. -/
def QP.close (b : Binding) (i : Nat) (self : QP) (rc errno : Int) (w : World) : World × Except Exn Unit :=
  match self.qp with
  | none => (w, .ok ())
  | some p =>
      if b.cqClass.externalDatapath && self.externalUsers != 0 then
        (w, .error (b.error "ibv_destroy_qp" EBUSY (some "close the active external GPU data path first")))
      else
        match self.cmId with
        | some id =>
            ((w.cmDestroyQp id).put i (some (.qp { self with qp := none, cmId := none, cmOwner := none })), .ok ())
        | none => w.closed b "ibv_destroy_qp" rc errno i p (.qp { self with qp := none })

/-- `QP.__dealloc__`. -/
def QP.dealloc (i : Nat) (self : QP) (rc : Int) (w : World) : World :=
  match self.qp, self.cmId with
  | some _, some id => (w.cmDestroyQp id).put i none
  | p, _ => w.dealloced rc i p none

/-- `rdma_destroy_ep`, after the context of the endpoint has forgotten its device. -/
def World.cmDestroyEp (w : World) (id context : Nat) : World :=
  let w := w.use [some id]
  match w.objects context with
  | some (.context c) => (w.put context (some (.context { c with ctx := none }))).destroyed id
  | _ => w.destroyed id

/-- What the context with the identity counts. -/
def World.childrenOf (w : World) (i : Nat) : Nat :=
  match w.objects i with
  | some (.context c) => c.children
  | _ => 0

/-- `CMID.close`. -/
def CMID.close (b : Binding) (i : Nat) (self : CMID) (w : World) : World × Except Exn Unit :=
  match self.id with
  | none => (w, .ok ())
  | some id =>
      let w := w.use [some id]
      if (w.endpointQp id).isSome then
        (w, .error (b.error "rdma_destroy_ep" EBUSY (some "close the CM-managed QP first")))
      else if w.childrenOf self.context ≠ 0 then
        (w, .error (b.error "rdma_destroy_ep" EBUSY (some ("cannot close endpoint with " ++
          toString (w.childrenOf self.context) ++ " open context resource(s)"))))
      else
        ((w.cmDestroyEp id self.context).put i (some (.cmId { self with id := none, connected := false })), .ok ())

/-- `CMID.__dealloc__`. -/
def CMID.dealloc (i : Nat) (self : CMID) (w : World) : World :=
  match self.id with
  | none => w.put i none
  | some id =>
      let w := w.use [some id]
      let w := if (w.endpointQp id).isSome then w.cmDestroyQp id else w
      (w.cmDestroyEp id self.context).put i none

/-- `close` of any object. -/
def Object.close (b : Binding) (i : Nat) (rc errno : Int) (w : World) : Object → World × Except Exn Unit
  | .context x => x.close b i rc errno w
  | .pd x => x.close b i rc errno w
  | .mr x => x.close b i rc errno w
  | .compChannel x => x.close b i rc errno w
  | .cq x => x.close b i rc errno w
  | .qp x => x.close b i rc errno w
  | .ah x => x.close b i rc errno w
  | .srq x => x.close b i rc errno w
  | .cmId x => x.close b i w

/-- `__dealloc__` of any object. -/
def Object.dealloc (i : Nat) (rc : Int) (w : World) (o : Object) : World :=
  match o with
  | .context x => x.dealloc i rc w
  | .qp x => x.dealloc i rc w
  | .cmId x => x.dealloc i w
  | _ => w.dealloced rc i o.wrapper.ptr o.parent

/-! ## The machine -/

inductive Event
  | openDevice (name : String) (listed : Bool) (result : Option Nat) (errno : Int)
  | allocPd (i : Nat) (result : Option Nat) (errno : Int)
  | createCompChannel (i : Nat) (result : Option Nat) (errno : Int)
  | createCq (op : String) (i : Nat) (cqe : Int) (channel : Option Nat) (compVector numCompVectors : Int)
      (result : Option Nat) (errno : Int)
  | regMr (i : Nat) (addr length : Int) (result : Option Nat) (errno : Int)
  | createAh (i : Nat) (result : Option Nat) (errno : Int)
  | createSrq (i : Nat) (result : Option Nat) (errno : Int)
  | createQp (i sendCq recvCq : Nat) (srq : Option Nat) (result : Option Nat) (ex : Bool) (rc errno : Int)
  | resolve (result : Except Int (Option (Nat × Nat))) (errno : Int)
  | cmCreateQp (i pd sendCq recvCq : Nat) (srq : Option Nat) (rc : Bool) (result : Except Int Nat) (errno : Int)
  | connect (i : Nat) (rc errno : Int)
  | disconnect (i : Nat) (rc errno : Int)
  | getCqEvent (i : Nat)
  | ackEvents (i : Nat) (nevents : UInt32)
  | users (i : Nat) (n : Int)
  | method (i : Nat)
  | bridgeInfo (i : Nat)
  | close (i : Nat) (rc errno : Int)
  | drop (i : Nat) (rc : Int)

namespace World

def context? (w : World) (i : Nat) : Option Context :=
  match w.objects i with | some (.context x) => some x | _ => none

def pd? (w : World) (i : Nat) : Option PD :=
  match w.objects i with | some (.pd x) => some x | _ => none

def compChannel? (w : World) (i : Nat) : Option CompChannel :=
  match w.objects i with | some (.compChannel x) => some x | _ => none

def cq? (w : World) (i : Nat) : Option CQ :=
  match w.objects i with | some (.cq x) => some x | _ => none

def qp? (w : World) (i : Nat) : Option QP :=
  match w.objects i with | some (.qp x) => some x | _ => none

def srq? (w : World) (i : Nat) : Option SRQ :=
  match w.objects i with | some (.srq x) => some x | _ => none

def cmId? (w : World) (i : Nat) : Option CMID :=
  match w.objects i with | some (.cmId x) => some x | _ => none

/-- An argument that may be `None`. -/
def optional {α : Type} (find : Nat → Option α) : Option Nat → Option (Option (Nat × α))
  | none => some none
  | some i => (find i).map fun x => some (i, x)

/-- The queues with these identities. -/
def queueArgs (w : World) (sendCq recvCq : Nat) (srq : Option Nat) : Option QueueArgs := do
  let scq ← w.cq? sendCq
  let rcq ← w.cq? recvCq
  let srq ← optional w.srq? srq
  return ⟨(sendCq, scq), (recvCq, rcq), srq⟩

/-- What a CQ becomes whose pointer a native function was given. -/
def onCq (w : World) (i : Nat) (f : CQ → Bindings.CQ) : World :=
  match w.cq? i with
  | some x => (if x.events.isOpen then w.use [some x.handle] else w).put i (some (.cq { x with events := f x }))
  | none => w

/-- The users of the external data path of a QP or CQ, which its export and the closing of the export set. -/
def setUsers (w : World) (i : Nat) (n : Int) : World :=
  match w.objects i with
  | some (.qp x) => w.put i (some (.qp { x with externalUsers := n }))
  | some (.cq x) => w.put i (some (.cq { x with events := { x.events with externalUsers := n } }))
  | _ => w

/-- The pointer of an object. -/
def pointer (w : World) (i : Nat) : Option Nat := (w.objects i).bind fun o => o.wrapper.ptr

/-- A method that checks that the object is open, and gives its pointer to a native function. -/
def method (w : World) (i : Nat) : World :=
  match w.pointer i with
  | some p => w.use [some p]
  | none => w

/-- The native calls of `QP._mlx5dv_bridge_info`, which checks that the QP is open and then reads its CQs. -/
def bridgeInfo (w : World) (i : Nat) : World :=
  match w.qp? i with
  | some ⟨some p, _, sendCq, recvCq, _, _, _, _⟩ => w.use [some p, w.pointer sendCq, w.pointer recvCq]
  | _ => w

end World

/-- One event. A call on an object of another class does nothing. -/
def next (b : Binding) (w : World) : Event → World
  | .openDevice name listed result errno => (Device.open b name listed result errno w).1
  | .allocPd i result errno => (w.context? i).elim w fun x => (x.allocPd b i result errno w).1
  | .createCompChannel i result errno => (w.context? i).elim w fun x => (x.createCompChannel b i result errno w).1
  | .createCq op i cqe channel compVector numCompVectors result errno =>
      (w.context? i).elim w fun x => (World.optional w.compChannel? channel).elim w fun ch =>
        (x.createCq b op i cqe ch compVector numCompVectors result errno w).1
  | .regMr i addr length result errno => (w.pd? i).elim w fun x => (x.regMr b i addr length result errno w).1
  | .createAh i result errno => (w.pd? i).elim w fun x => (x.createAh b i result errno w).1
  | .createSrq i result errno => (w.pd? i).elim w fun x => (x.createSrq b i result errno w).1
  | .createQp i sendCq recvCq srq result ex rc errno =>
      (w.pd? i).elim w fun x => (w.queueArgs sendCq recvCq srq).elim w fun args =>
        (x.createQp b i args result ex rc errno w).1
  | .resolve result errno => (CMID.resolve b result errno w).1
  | .cmCreateQp i pd sendCq recvCq srq rc result errno =>
      (w.cmId? i).elim w fun x => (w.pd? pd).elim w fun y => (w.queueArgs sendCq recvCq srq).elim w fun args =>
        (x.createQp b i pd y args rc result errno w).1
  | .connect i rc errno => (w.cmId? i).elim w fun x => (x.connect b i rc errno w).1
  | .disconnect i rc errno => (w.cmId? i).elim w fun x => (x.disconnect b i rc errno w).1
  | .getCqEvent i => w.onCq i fun x => x.events.getCqEvent
  | .ackEvents i nevents => w.onCq i fun x => (x.events.ackEvents b.cqClass nevents).1
  | .users i n => w.setUsers i n
  | .method i => w.method i
  | .bridgeInfo i => w.bridgeInfo i
  | .close i rc errno => (w.objects i).elim w fun o => (o.close b i rc errno w).1
  | .drop i rc => (w.objects i).elim w fun o => o.dealloc i rc w

/-- The objects and the native objects, as wrappers. -/
def World.handles (w : World) : Handles Kind :=
  ⟨fun i => (w.objects i).map Object.wrapper, w.natives, w.cmDevices⟩

/-- The addresses of what is created. -/
def Event.addresses : Event → List Nat
  | .openDevice _ _ result _ => result.toList
  | .allocPd _ result _ | .createCompChannel _ result _ => result.toList
  | .createCq _ _ _ _ _ _ result _ => result.toList
  | .regMr _ _ _ result _ => result.toList
  | .createAh _ result _ | .createSrq _ result _ => result.toList
  | .createQp _ _ _ _ result _ _ _ => result.toList
  | .resolve (.ok (some (id, _))) _ => [id]
  | .cmCreateQp _ _ _ _ _ _ (.ok p) _ => [p]
  | _ => []

/-- The kernel refuses to destroy what is in use, except for a device and an endpoint. -/
def World.Refused (w : World) (i : Nat) : Prop :=
  ∃ x p, w.handles.wrappers i = some x ∧ x.ptr = some p ∧ x.kind ≠ .context ∧ x.kind ≠ .cmId ∧ w.handles.InUse p

/-- EFA has no SRQ and no RDMA CM. -/
def Binding.Has (b : Binding) : Event → Prop
  | .createSrq .. | .resolve .. | .cmCreateQp .. => b.extended = false
  | _ => True

/-- What the binding, the provider, librdmacm and the interpreter allow. New addresses are not in use. The device of an
endpoint may have been opened for another. Only an object that nothing refers to is deallocated. -/
def Enabled (b : Binding) (w : World) (e : Event) : Prop :=
  b.Has e ∧ (∀ p ∈ e.addresses, ¬ w.handles.Live p) ∧
    match e with
    | .resolve (.ok (some (id, ctx))) _ => ctx ∈ w.cmDevices ∨ ctx ≠ id ∧ ¬ w.handles.Live ctx
    | .close i rc _ => rc = 0 → ¬ w.Refused i
    | .drop i rc => (rc = 0 → ¬ w.Refused i) ∧ ¬ w.handles.Referenced i
    | .getCqEvent i => ∀ x, w.cq? i = some x → x.events.isOpen = true
    | _ => True

/-- The objects of a process under one of the bindings. -/
def process (b : Binding) : Machine World Event where
  Enabled := Enabled b
  next := next b

end Rdma4py.Bindings.Objects
