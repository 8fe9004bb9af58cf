import Rdma4py.Transport.StaticReceiver

/-!
# The process receiver

`TensorReceiver.receive_into` in process mode: one worker for each flow accepts one connection and receives stripes,
each behind its header, until the terminator. A stripe is placed by the first worker that marks it; the mark is made
under a lock, the copy outside of it. The workers are forks of the caller: what they copy reaches the caller's tensor only
where its pages are shared with them.
-/

namespace Rdma4py.Transport

open Lib

namespace Dynamic

/-- What a fork makes of the pages of the destination: they stay those of the caller, or a worker that writes to one gets a
copy of it. -/
inductive Mapping
  | shared
  | copyOnWrite
  deriving DecidableEq, Repr

/-- What `_is_process_shared` finds behind a destination: a `SharedTensor` or a tensor made from one, an `mmap.mmap` with
its flags, an object that says in `is_shared()` whether its storage is shared, or none of these. -/
inductive Storage
  | sharedTensor
  | mmap (flags : Mapping)
  | tensor (isShared : Bool)
  | other
  deriving DecidableEq, Repr

/-- `_is_process_shared`. The flags of an `mmap.mmap` are not looked at. -/
def isProcessShared : Storage → Bool
  | .sharedTensor => true
  | .mmap _ => true
  | .tensor isShared => isShared
  | .other => false

/-- What the storage is. A `SharedTensor` maps anonymous memory with the default flags, which share it. -/
def Storage.mapping : Storage → Mapping
  | .sharedTensor => .shared
  | .mmap flags => flags
  | .tensor isShared => if isShared then .shared else .copyOnWrite
  | .other => .copyOnWrite

/-- Where a worker stands, with the transfer of its last header, `received_bytes` and `locally_seen`: in a header, in a
stripe, before the lock, before the copy, or at its end. -/
inductive Worker
  | header (id : Option (List UInt8)) (receivedBytes : Nat) (seen : List Nat) (got : List UInt8)
  | stripe (id : List UInt8) (receivedBytes : Nat) (seen : List Nat) (offset nbytes : Nat) (staged : List UInt8)
  | marking (id : List UInt8) (receivedBytes : Nat) (seen : List Nat) (offset : Nat) (data : List UInt8)
  | copying (id : List UInt8) (receivedBytes : Nat) (seen : List Nat) (offset : Nat) (data : List UInt8)
  | done (id : List UInt8) (receivedBytes : Nat)
  | failed (e : Exn)
  deriving DecidableEq, Repr

/-- The tensor of the caller, and the copies that the workers have where its pages are not shared. -/
structure Destination where
  mapping : Mapping
  tensor : Memory UInt8
  copies : Nat → Memory UInt8

namespace Destination

/-- What the worker of a flow has in the destination. -/
def view (d : Destination) (flow : Nat) : Memory UInt8 :=
  match d.mapping with
  | .shared => d.tensor
  | .copyOnWrite => d.copies flow

/-- The worker of a flow stores bytes in the destination. -/
def store (d : Destination) (flow : Nat) (data : List UInt8) (offset : Nat) : Destination :=
  match d.mapping with
  | .shared => { d with tensor := d.tensor.write data offset }
  | .copyOnWrite => { d with copies := Function.update d.copies flow ((d.copies flow).write data offset) }

end Destination

/-- The workers, their connections, the destination and `placed`. The last field is not the source's: it lists which flow
wrote which stripe. -/
structure State extends Destination where
  placed : Nat → Bool
  workers : Nat → Worker
  connections : Nat → Connection
  written : List (Nat × Nat)

def State.initial (mapping : Mapping) (tensor : Memory UInt8) (connections : Nat → Connection) : State :=
  ⟨⟨mapping, tensor, fun _ => tensor⟩, fun _ => false, fun _ => .header none 0 [] [], connections, []⟩

variable (r : Receiving)

/-- How many bytes the worker asks for. -/
def wanted : Worker → Nat
  | .header _ _ _ got => headerSize - got.length
  | .stripe _ _ _ _ nbytes staged => min (staged.length + r.chunkBytes) nbytes - staged.length
  | _ => 0

/-- `_receive_dynamic_flow` after a header: its checks. -/
def checkHeader (flow : Nat) (id : Option (List UInt8)) (receivedBytes : Nat) (seen : List Nat) (h : Header) : Worker :=
  if h.flow ≠ flow ∨ h.total ≠ r.nbytes ∨ (id ≠ none ∧ id ≠ some h.transferId) then
    .failed (headerMismatch flow)
  else if h.magic = done then
    if h.offset ≠ 0 ∨ h.nbytes ≠ 0 then .failed (.runtimeError "invalid tensor flow terminator")
    else .done h.transferId receivedBytes
  else if h.magic ≠ magic ∨ h.offset % r.stripeBytes ≠ 0 ∨
      (h.nbytes : Int) ≠ min (r.stripeBytes : Int) (h.total - h.offset) ∨ h.nbytes = 0 then
    .failed (.runtimeError "invalid dynamic tensor stripe")
  else .stripe h.transferId receivedBytes seen h.offset h.nbytes []

/-- The worker after it received these bytes. -/
def received (flow : Nat) (bytes : List UInt8) : Worker → Worker
  | .header id receivedBytes seen got =>
      if (got ++ bytes).length < headerSize then .header id receivedBytes seen (got ++ bytes)
      else checkHeader r flow id receivedBytes seen (.unpack (got ++ bytes))
  | .stripe id receivedBytes seen offset nbytes staged =>
      if (staged ++ bytes).length < nbytes then .stripe id receivedBytes seen offset nbytes (staged ++ bytes)
      else if offset / r.stripeBytes ∈ seen then .header (some id) (receivedBytes + nbytes) seen []
      else .marking id (receivedBytes + nbytes) (offset / r.stripeBytes :: seen) offset (staged ++ bytes)
  | w => w

/-- The worker after its connection had nothing more for it. -/
def starved (flow : Nat) (reset : Bool) : Worker → Worker
  | .header .. => .failed (exhausted reset "TCP peer closed during the transfer header")
  | .stripe .. => .failed (exhausted reset s!"TCP peer closed during tensor flow {flow}")
  | w => w

/-- What the workers do. -/
inductive Event
  | receive (flow count : Nat)
  | mark (flow : Nat)
  | copy (flow : Nat)
  deriving DecidableEq, Repr

/-- The worker waits for bytes. -/
def Worker.receives : Worker → Bool
  | .header .. => true
  | .stripe .. => true
  | _ => false

/-- The worker is before the lock. -/
def Worker.marks : Worker → Bool
  | .marking .. => true
  | _ => false

/-- The worker is before the copy. -/
def Worker.places : Worker → Bool
  | .copying .. => true
  | _ => false

/-- A worker that waits for bytes gets as many as the network has for it, or learns that there are no more. -/
def Enabled (s : State) : Event → Prop
  | .receive flow count => flow < r.flows ∧ (s.workers flow).receives ∧
      ((s.connections flow).data = [] ∨ 0 < count ∧ count ≤ wanted r (s.workers flow) ∧
        count ≤ (s.connections flow).data.length)
  | .mark flow => flow < r.flows ∧ (s.workers flow).marks
  | .copy flow => flow < r.flows ∧ (s.workers flow).places

/-- A call of `recv_into`. -/
def receive (flow count : Nat) (s : State) : State :=
  let c := s.connections flow
  match c.data with
  | [] => { s with workers := Function.update s.workers flow (starved flow c.reset (s.workers flow)) }
  | _ =>
      { s with
        workers := Function.update s.workers flow (received r flow (c.data.take count) (s.workers flow))
        connections := Function.update s.connections flow { c with data := c.data.drop count } }

/-- Under the lock: the first worker of a stripe marks it, to place it. -/
def mark (flow : Nat) (s : State) : State :=
  match s.workers flow with
  | .marking id receivedBytes seen offset data =>
      if s.placed (offset / r.stripeBytes) then
        { s with workers := Function.update s.workers flow (.header (some id) receivedBytes seen []) }
      else
        { s with
          placed := Function.update s.placed (offset / r.stripeBytes) true
          workers := Function.update s.workers flow (.copying id receivedBytes seen offset data) }
  | _ => s

/-- Outside the lock: the stripe is copied. -/
def copy (flow : Nat) (s : State) : State :=
  match s.workers flow with
  | .copying id receivedBytes seen offset data =>
      { s with
        toDestination := s.store flow data offset
        workers := Function.update s.workers flow (.header (some id) receivedBytes seen [])
        written := (flow, offset / r.stripeBytes) :: s.written }
  | _ => s

def next (s : State) : Event → State
  | .receive flow count => receive r flow count s
  | .mark flow => mark r flow s
  | .copy flow => copy r flow s

def machine : Machine State Event := ⟨Enabled r, next r⟩

instance (s : State) : (e : Event) → Decidable ((machine r).Enabled s e)
  | .receive .. => inferInstanceAs (Decidable (_ ∧ _ ∧ (_ ∨ _ ∧ _ ∧ _)))
  | .mark _ => inferInstanceAs (Decidable (_ ∧ _))
  | .copy _ => inferInstanceAs (Decidable (_ ∧ _))

/-! ## The end of `receive_into` -/

/-- `stripe_count`. -/
def stripeCount : Nat := (r.nbytes + r.stripeBytes - 1) / r.stripeBytes

/-- The results of the workers in order, once all have ended. -/
def messages (s : State) : List Nat → Option (List (Except Exn (List UInt8 × Nat)))
  | [] => some []
  | flow :: flows =>
      match s.workers flow, messages s flows with
      | .done id receivedBytes, some results => some (.ok (id, receivedBytes) :: results)
      | .failed e, some results => some (.error e :: results)
      | _, _ => none

/-- The successful results, if all are. -/
def succeeded : List (Except Exn (List UInt8 × Nat)) → Option (List (List UInt8 × Nat))
  | [] => some []
  | .ok result :: results => (succeeded results).map (result :: ·)
  | .error _ :: _ => none

/-- How `receive_into` ends, if it has: with the number of bytes received, or with an exception. `shared` is what
`_is_process_shared` says or `assume_shared` assumes. -/
def returned (shared : Bool) (s : State) : Option (Except Exn Nat) :=
  if r.iterations = 0 then some (.error (.valueError "iterations must be positive"))
  else if shared = false then
    some (.error (.valueError "process receivers require SharedTensor or shared PyTorch storage"))
  else
    match messages s (List.range r.flows) with
    | none => none
    | some results =>
        match succeeded results with
        | none => some (.error (.external "worker failures"))
        | some results =>
            if (List.range (stripeCount r)).all s.placed = false then
              some (.error (.runtimeError "dynamic tensor workers left destination gaps"))
            else
              let receivedBytes := (results.map Prod.snd).sum
              if (results.map Prod.fst).dedup.length ≠ 1 ∨ receivedBytes ≠ r.nbytes * r.iterations then
                some (.error (.runtimeError "received tensor flows belong to different transfers"))
              else if receivedBytes = 0 then some (.error (.valueError "max() arg is an empty sequence"))
              else some (.ok receivedBytes)

end Dynamic

end Rdma4py.Transport
