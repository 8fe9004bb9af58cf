import Mathlib.Data.List.Dedup
import Rdma4py.Lib.Machine
import Rdma4py.Lib.Memory
import Rdma4py.Transport.Sender

/-!
# The thread receiver

`TensorReceiver.receive_into` in thread mode: one thread for each flow accepts one connection, compares the header with
its own range and receives the range as often as there are iterations, straight into the tensor. The threads interleave,
and every call of `recv_into` returns as many bytes as the network has for it.
-/

namespace Rdma4py.Transport

open Lib

/-- What a connection delivers: bytes, and after them an end of file or an error. -/
structure Connection where
  data : List UInt8
  reset : Bool
  deriving DecidableEq, Repr

/-- A call of `receive_into`: the length of the tensor and the settings of the receiver. -/
structure Receiving where
  nbytes : Nat
  flows : Nat
  chunkBytes : Nat
  stripeBytes : Nat
  iterations : Nat
  flows_pos : 0 < flows
  chunkBytes_pos : 0 < chunkBytes
  stripeBytes_pos : 0 < stripeBytes

namespace Receiving

variable (r : Receiving)

/-- Where the range of a flow starts. -/
def start (flow : Nat) : Nat := partitionBound r.nbytes r.flows flow

/-- Where the range of a flow ends. -/
def stop (flow : Nat) : Nat := partitionBound r.nbytes r.flows (flow + 1)

end Receiving

/-- The exception for a header that is not the expected one. -/
def headerMismatch (flow : Nat) : Exn :=
  .runtimeError s!"tensor flow {flow} header does not match the destination"

/-- What a call of `recv_into` raises on a connection that has no more bytes. -/
def exhausted (reset : Bool) (text : String) : Exn := if reset then .connectionReset else .runtimeError text

namespace Static

/-- Where a thread stands: in the header, with the bytes received so far; in the payload, with the transfer of the
header, the iteration and the position; or at its end. -/
inductive Thread
  | header (got : List UInt8)
  | payload (id : List UInt8) (iteration position : Nat)
  | done (id : List UInt8)
  | failed (e : Exn)
  deriving DecidableEq, Repr

/-- The thread has ended. -/
def Thread.ended : Thread → Bool
  | .done _ => true
  | .failed _ => true
  | _ => false

/-- The threads, their connections and the tensor. -/
structure State where
  tensor : Memory UInt8
  threads : Nat → Thread
  connections : Nat → Connection

def State.initial (tensor : Memory UInt8) (connections : Nat → Connection) : State :=
  ⟨tensor, fun _ => .header [], connections⟩

variable (r : Receiving)

/-- How many bytes the thread asks for. -/
def wanted (flow : Nat) : Thread → Nat
  | .header got => headerSize - got.length
  | .payload _ _ position => min (position + r.chunkBytes) (r.stop flow) - position
  | _ => 0

/-- `_receive_flow` after the header: the comparison with the expected one. -/
def checkHeader (flow : Nat) (header : Header) : Thread :=
  if (header.magic, header.flow, header.total, header.offset, header.nbytes) =
      (magic, flow, r.nbytes, r.start flow, r.stop flow - r.start flow) then
    if r.iterations = 0 then .done header.transferId else .payload header.transferId 0 (r.start flow)
  else .failed (headerMismatch flow)

/-- The thread after it received these bytes. -/
def received (flow : Nat) (bytes : List UInt8) : Thread → Thread
  | .header got =>
      if (got ++ bytes).length < headerSize then .header (got ++ bytes)
      else checkHeader r flow (.unpack (got ++ bytes))
  | .payload id iteration position =>
      if position + bytes.length < r.stop flow then .payload id iteration (position + bytes.length)
      else if iteration + 1 < r.iterations then .payload id (iteration + 1) (r.start flow)
      else .done id
  | t => t

/-- The tensor after the thread received these bytes. -/
def placed (bytes : List UInt8) (tensor : Memory UInt8) : Thread → Memory UInt8
  | .payload _ _ position => tensor.write bytes position
  | _ => tensor

/-- The thread after its connection had nothing more for it. -/
def starved (flow : Nat) (reset : Bool) : Thread → Thread
  | .header _ => .failed (exhausted reset "TCP peer closed during the transfer header")
  | .payload .. => .failed (exhausted reset s!"TCP peer closed during tensor flow {flow}")
  | t => t

/-- A thread receives: its flow and the number of bytes that the call returns. -/
structure Event where
  flow : Nat
  count : Nat
  deriving DecidableEq, Repr

/-- The thread runs, and the network has that many of the bytes it asks for, or no more bytes at all. -/
def Enabled (s : State) (e : Event) : Prop :=
  e.flow < r.flows ∧ (s.threads e.flow).ended = false ∧
    ((s.connections e.flow).data = [] ∨ 0 < e.count ∧ e.count ≤ wanted r e.flow (s.threads e.flow) ∧
      e.count ≤ (s.connections e.flow).data.length)

instance (s : State) (e : Event) : Decidable (Enabled r s e) :=
  inferInstanceAs (Decidable (_ ∧ _ ∧ (_ ∨ _ ∧ _ ∧ _)))

def next (s : State) (e : Event) : State :=
  let c := s.connections e.flow
  let t := s.threads e.flow
  match c.data with
  | [] => { s with threads := Function.update s.threads e.flow (starved e.flow c.reset t) }
  | _ =>
      let bytes := c.data.take e.count
      { tensor := placed bytes s.tensor t
        threads := Function.update s.threads e.flow (received r e.flow bytes t)
        connections := Function.update s.connections e.flow { c with data := c.data.drop e.count } }

def machine : Machine State Event := ⟨Enabled r, next r⟩

instance (s : State) (e : Event) : Decidable ((machine r).Enabled s e) := inferInstanceAs (Decidable (Enabled r s e))

/-! ## The end of `receive_into` -/

/-- The results of the threads in order, once all have ended: the transfer of each flow, or the first exception. -/
def results (s : State) : List Nat → Option (Except Exn (List (List UInt8)))
  | [] => some (.ok [])
  | flow :: flows =>
      match s.threads flow, results s flows with
      | _, none => none
      | .done id, some (.ok ids) => some (.ok (id :: ids))
      | .done _, some (.error e) => some (.error e)
      | .failed e, some _ => some (.error e)
      | _, _ => none

/-- How `receive_into` ends, if it has: with the number of bytes received, or with an exception. -/
def returned (s : State) : Option (Except Exn Nat) :=
  if r.iterations = 0 then some (.error (.valueError "iterations must be positive"))
  else
    match partitions r.nbytes r.flows with
    | .error e => some (.error e)
    | .ok ranges =>
        match results s (List.range r.flows) with
        | none => none
        | some (.error e) => some (.error e)
        | some (.ok ids) =>
            let receivedBytes := (ranges.map fun p => (p.2 - p.1) * r.iterations).sum
            if ids.dedup.length ≠ 1 ∨ receivedBytes ≠ r.nbytes * r.iterations then
              some (.error (.runtimeError "received tensor flows belong to different transfers"))
            else some (.ok receivedBytes)

end Static

end Rdma4py.Transport
