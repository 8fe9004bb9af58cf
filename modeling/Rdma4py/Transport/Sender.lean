import Rdma4py.Transport.Header

/-!
# What a thread sender puts on its connections

`TensorSender.send` in thread mode cuts the tensor into one range per flow. Each flow sends one header and its range as
often as there are iterations, in chunks.
-/

namespace Rdma4py.Transport

open Lib

/-- `nbytes * flow // flows`, where a range of `_partitions` starts and the one before it ends. -/
def partitionBound (nbytes flows flow : Nat) : Nat := nbytes * flow / flows

/-- `_partitions`. -/
def partitions (nbytes flows : Nat) : Except Exn (List (Nat × Nat)) :=
  if flows = 0 then .error (.valueError "flows must be positive")
  else if nbytes < flows then .error (.valueError "tensor must contain at least one byte per flow")
  else
    .ok ((List.range flows).map fun flow =>
      (partitionBound nbytes flows flow, partitionBound nbytes flows (flow + 1)))

/-- One call of `send`: the tensor as bytes, the settings of the sender and the identifier that was drawn. -/
structure Sending where
  id : TransferId
  source : List UInt8
  flows : Nat
  chunkBytes : Nat
  stripeBytes : Nat
  iterations : Nat
  flows_pos : 0 < flows
  chunkBytes_pos : 0 < chunkBytes
  stripeBytes_pos : 0 < stripeBytes
  iterations_pos : 0 < iterations

/-- The loop that sends `view[position:end]` in chunks. -/
def sendRange (view : List UInt8) (chunkBytes stop : Nat) : Nat → Nat → List UInt8
  | 0, _ => []
  | fuel + 1, position =>
      if position < stop then
        let next := min (position + chunkBytes) stop
        slice view position (next - position) ++ sendRange view chunkBytes stop fuel next
      else []

/-- The chunks of a range are the range; every round of the loop advances. -/
theorem sendRange_eq {view : List UInt8} {chunkBytes stop : Nat} (hc : 0 < chunkBytes) {fuel position : Nat}
    (hf : stop - position ≤ fuel) :
    sendRange view chunkBytes stop fuel position = slice view position (stop - position) := by
  induction fuel generalizing position with
  | zero =>
      have hz : stop - position = 0 := by omega
      simp [sendRange, hz, slice]
  | succ fuel ih =>
      rw [sendRange]
      split
      next hlt =>
        dsimp only
        rw [ih (by omega)]
        have hsplit : stop - position = (min (position + chunkBytes) stop - position) +
            (stop - min (position + chunkBytes) stop) := by omega
        have hdrop : min (position + chunkBytes) stop = position + (min (position + chunkBytes) stop - position) := by
          omega
        rw [slice, slice, slice, hsplit, List.take_add, List.drop_drop, ← hdrop]
      next hge =>
        have hz : stop - position = 0 := by omega
        simp [hz, slice]

namespace Sending

variable (t : Sending)

/-- Where the range of a flow starts. -/
def start (flow : Nat) : Nat := partitionBound t.source.length t.flows flow

/-- Where the range of a flow ends. -/
def stop (flow : Nat) : Nat := partitionBound t.source.length t.flows (flow + 1)

/-- The header of a flow. -/
def staticHeader (flow : Nat) : Header :=
  ⟨magic, t.id.bytes, flow, t.source.length, t.start flow, t.stop flow - t.start flow⟩

/-- The payload of one iteration. -/
def payload (flow : Nat) : List UInt8 :=
  sendRange t.source t.chunkBytes (t.stop flow) (t.stop flow - t.start flow) (t.start flow)

/-- What `_send_flow` sends. Nothing is sent when `_partitions` or the header raises. -/
def staticFlow (flow : Nat) : List UInt8 :=
  if t.source.length < t.flows ∨ ¬ (t.staticHeader flow).Fits then []
  else (t.staticHeader flow).pack ++ (List.replicate t.iterations (t.payload flow)).flatten

end Sending

end Rdma4py.Transport
