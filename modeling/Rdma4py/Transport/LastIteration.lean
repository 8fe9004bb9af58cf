import Rdma4py.Transport.DynamicTransfer
import Rdma4py.Transport.StaticTransfer

/-!
# A thread receiver and a process sender

What stays in the tensor is the last iteration. The headers of the sender stand between its stripes, and shift the place
where a thread receiver looks for it.
-/

namespace Rdma4py.Transport

open Lib

namespace Receiving

variable (r : Receiving)

/-- The length of a range, where all ranges are of one length. -/
def width : Nat := r.nbytes / r.flows

/-- So many stripes with their headers lie before the one where the last iteration begins. -/
def turns : Nat := (r.iterations - 1) * r.width / (headerSize + r.width)

/-- The last iteration begins so far behind the header of that stripe. -/
def shift : Nat := (r.iterations - 1) * r.width % (headerSize + r.width)

end Receiving

namespace Static

variable (t : Sending) (r : Receiving)

/-- The ranges of the receiver are the stripes of the sender, and their headers can be packed. -/
structure Aligned : Prop where
  total : t.source.length = r.nbytes
  enough : r.flows ≤ r.nbytes
  flows : r.flows ≤ t.flows
  stripes : r.flows = 1 ∧ r.nbytes ≤ t.stripeBytes ∨ r.flows * t.stripeBytes = r.nbytes
  flowField : r.flows ≤ 2 ^ 32
  totalField : r.nbytes < 2 ^ 64

instance : Decidable (Aligned t r) :=
  decidable_of_iff (t.source.length = r.nbytes ∧ r.flows ≤ r.nbytes ∧ r.flows ≤ t.flows ∧
      (r.flows = 1 ∧ r.nbytes ≤ t.stripeBytes ∨ r.flows * t.stripeBytes = r.nbytes) ∧ r.flows ≤ 2 ^ 32 ∧
      r.nbytes < 2 ^ 64)
    ⟨fun ⟨h₁, h₂, h₃, h₄, h₅, h₆⟩ => ⟨h₁, h₂, h₃, h₄, h₅, h₆⟩, fun ⟨h₁, h₂, h₃, h₄, h₅, h₆⟩ => ⟨h₁, h₂, h₃, h₄, h₅, h₆⟩⟩

/-- A range of the source. -/
def range (flow : Nat) : List UInt8 := slice t.source (flow * r.width) r.width

/-- What the sender can put behind the stripe where the last iteration begins: another stripe with its header, if it sends
so many to every flow of the receiver, or the terminator, if the last iteration ends in it and the other stripes have
another connection. A counter that wraps gives out all tasks again. -/
def followers (flow : Nat) : List (List UInt8) :=
  (if r.turns + 2 ≤ t.iterations ∨ ¬ Dynamic.NoWrap t then
    (List.range r.flows).map fun stripe => (t.taskHeader flow stripe).pack ++ range t r stripe
  else []) ++
  if r.shift ≤ headerSize ∧
      (r.turns + 1 = t.iterations ∨ r.turns + 1 < t.iterations ∧ 1 < t.flows ∨ ¬ Dynamic.NoWrap t) then
    [(t.terminator flow).pack]
  else []

/-- The receiver has one iteration, its ranges are not the stripes of the sender, or wherever the last iteration of a flow
may begin and whatever may follow there, it reads the range of the flow. The first stripe of a flow is its range. -/
def HoldsWhen : Prop :=
  r.iterations ≤ 1 ∨ ¬ Aligned t r ∨
    ∀ flow < r.flows, ∀ stripe < r.flows, stripe = flow ∨ 0 < r.turns → ∀ next ∈ followers t r flow,
      slice (range t r stripe ++ next) r.shift r.width = range t r flow

instance : Decidable (HoldsWhen t r) := inferInstanceAs (Decidable (_ ∨ _ ∨ _))

/-- Every run of the receiver over these connections ends with the source in the tensor, if it returns. -/
def NeverCorrupts (tensor : Memory UInt8) (connections : Nat → Connection) : Prop :=
  ∀ s, (machine r).Reaches (.initial tensor connections) s → ∀ nbytes, returned r s = some (.ok nbytes) →
    s.tensor.read r.nbytes 0 = t.source

/-- So it is for every run of the sender, whatever its connections deliver. -/
def Safe : Prop :=
  ∀ p, (Dynamic.sendMachine t).Reaches .initial p → ∀ (deliveries : Nat → Dynamic.Delivery) (tensor : Memory UInt8),
    NeverCorrupts t r tensor fun flow => (deliveries flow).connection p

end Static

end Rdma4py.Transport
