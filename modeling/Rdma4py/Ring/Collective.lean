import Mathlib.Logic.Function.Basic
import Rdma4py.Lib.Machine
import Rdma4py.Lib.Memory
import Rdma4py.Ring.Round

/-!
# The collectives of one communicator

The ranks run one collective after the other. Each channel of each rank runs its own program: post a receive, send,
wait for the send, wait for the receive, reduce. The network writes the bytes of a message in any order, each from what
the sender's memory holds at that time, and completes a receive when the bytes are there.
-/

namespace Rdma4py.Ring

open Lib

/-- The bytes of an element. -/
def element {β : Type*} (m : Memory β) (itemsize index : Nat) : Fin itemsize → β := fun i => m (index * itemsize + i)

/-- `x_c + (x_(c-1) + (... + (x_(c+2) + x_(c+1))))`, after the first `i` additions. -/
def ringSum {α : Type*} (add : α → α → α) (world owner : Nat) (x : Nat → α) : Nat → α
  | 0 => x ((owner + 1) % world)
  | i + 1 => add (x ((owner + i + 2) % world)) (ringSum add world owner x i)

/-- The collectives of the same ranks, numbered from 1 on, with the tensors of all ranks. -/
structure Communicator (β : Type*) where
  world : Nat
  launch : Nat → Launch
  world_eq : ∀ k, (launch k).world = world
  add : ∀ k, (Fin (launch k).itemsize → β) → (Fin (launch k).itemsize → β) → Fin (launch k).itemsize → β
  input : Nat → Nat → Memory β

/-- Where a channel stands in its round. -/
inductive Phase where
  | ready
  | posted
  | sent
  | waiting
  | reducing
  deriving DecidableEq, Repr

/-- One channel of a rank. `failed` is `status[channel] != 0`. -/
structure Channel where
  round : Nat
  phase : Phase
  recvTicket : Nat
  sendTicket : Nat
  reduced : Nat → Bool
  failed : Bool

/-- A channel at the start of the kernel. -/
def Channel.launched : Channel := ⟨0, .ready, 0, 0, fun _ => false, false⟩

/-- The ranks, and for each rank and channel the queue pair on which it receives: the receives that it posted, the
messages that the previous rank posted, how many of them have completed, and the bytes of the next one that have been
written. -/
structure State (β : Type*) where
  started : Nat → Nat
  work : Nat → Memory β
  scratch : Nat → Memory β
  channels : Nat → Nat → Channel
  receives : Nat → Nat → Nat
  messages : Nat → Nat → List Message
  delivered : Nat → Nat → Nat
  placed : Nat → Nat → Nat → Bool

inductive Event where
  | start (rank : Nat)
  | postRecv (rank channel : Nat)
  | postSend (rank channel : Nat)
  | waitSend (rank channel : Nat)
  | waitRecv (rank channel : Nat)
  | reduce (rank channel element : Nat)
  | advance (rank channel : Nat)
  | timeout (rank channel : Nat)
  | place (rank channel byte : Nat)
  | deliver (rank channel : Nat)
  deriving DecidableEq, Repr

/-- The table with another entry for `i` and `j`. -/
def set₂ {α : Type*} (f : Nat → Nat → α) (i j : Nat) (v : α) : Nat → Nat → α :=
  fun i' j' => if i' = i ∧ j' = j then v else f i' j'

namespace Event

/-- A step of the network. -/
def OfNetwork : Event → Prop
  | .place .. | .deliver .. => True
  | _ => False

/-- A step of a channel's program. -/
def OfChannel : Event → Prop
  | .postRecv .. | .postSend .. | .waitSend .. | .waitRecv .. | .reduce .. | .advance .. => True
  | _ => False

/-- A wait that does not end by its deadline. -/
def InTime : Event → Prop
  | .timeout .. => False
  | _ => True

instance : DecidablePred InTime
  | .timeout .. => inferInstanceAs (Decidable False)
  | .start .. | .postRecv .. | .postSend .. | .waitSend .. | .waitRecv .. | .reduce .. | .advance .. | .place ..
  | .deliver .. => inferInstanceAs (Decidable True)

end Event

namespace Communicator

variable {β : Type*} (C : Communicator β)

/-- The rank that a rank sends to. -/
def nextRank (rank : Nat) : Nat := (rank + 1) % C.world

/-- The rank that a rank receives from. -/
def prevRank (rank : Nat) : Nat := (rank + C.world - 1) % C.world

/-- The rounds of a channel in a collective. Before the first collective there are none. -/
def rounds (k channel : Nat) : Nat := if k = 0 then 0 else (C.launch k).rounds channel

/-- The rounds of a channel before a collective. -/
def base : Nat → Nat → Nat
  | 0, _ => 0
  | k + 1, channel => base k channel + C.rounds k channel

/-- No rank has started a collective. -/
def initial (work scratch : Nat → Memory β) : State β :=
  ⟨fun _ => 0, work, scratch, fun _ _ => .launched, fun _ _ => 0, fun _ _ => [], fun _ _ => 0, fun _ _ _ => false⟩

/-- The channel is running. -/
def Running (s : State β) (rank channel : Nat) : Prop :=
  rank < C.world ∧ (s.channels rank channel).failed = false ∧
    (s.channels rank channel).round < C.rounds (s.started rank) channel

instance (s : State β) (rank channel : Nat) : Decidable (C.Running s rank channel) :=
  inferInstanceAs (Decidable (_ ∧ _ ∧ _))

/-- All channels of the rank have ended with status 0. -/
def Succeeded (s : State β) (rank : Nat) : Prop :=
  ∀ channel < (C.launch (s.started rank)).activeChannels,
    (s.channels rank channel).failed = false ∧ (s.channels rank channel).round = C.rounds (s.started rank) channel

instance (s : State β) (rank : Nat) : Decidable (C.Succeeded s rank) := Nat.decidableBallLT _ _

/-- The collective that a rank is in. -/
def current (s : State β) (rank : Nat) : Launch := C.launch (s.started rank)

/-- What a rank may do, and what the network may do. -/
def Enabled (s : State β) : Event → Prop
  | .start rank => rank < C.world ∧ C.Succeeded s rank
  | .postRecv rank channel => C.Running s rank channel ∧ (s.channels rank channel).phase = .ready
  | .postSend rank channel => C.Running s rank channel ∧ (s.channels rank channel).phase = .posted
  | .waitSend rank channel =>
      C.Running s rank channel ∧ (s.channels rank channel).phase = .sent ∧
        (s.channels rank channel).sendTicket < s.delivered (C.nextRank rank) channel
  | .waitRecv rank channel =>
      C.Running s rank channel ∧ (s.channels rank channel).phase = .waiting ∧
        (s.channels rank channel).recvTicket < s.delivered rank channel
  | .reduce rank channel element =>
      C.Running s rank channel ∧ (s.channels rank channel).phase = .reducing ∧
        (C.current s rank).Reduces rank channel (s.channels rank channel).round element ∧
          (s.channels rank channel).reduced element = false
  | .advance rank channel =>
      C.Running s rank channel ∧ (s.channels rank channel).phase = .reducing ∧
        ∀ element < (C.current s rank).count,
          (C.current s rank).Reduces rank channel (s.channels rank channel).round element →
            (s.channels rank channel).reduced element = true
  | .timeout rank channel =>
      C.Running s rank channel ∧ ((s.channels rank channel).phase = .sent ∨ (s.channels rank channel).phase = .waiting)
  | .place rank channel byte =>
      rank < C.world ∧ s.placed rank channel byte = false ∧
        ∃ m ∈ (s.messages rank channel)[s.delivered rank channel]?, m.Covers .work byte ∨ m.Covers .scratch byte
  | .deliver rank channel =>
      rank < C.world ∧ s.delivered rank channel < s.receives rank channel ∧
        ∃ m ∈ (s.messages rank channel)[s.delivered rank channel]?, m.AllPlaced (s.placed rank channel)

instance Enabled.decidable (s : State β) : ∀ e, Decidable (C.Enabled s e)
  | .start _ | .postRecv _ _ | .postSend _ _ | .waitSend _ _ | .waitRecv _ _ | .timeout _ _ =>
      inferInstanceAs (Decidable (_ ∧ _))
  | .reduce _ _ _ => inferInstanceAs (Decidable (_ ∧ _))
  | .advance _ _ => inferInstanceAs (Decidable (_ ∧ _ ∧ _))
  | .place _ _ _ => inferInstanceAs (Decidable (_ ∧ _ ∧ _))
  | .deliver _ _ => inferInstanceAs (Decidable (_ ∧ _ ∧ _))

/-- The collective's input, copied over what was in the work buffer. -/
def copyIn (s : State β) (rank : Nat) : Memory β := fun byte =>
  let k := s.started rank + 1
  if byte < (C.launch k).count * (C.launch k).itemsize then C.input k rank byte else s.work rank byte

/-- `reduce_volatile` for one element. -/
def reduceElement (s : State β) (rank index : Nat) : Memory β := fun byte =>
  let l := C.current s rank
  if byte / l.itemsize = index then
    C.add (s.started rank) (element (s.work rank) l.itemsize index) (element (s.scratch rank) l.itemsize index)
      ⟨byte % l.itemsize, Nat.mod_lt _ l.itemsize_pos⟩
  else s.work rank byte

/-- The channel at the start of its next round. -/
def advanced (c : Channel) : Channel := { c with round := c.round + 1, phase := .ready }

/-- Where an event leads. -/
def next (s : State β) : Event → State β
  | .start rank =>
      { s with
        started := Function.update s.started rank (s.started rank + 1)
        work := Function.update s.work rank (C.copyIn s rank)
        channels := Function.update s.channels rank fun _ => .launched }
  | .postRecv rank channel =>
      { s with
        receives := set₂ s.receives rank channel (s.receives rank channel + 1)
        channels := set₂ s.channels rank channel
          { s.channels rank channel with phase := .posted, recvTicket := s.receives rank channel } }
  | .postSend rank channel =>
      { s with
        messages := set₂ s.messages (C.nextRank rank) channel
          (s.messages (C.nextRank rank) channel ++
            [(C.current s rank).message rank channel (s.channels rank channel).round])
        channels := set₂ s.channels rank channel
          { s.channels rank channel with
            phase := .sent, sendTicket := (s.messages (C.nextRank rank) channel).length } }
  | .waitSend rank channel =>
      { s with channels := set₂ s.channels rank channel { s.channels rank channel with phase := .waiting } }
  | .waitRecv rank channel =>
      { s with
        channels := set₂ s.channels rank channel
          (if (C.current s rank).Scatters (s.channels rank channel).round then
            { s.channels rank channel with phase := .reducing, reduced := fun _ => false }
          else advanced (s.channels rank channel)) }
  | .reduce rank channel element =>
      { s with
        work := Function.update s.work rank (C.reduceElement s rank element)
        channels := set₂ s.channels rank channel
          { s.channels rank channel with reduced := Function.update (s.channels rank channel).reduced element true } }
  | .advance rank channel =>
      { s with channels := set₂ s.channels rank channel (advanced (s.channels rank channel)) }
  | .timeout rank channel =>
      { s with channels := set₂ s.channels rank channel { s.channels rank channel with failed := true } }
  | .place rank channel byte =>
      let value := s.work (C.prevRank rank) byte
      let placed := set₂ s.placed rank channel (Function.update (s.placed rank channel) byte true)
      match (s.messages rank channel)[s.delivered rank channel]? with
      | some (.put .work _ _) =>
          { s with placed, work := Function.update s.work rank (Function.update (s.work rank) byte value) }
      | some (.put .scratch _ _) =>
          { s with placed, scratch := Function.update s.scratch rank (Function.update (s.scratch rank) byte value) }
      | _ => s
  | .deliver rank channel =>
      { s with
        delivered := set₂ s.delivered rank channel (s.delivered rank channel + 1)
        placed := set₂ s.placed rank channel fun _ => false }

/-- The rank has not yet had a message acknowledged that takes this byte from its work buffer. -/
def StillSends (s : State β) (rank channel round byte : Nat) : Prop :=
  round < C.rounds (s.started rank) channel ∧
    (∃ into, ((C.current s rank).message rank channel round).Covers into byte) ∧
      s.delivered (C.nextRank rank) channel ≤ C.base (s.started rank) channel + round

/-- The rank has not yet reduced the element of this byte, in its work buffer and its scratch buffer. -/
def StillReduces (s : State β) (rank channel round byte : Nat) : Prop :=
  round < C.rounds (s.started rank) channel ∧
    (C.current s rank).Reduces rank channel round (byte / (C.current s rank).itemsize) ∧
      ¬ (round < (s.channels rank channel).round ∨
        (round = (s.channels rank channel).round ∧ (s.channels rank channel).phase = .reducing ∧
          (s.channels rank channel).reduced (byte / (C.current s rank).itemsize) = true))

/-- The ranks and the network. -/
def machine : Machine (State β) Event where
  Enabled := C.Enabled
  next := C.next

/-- The ranks and the network, where no wait times out. -/
def untimed : Machine (State β) Event := C.machine.when fun _ e => e.InTime

instance untimed.decidable (s : State β) (e : Event) : Decidable (C.untimed.Enabled s e) :=
  inferInstanceAs (Decidable (C.Enabled s e ∧ e.InTime))

/-- The network alone. -/
def network : Machine (State β) Event := C.machine.when fun _ e => e.OfNetwork

end Communicator

end Rdma4py.Ring
