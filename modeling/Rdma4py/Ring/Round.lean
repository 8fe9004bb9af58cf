import Rdma4py.Ring.Layout

/-!
# The rounds of a channel

An iteration of a channel is a reduce-scatter of `world - 1` steps and an all-gather of `world - 1` steps. In each step
a rank sends one message and receives one. The steps of all iterations are numbered through: these are the rounds.
-/

namespace Rdma4py.Ring

/-- The buffers that a message can be written into. -/
inductive Buffer where
  | work
  | scratch
  deriving DecidableEq, Repr

/-- `put_imm_exclusive` copies a range of the sender's work buffer to the same place of a remote buffer.
`send_exclusive` only notifies. -/
inductive Message where
  | put (buffer : Buffer) (offset length : Nat)
  | send
  deriving DecidableEq, Repr

namespace Message

/-- The message writes this byte of this buffer. -/
def Covers : Message → Buffer → Nat → Prop
  | .put into offset length, buffer, byte => into = buffer ∧ offset ≤ byte ∧ byte < offset + length
  | .send, _, _ => False

instance : ∀ m buffer byte, Decidable (Covers m buffer byte)
  | .put .., _, _ => inferInstanceAs (Decidable (_ ∧ _ ∧ _))
  | .send, _, _ => inferInstanceAs (Decidable False)

/-- Every byte of the message has been written. -/
def AllPlaced (placed : Nat → Bool) : Message → Prop
  | .put _ offset length => ∀ i < length, placed (offset + i) = true
  | .send => True

instance (placed : Nat → Bool) : ∀ m, Decidable (AllPlaced placed m)
  | .put _ _ length => Nat.decidableBallLT length _
  | .send => inferInstanceAs (Decidable True)

end Message

namespace Launch

variable (l : Launch)

/-- The steps of `range(1, world)` and of `range(0, world - 1)`. -/
def period : Nat := 2 * (l.world - 1)

/-- All steps of a channel. A channel that is not active has none. -/
def rounds (channel : Nat) : Nat :=
  if channel < l.activeChannels then l.iterations channel * l.period else 0

/-- The iteration of a round. -/
def iteration (round : Nat) : Nat := round / l.period

/-- The place of a round in its iteration. -/
def slot (round : Nat) : Nat := round % l.period

/-- The round belongs to the reduce-scatter. -/
def Scatters (round : Nat) : Prop := l.slot round < l.world - 1

instance (round : Nat) : Decidable (l.Scatters round) := inferInstanceAs (Decidable (_ < _))

/-- `step`. -/
def step (round : Nat) : Nat := if l.Scatters round then l.slot round + 1 else l.slot round - (l.world - 1)

/-- `send_owner`. -/
def sent (rank round : Nat) : Nat := l.sendOwner rank (l.step round)

/-- `recv_owner`, which only the reduce-scatter uses. -/
def received (rank round : Nat) : Nat := l.recvOwner rank (l.step round)

/-- The remote buffer of a round. -/
def buffer (round : Nat) : Buffer := if l.Scatters round then .scratch else .work

/-- The message that a rank sends in a round. An empty chunk still sends one. -/
def message (rank channel round : Nat) : Message :=
  let iteration := l.iteration round
  let owner := l.sent rank round
  if 0 < l.chunkLength channel iteration owner then
    .put (l.buffer round)
      (l.chunkElement channel iteration owner * l.itemsize) (l.chunkLength channel iteration owner * l.itemsize)
  else .send

/-- The elements that a rank reduces in a round. -/
structure Reduces (rank channel round element : Nat) : Prop where
  scatters : l.Scatters round
  lower : l.chunkElement channel (l.iteration round) (l.received rank round) ≤ element
  upper : element < l.chunkElement channel (l.iteration round) (l.received rank round) +
    l.chunkLength channel (l.iteration round) (l.received rank round)

instance (rank channel round element : Nat) : Decidable (l.Reduces rank channel round element) :=
  decidable_of_iff (_ ∧ _ ∧ _) ⟨fun ⟨h₁, h₂, h₃⟩ => ⟨h₁, h₂, h₃⟩, fun ⟨h₁, h₂, h₃⟩ => ⟨h₁, h₂, h₃⟩⟩

end Launch

end Rdma4py.Ring
