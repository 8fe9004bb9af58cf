import Rdma4py.Ring.Lemmas.Counts

/-!
# The sums of a chunk

What a byte holds while its chunk goes round: the rank's input, the sum up to the rank's stage, or the result.
-/

namespace Rdma4py.Ring

open Lib

variable {β : Type*} {m : Memory β} {itemsize index byte : Nat}

theorem byte_div (i : Fin itemsize) : (index * itemsize + i) / itemsize = index :=
  eq_div_of_bounds (Nat.le_add_right ..) (Nat.add_lt_add_left i.isLt _)

theorem byte_mod (i : Fin itemsize) : (index * itemsize + i) % itemsize = i := by
  rw [Nat.add_comm, Nat.add_mul_mod_self_right, Nat.mod_eq_of_lt i.isLt]

/-- A byte is a byte of its element. -/
theorem element_mod (m : Memory β) (h : 0 < itemsize) (byte : Nat) :
    element m itemsize (byte / itemsize) ⟨byte % itemsize, Nat.mod_lt _ h⟩ = m byte := by
  rw [element, Nat.div_add_mod']

theorem element_congr {m' : Memory β} (h : ∀ byte, byte / itemsize = index → m byte = m' byte) :
    element m itemsize index = element m' itemsize index :=
  funext fun i => h _ (byte_div i)

namespace Launch

/-- The round in which the result of a chunk arrives at the rank of a stage. -/
def arrival (l : Launch) (iteration stage : Nat) : Nat := iteration * l.period + (l.world - 1 + stage)

variable {l : Launch} {iteration stage channel : Nat}

theorem arrival_lt (h : stage < l.world - 1) : l.world - 1 + stage < l.period := by
  rw [period]
  omega

theorem not_scatters_arrival (h : stage < l.world - 1) : ¬ l.Scatters (l.arrival iteration stage) := by
  rw [Scatters, arrival, slot_eq_of (arrival_lt h)]
  omega

theorem iteration_arrival (h : stage < l.world - 1) : l.iteration (l.arrival iteration stage) = iteration :=
  iteration_eq_of (arrival_lt h)

theorem slot_arrival (h : stage < l.world - 1) : l.slot (l.arrival iteration stage) = l.world - 1 + stage :=
  slot_eq_of (arrival_lt h)

theorem arrival_lt_rounds (h : stage < l.world - 1) (hactive : channel < l.activeChannels)
    (hrunning : iteration < l.iterations channel) : l.arrival iteration stage < l.rounds channel :=
  (lt_rounds_iff (arrival_lt h)).mpr ⟨hactive, hrunning⟩

end Launch

/-- The channel has made its own addition to the element, or has none to make. -/
def Channel.Added (c : Channel) (l : Launch) (iteration stage element : Nat) : Prop :=
  stage = 0 ∨ iteration * l.period + stage ≤ c.round ∨
    (iteration * l.period + stage = c.round + 1 ∧ c.phase = .reducing ∧ c.reduced element = true)

/-- The byte of this message has been written. -/
def Arrived (s : State β) (rank channel number byte : Nat) : Prop :=
  number < s.delivered rank channel ∨ (number = s.delivered rank channel ∧ s.placed rank channel byte = true)

namespace Communicator

variable {C : Communicator β} {k rank owner i : Nat}

/-- A byte of the sum over the first ranks of the ring, in some collective. -/
def partialSum (C : Communicator β) (k owner i byte : Nat) : β :=
  ringSum (C.add k) C.world owner
    (fun rank => element (C.input k rank) (C.launch k).itemsize (byte / (C.launch k).itemsize)) i
    ⟨byte % (C.launch k).itemsize, Nat.mod_lt _ (C.launch k).itemsize_pos⟩

theorem element_partialSum (C : Communicator β) (k owner i index : Nat) :
    element (C.partialSum k owner i) (C.launch k).itemsize index =
      ringSum (C.add k) C.world owner (fun rank => element (C.input k rank) (C.launch k).itemsize index) i := by
  funext j
  simp only [element, partialSum, byte_div, byte_mod]

/-- The sum starts with the input of the first rank. -/
theorem partialSum_zero (hr : rank < C.world) (hc : owner < C.world) (hstage : stage C.world rank owner = 0) :
    C.partialSum k owner 0 byte = C.input k rank byte := by
  have := rank_of_stage hr hc
  rw [hstage, Nat.add_zero] at this
  rw [partialSum, ringSum, this]
  exact element_mod _ (C.launch k).itemsize_pos byte

/-- The rank of the next stage adds its input. -/
theorem partialSum_succ (hr : rank < C.world) (hc : owner < C.world) (hstage : stage C.world rank owner = i + 1) :
    C.partialSum k owner (i + 1) byte =
      C.add k (element (C.input k rank) (C.launch k).itemsize (byte / (C.launch k).itemsize))
        (element (C.partialSum k owner i) (C.launch k).itemsize (byte / (C.launch k).itemsize))
        ⟨byte % (C.launch k).itemsize, Nat.mod_lt _ (C.launch k).itemsize_pos⟩ := by
  have hrank := rank_of_stage hr hc
  rw [hstage, show owner + 1 + (i + 1) = owner + i + 2 by omega] at hrank
  rw [element_partialSum, partialSum, ringSum, hrank]

/-! ## What the buffers hold -/

/-- The result has arrived. The owner computes it itself. -/
def HasResult (C : Communicator β) (s : State β) (rank channel iteration owner byte : Nat) : Prop :=
  stage C.world rank owner < C.world - 1 ∧
    Arrived s rank channel
      (C.base (s.started rank) channel + (C.current s rank).arrival iteration (stage C.world rank owner)) byte

/-- A byte of the work buffer, as far as its chunk has come. -/
structure Holds (C : Communicator β) (k rank owner byte : Nat) (value : β) (arrived added : Prop) : Prop where
  result : arrived → value = C.partialSum k owner (C.world - 1) byte
  sum : ¬ arrived → added → value = C.partialSum k owner (stage C.world rank owner) byte
  input : ¬ arrived → ¬ added → value = C.input k rank byte

/-- The work buffer of a rank. -/
def WorkHolds (C : Communicator β) (s : State β) (rank : Nat) : Prop :=
  s.started rank ≠ 0 → ∀ channel iteration owner byte,
    (C.current s rank).InChunk channel iteration owner (byte / (C.current s rank).itemsize) →
      C.Holds (s.started rank) rank owner byte (s.work rank byte) (C.HasResult s rank channel iteration owner byte)
        ((s.channels rank channel).Added (C.current s rank) iteration (stage C.world rank owner)
          (byte / (C.current s rank).itemsize))

/-- The scratch buffer of the rank behind a rank, where a message has arrived that the next rank still has to add. -/
def ScratchHolds (C : Communicator β) (s : State β) (rank : Nat) : Prop :=
  ∀ k channel round byte, round < C.rounds k channel → (C.launch k).Scatters round →
    C.position s (C.nextRank rank) channel ≤ C.base k channel + round →
      (C.launch k).InChunk channel ((C.launch k).iteration round) ((C.launch k).sent rank round)
          (byte / (C.launch k).itemsize) →
        Arrived s (C.nextRank rank) channel (C.base k channel + round) byte →
          s.scratch (C.nextRank rank) byte =
            C.partialSum k ((C.launch k).sent rank round) ((C.launch k).slot round) byte

/-- Bytes are written of messages that have been posted. -/
def Fresh (C : Communicator β) (s : State β) : Prop :=
  ∀ rank < C.world, ∀ channel byte, s.placed rank channel byte = true →
    s.delivered rank channel < (s.messages rank channel).length

structure Contents (C : Communicator β) (s : State β) : Prop where
  fresh : C.Fresh s
  work : ∀ rank < C.world, C.WorkHolds s rank
  scratch : ∀ rank < C.world, C.ScratchHolds s rank

end Communicator

end Rdma4py.Ring
