import Mathlib.Algebra.Order.Ring.Int
import Rdma4py.ProcessGroup.Tensor
import Rdma4py.Ring.Layout

/-!
# The index arithmetic of the ring kernel in 32 bits

`ring_kernel` computes its loop bounds and its elements in `cutlass.Int32`, multiplies the elements by their size there,
and widens only the products. An operand that is a Python integer takes the narrow type too.
-/

namespace Rdma4py.Ring

/-- What a `cutlass.Int32` keeps of a result: two's complement. -/
def wrap (x : Int) : Int := (x + 2 ^ 31) % 2 ^ 32 - 2 ^ 31

/-- `cutlass.Uint64` of a `cutlass.Int32`: the 32 bits are taken for a number without a sign. -/
def widen (x : Int) : Int := x % 2 ^ 32

/-- `(a + b - 1) // b`. -/
def ceilDiv32 (a b : Int) : Int := Int.fdiv (wrap (wrap (a + b) - 1)) b

namespace Launch

variable (l : Launch)

/-- `channel_start`. -/
def channelStart32 (channel : Nat) : Int :=
  wrap (wrap (wrap channel * wrap l.cellsPerChannel) * wrap l.cellElements)

/-- `channel_count`. -/
def channelCount32 (channel : Nat) : Int :=
  min (wrap (wrap l.count - l.channelStart32 channel)) (wrap (wrap l.cellsPerChannel * wrap l.cellElements))

/-- `loop_count`. -/
def loopCount32 : Int := wrap (wrap l.world * wrap l.baseChunk)

/-- `remaining`. -/
def remaining32 (channel : Nat) (offset : Int) : Int := wrap (l.channelCount32 channel - offset)

/-- `chunk`. -/
def chunk32 (channel : Nat) (offset : Int) : Int :=
  if l.remaining32 channel offset < l.loopCount32 then
    wrap (ceilDiv32 (ceilDiv32 (l.remaining32 channel offset) (wrap l.world)) (wrap l.alignElements) *
      wrap l.alignElements)
  else wrap l.baseChunk

/-- `send_owner`. -/
def sendOwner32 (rank step : Nat) : Int :=
  Int.fmod (wrap (wrap (wrap rank - wrap step) + wrap l.world)) (wrap l.world)

/-- `recv_owner`. -/
def recvOwner32 (rank step : Nat) : Int :=
  Int.fmod (wrap (wrap (wrap (wrap rank - wrap step) - 1) + wrap (2 * wrap l.world))) (wrap l.world)

/-- `send_element` and `recv_element`. -/
def element32 (channel : Nat) (offset owner : Int) : Int :=
  wrap (wrap (l.channelStart32 channel + offset) + wrap (owner * l.chunk32 channel offset))

/-- What is added to the address of the work buffer or of the scratch buffer. -/
def byteOffset (channel : Nat) (offset owner : Int) : Int :=
  widen (wrap (l.element32 channel offset owner * wrap l.itemsize))

/-- The transfer or the reduction of a chunk that is not empty has the right element and the right address. -/
def Addresses (channel iteration owner : Nat) (owner32 : Int) : Prop :=
  0 < l.chunkLength channel iteration owner →
    l.element32 channel (l.elemOffset iteration) owner32 = l.chunkElement channel iteration owner ∧
      l.byteOffset channel (l.elemOffset iteration) owner32 = (l.chunkElement channel iteration owner * l.itemsize : Nat)

/-- Every quantity is what it would be without bounds. -/
structure Exact : Prop where
  loop : l.loopCount32 = l.loopCount
  start : ∀ channel < l.activeChannels, l.channelStart32 channel = l.channelStart channel
  count : ∀ channel < l.activeChannels,
    l.channelCount32 channel = min ((l.count : Int) - l.channelStart channel) l.channelElements
  reduceScatter : ∀ channel < l.activeChannels, ∀ iteration < l.iterations channel, ∀ rank < l.world,
    ∀ step, 1 ≤ step → step < l.world →
      l.Addresses channel iteration (l.sendOwner rank step) (l.sendOwner32 rank step) ∧
        l.Addresses channel iteration (l.recvOwner rank step) (l.recvOwner32 rank step)
  allGather : ∀ channel < l.activeChannels, ∀ iteration < l.iterations channel, ∀ rank < l.world,
    ∀ step < l.world - 1, l.Addresses channel iteration (l.sendOwner rank step) (l.sendOwner32 rank step)

/-- Where the chunk of the last element starts. -/
def lastChunkElement : Nat :=
  let channel := (l.count - 1) / l.channelElements
  let iteration := (l.count - 1 - l.channelStart channel) / l.loopCount
  let owner := (l.count - 1 - l.channelStart channel - l.elemOffset iteration) / l.chunk channel iteration
  l.chunkElement channel iteration owner

/-- An iteration, the last channel and a full channel have less than `2 ** 31` elements, and less than `2 ** 32` bytes stand
before the last chunk. -/
def Fits : Prop :=
  l.loopCount < 2 ^ 31 ∧ l.channelStart (l.activeChannels - 1) < 2 ^ 31 ∧ l.channelElements < 2 ^ 31 ∧
    l.lastChunkElement * l.itemsize < 2 ^ 32

instance : Decidable l.Fits := inferInstanceAs (Decidable (_ ∧ _ ∧ _ ∧ _))

end Launch

end Rdma4py.Ring
