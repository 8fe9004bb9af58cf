import Mathlib.Algebra.Order.Ring.Nat

/-!
# How the ring kernel cuts a tensor

A collective is cut three times: into one range for each channel, into the iterations of a channel, and in each iteration
into one chunk for each rank. The numbers here are unbounded.
-/

namespace Rdma4py.Ring

/-- `_NCCL_CELL_BYTES`. -/
def cellBytes : Nat := 16 * 1024

/-- `_NCCL_SIMPLE_CHANNEL_BYTES`. -/
def simpleChannelBytes : Nat := 512 * 64

/-- `_NCCL_SIMPLE_CHUNK_BYTES`. -/
def simpleChunkBytes : Nat := 2 * 1024 * 1024

/-- `(a + b - 1) // b`. -/
def ceilDiv (a b : Nat) : Nat := (a + b - 1) / b

/-- One collective: the number of elements, their size, the number of CTAs and the number of ranks. -/
structure Launch where
  count : Nat
  itemsize : Nat
  numSms : Nat
  world : Nat
  count_pos : 0 < count
  itemsize_pos : 0 < itemsize
  numSms_pos : 0 < numSms
  two_le_world : 2 ≤ world

namespace Launch

/-- A collective on floats of `peers + 2` ranks. -/
def floats (count numSms peers : Nat) (hc : 0 < count) (hs : 0 < numSms) : Launch :=
  ⟨count, 4, numSms, peers + 2, hc, by decide, hs, Nat.le_add_left 2 peers⟩

variable (l : Launch)

/-! ## `_nccl_channel_layout` -/

/-- `cell_elements`. -/
def cellElements : Nat := max 1 (cellBytes / l.itemsize)

/-- `cells`. -/
def cells : Nat := ceilDiv l.count l.cellElements

/-- `active`. -/
def activeChannels : Nat := min l.numSms (max 1 (l.count * l.itemsize / simpleChannelBytes))

/-- `per_channel`. -/
def cellsPerChannel : Nat := ceilDiv l.cells l.activeChannels

/-! ## `ring_kernel` -/

/-- `base_chunk`, as `allreduce` passes it. -/
def baseChunk : Nat := max 1 (simpleChunkBytes / l.itemsize)

/-- `align_elements`, as `allreduce` passes it. -/
def alignElements : Nat := max 1 (16 / l.itemsize)

/-- The elements of a full channel. -/
def channelElements : Nat := l.cellsPerChannel * l.cellElements

/-- `channel_start`. -/
def channelStart (channel : Nat) : Nat := channel * l.cellsPerChannel * l.cellElements

/-- `channel_count`. A channel behind the end of the tensor has none. -/
def channelCount (channel : Nat) : Nat := min (l.count - l.channelStart channel) l.channelElements

/-- `loop_count`. -/
def loopCount : Nat := l.world * l.baseChunk

/-- How often `range(0, channel_count, loop_count)` runs. -/
def iterations (channel : Nat) : Nat := ceilDiv (l.channelCount channel) l.loopCount

/-- `elem_offset`. -/
def elemOffset (iteration : Nat) : Nat := iteration * l.loopCount

/-- `remaining`. -/
def remaining (channel iteration : Nat) : Nat := l.channelCount channel - l.elemOffset iteration

/-- `chunk`. The last iteration shrinks it, and aligns it. -/
def chunk (channel iteration : Nat) : Nat :=
  if l.remaining channel iteration < l.loopCount then
    ceilDiv (ceilDiv (l.remaining channel iteration) l.world) l.alignElements * l.alignElements
  else l.baseChunk

/-- `send_length` and `recv_length`: a chunk can be cut off, or empty. -/
def chunkLength (channel iteration owner : Nat) : Nat :=
  min (l.chunk channel iteration) (l.remaining channel iteration - owner * l.chunk channel iteration)

/-- `send_element` and `recv_element`. -/
def chunkElement (channel iteration owner : Nat) : Nat :=
  l.channelStart channel + l.elemOffset iteration + owner * l.chunk channel iteration

/-- `send_owner` of a step, in both phases. -/
def sendOwner (rank step : Nat) : Nat := (rank + l.world - step) % l.world

/-- `recv_owner` of a step. -/
def recvOwner (rank step : Nat) : Nat := (rank + 2 * l.world - step - 1) % l.world

/-- The element belongs to the chunk. -/
structure InChunk (channel iteration owner element : Nat) : Prop where
  active : channel < l.activeChannels
  running : iteration < l.iterations channel
  ranked : owner < l.world
  lower : l.chunkElement channel iteration owner ≤ element
  upper : element < l.chunkElement channel iteration owner + l.chunkLength channel iteration owner

end Launch

/-- A float tensor over two ranks: three channels, the last one short. -/
example : (Launch.mk 25000 4 3 2 (by decide) (by decide) (by decide) (by decide)).channelCount 2 = 424 := by decide

end Rdma4py.Ring
