import Mathlib.Algebra.Ring.Nat
import Mathlib.Logic.Function.Basic
import Rdma4py.Lib.Machine

/-!
# The reduction on the GPU

`rdma4py_gpunetio_reduce_volatile`: every thread of a block adds every `stride`-th element of the scratch buffer to the work
buffer. The threads run side by side: a step of the machine is one access of one thread to memory.
-/

namespace Rdma4py.Device

open Lib

/-- The arguments that the calls of a block share. -/
structure Reduction where
  count : Nat
  stride : Nat
  count_lt : count < 2 ^ 32
  stride_pos : 0 < stride
  stride_lt : stride < 2 ^ 32

/-- An access to memory, with the index of the element. -/
inductive Access
  | readWork (i : Nat)
  | readScratch (i : Nat)
  | writeWork (i : Nat)
  deriving DecidableEq, Repr

def Access.element : Access → Nat
  | .readWork i | .readScratch i | .writeWork i => i

/-- Where a thread is in the body of its loop. -/
inductive Phase (α : Type)
  /-- Before the comparison of the index with `count`. -/
  | head
  | hasLocal (x : α)
  | hasRemote (x y : α)

/-- One call: its index and where it is. -/
structure Thread (α : Type) where
  index : Nat
  phase : Phase α

/-- The work buffer and the threads, with a log of the accesses, newest first. -/
structure Block (α : Type) where
  work : Nat → α
  threads : Nat → Thread α
  log : List Access

namespace Reduction

variable {α : Type} (r : Reduction) (sum : α → α → α) (scratch : Nat → α)

/-- `i += stride` in 32 bits. -/
def next (i : Nat) : Nat := (i + r.stride) % 2 ^ 32

/-- The calls with `start` 0 up to `stride - 1`. -/
def start (work : Nat → α) : Block α := ⟨work, fun t => ⟨t, .head⟩, []⟩

/-- The next access of a thread; the last one of an iteration advances the index. -/
def advance (b : Block α) (t : Nat) : Block α :=
  let th := b.threads t
  match th.phase with
  | .head =>
      { b with threads := Function.update b.threads t ⟨th.index, .hasLocal (b.work th.index)⟩
               log := .readWork th.index :: b.log }
  | .hasLocal x =>
      { b with threads := Function.update b.threads t ⟨th.index, .hasRemote x (scratch th.index)⟩
               log := .readScratch th.index :: b.log }
  | .hasRemote x y =>
      { work := Function.update b.work th.index (sum x y)
        threads := Function.update b.threads t ⟨r.next th.index, .head⟩
        log := .writeWork th.index :: b.log }

/-- The loop of the thread has not ended. -/
def Running (th : Thread α) : Prop :=
  match th.phase with
  | .head => th.index < r.count
  | .hasLocal _ | .hasRemote _ _ => True

/-- The block; an event is the thread that goes on. -/
def block : Machine (Block α) Nat where
  Enabled b t := t < r.stride ∧ r.Running (b.threads t)
  next := r.advance sum scratch

/-- All loops have ended. -/
def Finished (b : Block α) : Prop := ∀ t < r.stride, ¬ r.Running (b.threads t)

end Reduction

end Rdma4py.Device
