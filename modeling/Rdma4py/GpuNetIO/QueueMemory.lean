import Mathlib.Data.List.Dedup
import Mathlib.Data.List.Sort
import Mathlib.Logic.Function.Basic

/-!
# GPUNetIO: the queue memory of a QP

The pages of the host memory that an mlx5 QP and its CQs use are registered with CUDA. The registrations are shared
between the exported QPs of the process and counted in `_host_memory_refs`. Every CUDA call may fail: what the calls
return comes from outside, and a call that fails changes nothing.
-/

namespace Rdma4py.GpuNetIO

/-- The exceptions of the module, with their texts. -/
inductive Exn
  | valueError (text : String)
  | runtimeError (text : String)
  | verbsError (function text : String)
  | gpunetioError (function : String) (status : Int)
  | attributeError
  | keyError (base : Nat)
  | external (text : String)
  deriving DecidableEq, Repr

/-- What `_mlx5dv_bridge_info` says of the queues, as far as the export looks at it. -/
structure BridgeInfo where
  sqWqeAddr : Nat
  sqWqeNum : Nat
  sqWqeStride : Nat
  sqDbrec : Nat
  sqDb : Nat
  sqCqeAddr : Nat
  sqCqeNum : Nat
  sqCqeSize : Nat
  sqCqDbrec : Nat
  rqWqeAddr : Nat
  rqWqeNum : Nat
  rqDbrec : Nat
  rcvWqeSize : Nat
  rqCqeAddr : Nat
  rqCqeNum : Nat
  rqCqeSize : Nat
  rqCqDbrec : Nat
  deriving DecidableEq, Repr

/-- `_validate_queue_layout`. -/
def validateQueueLayout (info : BridgeInfo) : Except Exn Unit :=
  if info.sqWqeStride ≠ 64 then .error (.valueError "GPUNetIO requires 64-byte mlx5 SQ WQEs")
  else if info.rcvWqeSize ≠ 16 then .error (.valueError "GPUNetIO requires 16-byte mlx5 receive WQEs")
  else if info.sqCqeSize ≠ 64 ∨ info.rqCqeSize ≠ 64 then .error (.valueError "GPUNetIO requires 64-byte mlx5 CQEs")
  else .ok ()

/-! ## Pages -/

/-- The parts of the queue memory: an address and a size in bytes. -/
def ranges (info : BridgeInfo) : List (Nat × Nat) :=
  [(info.sqWqeAddr, info.sqWqeNum * info.sqWqeStride),
   (info.rqWqeAddr, info.rqWqeNum * info.rcvWqeSize),
   (info.sqDbrec, 4),
   (info.rqDbrec, 4),
   (info.sqCqeAddr, info.sqCqeNum * info.sqCqeSize),
   (info.sqCqDbrec, 4),
   (info.rqCqeAddr, info.rqCqeNum * info.rqCqeSize),
   (info.rqCqDbrec, 4)]

/-- `address & ~(page_size - 1)`: for a power of two, this rounds down to a multiple. -/
def pageBase (pageSize address : Nat) : Nat := address / pageSize * pageSize

/-- `range(base, end, page_size)` for one part of the memory. -/
def pageRange (pageSize : Nat) (part : Nat × Nat) : List Nat :=
  let base := pageBase pageSize part.1
  let stop := pageBase pageSize (part.1 + part.2 + pageSize - 1)
  List.range' base ((stop - base) / pageSize) pageSize

/-- The pages of the queue memory, each once and in ascending order. -/
def queuePages (pageSize : Nat) (info : BridgeInfo) : List Nat :=
  ((ranges info).flatMap (pageRange pageSize)).dedup.insertionSort (· ≤ ·)

/-! ## Registrations -/

/-- `_host_memory_refs`, where a page without an entry has no references, and the pages that CUDA has registered. -/
structure HostMemory where
  refs : Nat → Nat
  registered : Nat → Bool

namespace HostMemory

def empty : HostMemory := ⟨fun _ => 0, fun _ => false⟩

/-- One more reference; the first one came with a registration. -/
def acquire (base : Nat) (m : HostMemory) : HostMemory where
  refs := Function.update m.refs base (m.refs base + 1)
  registered := if m.refs base = 0 then Function.update m.registered base true else m.registered

/-- One reference of several fewer. -/
def release (base : Nat) (m : HostMemory) : HostMemory :=
  { m with refs := Function.update m.refs base (m.refs base - 1) }

/-- The last reference is gone, and with it the registration. -/
def forget (base : Nat) (m : HostMemory) : HostMemory where
  refs := Function.update m.refs base 0
  registered := Function.update m.registered base false

@[simp] theorem empty_refs (b : Nat) : empty.refs b = 0 := rfl

@[simp] theorem acquire_refs (base : Nat) (m : HostMemory) :
    (m.acquire base).refs = Function.update m.refs base (m.refs base + 1) := rfl

@[simp] theorem release_refs (base : Nat) (m : HostMemory) :
    (m.release base).refs = Function.update m.refs base (m.refs base - 1) := rfl

@[simp] theorem forget_refs (base : Nat) (m : HostMemory) :
    (m.forget base).refs = Function.update m.refs base 0 := rfl

end HostMemory

/-- The loop of `_register_queue_memory` over the pages: those it acquired, and the status that stopped it. -/
def acquirePages (register : Nat → Int) : List Nat → HostMemory → HostMemory × List Nat × Option Int
  | [], m => (m, [], none)
  | base :: pages, m =>
      if m.refs base = 0 ∧ register base ≠ 0 then (m, [], some (register base))
      else
        match acquirePages register pages (m.acquire base) with
        | (m, acquired, failed) => (m, base :: acquired, failed)

/-- The loop of `_CudaHostMappings.close`: the pages that remain and the first status of a call that failed. -/
def releasePages (unregister : Nat → Int) : List Nat → HostMemory → HostMemory × Except Exn (List Nat × Option Int)
  | [], m => (m, .ok ([], none))
  | base :: pages, m =>
      if m.refs base = 0 then (m, .error (.keyError base))
      else if 1 < m.refs base then releasePages unregister pages (m.release base)
      else if unregister base = 0 then releasePages unregister pages (m.forget base)
      else
        match releasePages unregister pages m with
        | (m, .error e) => (m, .error e)
        | (m, .ok (remaining, _)) => (m, .ok (base :: remaining, some (unregister base)))

/-- `_CudaHostMappings.close`, with the pages that the mappings have afterwards. -/
def closeMappings (unregister : Nat → Int) (pages : List Nat) (m : HostMemory) :
    HostMemory × List Nat × Except Exn Unit :=
  match releasePages unregister pages m with
  | (m, .error e) => (m, pages, .error e)
  | (m, .ok (remaining, none)) => (m, remaining, .ok ())
  | (m, .ok (remaining, some status)) =>
      (m, remaining, .error (.runtimeError s!"cuMemHostUnregister failed with CUDA status {status}"))

/-- What the CUDA calls of one export return. The device pointers are asked for in the order of `ranges`. -/
structure CudaCalls where
  driver : Option Exn
  register : Nat → Int
  devicePointer : Nat → Int
  unregister : Nat → Int

/-- Gives the acquired pages back after `e`. An exception of `close` takes the place of `e`. -/
def rollback (unregister : Nat → Int) (acquired : List Nat) (e : Exn) (m : HostMemory) :
    HostMemory × List Nat × Exn :=
  match closeMappings unregister acquired m with
  | (m, remaining, .error e) => (m, remaining, e)
  | (m, remaining, .ok ()) => (m, remaining, e)

/-- How `_register_queue_memory` ends: with the pages of the mappings, or with the pages that its rollback could not give
back and an exception. -/
inductive Registered
  | mappings (pages : List Nat)
  | failed (remaining : List Nat) (e : Exn)

/-- `_register_queue_memory`. The test `if acquired` is not made: there is nothing to give back otherwise. -/
def registerQueueMemory (pageSize : Nat) (calls : CudaCalls) (info : BridgeInfo) (m : HostMemory) :
    HostMemory × Registered :=
  match calls.driver with
  | some e => (m, .failed [] e)
  | none =>
      match acquirePages calls.register (queuePages pageSize info) m with
      | (m, acquired, some status) =>
          match rollback calls.unregister acquired
            (.runtimeError s!"cuMemHostRegister failed for mlx5 queue memory with CUDA status {status}") m with
          | (m, remaining, e) => (m, .failed remaining e)
      | (m, acquired, none) =>
          match ((List.range (ranges info).length).map calls.devicePointer).find? (· ≠ 0) with
          | none => (m, .mappings acquired)
          | some status =>
              match rollback calls.unregister acquired (.runtimeError
                s!"cuMemHostGetDevicePointer failed for mlx5 queue memory with CUDA status {status}") m with
              | (m, remaining, e) => (m, .failed remaining e)

end Rdma4py.GpuNetIO
