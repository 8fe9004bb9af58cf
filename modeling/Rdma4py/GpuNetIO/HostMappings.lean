import Rdma4py.GpuNetIO.QueueMemory
import Rdma4py.Lib.Machine

/-!
# GPUNetIO: pages that several queues share

All calls of `_register_queue_memory` and of `_CudaHostMappings.close` in a process, by any number of queues.
-/

namespace Rdma4py.GpuNetIO

open Lib

/-- A `_CudaHostMappings` object, with the queues that it was made for. -/
structure HostMappings where
  info : BridgeInfo
  pages : List Nat
  closeCalled : Bool

/-- The registrations of a process. The pages of `lost` have a reference that a failed registration could not give back. -/
structure Registry where
  memory : HostMemory
  mappings : List HostMappings
  lost : List Nat

namespace Registry

inductive Event
  | register (info : BridgeInfo) (calls : CudaCalls)
  | close (i : Nat) (unregister : Nat → Int)

def empty : Registry := ⟨.empty, [], []⟩

/-- A `close` needs an object; it may be called again. -/
def Enabled (r : Registry) : Event → Prop
  | .register .. => True
  | .close i _ => i < r.mappings.length

def next (pageSize : Nat) (r : Registry) : Event → Registry
  | .register info calls =>
      match registerQueueMemory pageSize calls info r.memory with
      | (m, .mappings pages) => { r with memory := m, mappings := r.mappings ++ [⟨info, pages, false⟩] }
      | (m, .failed remaining _) => { r with memory := m, lost := r.lost ++ remaining }
  | .close i unregister =>
      match r.mappings[i]? with
      | none => r
      | some h =>
          match closeMappings unregister h.pages r.memory with
          | (m, remaining, _) =>
              { r with memory := m, mappings := r.mappings.set i { h with pages := remaining, closeCalled := true } }

def machine (pageSize : Nat) : Machine Registry Event where
  Enabled := Enabled
  next := next pageSize

end Registry

/-! ## The calls of the driver -/

/-- The calls of `cuMemHostRegister` in the loop over the pages, with the memory at each call. -/
def registerCalls (register : Nat → Int) : List Nat → HostMemory → List (Nat × HostMemory)
  | [], _ => []
  | base :: pages, m =>
      if m.refs base = 0 then
        (base, m) :: if register base ≠ 0 then [] else registerCalls register pages (m.acquire base)
      else registerCalls register pages (m.acquire base)

/-- The calls of `cuMemHostUnregister` in `_CudaHostMappings.close`, with the memory at each call. -/
def unregisterCalls (unregister : Nat → Int) : List Nat → HostMemory → List (Nat × HostMemory)
  | [], _ => []
  | base :: pages, m =>
      if m.refs base = 0 then []
      else if 1 < m.refs base then unregisterCalls unregister pages (m.release base)
      else (base, m) :: unregisterCalls unregister pages (if unregister base = 0 then m.forget base else m)

/-- The calls of `cuMemHostUnregister` in `_register_queue_memory`: those of its rollback. -/
def rollbackCalls (pageSize : Nat) (calls : CudaCalls) (info : BridgeInfo) (m : HostMemory) :
    List (Nat × HostMemory) :=
  match calls.driver with
  | some _ => []
  | none =>
      match acquirePages calls.register (queuePages pageSize info) m with
      | (m, acquired, some _) => unregisterCalls calls.unregister acquired m
      | (m, acquired, none) =>
          match ((List.range (ranges info).length).map calls.devicePointer).find? (· ≠ 0) with
          | none => []
          | some _ => unregisterCalls calls.unregister acquired m

namespace Registry

/-- The pages that an event asks CUDA to register. -/
def registers (pageSize : Nat) (r : Registry) : Event → List (Nat × HostMemory)
  | .register info calls =>
      match calls.driver with
      | some _ => []
      | none => registerCalls calls.register (queuePages pageSize info) r.memory
  | .close .. => []

/-- The pages that an event asks CUDA to unregister. -/
def unregisters (pageSize : Nat) (r : Registry) : Event → List (Nat × HostMemory)
  | .register info calls => rollbackCalls pageSize calls info r.memory
  | .close i unregister =>
      match r.mappings[i]? with
      | none => []
      | some h => unregisterCalls unregister h.pages r.memory

/-- No unregister fails in a failed registration. -/
def RollsBack (pageSize : Nat) (r : Registry) : Event → Prop
  | .register info calls => ∀ call ∈ rollbackCalls pageSize calls info r.memory, calls.unregister call.1 = 0
  | .close .. => True

/-- The event closes these mappings. -/
def Event.Closes (j : Nat) : Event → Prop
  | .register .. => False
  | .close i _ => i = j

/-- The number of mappings that hold a page. -/
def holders (r : Registry) (base : Nat) : Nat := r.mappings.countP fun h => base ∈ h.pages

end Registry

end Rdma4py.GpuNetIO
