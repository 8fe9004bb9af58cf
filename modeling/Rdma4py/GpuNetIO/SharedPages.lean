import Rdma4py.GpuNetIO.Lemmas.HostMappings
import Rdma4py.GpuNetIO.Theorems

/-!
# GPUNetIO: the references of shared pages

The references of a page count the mappings that hold it, whatever fails.
-/

namespace Rdma4py.GpuNetIO

open Lib

/-- The registrations are right in a state, and whatever call comes next. -/
structure Shared (pageSize : Nat) (r : Registry) : Prop where
  registered : ∀ base, r.memory.registered base = true ↔ 0 < r.memory.refs base
  held : ∀ base, r.holders base ≤ r.memory.refs base
  bytes : ∀ h ∈ r.mappings, h.closeCalled = false → ∀ part ∈ ranges h.info, ∀ address, part.1 ≤ address →
    address < part.1 + part.2 → ∃ base ∈ h.pages, base ≤ address ∧ address < base + pageSize
  once : ∀ e, r.Enabled e → ∀ call ∈ r.registers pageSize e, call.2.registered call.1 = false
  unshared : ∀ e, r.Enabled e → ∀ call ∈ r.unregisters pageSize e,
    call.2.registered call.1 = true ∧ ∀ j h, r.mappings[j]? = some h → call.1 ∈ h.pages → e.Closes j
  failed : ∀ info calls m remaining e, registerQueueMemory pageSize calls info r.memory = (m, .failed remaining e) →
    (∀ status : Int, e ≠ .runtimeError s!"cuMemHostUnregister failed with CUDA status {status}") →
      m.refs = r.memory.refs

theorem Registry.Inv.shared {pageSize : Nat} {r : Registry} (hp : 0 < pageSize) (hr : Inv pageSize r) :
    Shared pageSize r where
  registered base := by simp [hr.sound base]
  held base := by
    rw [hr.refs_eq base]
    exact Nat.le_add_right ..
  bytes h hh hopen part hpart address hlo hhi := by
    refine ⟨pageBase pageSize address, ?_, Nat.div_mul_le_self .., Nat.lt_div_mul_add hp⟩
    rw [hr.whole h hh hopen]
    exact pageBase_mem_queuePages hp hpart hlo hhi
  once _ _ := hr.registers
  unshared _ _ := hr.unregisters
  failed _ _ _ _ _ h hex := hr.failed h hex

/-- **Shared pages.** In every run the references of a page are at least the mappings that hold it, and as many when no
failed registration failed to unregister a page. -/
theorem shared_pages (pageBits : Nat) :
    (∀ r, (Registry.machine (2 ^ pageBits)).Reaches .empty r → Shared (2 ^ pageBits) r) ∧
    ∀ r, ((Registry.machine (2 ^ pageBits)).when (Registry.RollsBack (2 ^ pageBits))).Reaches .empty r →
      ∀ base, r.memory.refs base = r.holders base := by
  constructor
  · intro r hr
    exact (Registry.Inv.of_reaches hr).shared (Nat.two_pow_pos pageBits)
  · intro r hr base
    obtain ⟨hi, hlost⟩ := Registry.Inv.lost_of_reaches hr
    rw [hi.refs_eq base, hlost]
    rfl

/-- Two QPs share a page, and one of them is closed. -/
theorem shared_pages_two_queues :
    Shared 4096 ((Registry.machine 4096).play .empty [.register onePageInfo exportSucceeds.cuda,
      .register onePageInfo exportSucceeds.cuda, .close 0 fun _ => 0]) ∧
    ((Registry.machine 4096).play .empty [.register onePageInfo exportSucceeds.cuda,
      .register onePageInfo exportSucceeds.cuda, .close 0 fun _ => 0]).memory.refs 4096 = 1 := by
  have hplays : ((Registry.machine 4096).when (Registry.RollsBack 4096)).Plays .empty
      [.register onePageInfo exportSucceeds.cuda, .register onePageInfo exportSucceeds.cuda, .close 0 fun _ => 0] := by
    refine ⟨⟨trivial, fun _ _ => rfl⟩, ⟨trivial, fun _ _ => rfl⟩, ⟨?_, trivial⟩, trivial⟩
    exact show 0 < _ by decide
  have hpages := shared_pages 12
  exact ⟨hpages.1 _ hplays.reaches.of_when, (hpages.2 _ hplays.reaches 4096).trans (by decide)⟩

end Rdma4py.GpuNetIO
