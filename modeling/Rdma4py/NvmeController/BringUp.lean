import Rdma4py.NvmeController.Lemmas.Connection
import Rdma4py.NvmeController.Namespace

/-!
# A controller is connected, or everything is given back

Whatever the target answers, and whichever call raises.
-/

namespace Rdma4py.NvmeController.Connection

open Rdma4py.Lib

/-- However the constructor ends, its commands follow the protocol, the I/O queue is not used before the controller was
seen ready, and no buffer stays open except one whose deregistration raised. When it returns, the controller is
connected; when it raises, every queue that it opened was given back; and it goes on waiting only while the deadline has
not passed. -/
theorem connects_or_gives_back (s : Settings) (env : Surroundings) (k : Nat) :
    (∃ p, Leads s env.identified (init s env (k + 1)).2.issued p) ∧
    (∀ before x after, (init s env (k + 1)).2.issued = before ++ x :: after → x.queue = .io → SeenReady before) ∧
    (∀ i ∈ (init s env (k + 1)).2.openBuffers, env.deregister i ≠ none) ∧
    ((init s env (k + 1)).1 = .returned () →
      Connected s env.identified (init s env (k + 1)).2 ∧ (init s env (k + 1)).2.openBuffers = []) ∧
    (∀ e, (init s env (k + 1)).1 = .raised e → ∀ w ∈ (init s env (k + 1)).2.queues, GivenBack w) ∧
    ((init s env (k + 1)).1 = .unfinished → ∃ n, k < n ∧ env.expired n = false) := by
  have hend := init_ends s env k
  generalize init s env (k + 1) = r at hend ⊢
  obtain ⟨o, c⟩ := r
  cases o with
  | returned u =>
      obtain ⟨hconnected, hbuffers⟩ := hend
      obtain ⟨answer, capabilities, info, hleads, _⟩ := hconnected.phase
      refine ⟨⟨_, hleads⟩, fun _ _ _ hsplit hio => hleads.ready_before_io hsplit hio, ?_,
        fun _ => ⟨hconnected, hbuffers⟩, ?_, ?_⟩
      · intro i hi
        rw [hbuffers] at hi
        cases hi
      · intro e he
        cases he
      · intro he
        cases he
  | raised e =>
      obtain ⟨hback, hearly⟩ := hend
      obtain ⟨p, hleads⟩ := hearly.leads
      refine ⟨⟨p, hleads⟩, fun _ _ _ hsplit hio => hleads.ready_before_io hsplit hio, hearly.buffers.outside, ?_,
        fun _ _ => hback (Option.some_ne_none e), ?_⟩
      · intro he
        cases he
      · intro he
        cases he
  | unfinished =>
      obtain ⟨_, hearly⟩ := hend
      obtain ⟨p, hleads⟩ := hearly.leads
      refine ⟨⟨p, hleads⟩, fun _ _ _ hsplit hio => hleads.ready_before_io hsplit hio, hearly.buffers.outside, ?_, ?_,
        fun _ => hearly.waits rfl⟩
      · intro he
        cases he
      · intro e he
        cases he

/-- A target that grants everything: it is ready at once, and its Identify data has keyed SGLs and no offset. -/
def willing : Surroundings where
  raises _ _ := none
  cleanup _ := {}
  closing _ := {}
  register i := .ok (4096 * (i + 1), 7)
  deregister _ := none
  execute i := .ok ⟨if i = 0 then 3 else if i = 1 then 31 else 1, 0, 0, 0, 0⟩
  identified := patch (patch (List.replicate 4096 0) 78 [3]) 536 [4]
  expired _ := true

/-- A queue depth of 16 for a subsystem. -/
def sixteen : Settings :=
  ⟨Vector.replicate 16 0, "nqn.example:disk", "nqn.example:host", 16, 0⟩

theorem connects_or_gives_back_sixteen : Connected sixteen willing.identified (init sixteen willing 1).2 :=
  ((connects_or_gives_back sixteen willing 0).2.2.2.1 (by decide +kernel)).1

/-- Blocks of up to a page can be transferred over the connection. -/
theorem Connected.transfers {s : Settings} {data : List UInt8} {c : Controller} (h : Connected s data c) {ns : Namespace}
    (hlimit : c.maxTransferBytes = some ns.maxTransferBytes) (hpos : 0 < ns.lbaSize) (hpage : ns.lbaSize ≤ 4096) :
    0 < min 65536 (ns.maxTransferBytes / ns.lbaSize) := by
  obtain ⟨m, hm, hleast, _⟩ := h.transfer
  obtain rfl : m = ns.maxTransferBytes := Option.some.inj (hm.symm.trans hlimit)
  have hone : 1 ≤ ns.maxTransferBytes / ns.lbaSize := (Int.le_ediv_iff_mul_le hpos).mpr (by omega)
  omega

end Rdma4py.NvmeController.Connection
