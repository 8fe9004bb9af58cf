import Rdma4py.NvmeQueue.Lemmas.Shutdown

/-!
# Shutdown releases everything exactly once

Whatever statement of `__init__` raises, and whatever the calls of each `close` raise.
-/

namespace Rdma4py.NvmeQueue

open Rdma4py.Lib

/-- `submit` is rejected, and `poll` returns nothing; both leave the queue, its QP and its CQ alone. -/
def World.Rejects (w : World) : Prop :=
  (∀ command dataOwner post,
    submit w command dataOwner post = (w, .error (.runtimeError "NVMe/RDMA queue is closed"))) ∧
  ∀ maxEntries count, poll w maxEntries count = (w, .ok [])

theorem World.rejects_of_closed {w : World} (h : w.queue.closed = true) : w.Rejects := by
  constructor
  · intro command dataOwner post
    simp [submit, submitWrite, h]
  · intro maxEntries count
    simp [poll, h]

/-- At any point of a run from construction on, and for any `close` there: no attempt follows a successful one on the
same resource; each held resource is attempted once; `close` raises exactly when one of these attempts fails; when it
returns, every resource has been closed and later calls do nothing; and a shut queue rejects its users. -/
theorem released_once (depth : Nat) (commands responses : Memory UInt8) (raises : Stage → Option Exn)
    (cleanup : Closing) {s : Owner}
    (h : ownership.Reaches (Owner.construct depth commands responses raises cleanup).1 s) :
    (s.resources.attempts.Pairwise fun a b => a.error = none → b.resource ≠ a.resource) ∧
    (∀ c, (s.close c).1.resources.attempts =
      s.resources.attempts ++ (Resource.order.filter s.resources.held).map fun r => ⟨r, c.raises r⟩) ∧
    (∀ c, (s.close c).2 ≠ none ↔ ∃ r, s.resources.held r = true ∧ c.raises r ≠ none) ∧
    (∀ c, (s.close c).2 = none →
      (∀ r, (s.close c).1.resources.held r = false) ∧
      (∀ r ∈ s.resources.opened, ⟨r, none⟩ ∈ (s.close c).1.resources.attempts) ∧
      ∀ t, ownership.Reaches (s.close c).1 t → ∀ c', t.close c' = (t, none)) ∧
    (∀ c t, ownership.Reaches (s.close c).1 t → t.world.Rejects) ∧
    ((Owner.construct depth commands responses raises cleanup).2 = none → ∀ r, r ∈ s.resources.opened) ∧
    ((Owner.construct depth commands responses raises cleanup).2 ≠ none → s.world.Rejects) := by
  have hsound : s.resources.Sound :=
    Owner.sound_run h (Owner.construct_sound depth commands responses raises cleanup)
  refine ⟨hsound.once, s.close_attempts, ?_, ?_, ?_, ?_, ?_⟩
  · intro c
    rw [Ne, Owner.close_returns_iff, not_forall]
    simp only [Classical.not_imp, Ne]
  · intro c hc
    have hreleased := Owner.close_released hc
    refine ⟨hreleased.2, ?_, ?_⟩
    · intro r hr
      have hsound' : (s.close c).1.resources.Sound := Owner.sound_step hsound (.close c)
      have hopened : r ∈ (s.close c).1.resources.opened := by
        rwa [(s.close_resources c).1, Holder.release_opened]
      refine (hsound'.opened r hopened).resolve_left ?_
      rw [hreleased.2 r]
      exact Bool.false_ne_true
    · intro t ht c'
      exact Owner.close_of_released (Owner.released_run ht hreleased) c'
  · intro c t ht
    exact World.rejects_of_closed (Owner.closed_run ht (s.close_closed c))
  · intro hbuilt r
    exact Owner.opened_run h r (Owner.construct_opened depth commands responses raises cleanup hbuilt r)
  · intro hraised
    exact World.rejects_of_closed
      (Owner.closed_run h (Owner.construct_closed depth commands responses raises cleanup hraised))

/-- The device is busy with the protection domain. -/
def busyPd : Closing := { raises := fun r => if r = .pd then some ⟨16⟩ else none }

/-- A queue that could not connect, and whose PD could not be closed then. -/
def unconnected : Owner :=
  (Owner.construct 2 (fun _ => 0) (fun _ => 0)
    (fun stage => if stage = .connect then some (.external "rdma_connect") else none) busyPd).1

theorem released_once_unconnected :
    (unconnected.close {}).1.resources.attempts =
        unconnected.resources.attempts ++ (Resource.order.filter unconnected.resources.held).map (⟨·, none⟩) ∧
      unconnected.resources.attempts = [⟨.qp, none⟩, ⟨.cq, none⟩, ⟨.pd, some ⟨16⟩⟩, ⟨.cm, none⟩] ∧
      Resource.order.filter unconnected.resources.held = [.pd] :=
  ⟨(released_once 2 (fun _ => 0) (fun _ => 0) _ busyPd (.refl unconnected)).2.1 {}, by decide, by decide⟩

end Rdma4py.NvmeQueue
