import Rdma4py.ReadScheduler.Pipeline

/-!
# What the fields of a scheduler say about the work in flight
-/

namespace Rdma4py.ReadScheduler

open Rdma4py.Lib

variable {s : Scheduler}

/-- `_pending`, `_outstanding` and the provider agree, and the identifiers are in range. -/
structure Accounts (s : Scheduler) : Prop where
  next_range : 1 ≤ s.nextWrId ∧ s.nextWrId ≤ maxWrId
  key_range : ∀ x ∈ s.pending, 1 ≤ x ∧ x ≤ maxWrId
  qp_lt : ∀ p ∈ s.pending.values, p.qpIndex < s.config.qpCount
  count : ∀ q, s.outstanding q = (s.pendingOn q).length
  depth : ∀ q, s.outstanding q ≤ s.config.queueDepth
  inflight : ∀ q, (s.provider.inflight q).Perm (s.pendingOn q)

theorem Accounts.flat_pendingOn (h : Accounts s) : (flat s.config.qpCount s.pendingOn).Perm s.pending.keys :=
  Dict.flat_keysWhere_perm h.qp_lt

theorem Accounts.flat_inflight (h : Accounts s) : (flat s.config.qpCount s.provider.inflight).Perm s.pending.keys :=
  (flat_perm fun q _ => h.inflight q).trans h.flat_pendingOn

/-- With something outstanding on a QP there is something pending. -/
theorem Accounts.pending_ne_empty (h : Accounts s) {q : Nat} (hq : 0 < s.outstanding q) : s.pending ≠ ∅ := by
  intro he
  rw [h.count q, Scheduler.pendingOn, he] at hq
  simp [Dict.keysWhere, AList.empty_entries] at hq

/-- There are identifiers enough: for all slots of the QPs, or for all chunks of the batch. -/
def Scheduler.Roomy (s : Scheduler) : Prop :=
  s.config.qpCount * s.config.queueDepth ≤ maxWrId ∨ s.pending.keys.length + s.remaining.length ≤ maxWrId

end Rdma4py.ReadScheduler
