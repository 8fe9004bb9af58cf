import Mathlib.Data.Nat.Bitwise
import Rdma4py.Lib.Enumerates
import Rdma4py.NvmeQueue.Calls

/-!
# The invariant of the queue

A command ID, a SEND without its completion, a capsule without its response and a receive slot are tokens: each is in
exactly one place. The rest of the invariant says what the messages carry and where the finished requests are.
-/

namespace Rdma4py.NvmeQueue

open Rdma4py.Lib

/-! ## Tags -/

theorem and_sendTag {tag n : Nat} (h : n < 2 ^ 32) : (tag ||| n) &&& sendTag = tag &&& sendTag := by
  have hn : n &&& sendTag = 0 := by
    have hlt : n < 2 ^ 63 := h.trans (by decide)
    rw [sendTag, Nat.one_shiftLeft, Nat.and_two_pow, Nat.testBit_lt_two_pow hlt]
    exact Nat.zero_mul _
  rw [Nat.and_or_distrib_right, hn, Nat.or_zero]

theorem and_recvTag {tag n : Nat} (h : n < 2 ^ 32) : (tag ||| n) &&& recvTag = tag &&& recvTag := by
  have hn : n &&& recvTag = 0 := by
    have hlt : n < 2 ^ 62 := h.trans (by decide)
    rw [recvTag, Nat.one_shiftLeft, Nat.and_two_pow, Nat.testBit_lt_two_pow hlt]
    exact Nat.zero_mul _
  rw [Nat.and_or_distrib_right, hn, Nat.or_zero]

theorem and_indexMask {tag n : Nat} (ht : tag &&& indexMask = 0) (h : n < 2 ^ 32) : (tag ||| n) &&& indexMask = n := by
  have hmask : indexMask = 2 ^ 32 - 1 := by decide
  rw [Nat.and_or_distrib_right, ht, Nat.zero_or, hmask, Nat.and_two_pow_sub_one_eq_mod, Nat.mod_eq_of_lt h]

/-! ## Tokens -/

/-- A request waits for completions: it is pending under its command ID. -/
def World.Open (w : World) (r : RequestId) : Prop := w.queue.pending.lookup (w.requests r).commandId = some r

/-- The request whose SEND an entry completes. -/
def Entry.sent? : Entry → Option RequestId
  | .send x => some x.request
  | .response .. => none

/-- The request whose response an entry announces. -/
def Entry.answered? : Entry → Option RequestId
  | .send _ => none
  | .response _ _ r => some r

/-- The receive that an entry completes. -/
def Entry.recv? : Entry → Option WR
  | .send _ => none
  | .response wr _ _ => some wr

/-- The requests with a SEND whose completion was not polled yet. -/
def World.sending (w : World) : List RequestId :=
  w.link.uncompleted.map Send.request ++ w.link.cq.filterMap Entry.sent?

/-- The requests with a capsule whose response was not polled yet. -/
def World.awaiting (w : World) : List RequestId :=
  w.link.undelivered.map Send.request ++ w.link.capsules.map Capsule.request ++ w.link.cq.filterMap Entry.answered?

/-- The receives that are posted, and those whose data was not read yet. -/
def World.receives (w : World) : List WR := w.link.recvs ++ w.link.cq.filterMap Entry.recv?

/-! ## The invariant -/

/-- Everything but the relation between `done` and the two completions. -/
structure Core (w : World) : Prop where
  depth : 2 ≤ w.queue.depth ∧ w.queue.depth ≤ 256
  opened : w.queue.closed = false
  buffers : w.queue.commands.length = 64 * (w.queue.depth - 1) ∧ w.queue.responses.length = 16 * w.queue.depth
  ids : Enumerates (w.queue.free ++ w.queue.pending.keys) (· < w.queue.depth - 1)
  keys : ∀ cid r, w.queue.pending.lookup cid = some r →
    (w.requests r).commandId = cid ∧ r < w.nextRequest ∧ (w.requests r).done = false
  slots : ∀ r, w.Open r →
    w.queue.commands.mem.read 64 ((w.requests r).commandId * 64) = w.record.capsule r ∧
      capsuleCommandId (w.record.capsule r) = (w.requests r).commandId
  sends : Enumerates w.sending fun r => w.Open r ∧ (w.requests r).sendComplete = false
  awaits : Enumerates w.awaiting fun r => w.Open r ∧ (w.requests r).response = none
  recvs : Enumerates w.receives fun wr => ∃ slot < w.queue.depth, wr = recvWr slot
  posted : ∀ x, x ∈ w.link.undelivered ∨ x ∈ w.link.uncompleted ∨ .send x ∈ w.link.cq →
    x.wr = sendWr (w.requests x.request).commandId
  received : ∀ c ∈ w.link.capsules, c.bytes = w.record.capsule c.request
  unread : ∀ wr n r, .response wr n r ∈ w.link.cq →
    n = 16 ∧ ∃ a ∈ w.record.answers, a.request = r ∧ w.queue.responses.mem.read 16 wr.offset = a.data
  answered : (w.record.answers.map Answer.request).Nodup
  answers : ∀ a ∈ w.record.answers, a.request < w.nextRequest ∧ a.capsule = w.record.capsule a.request ∧
    a.data.length = 16 ∧ (Completion.unpack a.data).commandId = (w.requests a.request).commandId ∧
    a.request ∉ w.link.undelivered.map Send.request ++ w.link.capsules.map Capsule.request
  responses : ∀ r c, (w.requests r).response = some c →
    ∃ a ∈ w.record.answers, a.request = r ∧ Completion.unpack a.data = c
  fresh : ∀ r, w.nextRequest ≤ r → (w.requests r).done = false
  finished : Enumerates w.record.finished fun r => (w.requests r).done = true
  handed : w.record.finished.Perm (w.record.polled.flatten ++ w.record.discarded ++ w.queue.completed)

/-- The invariant: a request is done when both its completions were polled. -/
structure Sound (w : World) : Prop where
  core : Core w
  done_iff : ∀ r, (w.requests r).done = true ↔ (w.requests r).sendComplete = true ∧ (w.requests r).response.isSome

/-- The lists in which requests are handed out change. -/
theorem Core.same {w w' : World} {completed : List RequestId} (h : Core w)
    (hq : w'.queue = { w.queue with completed := completed }) (hr : w'.requests = w.requests)
    (hn : w'.nextRequest = w.nextRequest) (hl : w'.link = w.link)
    (hc : w'.record.capsule = w.record.capsule) (ha : w'.record.answers = w.record.answers)
    (hf : w'.record.finished = w.record.finished)
    (hp : w'.record.finished.Perm (w'.record.polled.flatten ++ w'.record.discarded ++ w'.queue.completed)) : Core w' := by
  have hopen : ∀ r, w'.Open r ↔ w.Open r := by intro r; rw [World.Open, World.Open, hq, hr]
  obtain ⟨h₁, h₂, h₃, h₄, h₅, h₆, h₇, h₈, h₉, h₁₀, h₁₁, h₁₂, h₁₃, h₁₄, h₁₅, h₁₆, h₁₇, _⟩ := h
  refine ⟨?_, ?_, ?_, ?_, ?_, fun r ho => ?_, ?_, ?_, ?_, ?_, ?_, ?_, ?_, ?_, ?_, ?_, ?_, hp⟩
  · rw [hq]; exact h₁
  · rw [hq]; exact h₂
  · rw [hq]; exact h₃
  · rw [hq]; exact h₄
  · rw [hq, hr, hn]; exact h₅
  · rw [hq, hr, hc]; exact h₆ r ((hopen r).mp ho)
  · rw [World.sending, hl]; exact h₇.congr fun r => by rw [hopen, hr]
  · rw [World.awaiting, hl]; exact h₈.congr fun r => by rw [hopen, hr]
  · rw [World.receives, hl, hq]; exact h₉
  · rw [hl, hr]; exact h₁₀
  · rw [hl, hc]; exact h₁₁
  · rw [hl, ha, hq]; exact h₁₂
  · rw [ha]; exact h₁₃
  · rw [ha, hn, hc, hr, hl]; exact h₁₄
  · rw [hr, ha]; exact h₁₅
  · rw [hn, hr]; exact h₁₆
  · rw [hf, hr]; exact h₁₇

/-! ## What follows at once -/

variable {w : World} {r : RequestId} {cid slot : Nat}

theorem Core.commandId_lt (h : Core w) (ho : w.Open r) : (w.requests r).commandId < w.queue.depth - 1 := by
  refine (h.ids.mem_iff _).mp (List.mem_append_right _ (AList.mem_keys.mp ?_))
  exact AList.lookup_isSome.mp (by rw [ho]; rfl)

theorem Core.open_of_lookup (h : Core w) (hl : w.queue.pending.lookup cid = some r) : w.Open r := by
  rw [World.Open, (h.keys cid r hl).1]
  exact hl

theorem Core.open_unfinished (h : Core w) (ho : w.Open r) : r < w.nextRequest ∧ (w.requests r).done = false :=
  (h.keys _ r ho).2

/-- Two open requests have different command IDs. -/
theorem open_inj {r' : RequestId} (ho : w.Open r) (ho' : w.Open r')
    (he : (w.requests r).commandId = (w.requests r').commandId) : r = r' := by
  rw [World.Open, ← he] at ho'
  exact Option.some.inj (ho.symm.trans ho')

theorem recvWr_injective : Function.Injective recvWr := by
  intro slot slot' h
  have := congrArg WR.offset h
  simp only [recvWr] at this
  omega

/-- A list of open requests has at most `depth - 1` elements. -/
theorem Core.length_le (h : Core w) {l : List RequestId} {P : RequestId → Prop} (hl : Enumerates l P)
    (hP : ∀ r, P r → w.Open r) : l.length ≤ w.queue.depth - 1 := by
  have hopen : ∀ r ∈ l, w.Open r := fun r hr => hP r ((hl.mem_iff r).mp hr)
  have hnd : (l.map fun r => (w.requests r).commandId).Nodup :=
    hl.nodup.map_on fun r hr r' hr' he => open_inj (hopen r hr) (hopen r' hr') he
  have hsub : (l.map fun r => (w.requests r).commandId) ⊆ List.range (w.queue.depth - 1) := by
    intro cid hcid
    obtain ⟨r, hr, rfl⟩ := List.mem_map.mp hcid
    exact List.mem_range.mpr (h.commandId_lt (hopen r hr))
  simpa using (hnd.subperm hsub).length_le

theorem length_entries (cq : List Entry) :
    (cq.filterMap Entry.sent?).length + (cq.filterMap Entry.answered?).length = cq.length ∧
      (cq.filterMap Entry.recv?).length = (cq.filterMap Entry.answered?).length := by
  induction cq with
  | nil => exact ⟨rfl, rfl⟩
  | cons e cq ih =>
      cases e with
      | send x => simp only [List.filterMap_cons, Entry.sent?, Entry.answered?, Entry.recv?, List.length_cons]; omega
      | response wr n r =>
          simp only [List.filterMap_cons, Entry.sent?, Entry.answered?, Entry.recv?, List.length_cons]; omega

/-- More receives are posted than responses can still arrive, and the CQ never overflows. -/
theorem Core.receives_left (h : Core w) :
    w.link.undelivered.length + w.link.capsules.length < w.link.recvs.length ∧
      w.link.cq.length ≤ 2 * (w.queue.depth - 1) := by
  have hsends := h.length_le h.sends fun _ hr => hr.1
  have hawaits := h.length_le h.awaits fun _ hr => hr.1
  obtain ⟨hcq, hrecv⟩ := length_entries w.link.cq
  have hslots : w.queue.depth ≤ w.receives.length := by
    have hnd : ((List.range w.queue.depth).map recvWr).Nodup := List.nodup_range.map recvWr_injective
    have hsub : (List.range w.queue.depth).map recvWr ⊆ w.receives := by
      intro wr hwr
      obtain ⟨slot, hs, rfl⟩ := List.mem_map.mp hwr
      exact (h.recvs.mem_iff _).mpr ⟨slot, List.mem_range.mp hs, rfl⟩
    simpa using (hnd.subperm hsub).length_le
  have hdepth := h.depth.1
  simp only [World.sending, World.awaiting, World.receives, List.length_append, List.length_map] at hsends hawaits hslots
  omega

end Rdma4py.NvmeQueue
