import Rdma4py.ReadScheduler.Lemmas.Posting

/-!
# The invariant of a batch in flight

`Pipeline s b batch` says how far the scheduler `s` is with the batch `b`: every chunk is still to be generated,
pending or completed, and the provider's record agrees. `_refill` keeps it and leaves no slot free that a chunk could
take.
-/

namespace Rdma4py.ReadScheduler

open Rdma4py.Lib

variable {env : RefillEnv} {b : BatchId} {s s' : Scheduler} {batch : Batch}

/-- The work requests are those of the chunks, in order. -/
def AreFor (wrs : List SendWR) (chunks : List ReadChunk) : Prop :=
  List.Forall₂ (fun wr c => wr = c.sendWR wr.wrId) wrs chunks

/-- The number of bytes of some chunks. -/
def chunkBytes (chunks : List ReadChunk) : Nat := (chunks.map ReadChunk.length).sum

/-- The chunks of the pending work requests. -/
def Scheduler.pendingChunks (s : Scheduler) : List ReadChunk := s.pending.values.map PendingRead.chunk

/-- How the scheduler stands with a batch that it works on. -/
structure Pipeline (s : Scheduler) (b : BatchId) (batch : Batch) : Prop where
  accounts : Accounts s
  drained : s.inputExhausted = true → s.remaining = []
  covered : ∃ chunks, AreFor (s.provider.postedFor b) chunks ∧
    (chunks ++ s.remaining).Perm (iterChunks s.config.chunkSize batch.requests)
  matched : (s.provider.completedFor b ++ s.pending.keys).Perm ((s.provider.postedFor b).map SendWR.wrId)
  counted : batch.completedChunks + s.pending.keys.length + s.remaining.length =
    (iterChunks s.config.chunkSize batch.requests).length
  bytes : batch.completedBytes + chunkBytes s.pendingChunks + chunkBytes s.remaining = batch.totalBytes

/-- The work is not stuck: a free slot means that there are no chunks left, and something is pending. -/
structure Flowing (s : Scheduler) : Prop where
  full : s.inputExhausted = false → ∀ q < s.config.qpCount, s.outstanding q = s.config.queueDepth
  pending : s.pending ≠ ∅

/-- There are identifiers enough for a batch of these requests: as many as the QPs have slots, or as the batch has
chunks. -/
def Config.RoomFor (c : Config) (requests : List RdmaReadRequest) : Prop :=
  c.qpCount * c.queueDepth ≤ maxWrId ∨ (iterChunks c.chunkSize requests).length ≤ maxWrId

theorem Pipeline.roomy (h : Pipeline s b batch) (hr : s.config.RoomFor batch.requests) : s.Roomy := by
  refine hr.imp_right fun hr => ?_
  have := h.counted
  omega

theorem chunkBytes_perm {cs cs' : List ReadChunk} (h : cs.Perm cs') : chunkBytes cs = chunkBytes cs' :=
  (h.map ReadChunk.length).sum_eq

theorem chunkBytes_append (cs cs' : List ReadChunk) : chunkBytes (cs ++ cs') = chunkBytes cs + chunkBytes cs' := by
  simp [chunkBytes]

/-! ## What a refill adds to `_pending` -/

section NewPending

variable {st : Staging} {n : Nat}

theorem map_fst_newPending (posts : Nat → List Staged) (n : Nat) :
    (flat n (newPending posts)).map Prod.fst = (flat n posts).map Staged.wrId := by
  simp [map_flat, newPending, Function.comp_def]

theorem filter_newPending (posts : Nat → List Staged) (n q : Nat) :
    ((flat n (newPending posts)).filter fun kv => kv.2.qpIndex = q).map Prod.fst =
      if q < n then (posts q).map Staged.wrId else [] := by
  have htag : ∀ q, ∀ kv ∈ newPending posts q, kv.2.qpIndex = q := by
    intro q kv hkv
    simp only [newPending, List.mem_map] at hkv
    obtain ⟨x, _, rfl⟩ := hkv
    rfl
  rw [filter_flat htag]
  split <;> simp [newPending, Function.comp_def]

/-- The staged identifiers are different from one another and from the pending ones. -/
theorem StagedIds.new (h : StagedIds s st) (hacc : Accounts s) (hok : StagingOk s st) :
    ((flat s.config.qpCount (newPending st.posts)).map Prod.fst).Nodup ∧
      ∀ kv ∈ flat s.config.qpCount (newPending st.posts), kv.1 ∉ s.pending := by
  have hall : st.all = flat s.config.qpCount st.posts := by rw [Staging.all, hok.advances.config]
  have hnd := h.nodup hacc
  rw [hall, ← map_fst_newPending] at hnd
  refine ⟨hnd, fun kv hkv => (h.fresh kv.1 ?_).1⟩
  rw [hall, ← map_fst_newPending]
  exact List.mem_map_of_mem hkv

end NewPending

/-! ## `_refill` keeps the invariant -/

/-- The accounts after a refill. -/
theorem Accounts.refilled {st : Staging} (h : Accounts s) (hok : StagingOk s st) (hids : StagedIds s st)
    (hs : s' = { st.scheduler with
      pending := s.pending.update (flat s.config.qpCount (newPending st.posts))
      outstanding := fun q => s.outstanding q + (st.posts q).length
      provider := { s.provider with
        posts := s.provider.posts ++ newPosts b st.posts (List.range s.config.qpCount)
        inflight := fun q => s.provider.inflight q ++ (st.posts q).map Staged.wrId } }) : Accounts s' := by
  obtain ⟨hnd, hfresh⟩ := hids.new h hok
  have hcfg : s'.config = s.config := by rw [hs]; exact hok.advances.config
  have hpend : s'.pending = s.pending.update (flat s.config.qpCount (newPending st.posts)) := by rw [hs]
  have hout : ∀ q, s'.outstanding q = s.outstanding q + (st.posts q).length := by intro q; rw [hs]
  have hon : ∀ q, (s'.pendingOn q).Perm ((st.posts q).map Staged.wrId ++ s.pendingOn q) := by
    intro q
    rw [Scheduler.pendingOn, hpend]
    refine (Dict.keysWhere_update hnd hfresh _).trans (.of_eq ?_)
    rw [filter_newPending]
    split
    · rfl
    · next hq => rw [hok.outside q (by omega)]; rfl
  refine ⟨?_, fun x hx => ?_, fun p hp => ?_, fun q => ?_, fun q => ?_, fun q => ?_⟩
  · have : s'.nextWrId = st.scheduler.nextWrId := by rw [hs]
    rw [this]
    exact hids.round.cur_range h.next_range
  · rw [AList.mem_keys, hpend, (Dict.keys_update hnd hfresh).mem_iff, map_fst_newPending, List.mem_append] at hx
    rcases hx with hx | hx
    · refine (hids.fresh x ?_).2
      rwa [Staging.all, hok.advances.config]
    · exact h.key_range x hx
  · rw [hpend, (Dict.values_update hnd hfresh).mem_iff, List.mem_append] at hp
    rw [hcfg]
    rcases hp with hp | hp
    · simp only [List.mem_map, mem_flat, newPending] at hp
      obtain ⟨_, ⟨q, hq, x, _, rfl⟩, rfl⟩ := hp
      exact hq
    · exact h.qp_lt p hp
  · rw [(hon q).length_eq, hout q, h.count q, List.length_append, List.length_map, Nat.add_comm]
  · rw [hout q, hcfg]
    exact hids.depth q
  · have : s'.provider.inflight q = s.provider.inflight q ++ (st.posts q).map Staged.wrId := by rw [hs]
    rw [this]
    exact ((h.inflight q).append_right _).trans (List.perm_append_comm.trans (hon q).symm)

/-- A refill that does not raise keeps the invariant. It ends with the generator exhausted or with every QP full. -/
theorem Pipeline.refilled (h : Pipeline s b batch) (hroom : s.config.RoomFor batch.requests)
    (hr : refill env b s = (s', none)) :
    Pipeline s' b batch ∧
      (s'.inputExhausted = true ∨ ∀ q < s'.config.qpCount, s'.outstanding q = s'.config.queueDepth) := by
  obtain ⟨st, hturns, hok, hend, hs⟩ := refill_eq hr h.drained
  have hids := StagedIds.turns (.init h.drained) (.init h.accounts) h.accounts (h.roomy hroom) hturns
  have hacc := h.accounts.refilled hok hids hs
  obtain ⟨hnd, hfresh⟩ := hids.new h.accounts hok
  have hcfg : s'.config = s.config := by rw [hs]; exact hok.advances.config
  have hall : st.all = flat s.config.qpCount st.posts := by rw [Staging.all, hok.advances.config]
  have hrem : s'.remaining = st.scheduler.remaining := by rw [hs]; rfl
  have hex : s'.inputExhausted = st.scheduler.inputExhausted := by rw [hs]
  have hkeys : s'.pending.keys.Perm (st.all.map Staged.wrId ++ s.pending.keys) := by
    rw [hs, hall, ← map_fst_newPending]
    exact Dict.keys_update hnd hfresh
  have hchunks : s'.pendingChunks.Perm (st.all.map Staged.chunk ++ s.pendingChunks) := by
    have hvals := (Dict.values_update hnd hfresh).map PendingRead.chunk
    rw [List.map_append] at hvals
    rw [Scheduler.pendingChunks, hs]
    refine hvals.trans (.of_eq ?_)
    rw [hall]
    simp [map_flat, newPending, Function.comp_def, Scheduler.pendingChunks]
  have hposted : s'.provider.postedFor b = s.provider.postedFor b ++ st.all.map Staged.wr := by
    rw [hs, hall]
    exact (postedFor_newPosts s.provider (List.range s.config.qpCount) b).trans (by rw [if_pos rfl]; rfl)
  have hcompleted : s'.provider.completedFor b = s.provider.completedFor b := by rw [hs]; rfl
  refine ⟨⟨hacc, fun he => ?_, ?_, ?_, ?_, ?_⟩, ?_⟩
  · rw [hrem]
    exact hok.drained (by rw [← hex]; exact he)
  · obtain ⟨chunks, hfor, hperm⟩ := h.covered
    refine ⟨chunks ++ st.all.map Staged.chunk, ?_, ?_⟩
    · rw [hposted]
      refine List.rel_append hfor ?_
      rw [List.forall₂_map_left_iff, List.forall₂_map_right_iff, List.forall₂_same]
      intro x hx
      rw [hall] at hx
      obtain ⟨q, _, hq⟩ := mem_flat.mp hx
      have hwr := hok.wr_eq q x hq
      rw [hwr]; rfl
    · rw [hrem, hcfg, List.append_assoc]
      exact (hok.chunks.append_left _).trans hperm
  · have hw : (st.all.map Staged.wr).map SendWR.wrId = st.all.map Staged.wrId := by
      rw [List.map_map]
      refine List.map_congr_left fun x hx => ?_
      rw [hall] at hx
      obtain ⟨q, _, hq⟩ := mem_flat.mp hx
      rw [Function.comp_apply, hok.wr_eq q x hq]; rfl
    rw [hposted, hcompleted, List.map_append, hw]
    refine (hkeys.append_left _).trans ?_
    refine .trans ?_ (h.matched.append_right _)
    rw [List.append_assoc]
    exact List.perm_append_comm.append_left _
  · have := h.counted
    have := hok.length_chunks
    rw [hkeys.length_eq, hrem, hcfg, List.length_append, List.length_map]
    omega
  · have hb := h.bytes
    have hc := chunkBytes_perm hok.chunks
    rw [chunkBytes_append] at hc
    rw [chunkBytes_perm hchunks, chunkBytes_append, hrem]
    omega
  · rw [hex]
    refine hend.imp_right fun hfull q hq => ?_
    rw [hcfg] at hq
    have := hfull q hq
    rw [Staging.Full, hok.advances.config, hok.advances.outstanding] at this
    refine Nat.le_antisymm (hacc.depth q) ?_
    rw [hs]
    simp only [hok.advances.config]
    exact this

end Rdma4py.ReadScheduler
