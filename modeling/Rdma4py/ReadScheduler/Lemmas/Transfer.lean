import Rdma4py.ReadScheduler.Lemmas.ChunkCount
import Rdma4py.ReadScheduler.Transfer

/-!
# The bytes of a batch in flight

The chunks of a batch that are neither to be generated nor pending have arrived. Polling and posting keep that, and so does
whoever may write to the memory.
-/

namespace Rdma4py.ReadScheduler

open Rdma4py.Lib

variable {π β : Type*} {a : Addressing π} {m₀ m m' : π → β} {b : BatchId} {q : Nat} {s s' : Scheduler}
  {x x' : Session} {requests : List RdmaReadRequest}

/-! ## The copies of the chunks -/

/-- The bytes of a chunk. -/
def ReadChunk.copy (a : Addressing π) (c : ReadChunk) : Copy π := (c.request.copy a).part c.offset c.length

@[simp] theorem RdmaReadRequest.length_copy (a : Addressing π) (r : RdmaReadRequest) : (r.copy a).length = r.length := by
  unfold RdmaReadRequest.copy
  cases r.cls <;> rfl

theorem ReadChunk.copy_sendWR (a : Addressing π) (c : ReadChunk) (wrId : Nat) : (c.sendWR wrId).copy a = c.copy a := by
  unfold SendWR.copy ReadChunk.copy RdmaReadRequest.copy ReadChunk.sendWR
  cases c.request.cls with
  | read => simp [RequestClass.opcode, Copy.part, Nat.add_assoc]
  | write => simp [RequestClass.opcode, Copy.part, Nat.add_assoc]

/-- Neither of two chunks writes to a place of the other. -/
def Spared (a : Addressing π) (c c' : ReadChunk) : Prop :=
  (c.copy a).Spares (c'.copy a) ∧ (c'.copy a).Spares (c.copy a)

theorem Spared.symm {c c' : ReadChunk} (h : Spared a c c') : Spared a c' c := ⟨h.2, h.1⟩

theorem chunksOf_bounds {chunkSize : Nat} (hc : 0 < chunkSize) {r : RdmaReadRequest} {i : Nat} {c : ReadChunk}
    (h : c ∈ chunksOf chunkSize r i) : c.request = r ∧ c.offset + c.length ≤ r.length := by
  refine ⟨(chunksOf_spec h).2.1, ?_⟩
  exact ((pieces_chunksOf hc r i).mem_bounds (p := (c.offset, c.length)) (List.mem_map_of_mem h)).2.2

/-- The chunks of separate requests spare one another. -/
theorem iterChunks_spared {chunkSize : Nat} (hc : 0 < chunkSize)
    (h : Copy.Separate (requests.map (RdmaReadRequest.copy a))) :
    (iterChunks chunkSize requests).Pairwise (Spared a) := by
  have hpairs : requests.zipIdx.Pairwise fun ri ri' =>
      (ri.1.copy a).Spares (ri'.1.copy a) ∧ (ri'.1.copy a).Spares (ri.1.copy a) := by
    have hreq := List.pairwise_map.mp h.spares
    rw [← List.zipIdx_map_fst 0 requests] at hreq
    exact List.pairwise_map.mp hreq
  rw [iterChunks, List.pairwise_flatMap]
  constructor
  · -- Two chunks of one request.
    intro ri hri
    have hmem : ri.1 ∈ requests := by
      rw [← List.zipIdx_map_fst 0 requests]
      exact List.mem_map_of_mem hri
    have hapart := h.apart _ (List.mem_map_of_mem hmem)
    have hdisjoint := List.pairwise_map.mp (pieces_chunksOf hc ri.1 ri.2).pairwise_disjoint
    refine hdisjoint.imp_of_mem ?_
    intro c c' hmemc hmemc' hd
    obtain ⟨hr, hle⟩ := chunksOf_bounds hc hmemc
    obtain ⟨hr', hle'⟩ := chunksOf_bounds hc hmemc'
    rw [Spared, ReadChunk.copy, ReadChunk.copy, hr, hr']
    exact ⟨hapart.part_spares (by simpa using hle) (by simpa using hle') (.inl hd),
      hapart.part_spares (by simpa using hle') (by simpa using hle) (.inr hd)⟩
  · -- Chunks of two requests.
    refine hpairs.imp ?_
    intro ri ri' hspares c hmemc c' hmemc'
    obtain ⟨hr, hle⟩ := chunksOf_bounds hc hmemc
    obtain ⟨hr', hle'⟩ := chunksOf_bounds hc hmemc'
    rw [Spared, ReadChunk.copy, ReadChunk.copy, hr, hr']
    exact ⟨hspares.1.part (by simpa using hle) (by simpa using hle'),
      hspares.2.part (by simpa using hle') (by simpa using hle)⟩

/-- When all chunks have arrived, the requests have. -/
theorem arrived_of_chunks {chunkSize : Nat} (hc : 0 < chunkSize)
    (h : ∀ c ∈ iterChunks chunkSize requests, (c.copy a).Arrived m₀ m) : ∀ r ∈ requests, (r.copy a).Arrived m₀ m := by
  intro r hr k hk
  obtain ⟨i, hi⟩ := List.mem_iff_getElem?.mp hr
  rw [RdmaReadRequest.length_copy] at hk
  obtain ⟨p, hp, hle, hlt⟩ := (pieces_chunksOf hc r i).exists_mem (Nat.zero_le k) hk
  obtain ⟨c, hmem, rfl⟩ := List.mem_map.mp hp
  have harrived := h c (mem_iterChunks.mpr ⟨r, i, hi, hmem⟩) (k - c.offset) (by
    simp only [ReadChunk.copy, Copy.part] at hle hlt ⊢
    omega)
  have hsum : c.offset + (k - c.offset) = k := Nat.add_sub_of_le hle
  simpa only [ReadChunk.copy, Copy.part, hsum, (chunksOf_spec hmem).2.1] using harrived

/-! ## The invariant -/

/-- How far the bytes of a batch are, when the memory was `m₀` at its submit. -/
structure Landing (a : Addressing π) (m₀ m : π → β) (s : Scheduler) (requests : List RdmaReadRequest) : Prop where
  separate : Copy.Separate (requests.map (RdmaReadRequest.copy a))
  posted : ∀ wrId p, s.pending.lookup wrId = some p → s.provider.posted? p.qpIndex wrId = some (p.chunk.sendWR wrId)
  chunks : ∃ arrived, (∀ c ∈ arrived, (ReadChunk.copy a c).Arrived m₀ m) ∧
    (arrived ++ (s.pendingChunks ++ s.remaining)).Perm (iterChunks s.config.chunkSize requests)
  sources : ∀ r ∈ requests, ∀ i < r.length, m ((r.copy a).source i) = m₀ ((r.copy a).source i)

/-- The invariant reads no more of the scheduler than this. -/
theorem Landing.of_eq (h : Landing a m₀ m s requests) (hp : s'.pending = s.pending) (hr : s'.remaining = s.remaining)
    (hposts : s'.provider.posts = s.provider.posts) (hc : s'.config = s.config) : Landing a m₀ m s' requests := by
  refine ⟨h.separate, ?_, ?_, ?_⟩
  · intro wrId p hl
    rw [hp] at hl
    simpa only [Provider.posted?, hposts] using h.posted wrId p hl
  · obtain ⟨arrived, ha, hperm⟩ := h.chunks
    refine ⟨arrived, ha, ?_⟩
    rw [Scheduler.pendingChunks, hp, hr, hc]
    exact hperm
  · exact h.sources

theorem Landing.arrived {wrId : Nat} {p : PendingRead} (h : Landing a m₀ m s requests)
    (hl : s.pending.lookup wrId = some p) (hd : (p.chunk.copy a).Done m) : (p.chunk.copy a).Arrived m₀ m := by
  obtain ⟨arrived, _, hperm⟩ := h.chunks
  have hmem : p.chunk ∈ s.pendingChunks := by
    apply List.mem_map_of_mem
    exact (Dict.values_perm_of_lookup hl).symm.subset (List.mem_cons_self ..)
  have hchunk : p.chunk ∈ iterChunks s.config.chunkSize requests := by
    apply hperm.subset
    simp [hmem]
  obtain ⟨r, k, hr, hin⟩ := mem_iterChunks.mp hchunk
  obtain ⟨hreq, hle⟩ := chunksOf_bounds s.config.chunkSize_pos hin
  intro i hi
  have hi' : i < p.chunk.length := hi
  refine (hd i hi).trans ?_
  rw [ReadChunk.copy, hreq]
  exact h.sources r (List.mem_of_getElem? hr) (p.chunk.offset + i) (by omega)

/-- With nothing left to do, the requests have arrived. -/
theorem Landing.landed (h : Landing a m₀ m s requests) (hp : s.pending = ∅) (hr : s.remaining = []) :
    ∀ r ∈ requests, (r.copy a).Arrived m₀ m := by
  obtain ⟨arrived, ha, hperm⟩ := h.chunks
  apply arrived_of_chunks s.config.chunkSize_pos
  intro c hc
  apply ha
  have hmem := hperm.symm.subset hc
  rw [hr, Scheduler.pendingChunks, hp] at hmem
  simpa [Dict.values, AList.empty_entries] using hmem

/-! ## Writes to the memory -/

theorem Landing.untouched (h : Landing a m₀ m s requests) (hu : ∀ r ∈ requests, (r.copy a).Untouched m m') :
    Landing a m₀ m' s requests := by
  have hchunk : ∀ c ∈ iterChunks s.config.chunkSize requests, (ReadChunk.copy a c).Untouched m m' := by
    intro c hc
    obtain ⟨r, i, hr, hmem⟩ := mem_iterChunks.mp hc
    obtain ⟨hreq, hle⟩ := chunksOf_bounds s.config.chunkSize_pos hmem
    rw [ReadChunk.copy, hreq]
    exact (hu r (List.mem_of_getElem? hr)).part (by simpa using hle)
  refine ⟨h.separate, h.posted, ?_, ?_⟩
  · obtain ⟨arrived, ha, hperm⟩ := h.chunks
    refine ⟨arrived, ?_, hperm⟩
    intro c hc
    exact (hchunk c (hperm.subset (List.mem_append_left _ hc))).arrived (ha c hc)
  · intro r hr i hi
    exact (hu r hr i (by simpa using hi)).1.trans (h.sources r hr i hi)

theorem Landing.written {wrId : Nat} {p : PendingRead} (h : Landing a m₀ m s requests)
    (hl : s.pending.lookup wrId = some p) (hw : (p.chunk.copy a).Within m m') : Landing a m₀ m' s requests := by
  obtain ⟨arrived, ha, hperm⟩ := h.chunks
  have hmem : p.chunk ∈ s.pendingChunks := by
    apply List.mem_map_of_mem
    exact (Dict.values_perm_of_lookup hl).symm.subset (List.mem_cons_self ..)
  have hspared := hperm.symm.pairwise (iterChunks_spared s.config.chunkSize_pos h.separate) Spared.symm
  have hlater := (List.pairwise_append.mp hspared).2.2
  refine ⟨h.separate, h.posted, ⟨arrived, ?_, hperm⟩, ?_⟩
  · intro c hc
    have hsp := hlater c hc p.chunk (List.mem_append_left _ hmem)
    exact (hw.untouched hsp.2).arrived (ha c hc)
  · intro r hr i hi
    rw [← h.sources r hr i hi]
    have hchunk : p.chunk ∈ iterChunks s.config.chunkSize requests := by
      apply hperm.subset
      simp [hmem]
    obtain ⟨r', k, hr', hin⟩ := mem_iterChunks.mp hchunk
    obtain ⟨hreq, hle⟩ := chunksOf_bounds s.config.chunkSize_pos hin
    apply hw
    intro j hj
    have hj : j < p.chunk.length := hj
    rw [ReadChunk.copy, hreq]
    apply h.separate.target_ne_source (List.mem_map_of_mem (List.mem_of_getElem? hr')) (List.mem_map_of_mem hr)
    · simp only [RdmaReadRequest.length_copy]
      omega
    · simpa using hi

/-! ## Polling -/

/-- The chunks that the completions name have arrived, as far as they are pending on this QP. -/
def Reported (a : Addressing π) (m₀ m : π → β) (s : Scheduler) (q : Nat) (wcs : List WC) : Prop :=
  ∀ wc ∈ wcs, wc.status = none → ∀ p, s.pending.lookup wc.wrId = some p → p.qpIndex = q →
    (p.chunk.copy a).Arrived m₀ m

/-- Nothing became pending. -/
def Scheduler.Shrinks (s s' : Scheduler) : Prop :=
  ∀ wrId p, s'.pending.lookup wrId = some p → s.pending.lookup wrId = some p

theorem Reported.shrinks {wcs : List WC} (h : Reported a m₀ m s q wcs) (hs : s.Shrinks s') : Reported a m₀ m s' q wcs := by
  intro wc hwc hstatus p hl hq
  exact h wc hwc hstatus p (hs wc.wrId p hl) hq

theorem Session.complete_shrinks (b : BatchId) (q wrId : Nat) (p : PendingRead) (x : Session) :
    x.scheduler.Shrinks (x.complete b q wrId p).scheduler := by
  intro wrId' p' hl
  have hne : wrId' ≠ wrId := by
    rintro rfl
    rw [Session.complete, AList.lookup_erase] at hl
    cases hl
  rwa [Session.complete, AList.lookup_erase_ne hne] at hl

/-- A pending chunk arrived, and its completion is taken in. -/
theorem Landing.complete {wrId : Nat} {p : PendingRead} (h : Landing a m₀ m x.scheduler requests)
    (hl : x.scheduler.pending.lookup wrId = some p) (ha : (p.chunk.copy a).Arrived m₀ m) :
    Landing a m₀ m (x.complete b q wrId p).scheduler requests := by
  refine ⟨h.separate, ?_, ?_, h.sources⟩
  · intro wrId' p' hl'
    exact h.posted wrId' p' (x.complete_shrinks b q wrId p wrId' p' hl')
  · obtain ⟨arrived, harrived, hperm⟩ := h.chunks
    have hpending : x.scheduler.pendingChunks.Perm (p.chunk :: (x.complete b q wrId p).scheduler.pendingChunks) :=
      (Dict.values_perm_of_lookup hl).map PendingRead.chunk
    refine ⟨arrived ++ [p.chunk], ?_, ?_⟩
    · intro c hc
      rcases List.mem_append.mp hc with hc | hc
      · exact harrived c hc
      · rw [List.mem_singleton.mp hc]
        exact ha
    · refine .trans ?_ hperm
      rw [List.append_assoc]
      exact (hpending.symm.append_right x.scheduler.remaining).append_left arrived

theorem Landing.routed {wcs : List WC} {n n' : Nat} (h : Landing a m₀ m x.scheduler requests)
    (ha : Reported a m₀ m x.scheduler q wcs) (hr : routeCompletions b q wcs x n = (x', n', none)) :
    Landing a m₀ m x'.scheduler requests ∧ x.scheduler.Shrinks x'.scheduler := by
  induction wcs generalizing x n with
  | nil =>
      simp only [routeCompletions, Prod.mk.injEq, and_true] at hr
      obtain ⟨rfl, rfl⟩ := hr
      exact ⟨h, fun _ _ hl => hl⟩
  | cons wc wcs ih =>
      rw [routeCompletions] at hr
      cases hl : x.scheduler.pending.lookup wc.wrId with
      | none => simp [hl] at hr
      | some p =>
          simp only [hl] at hr
          split at hr
          · simp at hr
          · next hq =>
              cases hstatus : wc.status with
              | some e => simp [hstatus] at hr
              | none =>
                  simp only [hstatus] at hr
                  have harrived := ha wc (List.mem_cons_self ..) hstatus p hl (not_not.mp hq)
                  have hshrinks := x.complete_shrinks b q wc.wrId p
                  have hrest : Reported a m₀ m (x.complete b q wc.wrId p).scheduler q wcs :=
                    Reported.shrinks (fun wc' hwc' => ha wc' (List.mem_cons_of_mem _ hwc')) hshrinks
                  obtain ⟨hland, hrestShrinks⟩ := ih (h.complete hl harrived) hrest hr
                  exact ⟨hland, fun wrId p' hl' => hshrinks wrId p' (hrestShrinks wrId p' hl')⟩

theorem Landing.polled {env : ProgressEnv} {qs : List Nat} {n n' : Nat} (h : Landing a m₀ m x.scheduler requests)
    (ha : ∀ q wcs, env.poll q = .ok wcs → Reported a m₀ m x.scheduler q wcs)
    (hr : pollCqs env b qs x n = (x', n', none)) : Landing a m₀ m x'.scheduler requests := by
  induction qs generalizing x n with
  | nil =>
      simp only [pollCqs, Prod.mk.injEq, and_true] at hr
      obtain ⟨rfl, rfl⟩ := hr
      exact h
  | cons q qs ih =>
      simp only [pollCqs] at hr
      split at hr
      · exact ih h ha hr
      · cases hpoll : env.poll q with
        | error e => simp [hpoll] at hr
        | ok wcs =>
            simp only [hpoll] at hr
            split at hr
            · simp at hr
            · next x₁ n₁ hroute =>
                have hreaped : Landing a m₀ m (x.scheduler.reap q wcs) requests := h.of_eq rfl rfl rfl rfl
                obtain ⟨hland, hshrinks⟩ := Landing.routed (x := { x with scheduler := x.scheduler.reap q wcs })
                  hreaped (ha q wcs hpoll) hroute
                exact ih hland (fun q' wcs' hpoll' => (ha q' wcs' hpoll').shrinks hshrinks) hr

/-! ## Posting -/

theorem find?_of_unique {α : Type*} {f : α → Nat} {l : List α} (hnd : (l.map f).Nodup) {y : α} (hy : y ∈ l) :
    l.find? (fun z => f z = f y) = some y := by
  induction l with
  | nil => cases hy
  | cons z l ih =>
      simp only [List.map_cons, List.nodup_cons] at hnd
      rcases List.mem_cons.mp hy with rfl | hy
      · simp
      · have hne : f z ≠ f y := by
          intro he
          apply hnd.1
          rw [he]
          exact List.mem_map_of_mem hy
        rw [List.find?_cons_of_neg (by simpa using hne)]
        exact ih hnd.2 hy

/-- The work requests on a QP after those of a refill were posted. -/
theorem wrs_newPosts (posts : List Post) (b : BatchId) (staged : Nat → List Staged) (n q : Nat) :
    ((posts ++ newPosts b staged (List.range n)).filter fun post => post.qpIndex = q).flatMap Post.wrs =
      (posts.filter fun post => post.qpIndex = q).flatMap Post.wrs ++
        if q < n then (staged q).map Staged.wr else [] := by
  rw [List.filter_append, List.flatMap_append]
  congr 1
  induction n with
  | zero => simp [newPosts]
  | succ n ih =>
      simp only [newPosts, List.range_succ, List.filter_append, List.map_append, List.flatMap_append] at ih ⊢
      rw [ih]
      by_cases hq : q = n
      · subst hq
        by_cases hnil : staged q = [] <;> simp [hnil]
      · have hlt : q < n + 1 ↔ q < n := by omega
        by_cases hnil : staged n = [] <;> simp [hnil, hlt, Ne.symm hq]

theorem posted?_newPosts {p : Provider} {staged : Nat → List Staged} {n : Nat} {y : Staged}
    (hnd : ((staged q).map fun x => x.wr.wrId).Nodup) (hq : q < n) (hy : y ∈ staged q) :
    Provider.posted? { p with posts := p.posts ++ newPosts b staged (List.range n) } q y.wr.wrId = some y.wr := by
  have hmem : y.wr ∈ ((staged q).map Staged.wr).reverse := by
    rw [List.mem_reverse]
    exact List.mem_map_of_mem hy
  have hnd' : (((staged q).map Staged.wr).reverse.map SendWR.wrId).Nodup := by
    rw [List.map_reverse, List.nodup_reverse, List.map_map]
    exact hnd
  rw [Provider.posted?, wrs_newPosts, if_pos hq, List.reverse_append, List.find?_append, find?_of_unique hnd' hmem]
  rfl

theorem posted?_newPosts_of_notMem {p : Provider} {staged : Nat → List Staged} {n wrId : Nat}
    (h : q < n → wrId ∉ (staged q).map fun x => x.wr.wrId) :
    Provider.posted? { p with posts := p.posts ++ newPosts b staged (List.range n) } q wrId = p.posted? q wrId := by
  rw [Provider.posted?, wrs_newPosts]
  split
  · next hq =>
      have hnone : ((staged q).map Staged.wr).reverse.find? (fun wr => wr.wrId = wrId) = none := by
        rw [List.find?_eq_none]
        intro wr hwr
        rw [List.mem_reverse] at hwr
        obtain ⟨y, hy, rfl⟩ := List.mem_map.mp hwr
        simp only [decide_eq_true_eq]
        rintro rfl
        exact h hq (List.mem_map_of_mem hy)
      rw [List.reverse_append, List.find?_append, hnone]
      rfl
  · rw [List.append_nil]
    rfl

theorem Landing.refilled {env : RefillEnv} {batch : Batch} (h : Landing a m₀ m s batch.requests)
    (hpipe : Pipeline s b batch) (hroom : s.config.RoomFor batch.requests) (hr : refill env b s = (s', none)) :
    Landing a m₀ m s' batch.requests := by
  obtain ⟨st, hturns, hok, _, hs⟩ := refill_eq hr hpipe.drained
  have hids := StagedIds.turns (.init hpipe.drained) (.init hpipe.accounts) hpipe.accounts (hpipe.roomy hroom) hturns
  obtain ⟨hnd, hfresh⟩ := hids.new hpipe.accounts hok
  have hall : st.all = flat s.config.qpCount st.posts := by rw [Staging.all, hok.advances.config]
  have hwr : ∀ q, ((st.posts q).map fun x => x.wr.wrId) = (st.posts q).map Staged.wrId := by
    intro q
    apply List.map_congr_left
    intro y hy
    rw [hok.wr_eq q y hy]
    rfl
  refine ⟨h.separate, ?_, ?_, h.sources⟩
  · intro wrId p hl
    have hl : AList.lookup wrId (s.pending.update (flat s.config.qpCount (newPending st.posts))) = some p := by
      rw [hs] at hl
      exact hl
    have hposts : s'.provider.posts = s.provider.posts ++ newPosts b st.posts (List.range s.config.qpCount) := by rw [hs]
    have hfind : ∀ q, s'.provider.posted? q wrId = Provider.posted? { s.provider with
        posts := s.provider.posts ++ newPosts b st.posts (List.range s.config.qpCount) } q wrId := by
      intro q
      rw [Provider.posted?, hposts]
      rfl
    rw [hfind]
    by_cases hmem : wrId ∈ (flat s.config.qpCount (newPending st.posts)).map Prod.fst
    · obtain ⟨v, hv, hlookup⟩ := Dict.lookup_update (d := s.pending) hmem
      obtain rfl : v = p := Option.some.inj (hlookup.symm.trans hl)
      obtain ⟨q, hq, hin⟩ := mem_flat.mp hv
      simp only [newPending, List.mem_map, Prod.mk.injEq] at hin
      obtain ⟨y, hy, rfl, rfl⟩ := hin
      have hkey : y.wrId = y.wr.wrId := by rw [hok.wr_eq q y hy]; rfl
      have hone : ((st.posts q).map fun x => x.wr.wrId).Nodup := by
        rw [hwr q]
        have hflat := hids.nodup hpipe.accounts
        rw [hall, map_flat, flat, List.nodup_flatMap] at hflat
        exact hflat.1 q (List.mem_range.mpr hq)
      have hfound := posted?_newPosts (p := s.provider) (b := b) hone hq hy
      rw [← hkey] at hfound
      rw [hfound, hok.wr_eq q y hy]
    · rw [Dict.lookup_update_of_notMem hmem] at hl
      rw [posted?_newPosts_of_notMem]
      · exact h.posted wrId p hl
      · intro hq hin
        rw [hwr] at hin
        apply hmem
        rw [map_fst_newPending, map_flat]
        exact mem_flat.mpr ⟨p.qpIndex, hq, hin⟩
  · obtain ⟨arrived, harrived, hperm⟩ := h.chunks
    have hcfg : s'.config = s.config := by rw [hs]; exact hok.advances.config
    have hrem : s'.remaining = st.scheduler.remaining := by rw [hs]; rfl
    have hpending : s'.pendingChunks.Perm (st.all.map Staged.chunk ++ s.pendingChunks) := by
      have hvalues := (Dict.values_update hnd hfresh).map PendingRead.chunk
      rw [List.map_append] at hvalues
      rw [Scheduler.pendingChunks, hs]
      refine hvalues.trans (.of_eq ?_)
      rw [hall]
      simp [map_flat, newPending, Function.comp_def, Scheduler.pendingChunks]
    refine ⟨arrived, harrived, ?_⟩
    rw [hcfg, hrem]
    refine .trans (.append_left arrived ?_) hperm
    refine (hpending.append_right _).trans ?_
    refine (List.perm_append_comm.append_right _).trans ?_
    rw [List.append_assoc]
    exact hok.chunks.append_left _

/-! ## A batch during an event -/

theorem Idle.landing (h : Idle s) (self : SchedulerId) (oc : OnComplete)
    (hsep : Copy.Separate (requests.map (RdmaReadRequest.copy a))) :
    Landing a m m (s.start self b requests oc).scheduler requests := by
  refine ⟨hsep, ?_, ⟨[], ?_, ?_⟩, fun _ _ _ _ => rfl⟩
  · intro wrId p hl
    have hl : s.pending.lookup wrId = some p := hl
    rw [h.pending, AList.lookup_empty] at hl
    cases hl
  · intro c hc
    cases hc
  · have hnone : (s.start self b requests oc).scheduler.pendingChunks = [] := by
      show (Dict.values s.pending).map PendingRead.chunk = []
      rw [h.pending]
      rfl
    rw [hnone]
    exact .refl _

/-- The `try` block of `progress` up to the question whether the batch is drained. -/
theorem Landing.ran {env : ProgressEnv} {n : Nat} (h : Landing a m₀ m x.scheduler x.batch.requests)
    (hpipe : Pipeline x.scheduler b x.batch) (hroom : x.scheduler.config.RoomFor x.batch.requests)
    (ha : ∀ q wcs, env.poll q = .ok wcs → Reported a m₀ m x.scheduler q wcs) (hr : Ran env b x x' n) :
    Landing a m₀ m x'.scheduler x'.batch.requests := by
  obtain ⟨x₁, hp, hend⟩ := hr
  have hroutes := pollCqs_routes env b (List.range x.scheduler.config.qpCount) x 0
  rw [hp] at hroutes
  have hreq : x₁.batch.requests = x.batch.requests := by
    obtain ⟨_, _, he⟩ := hroutes.works.batch
    rw [he]
  have hland := h.polled ha hp
  rcases hend with ⟨_, rfl⟩ | ⟨_, s', hre, rfl⟩
  · rw [hreq]
    exact hland
  · rw [← hreq] at hland
    refine hland.refilled (hpipe.polled hp).1 ?_ hre
    rw [hroutes.worksFor.config, hreq]
    exact hroom

/-- How a batch of `s` stands with its bytes during an event that began at `w₀`: they are on their way, or all of them
have arrived if it ended well meanwhile. -/
structure Fares (a : Addressing π) (s : SchedulerId) (b : BatchId) (m₀ m : π → β) (w₀ w : World) : Prop where
  active : (w.schedulers s).active = some b → Landing a m₀ m (w.schedulers s) (w.batches b).requests
  ended : EndedWell s b w → EndedWell s b w₀ ∨ ∀ r ∈ (w.batches b).requests, (r.copy a).Arrived m₀ m

section Changes

variable {s : SchedulerId} {w w' w₀ : World} {e : Event}

theorem Fares.kept (h : Fares a s b m₀ m w₀ w) (hb : b < w.nextBatch) (hbatch : Ends (w.batches b) (w'.batches b))
    (hs : (w'.schedulers s).active = some b → (w.schedulers s).active = some b ∧
      (w'.schedulers s).pending = (w.schedulers s).pending ∧ (w'.schedulers s).remaining = (w.schedulers s).remaining ∧
      (w'.schedulers s).provider.posts = (w.schedulers s).provider.posts ∧
      (w'.schedulers s).config = (w.schedulers s).config) : Fares a s b m₀ m w₀ w' := by
  constructor
  · intro hact
    obtain ⟨hact', hp, hr, hposts, hc⟩ := hs hact
    rw [hbatch.requests]
    exact (h.active hact').of_eq hp hr hposts hc
  · rintro ⟨_, hsch, hd, he⟩
    rcases hbatch.error with hsame | hne
    · rw [hsame] at hsch hd he ⊢
      exact h.ended ⟨hb, hsch, hd, he⟩
    · exact absurd he hne

theorem Fares.failed (h : Fares a s b m₀ m w₀ w) (hb : b < w.nextBatch) (self : SchedulerId) (b' : BatchId)
    (error : Exn) : Fares a s b m₀ m w₀ (w.put self b' (failTransport (w.session self b') error none)) := by
  apply h.kept hb
  · by_cases hbb : b = b'
    · subst hbb
      rw [put_batches_self]
      exact failTransport_ends (w.session self b) error none
    · rw [put_batches_of_ne hbb]
      exact .refl _
  · intro hact
    by_cases hs : s = self
    · subst hs
      rw [put_schedulers_self, (failTransport_active _ _ _).1] at hact
      cases hact
    · rw [put_schedulers_of_ne hs] at hact ⊢
      exact ⟨hact, rfl, rfl, rfl, rfl⟩

theorem Fares.aside (h : Fares a s b m₀ m w₀ w) (hb : b < w.nextBatch) (self : SchedulerId) {s' : Scheduler}
    (hs : Aside (w.schedulers self) s') : Fares a s b m₀ m w₀ (w.setScheduler self s') := by
  refine h.kept hb (.refl (w.batches b)) ?_
  intro hact
  by_cases hself : s = self
  · subst hself
    have hset : (w.setScheduler s s').schedulers s = s' := Function.update_self ..
    rw [hset] at hact ⊢
    obtain ⟨_, _, _, _, _, _, _, _, rfl⟩ := hs
    exact ⟨hact, rfl, rfl, rfl, rfl⟩
  · have hset : (w.setScheduler self s').schedulers s = w.schedulers s := Function.update_of_ne hself ..
    rw [hset] at hact ⊢
    exact ⟨hact, rfl, rfl, rfl, rfl⟩

theorem Fares.progressed (h : Fares a s b m₀ m w₀ w) (hsound : Sound s w) (hb : b < w.nextBatch) (self : SchedulerId)
    (b' : BatchId) (env : ProgressEnv) (hself : (w.batches b').scheduler = self)
    (hd : (w.batches b').done = false) (hact : (w.schedulers self).active = some b')
    (ha : self = s → ∀ q wcs, env.poll q = .ok wcs → ∀ m₀, Landing a m₀ m (w.schedulers s) (w.batches b').requests →
      Reported a m₀ m (w.schedulers s) q wcs) :
    Fares a s b m₀ m w₀ (w.put self b' (progressBody env b' (w.session self b')).1) := by
  have htouched := progressBody_touched env b' (w.session self b')
  by_cases hbb : b = b'
  · subst hbb
    by_cases hs : s = self
    · subst hs
      obtain ⟨hpipe, _, hroom⟩ := hsound.inFlight b hact
      have hland : Landing a m₀ m (w.schedulers s) (w.batches b).requests := h.active hact
      have hreported := fun q wcs hpoll => ha rfl q wcs hpoll m₀ hland
      rcases progressBody_cases env b (w.session s b) with ⟨x', err, _, he⟩ | ⟨x', n, hran, _, he⟩ |
        ⟨x', n, hran, hex, hem, he⟩ <;> rw [he]
      · constructor
        · intro hactive
          rw [put_schedulers_self, (failTransport_active _ _ _).1] at hactive
          cases hactive
        · intro hwell
          have herror := hwell.error
          rw [put_batches_self] at herror
          exact absurd herror (failTransport_batch _ _ _).2
      · have hland' := hland.ran (x := w.session s b) hpipe hroom hreported hran
        constructor
        · intro _
          rw [put_schedulers_self, put_batches_self]
          exact hland'
        · intro hwell
          obtain ⟨_, _, hbatch⟩ := hran.works.batch
          have hdone := hwell.done
          rw [put_batches_self, hbatch] at hdone
          exact absurd (hd.symm.trans hdone) (by simp)
      · have hland' := hland.ran (x := w.session s b) hpipe hroom hreported hran
        obtain ⟨hpipe', _⟩ := hpipe.ran (hsound.inFlight b hact).2.1 hroom hran
        obtain ⟨_, hf⟩ := finishSuccess_eq x'
        constructor
        · intro hactive
          rw [put_schedulers_self, (finishSuccess_active _).1] at hactive
          cases hactive
        · intro _
          right
          rw [put_batches_self, hf]
          exact hland'.landed hem (hpipe'.drained hex)
    · have hother : (w.put self b (progressBody env b (w.session self b)).1).schedulers s = w.schedulers s :=
        put_schedulers_of_ne hs _ _
      constructor
      · intro hactive
        rw [hother] at hactive
        exact absurd ((hsound.owned b hactive).2.symm.trans hself) hs
      · intro hwell
        have hsch := hwell.scheduler
        rw [put_batches_self, (progressBody_ends env b _).1] at hsch
        exact absurd (hsch.symm.trans hself) hs
  · apply h.kept hb
    · rw [put_batches_of_ne hbb]
      exact .refl _
    · intro hactive
      by_cases hs : s = self
      · subst hs
        rw [put_schedulers_self] at hactive
        rcases htouched.active with hsame | hnone
        · have hsome : (w.schedulers s).active = some b := hsame.symm.trans hactive
          exact absurd (Option.some.inj (hsome.symm.trans hact)) hbb
        · rw [hnone] at hactive
          cases hactive
      · rw [put_schedulers_of_ne hs] at hactive ⊢
        exact ⟨hactive, rfl, rfl, rfl, rfl⟩

theorem Fares.submitted (h : Fares a s b m₀ m w₀ w) (hb : b < w.nextBatch) (self : SchedulerId)
    (oc : OnComplete) (env : RefillEnv)
    (hx : SubmitEnds env w.nextBatch ((w.schedulers self).start self w.nextBatch requests oc) x'
      (totalChunks (w.schedulers self).config.chunkSize requests)) :
    Fares a s b m₀ m w₀ ({ w with nextBatch := w.nextBatch + 1 }.put self w.nextBatch x') := by
  have hne : b ≠ w.nextBatch := Nat.ne_of_lt hb
  refine h.kept hb ?_ ?_
  · rw [put_batches_of_ne hne]
    exact .refl _
  · intro hactive
    by_cases hs : s = self
    · subst hs
      rw [put_schedulers_self] at hactive
      have hstart : x'.scheduler.active = some w.nextBatch ∨ x'.scheduler.active = none := by
        have hworks := refill_worksFor env w.nextBatch ((w.schedulers s).start s w.nextBatch requests oc).scheduler
        rcases hx with ⟨_, rfl⟩ | ⟨_, s', hr, rfl⟩ | ⟨_, s', err, _, rfl⟩
        · exact .inr (finishSuccess_active _).1
        · rw [hr] at hworks
          exact .inl hworks.active
        · exact .inr (failTransport_active _ _ _).1
      rcases hstart with hsome | hnone
      · exact absurd (Option.some.inj (hactive.symm.trans hsome)) hne
      · rw [hnone] at hactive
        cases hactive
    · rw [put_schedulers_of_ne hs] at hactive ⊢
      exact ⟨hactive, rfl, rfl, rfl, rfl⟩

theorem Fares.started (hsound : Sound s w) (self : SchedulerId) (oc : OnComplete) (env : RefillEnv)
    (hroom : self = s → (w.schedulers s).config.RoomFor requests)
    (hsep : self = s → Copy.Separate (requests.map (RdmaReadRequest.copy a)))
    (hu : ensureUsable (w.schedulers self) = none) (hnone : (w.schedulers self).active = none)
    (hx : SubmitEnds env w.nextBatch ((w.schedulers self).start self w.nextBatch requests oc) x'
      (totalChunks (w.schedulers self).config.chunkSize requests)) :
    Fares a s w.nextBatch m m w₀ ({ w with nextBatch := w.nextBatch + 1 }.put self w.nextBatch x') := by
  obtain ⟨hsch, hreq, _⟩ := submitEnds_announces hx
  by_cases hs : s = self
  · subst hs
    obtain ⟨hc, hp⟩ := ensureUsable_none hu
    have hidle := hsound.idle hnone hp hc
    obtain ⟨hpost, hcomp⟩ := hsound.fresh w.nextBatch (Nat.le_refl _)
    have hpipe := hidle.started hpost hcomp s requests oc
    have hland : Landing a m m ((w.schedulers s).start s w.nextBatch requests oc).scheduler requests :=
      hidle.landing s oc (hsep rfl)
    rcases hx with ⟨hz, rfl⟩ | ⟨hz, s', hr, rfl⟩ | ⟨hz, s', err, hr, rfl⟩
    · constructor
      · intro hactive
        rw [put_schedulers_self, (finishSuccess_active _).1] at hactive
        cases hactive
      · -- Without requests the batch is finished at once.
        intro _
        right
        intro r hr
        rw [put_batches_self, hreq] at hr
        have hr : r ∈ requests := hr
        rw [(totalChunks_eq_zero (w.schedulers s).config.chunkSize_pos).mp hz] at hr
        cases hr
    · constructor
      · intro _
        rw [put_schedulers_self, put_batches_self]
        exact hland.refilled hpipe (hroom rfl) hr
      · intro hwell
        have hdone := hwell.done
        rw [put_batches_self] at hdone
        cases hdone
    · constructor
      · intro hactive
        rw [put_schedulers_self, (failTransport_active _ _ _).1] at hactive
        cases hactive
      · intro hwell
        have herror := hwell.error
        rw [put_batches_self] at herror
        exact absurd herror (failTransport_batch _ _ _).2
  · constructor
    · intro hactive
      rw [put_schedulers_of_ne hs] at hactive
      exact absurd (hsound.owned w.nextBatch hactive).1 (Nat.lt_irrefl _)
    · intro hwell
      have hself := hwell.scheduler
      rw [put_batches_self, hsch] at hself
      exact absurd hself.symm hs

/-- How all batches of `s` stand during an event that began at `w₀`. -/
structure AllFare (a : Addressing π) (s : SchedulerId) (submitted : BatchId → π → β) (m : π → β) (w₀ w : World) :
    Prop where
  sound : Sound s w
  fares : ∀ b < w.nextBatch, Fares a s b (submitted b) m w₀ w

/-- The CQs that a change polls report success only for bytes that have arrived. -/
theorem reported_of_honest {t : Transfers π β} {env : ProgressEnv} (hsound : Sound s w)
    (hh : HonestSuccess a s t e) (hp : e.polls t.world = some (s, env)) (hs : w.schedulers s = t.world.schedulers s)
    (hact : (w.schedulers s).active = some b) {q : Nat} {wcs : List WC} (hpoll : env.poll q = .ok wcs)
    (hland : Landing a m₀ t.memory (w.schedulers s) requests) : Reported a m₀ t.memory (w.schedulers s) q wcs := by
  intro wc hwc hstatus p hl hq
  obtain ⟨hpipe, _, _⟩ := hsound.inFlight b hact
  have hinflight : wc.wrId ∈ (w.schedulers s).provider.inflight q := by
    apply (hpipe.accounts.inflight q).symm.subset
    have hperm := Dict.keysWhere_perm_of_lookup hl fun v : PendingRead => decide (v.qpIndex = q)
    rw [if_pos (decide_eq_true hq)] at hperm
    exact hperm.symm.subset (List.mem_cons_self ..)
  have hposted := hland.posted wc.wrId p hl
  rw [hq] at hposted
  have hdone := hh env q wcs wc (p.chunk.sendWR wc.wrId) hp hpoll hwc hstatus (hs ▸ hinflight) (hs ▸ hposted)
  rw [ReadChunk.copy_sendWR] at hdone
  exact hland.arrived hl hdone

theorem AllFare.change {t : Transfers π β} {submitted : BatchId → π → β} (hr : Reliable a s t (.process e))
    (hnew : ∀ b, t.world.nextBatch ≤ b → submitted b = t.memory) (hc : Change t.world e w w')
    (h : AllFare a s submitted t.memory t.world w) : AllFare a s submitted t.memory t.world w' := by
  obtain ⟨hhonest, hsep, henough⟩ := hr
  refine ⟨h.sound.change henough hc, ?_⟩
  intro b hb
  cases hc with
  | control stack tasks => exact ⟨(h.fares b hb).active, fun ⟨hlt, hs, hd, he⟩ => (h.fares b hb).ended ⟨hlt, hs, hd, he⟩⟩
  | callbackError b' error =>
      refine (h.fares b hb).kept hb ?_ fun hact => ⟨hact, rfl, rfl, rfl, rfl⟩
      simp only [Function.update_apply]
      split
      · next hbb =>
          subst hbb
          exact ⟨rfl, rfl, rfl, rfl, rfl, rfl, rfl, rfl, id, .inr (by simp)⟩
      · exact .refl _
  | failed self b' error => exact (h.fares b hb).failed hb self b' error
  | misfired self b' error => exact (h.fares b hb).failed hb self b' error
  | progressed self b' env hw hp hd hself hact =>
      apply (h.fares b hb).progressed h.sound hb self b' env hself hd hact
      rintro rfl q wcs hpoll m₀ hland
      exact reported_of_honest h.sound hhonest hp (congrFun hw self) hact hpoll hland
  | submitted self items requests oc env x' he hi hu hnone hx =>
      rcases Nat.lt_succ_iff_lt_or_eq.mp hb with hold | rfl
      · exact (h.fares b hold).submitted hold self oc env hx
      · rw [hnew t.world.nextBatch (Nat.le_refl _)]
        apply Fares.started h.sound self oc env ?_ ?_ hu hnone hx
        · rintro rfl
          exact henough items oc env requests he hi
        · rintro rfl
          exact hsep items oc env requests he hi
  | connected self context transitions => exact (h.fares b hb).aside hb self (aside_connected _ _ _)
  | disconnected self args env context transitions => exact (h.fares b hb).aside hb self (aside_disconnected _ _ _)
  | closed self env hopen =>
      have hcl := close_closes env hopen
      rw [hcl.nextBatch] at hb
      apply (h.fares b hb).kept hb (hcl.ends b)
      intro hact
      by_cases hs : s = self
      · subst hs
        rw [hcl.active] at hact
        cases hact
      · rw [hcl.others s hs] at hact ⊢
        exact ⟨hact, rfl, rfl, rfl, rfl⟩

/-- A scheduler is sound, and the bytes of its active batch are on their way. -/
structure Underway (a : Addressing π) (s : SchedulerId) (t : Transfers π β) : Prop where
  sound : Sound s t.world
  landing : ∀ b, (t.world.schedulers s).active = some b →
    Landing a (t.submitted b) t.memory (t.world.schedulers s) (t.world.batches b).requests

theorem Underway.process {t : Transfers π β} (h : Underway a s t) (hen : t.world.Enabled e)
    (hr : Reliable a s t (.process e)) :
    AllFare a s ((transfers a s).next t (.process e)).submitted t.memory t.world (t.world.step e).1 := by
  have hnew : ∀ b, t.world.nextBatch ≤ b → ((transfers a s).next t (.process e)).submitted b = t.memory := by
    intro b hle
    exact if_neg (Nat.not_lt.mpr hle)
  refine step_invariant (fun _ _ hc h => h.change hr hnew hc) hen ⟨h.sound, ?_⟩
  intro b hb
  have hsame : ((transfers a s).next t (.process e)).submitted b = t.submitted b := if_pos hb
  rw [hsame]
  exact ⟨h.landing b, .inl⟩

theorem Underway.step {t : Transfers π β} {e : TransferEvent π β} (h : Underway a s t)
    (he : ((transfers a s).when (Reliable a s)).Enabled t e) : Underway a s ((transfers a s).next t e) := by
  obtain ⟨hen, hr⟩ := he
  cases e with
  | process e =>
      have hall := h.process hen hr
      refine ⟨hall.sound, ?_⟩
      intro b hact
      exact (hall.fares b (hall.sound.owned b hact).1).active hact
  | memory m =>
      refine ⟨h.sound, ?_⟩
      intro b hact
      have hland := h.landing b hact
      rcases hen with ⟨q, wrId, wr, hin, hposted, hwithin⟩ | huntouched
      · -- What is in flight is pending.
        obtain ⟨hpipe, _, _⟩ := h.sound.inFlight b hact
        obtain ⟨p, hl, hq⟩ := Dict.lookup_of_mem_keysWhere ((hpipe.accounts.inflight q).subset hin)
        have hsend := hland.posted wrId p hl
        rw [of_decide_eq_true hq, hposted] at hsend
        rw [Option.some.inj hsend, ReadChunk.copy_sendWR] at hwithin
        exact hland.written hl hwithin
      · exact hland.untouched (huntouched b hact)

theorem Underway.run {t t' : Transfers π β} (hi : t.world.Initial)
    (hr : ((transfers a s).when (Reliable a s)).Reaches t t') : Underway a s t' := by
  refine Machine.Reaches.invariant (I := Underway a s)
    (fun t e h (he : ((transfers a s).when (Reliable a s)).Enabled t e) => h.step he) hr ⟨.initial s hi, ?_⟩
  intro b hact
  obtain ⟨_, hnone, _⟩ := (hi.1 s).idle
  rw [hnone] at hact
  cases hact

end Changes

end Rdma4py.ReadScheduler
