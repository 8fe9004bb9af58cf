import Rdma4py.ReadScheduler.Lemmas.Soundness

/-!
# A scheduler with one QP

When one QP has a slot for every chunk of a batch, the first refill stages all of them. The identifiers follow the
cycle, without regard to how many there are: `_allocate_wr_id` looks only at `_pending`, which the staged ones enter
later.
-/

namespace Rdma4py.ReadScheduler

open Rdma4py.Lib

variable {b : BatchId} {s : Scheduler} {x : Session} {q n : Nat}

/-- Nothing raises. -/
def RefillEnv.calm : RefillEnv := ⟨fun _ => none, fun _ => none⟩

/-- The CQ of QP 0 reports the success of some work requests. -/
def ProgressEnv.reports (ids : List Nat) : ProgressEnv :=
  ⟨fun q => .ok (if q = 0 then ids.map fun y => ⟨y, none⟩ else []), .calm⟩

theorem ProgressEnv.reports_honest {ids : List Nat} {s : Scheduler} (h : ids.Subperm (s.provider.inflight 0)) :
    (ProgressEnv.reports ids).Honest s := by
  intro q wcs hw
  simp only [ProgressEnv.reports, Except.ok.injEq] at hw
  subst hw
  split
  · next hq => subst hq; simpa [List.map_map, Function.comp_def] using h
  · exact List.nil_subperm

/-- The settings of a scheduler with one QP. -/
def Config.oneQp (queueDepth chunkSize : Nat) (hq : 0 < queueDepth) (hc : 0 < chunkSize ∧ chunkSize ≤ maxSgeLength) :
    Config where
  qpCount := 1
  queueDepth := queueDepth
  chunkSize := chunkSize
  pollBatch := queueDepth
  qpCount_pos := Nat.one_pos
  queueDepth_pos := hq
  chunkSize_pos := hc.1
  chunkSize_le := hc.2
  pollBatch_pos := hq

/-- A process in which every scheduler has the same settings. -/
def World.fresh (c : Config) : World where
  schedulers _ := { config := c, hasContext := false, ownsResources := false }
  batches _ := Batch.new 0 [] 0 false
  nextBatch := 0
  stack := []
  tasks := []

theorem World.fresh_initial (c : Config) : (World.fresh c).Initial := ⟨fun _ => ⟨_, _, rfl⟩, rfl, rfl, rfl⟩

/-- A request to read some bytes from address 0. -/
def RdmaReadRequest.bytes (length : Nat) (h : 0 < length ∧ length ≤ maxWrId + 1) : RdmaReadRequest where
  cls := .read
  localMr := 0
  remoteAddr := 0
  rkey := 7
  length := length
  localOffset := 0
  remoteOffset := 0
  remoteAddr_le := Nat.zero_le _
  rkey_le := by decide
  length_pos := h.1
  range_le := by omega

/-- The chunks of a list with the identifiers that follow `wrId`. -/
def stagedFrom : Nat → List ReadChunk → List Staged
  | _, [] => []
  | wrId, c :: cs => ⟨wrId, c, c.sendWR wrId⟩ :: stagedFrom (CyclicIds.cyclicNext maxWrId wrId) cs

theorem map_wrId_stagedFrom (wrId : Nat) (cs : List ReadChunk) :
    (stagedFrom wrId cs).map Staged.wrId = CyclicIds.walked maxWrId wrId cs.length := by
  induction cs generalizing wrId with
  | nil => rfl
  | cons c cs ih =>
      rw [stagedFrom, List.map_cons, ih, CyclicIds.walked, CyclicIds.walked, List.length_cons, List.range_succ_eq_map,
        List.map_cons, List.map_map]
      rfl

theorem chunk_mem_of_stagedFrom {wrId : Nat} {cs : List ReadChunk} {y : Staged} (h : y ∈ stagedFrom wrId cs) :
    y.chunk ∈ cs := by
  induction cs generalizing wrId with
  | nil => cases h
  | cons c cs ih =>
      rcases List.mem_cons.mp h with rfl | h
      · exact List.mem_cons_self
      · exact List.mem_cons_of_mem _ (ih h)

theorem length_stagedFrom (wrId : Nat) (cs : List ReadChunk) : (stagedFrom wrId cs).length = cs.length := by
  induction cs generalizing wrId with
  | nil => rfl
  | cons c cs ih => simp [stagedFrom, ih]

/-- With nothing pending the next identifier is free. -/
theorem allocateWrId_of_empty (h : s.pending = ∅) :
    allocateWrId s = (some s.nextWrId, { s with nextWrId := CyclicIds.cyclicNext maxWrId s.nextWrId }) := by
  have hscan : CyclicIds.scan maxWrId (fun y => y ∈ s.pending) maxWrId s.nextWrId = _ :=
    CyclicIds.scan_eq (i := 0) (by decide) (fun _ hj => absurd hj (Nat.not_lt_zero _))
      (by rw [h]; exact AList.notMem_empty _)
  simp only [allocateWrId, hscan, Function.iterate_succ_apply, Function.iterate_zero_apply]

/-- The staging of one QP with a slot for every chunk. -/
theorem stageLoop_one (st : Staging) (passes : Nat) {cs : List ReadChunk} (hqp : st.scheduler.config.qpCount = 1)
    (hp : st.scheduler.pending = ∅) (ho : st.scheduler.outstanding 0 = 0) (hx : st.scheduler.inputExhausted = false)
    (hc : st.scheduler.chunkIter = some cs) (hlen : (st.posts 0).length + cs.length = st.scheduler.config.queueDepth)
    (hpasses : cs.length < passes) :
    ∃ next built, stageLoop .calm passes st =
      ({ scheduler := { st.scheduler with chunkIter := some [], nextWrId := next }
         posts := Function.update st.posts 0 (st.posts 0 ++ stagedFrom st.scheduler.nextWrId cs)
         built := built }, none) := by
  have hnot : ¬ st.scheduler.inputExhausted = true := by simp [hx]
  induction cs generalizing st passes with
  | nil =>
      obtain ⟨passes, rfl⟩ : ∃ k, passes = k + 1 := ⟨passes - 1, by simp only [List.length_nil] at hpasses; omega⟩
      refine ⟨st.scheduler.nextWrId, st.built, ?_⟩
      have hfull : st.scheduler.config.queueDepth ≤ st.scheduler.outstanding 0 + (st.posts 0).length := by
        rw [ho, ← hlen]; simp
      simp only [stageLoop, if_neg hnot, hqp, List.range_one, stagePass, stageOne, if_pos hfull,
        stagedFrom, List.append_nil, Function.update_eq_self]
      rw [← hc]
  | cons c cs ih =>
      obtain ⟨passes, rfl⟩ : ∃ k, passes = k + 1 := ⟨passes - 1, by omega⟩
      rw [List.length_cons] at hlen hpasses
      have hfree : ¬ st.scheduler.config.queueDepth ≤ st.scheduler.outstanding 0 + (st.posts 0).length := by omega
      have halloc := allocateWrId_of_empty (s := { st.scheduler with chunkIter := some cs }) hp
      have hpass : stagePass .calm [0] false st =
          (st.add 0 c cs st.scheduler.nextWrId (CyclicIds.cyclicNext maxWrId st.scheduler.nextWrId), true, none) := by
        simp only [stagePass, stageOne, if_neg hfree, hc, halloc, RefillEnv.calm]
        rfl
      have hlen' : ((st.add 0 c cs st.scheduler.nextWrId (CyclicIds.cyclicNext maxWrId st.scheduler.nextWrId)).posts
          0).length + cs.length = st.scheduler.config.queueDepth := by
        rw [Staging.add_posts_self, List.length_append, List.length_singleton]
        omega
      obtain ⟨next, built, he⟩ := ih (st.add 0 c cs st.scheduler.nextWrId
        (CyclicIds.cyclicNext maxWrId st.scheduler.nextWrId)) passes hqp hp ho hx rfl hlen' (by omega) hnot
      refine ⟨next, built, ?_⟩
      simp only [stageLoop, if_neg hnot, hqp, List.range_one, hpass, he]
      rw [Staging.add_posts_self, List.append_assoc]
      simp only [Staging.add, Function.update_idem]
      rfl

/-- The first refill of one QP with a slot for every chunk. -/
theorem refill_one {cs : List ReadChunk} (hqp : s.config.qpCount = 1) (hp : s.pending = ∅) (ho : s.outstanding 0 = 0)
    (hx : s.inputExhausted = false) (hc : s.chunkIter = some cs) (hlen : cs.length = s.config.queueDepth)
    (hne : cs ≠ []) :
    ∃ next, refill .calm b s =
      ({ s with
          chunkIter := some [], nextWrId := next
          pending := s.pending.update ((stagedFrom s.nextWrId cs).map fun y => (y.wrId, ⟨0, y.chunk⟩))
          outstanding := Function.update s.outstanding 0 cs.length
          provider := { s.provider with
            posts := s.provider.posts ++ [⟨b, 0, (stagedFrom s.nextWrId cs).map Staged.wr⟩]
            inflight := Function.update s.provider.inflight 0
              (s.provider.inflight 0 ++ (stagedFrom s.nextWrId cs).map Staged.wrId) } }, none) := by
  obtain ⟨next, built, he⟩ := stageLoop_one { scheduler := s, posts := fun _ => [], built := 0 } (cs.length + 1)
    hqp hp ho hx hc (by simpa using hlen) (Nat.lt_succ_self _)
  refine ⟨next, ?_⟩
  have hstaged : stagedFrom s.nextWrId cs ≠ [] := by
    intro h
    have := length_stagedFrom s.nextWrId cs
    rw [h] at this
    exact hne (List.length_eq_zero_iff.mp this.symm)
  rw [refill, stage]
  simp only [hc, Option.getD_some, he, hqp, List.range_one, postAll, Function.update_self, List.nil_append,
    if_neg hstaged, postOne, ho, length_stagedFrom, Nat.zero_add]
  rfl

/-- All completions of a list arrive, each of a pending chunk of one byte. -/
theorem routeCompletions_all {ids : List Nat} (hnd : ids.Nodup) (h : ∀ y ∈ ids, ∃ p,
      x.scheduler.pending.lookup y = some p ∧ p.qpIndex = q ∧ p.chunk.length = 1) :
    ∃ x', routeCompletions b q (ids.map fun y => ⟨y, none⟩) x n = (x', n + ids.length, none) ∧
      (∀ y, y ∈ x'.scheduler.pending ↔ y ∈ x.scheduler.pending ∧ y ∉ ids) ∧
      x'.scheduler.outstanding q = x.scheduler.outstanding q - ids.length ∧
      x'.batch = { x.batch with
        completedChunks := x.batch.completedChunks + ids.length
        completedBytes := x.batch.completedBytes + ids.length } := by
  induction ids generalizing x n with
  | nil => exact ⟨x, rfl, by simp, rfl, rfl⟩
  | cons y ids ih =>
      obtain ⟨hy, hnd⟩ := List.nodup_cons.mp hnd
      obtain ⟨p, hl, hq, hp⟩ := h y (by simp)
      obtain ⟨x', he, hmem, hout, hbatch⟩ := ih (x := x.complete b q y p) (n := n + 1) hnd fun z hz => by
        obtain ⟨p', hl', hrest⟩ := h z (by simp [hz])
        refine ⟨p', ?_, hrest⟩
        have hzy : z ≠ y := by rintro rfl; exact hy hz
        exact (AList.lookup_erase_ne hzy).trans hl'
      refine ⟨x', ?_, fun z => ?_, ?_, ?_⟩
      · rw [List.map_cons, routeCompletions]
        simp only [hl, hq, ne_eq, not_true_eq_false, if_false]
        refine he.trans ?_
        rw [List.length_cons, Nat.add_assoc, Nat.add_comm 1]
      · rw [hmem z, Session.complete, AList.mem_erase, List.mem_cons]
        tauto
      · have hsub : (x.complete b q y p).scheduler.outstanding q = x.scheduler.outstanding q - 1 :=
          Function.update_self ..
        rw [hout, hsub, List.length_cons]
        omega
      · rw [hbatch, Session.complete, hp, List.length_cons]
        simp only [Nat.add_assoc, Nat.add_comm 1]

/-- All pending chunks of one byte complete at once, while a slot still counts as taken: the next refill finds the
generator exhausted, and the batch is finished. -/
theorem progressBody_one (b : BatchId) (env : ProgressEnv) (x : Session) {ids : List Nat} (hqp : x.scheduler.config.qpCount = 1)
    (hout : x.scheduler.outstanding 0 = ids.length + 1) (hdepth : 1 < x.scheduler.config.queueDepth)
    (hiter : x.scheduler.chunkIter = some []) (hex : x.scheduler.inputExhausted = false) (hne : ids ≠ [])
    (hnd : ids.Nodup) (hmem : ∀ y, y ∈ x.scheduler.pending ↔ y ∈ ids)
    (hl : ∀ y ∈ ids, ∃ p, x.scheduler.pending.lookup y = some p ∧ p.qpIndex = 0 ∧ p.chunk.length = 1)
    (hpoll : env.poll 0 = .ok (ids.map fun y => ⟨y, none⟩)) (hcalm : env.refill = .calm) :
    ∃ x', x'.batch = { x.batch with
        completedChunks := x.batch.completedChunks + ids.length
        completedBytes := x.batch.completedBytes + ids.length } ∧
      (progressBody env b x).1 = (finishSuccess x').1 := by
  have hcount : min x.scheduler.config.pollBatch (x.scheduler.outstanding 0) ≠ 0 := by
    have := x.scheduler.config.pollBatch_pos
    omega
  obtain ⟨x₁, hroute, hpend, hout₁, hbatch⟩ := routeCompletions_all (b := b) (q := 0) (n := 0)
    (x := { x with scheduler := x.scheduler.reap 0 (ids.map fun y => ⟨y, none⟩) }) hnd hl
  have hempty : x₁.scheduler.pending = ∅ := by
    refine AList.ext (List.eq_nil_iff_forall_not_mem.mpr fun e he => ?_)
    have hk : e.1 ∈ x₁.scheduler.pending := List.mem_map_of_mem he
    rw [hpend e.1] at hk
    exact hk.2 ((hmem e.1).mp hk.1)
  have hlen : 0 + ids.length ≠ 0 := by
    have := List.length_pos_iff.mpr hne
    omega
  have hpolled : pollCqs env b [0] x 0 = (x₁, 0 + ids.length, none) := by
    simp only [pollCqs, if_neg hcount, hpoll, hroute]
  -- The refill finds a free slot and no chunk.
  have hrefill : refill .calm b x₁.scheduler = ({ x₁.scheduler with inputExhausted := true }, none) := by
    have hfree : ¬ x₁.scheduler.config.queueDepth ≤ x₁.scheduler.outstanding 0 + 0 := by
      have hr := pollCqs_routes env b [0] x 0
      rw [hpolled] at hr
      rw [hr.worksFor.config, hout₁, Scheduler.reap, hout]
      omega
    have hr := pollCqs_routes env b [0] x 0
    rw [hpolled] at hr
    obtain ⟨_, _, _, _, _, _, _, rfl⟩ := hr
    simp only [refill, stage, hiter, List.length_nil, stageLoop, hex, Bool.false_eq_true,
      if_false, hqp, List.range_one, stagePass, stageOne, if_neg hfree, postAll, if_true]
  rw [progressBody, progressTry, hqp, List.range_one, hpolled]
  refine ⟨{ x₁ with scheduler := { x₁.scheduler with inputExhausted := true } }, hbatch, ?_⟩
  rcases hf : finishSuccess { x₁ with scheduler := { x₁.scheduler with inputExhausted := true } } with ⟨x₂, called⟩
  simp only [if_neg hlen, hcalm, hrefill, finishIfDrained, hempty, Dict.isEmpty_iff.mpr rfl, true_and, if_true] at hf ⊢
  rw [hf]
  cases called <;> rfl

/-! ## More slots than identifiers -/

section

variable {c : Config} {rs : List RdmaReadRequest} {ids : List Nat}

theorem iterChunks_one_byte (rs : List RdmaReadRequest) :
    (iterChunks 1 rs).length = (rs.map RdmaReadRequest.length).sum ∧ ∀ ch ∈ iterChunks 1 rs, ch.length = 1 := by
  have hone : ∀ ch ∈ iterChunks 1 rs, ch.length = 1 := by
    intro ch hch
    obtain ⟨request, i, _, hmem⟩ := mem_iterChunks.mp hch
    have hle := (chunksOf_spec hmem).2.2
    have hpos := ((pieces_chunksOf Nat.one_pos request i).mem_bounds
      (p := (ch.offset, ch.length)) (List.mem_map_of_mem hmem)).2.1
    exact Nat.le_antisymm hle hpos
  refine ⟨?_, hone⟩
  have hsum := sum_lengths_iterChunks Nat.one_pos rs
  rw [List.map_congr_left hone, List.map_const', List.sum_replicate] at hsum
  simpa using hsum

theorem mapM_id_some (rs : List RdmaReadRequest) : (rs.map some).mapM id = some rs := by
  induction rs with
  | nil => rfl
  | cons r rs ih => simp [List.mapM_cons, ih]

/-- The first refill of a batch that has a one-byte chunk for each slot of the QP. -/
theorem submit_one (hqp : c.qpCount = 1) (hchunk : c.chunkSize = 1) (hrs : rs ≠ [])
    (hlen : (rs.map RdmaReadRequest.length).sum = c.queueDepth) :
    ∃ s', s'.config = c ∧ s'.active = some 0 ∧ s'.chunkIter = some [] ∧ s'.inputExhausted = false ∧
      s'.outstanding 0 = c.queueDepth ∧
      s'.pending = Dict.update ∅ ((stagedFrom 1 (iterChunks 1 rs)).map fun y => (y.wrId, ⟨0, y.chunk⟩)) ∧
      s'.provider.inflight 0 = CyclicIds.walked maxWrId 1 c.queueDepth ∧
      ∃ total, process.next (World.fresh c) (.call 0 (.submit (rs.map some) .none .calm)) =
        ({ World.fresh c with nextBatch := 1 }.put 0 0 ⟨s', Batch.new 0 rs total false⟩) := by
  obtain ⟨hcount, _⟩ := iterChunks_one_byte rs
  rw [hlen] at hcount
  have hne : iterChunks 1 rs ≠ [] := iterChunks_ne_nil Nat.one_pos hrs
  have htotal : totalChunks c.chunkSize rs ≠ 0 := fun h => absurd ((totalChunks_eq_zero c.chunkSize_pos).mp h) hrs
  obtain ⟨next, hrefill⟩ := refill_one (b := 0) (s := (((World.fresh c).schedulers 0).start 0 0 rs .none).scheduler)
    hqp rfl rfl (decide_eq_false htotal) (by rw [← hchunk]; rfl) hcount hne
  have hs := congrArg Prod.fst hrefill
  refine ⟨(refill .calm 0 (((World.fresh c).schedulers 0).start 0 0 rs .none).scheduler).1, ?_, ?_, ?_, ?_, ?_, ?_, ?_,
    totalChunks c.chunkSize rs, ?_⟩
  · rw [hs]; rfl
  · rw [hs]; rfl
  · rw [hs]
  · rw [hs]; exact decide_eq_false htotal
  · rw [hs, ← hcount]; simp only [Function.update_self]
  · rw [hs]; rfl
  · rw [hs, ← hcount, ← map_wrId_stagedFrom]; simp only [Function.update_self]; rfl
  · have hsome : refill .calm 0 (((World.fresh c).schedulers 0).start 0 0 rs .none).scheduler =
        ((refill .calm 0 (((World.fresh c).schedulers 0).start 0 0 rs .none).scheduler).1, none) := by
      rw [hrefill]
    have hsub : submit (World.fresh c) 0 (rs.map some) .none .calm =
        ({ World.fresh c with nextBatch := 1 }.put 0 0
          ⟨(refill .calm 0 (((World.fresh c).schedulers 0).start 0 0 rs .none).scheduler).1,
            Batch.new 0 rs (totalChunks c.chunkSize rs) false⟩, .returned [0]) := by
      have hitems := mapM_id_some rs
      have hus : ensureUsable ((World.fresh c).schedulers 0) = none := rfl
      have hact : ¬ ((World.fresh c).schedulers 0).active.isSome = true := by simp [World.fresh]
      have htotal' : ¬ totalChunks ((World.fresh c).schedulers 0).config.chunkSize rs = 0 := htotal
      unfold submit
      simp only [hus, if_neg hact, hitems, if_neg htotal', reduceCtorEq, if_false]
      split
      · next s he =>
          have hs' : s = _ := congrArg Prod.fst (he.symm.trans hsome)
          rw [hs']
          rfl
      · next s e he =>
          have hnone : some e = none := congrArg Prod.snd (he.symm.trans hsome)
          cases hnone
    exact congrArg Prod.fst hsub

theorem keys_pending_stagedFrom (cs : List ReadChunk) :
    ((stagedFrom 1 cs).map fun y => ((y.wrId, ⟨0, y.chunk⟩) : Nat × PendingRead)).map Prod.fst =
      CyclicIds.walked maxWrId 1 cs.length := by
  rw [List.map_map, ← map_wrId_stagedFrom]
  rfl

theorem mem_pending_stagedFrom {cs : List ReadChunk} {y : Nat} :
    y ∈ Dict.update ∅ ((stagedFrom 1 cs).map fun y => ((y.wrId, ⟨0, y.chunk⟩) : Nat × PendingRead)) ↔
      y ∈ CyclicIds.walked maxWrId 1 cs.length := by
  rw [Dict.mem_update, keys_pending_stagedFrom]
  exact or_iff_left (AList.notMem_empty y)

theorem lookup_pending_stagedFrom {cs : List ReadChunk} {y : Nat} (h : y ∈ CyclicIds.walked maxWrId 1 cs.length) :
    ∃ p, AList.lookup y (Dict.update ∅ ((stagedFrom 1 cs).map fun y => ((y.wrId, ⟨0, y.chunk⟩) : Nat × PendingRead))) =
      some p ∧ p.qpIndex = 0 ∧ p.chunk ∈ cs := by
  rw [← keys_pending_stagedFrom] at h
  obtain ⟨p, hp, hlook⟩ := Dict.lookup_update (d := ∅) h
  obtain ⟨z, hz, he⟩ := List.mem_map.mp hp
  obtain ⟨rfl, rfl⟩ := Prod.mk.inj he
  exact ⟨_, hlook, rfl, chunk_mem_of_stagedFrom hz⟩

/-- `progress` on the active batch. -/
theorem progress_active (w : World) (self : SchedulerId) (b : BatchId) (env : ProgressEnv)
    (hd : (w.batches b).done = false) (hs : (w.batches b).scheduler = self) (ha : (w.schedulers self).active = some b) :
    (process.next w (.call self (.progress b env))).batches b = (progressBody env b (w.session self b)).1.batch ∧
      (process.next w (.call self (.progress b env))).nextBatch = w.nextBatch := by
  have hp : progress w self b env =
      (w.put self b (progressBody env b (w.session self b)).1, (progressBody env b (w.session self b)).2) := by
    have hv : validateBatch w self b = none := by simp [validateBatch, hs, ha]
    simp [progress, hv, hd]
  show (w.call self (.progress b env)).1.batches b = _ ∧ (w.call self (.progress b env)).1.nextBatch = _
  simp only [World.call, hp]
  cases (progressBody env b (w.session self b)).2 <;> simp [World.put, World.push]

/-- With one slot and one byte more than there are identifiers, the last chunk gets the identifier of the first. Once
each identifier was reported, the batch ends well although one byte was not reported. -/
theorem lost_chunk (rs : List RdmaReadRequest) (hqp : c.qpCount = 1) (hchunk : c.chunkSize = 1) (hrs : rs ≠ [])
    (hlen : (rs.map RdmaReadRequest.length).sum = c.queueDepth) (hdepth : c.queueDepth = maxWrId + 1)
    (hids : ids = CyclicIds.walked maxWrId 1 maxWrId) :
    ∃ w, (process.when (HonestPolls 0)).Reaches (World.fresh c) w ∧ 0 < w.nextBatch ∧ (w.batches 0).scheduler = 0 ∧
      (w.batches 0).done = true ∧ (w.batches 0).error = none ∧
      (w.batches 0).completedBytes < (w.batches 0).totalBytes := by
  obtain ⟨s', hcfg, hact, hiter, hex, hout, hpend, hinf, total, hnext⟩ := submit_one hqp hchunk hrs hlen
  have hpos : 0 < maxWrId := by decide
  have hidlen : ids.length = maxWrId := by rw [hids]; simp [CyclicIds.walked]
  have hnd : ids.Nodup := hids ▸ CyclicIds.walked_nodup ⟨Nat.le_refl 1, hpos⟩ (Nat.le_refl _)
  have hwalk : CyclicIds.walked maxWrId 1 c.queueDepth = ids ++ [1] := by
    rw [hdepth, CyclicIds.walked_succ, ← hids, CyclicIds.iterate_eq ⟨Nat.le_refl 1, hpos⟩, Nat.sub_self, Nat.zero_add,
      Nat.mod_self]
  have hone : 1 ∈ ids := by
    rw [hids]
    exact List.mem_map.mpr ⟨0, List.mem_range.mpr hpos, rfl⟩
  have hcount := (iterChunks_one_byte rs).1.trans hlen
  have hin : ∀ y, y ∈ ids ++ [1] ↔ y ∈ ids := by
    intro y
    simp only [List.mem_append, List.mem_singleton, or_iff_left_iff_imp]
    rintro rfl
    exact hone
  have hmem : ∀ y, y ∈ s'.pending ↔ y ∈ ids := by
    intro y
    rw [hpend, mem_pending_stagedFrom, hcount, hwalk, hin]
  have hl : ∀ y ∈ ids, ∃ p, s'.pending.lookup y = some p ∧ p.qpIndex = 0 ∧ p.chunk.length = 1 := by
    intro y hy
    rw [← hin, ← hwalk, ← hcount] at hy
    obtain ⟨p, hlook, hq, hch⟩ := lookup_pending_stagedFrom hy
    exact ⟨p, by rw [hpend]; exact hlook, hq, (iterChunks_one_byte rs).2 _ hch⟩
  generalize hw : process.next (World.fresh c) (.call 0 (.submit (rs.map some) .none .calm)) = w₁
  have hw₁ := hw.symm.trans hnext
  have hsched : w₁.schedulers 0 = s' := by rw [hw₁, put_schedulers_self]
  have hbatch : w₁.batches 0 = Batch.new 0 rs total false := by rw [hw₁, put_batches_self]
  have hnb : w₁.nextBatch = 1 := by rw [hw₁]; rfl
  obtain ⟨x', hx', hbody⟩ := progressBody_one 0 (.reports ids) (w₁.session 0 0)
    (by rw [World.session, hsched, hcfg, hqp]) (by rw [World.session, hsched, hout, hdepth, hidlen])
    (by rw [World.session, hsched, hcfg, hdepth]; exact Nat.succ_lt_succ hpos) (by rw [World.session, hsched, hiter])
    (by rw [World.session, hsched, hex]) (List.ne_nil_of_mem hone) hnd (by simpa only [World.session, hsched] using hmem)
    (by simpa only [World.session, hsched] using hl) rfl rfl
  obtain ⟨called, hfin⟩ := finishSuccess_eq x'
  obtain ⟨hb₂, hn₂⟩ := progress_active w₁ 0 0 (.reports ids) (by rw [hbatch]; rfl)
    (by rw [hbatch]; rfl) (by rw [hsched, hact])
  rw [hbody, hfin, hx', World.session, hbatch] at hb₂
  have hreach : (process.when (HonestPolls 0)).Reaches (World.fresh c) w₁ := by
    rw [← hw]
    exact (Machine.Reaches.refl _).tail ⟨⟨rfl, by simp [Call.batch?], trivial⟩, fun env h => by cases h⟩
  refine ⟨process.next w₁ (.call 0 (.progress 0 (.reports ids))), hreach.tail ⟨⟨?_, ?_, trivial⟩, ?_⟩, ?_, ?_, ?_, ?_, ?_⟩
  · rw [hw₁]; rfl
  · rw [hnb]; simp [Call.batch?]
  · intro env h
    obtain rfl : ProgressEnv.reports ids = env := by simpa [Event.polls] using h
    refine ProgressEnv.reports_honest ?_
    rw [hsched, hinf, hwalk]
    exact (List.sublist_append_left ids [1]).subperm
  · rw [hn₂, hnb]; exact Nat.one_pos
  · rw [hb₂]; rfl
  · rw [hb₂]
  · rw [hb₂]; rfl
  · rw [hb₂]
    show 0 + ids.length < (rs.map RdmaReadRequest.length).sum
    rw [hlen, hdepth, hidlen, Nat.zero_add]
    exact Nat.lt_succ_self _

end

end Rdma4py.ReadScheduler
