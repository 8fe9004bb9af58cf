import Rdma4py.ReadScheduler.Lemmas.ChunkCount
import Rdma4py.ReadScheduler.Lemmas.Lifecycle
import Rdma4py.ReadScheduler.Lemmas.OneQp
import Rdma4py.ReadScheduler.Lemmas.Poison
import Rdma4py.ReadScheduler.Lemmas.Soundness

/-!
# The theorems about the scheduler

The pipeline keeps its accounts, a batch that ends well was transferred exactly, batches are rejected without a trace,
and a poisoned scheduler is silent. Where the code does not keep a property, the theorem says when it does, and a run
shows how it fails.
-/

namespace Rdma4py.ReadScheduler

open Rdma4py.Lib

/-! ## The pipeline -/

/-- While a batch is active, after any calls and for honest CQs: the counters agree with `_pending` and with the work
in flight, identifiers differ, no slot is free that a chunk could take, and something is in flight. -/
theorem pipeline_invariant {w w' : World} {s : SchedulerId} {b : BatchId} (hi : w.Initial)
    (hr : (process.when (HonestPolls s)).Reaches w w')
    (hslots : (w.schedulers s).config.qpCount * (w.schedulers s).config.queueDepth < 2 ^ 64 - 1)
    (ha : (w'.schedulers s).active = some b) :
    (∀ q, (w'.schedulers s).outstanding q = ((w'.schedulers s).pendingOn q).length ∧
      (w'.schedulers s).outstanding q = ((w'.schedulers s).provider.inflight q).length ∧
      ((w'.schedulers s).provider.inflight q).Perm ((w'.schedulers s).pendingOn q) ∧
      (w'.schedulers s).outstanding q ≤ (w'.schedulers s).config.queueDepth) ∧
    ((flat (w'.schedulers s).config.qpCount (w'.schedulers s).provider.inflight).Nodup ∧
      ∀ x ∈ flat (w'.schedulers s).config.qpCount (w'.schedulers s).provider.inflight, 1 ≤ x ∧ x ≤ 2 ^ 64 - 1) ∧
    ((w'.schedulers s).inputExhausted = false ∨ (w'.schedulers s).remaining ≠ [] →
      ∀ q < (w'.schedulers s).config.qpCount,
        ((w'.schedulers s).provider.inflight q).length = (w'.schedulers s).config.queueDepth) ∧
    (∃ q < (w'.schedulers s).config.qpCount, (w'.schedulers s).provider.inflight q ≠ []) := by
  obtain ⟨hsound, _⟩ := Sound.run_of_slots hi (Nat.le_of_lt hslots) hr.of_when
  obtain ⟨hpipe, hflow, _⟩ := hsound.inFlight b ha
  have hacc := hpipe.accounts
  have hlen : ∀ q, (w'.schedulers s).outstanding q = ((w'.schedulers s).provider.inflight q).length :=
    fun q => (hacc.count q).trans (hacc.inflight q).length_eq.symm
  refine ⟨fun q => ⟨hacc.count q, hlen q, hacc.inflight q, hacc.depth q⟩, ⟨?_, fun x hx => ?_⟩, fun hopen q hq => ?_, ?_⟩
  · exact hacc.flat_inflight.nodup_iff.mpr (w'.schedulers s).pending.nodupKeys
  · exact hacc.key_range x (hacc.flat_inflight.subset hx)
  · have hex : (w'.schedulers s).inputExhausted = false := by
      refine hopen.elim id fun hrem => ?_
      cases hx : (w'.schedulers s).inputExhausted with
      | false => rfl
      | true => exact absurd (hpipe.drained hx) hrem
    rw [← hlen q]
    exact hflow.full hex q hq
  · by_contra hnone
    push Not at hnone
    refine hflow.pending (Dict.isEmpty_iff.mp ?_)
    have hkeys : (w'.schedulers s).pending.keys = [] := by
      refine List.eq_nil_iff_forall_not_mem.mpr fun x hx => ?_
      obtain ⟨q, hq, hmem⟩ := mem_flat.mp (hacc.flat_inflight.symm.subset hx)
      rw [hnone q hq] at hmem
      cases hmem
    rw [Dict.isEmpty, List.isEmpty_iff]
    exact List.map_eq_nil_iff.mp hkeys

/-- One QP of depth 2, with 12 bytes to read in chunks of 4: two are in flight, one completes, the third follows. -/
theorem pipeline_invariant_one_qp :
    let w := World.fresh (.oneQp 2 4 (by decide) (by decide))
    let w' := process.play w [.call 0 (.submit [some (.bytes 12 (by decide))] .none .calm),
      .call 0 (.progress 0 (.reports [1]))]
    (w'.schedulers 0).provider.inflight 0 = [2, 3] ∧
      ∃ q < (w'.schedulers 0).config.qpCount, (w'.schedulers 0).provider.inflight q ≠ [] := by
  intro w w'
  have hplays : (process.when (HonestPolls 0)).Plays w
      [.call 0 (.submit [some (.bytes 12 (by decide))] .none .calm), .call 0 (.progress 0 (.reports [1]))] := by
    refine ⟨⟨?_, fun env h => by cases h⟩, ⟨?_, fun env h => ?_⟩, trivial⟩
    · decide
    · decide
    · obtain rfl : ProgressEnv.reports [1] = env := by simpa [Event.polls] using h
      exact ProgressEnv.reports_honest (by decide)
  have hactive : (w'.schedulers 0).active = some 0 := by decide
  have h := pipeline_invariant (World.fresh_initial _) hplays.reaches (by decide) hactive
  exact ⟨by decide, h.2.2.2⟩

/-! ## Exact coverage of a batch -/

/-- The work request transfers the chunk: the bytes of the request that the chunk stands for, and no others. -/
structure Carries (chunkSize : Nat) (requests : List RdmaReadRequest) (wr : SendWR) (c : ReadChunk) : Prop where
  request : requests[c.requestIndex]? = some c.request
  length_pos : 1 ≤ c.length
  length_le : c.length ≤ chunkSize
  sge : wr.sge = ⟨c.request.localMr, c.length, c.request.localOffset + c.offset⟩
  remoteAddr : wr.remoteAddr = c.request.remoteAddr + c.request.remoteOffset + c.offset
  range : wr.remoteAddr + c.length ≤ 2 ^ 64
  rkey : wr.rkey = c.request.rkey
  opcode : (c.request.cls = .write ↔ wr.opcode = .rdmaWrite) ∧ (c.request.cls = .read ↔ wr.opcode = .rdmaRead)
  signaled : wr.signaled = true

/-- The work requests posted for a batch are the chunks of its requests, up to order, and each completed once. -/
structure ExactlyCovered (s : Scheduler) (b : BatchId) (batch : Batch) : Prop where
  chunks : ∃ chunks,
    List.Forall₂ (Carries s.config.chunkSize batch.requests) (s.provider.postedFor b) chunks ∧
    chunks.Perm (iterChunks s.config.chunkSize batch.requests) ∧
    ∀ i request, batch.requests[i]? = some request →
      ∃ ps, ps.Perm (pieces (chunks.filter fun c => c.requestIndex = i)) ∧ Tiles 0 ps request.length
  completed : (s.provider.completedFor b).Perm ((s.provider.postedFor b).map SendWR.wrId)
  bytes : batch.completedBytes = batch.totalBytes

/-- A generated chunk lies inside its request. -/
theorem chunk_bounds {chunkSize : Nat} (hc : 0 < chunkSize) {requests : List RdmaReadRequest} {c : ReadChunk}
    (h : c ∈ iterChunks chunkSize requests) :
    requests[c.requestIndex]? = some c.request ∧ 1 ≤ c.length ∧ c.length ≤ chunkSize ∧
      c.offset + c.length ≤ c.request.length := by
  obtain ⟨request, i, hr, hmem⟩ := mem_iterChunks.mp h
  obtain ⟨hi, hreq, hle⟩ := chunksOf_spec hmem
  have hb := (pieces_chunksOf hc request i).mem_bounds (p := (c.offset, c.length)) (List.mem_map_of_mem hmem)
  rw [hi, hreq]
  exact ⟨hr, hb.2.1, hle, hb.2.2⟩

theorem opcode_iff (cls : RequestClass) :
    (cls = .write ↔ cls.opcode = .rdmaWrite) ∧ (cls = .read ↔ cls.opcode = .rdmaRead) := by
  cases cls <;> decide

theorem carries_of_sendWR {chunkSize : Nat} (hc : 0 < chunkSize) {requests : List RdmaReadRequest} {c : ReadChunk}
    {wr : SendWR} (h : c ∈ iterChunks chunkSize requests) (hwr : wr = c.sendWR wr.wrId) :
    Carries chunkSize requests wr c := by
  obtain ⟨hr, hpos, hle, hend⟩ := chunk_bounds hc h
  have hrange := c.request.range_le
  rw [hwr]
  refine ⟨hr, hpos, hle, rfl, rfl, ?_, rfl, opcode_iff c.request.cls, rfl⟩
  show c.request.remoteAddr + c.request.remoteOffset + c.offset + c.length ≤ 2 ^ 64
  rw [maxWrId] at hrange
  omega

theorem Delivered.exactlyCovered {s : Scheduler} {b : BatchId} {batch : Batch} (h : Delivered s b batch) :
    ExactlyCovered s b batch := by
  obtain ⟨chunks, hfor, hperm⟩ := h.covered
  refine ⟨⟨chunks, ?_, hperm, fun i request hi => ?_⟩, h.completed, h.bytes⟩
  · refine List.forall₂_iff_get.mpr ⟨hfor.length_eq, fun i h₁ h₂ => ?_⟩
    exact carries_of_sendWR s.config.chunkSize_pos (hperm.subset (List.get_mem _ _)) (hfor.get h₁ h₂)
  · refine ⟨pieces (chunksOf s.config.chunkSize request i), ?_, pieces_chunksOf s.config.chunkSize_pos request i⟩
    rw [← filter_iterChunks hi]
    exact ((hperm.filter _).map _).symm

/-- For honest CQs and with enough identifiers, a batch that ends well was transferred exactly. -/
theorem exact_coverage {w w' : World} {s : SchedulerId} {b : BatchId} (hi : w.Initial)
    (hr : (process.when fun w e => HonestPolls s w e ∧ EnoughIds s w e).Reaches w w')
    (hb : b < w'.nextBatch) (hs : (w'.batches b).scheduler = s) (hd : (w'.batches b).done = true)
    (he : (w'.batches b).error = none) : ExactlyCovered (w'.schedulers s) b (w'.batches b) :=
  ((Sound.run hi (hr.when_mono fun _ _ h => h.2)).delivered b hb hs hd he).exactlyCovered

/-- One QP of depth 2, with 8 bytes to read in chunks of 4, whose completions arrive in the other order. -/
theorem exact_coverage_one_qp :
    let w := World.fresh (.oneQp 2 4 (by decide) (by decide))
    let w' := process.play w [.call 0 (.submit [some (.bytes 8 (by decide))] .none .calm),
      .call 0 (.progress 0 (.reports [2, 1]))]
    (w'.batches 0).done = true ∧ ExactlyCovered (w'.schedulers 0) 0 (w'.batches 0) := by
  intro w w'
  have hplays : (process.when fun w e => HonestPolls 0 w e ∧ EnoughIds 0 w e).Plays w
      [.call 0 (.submit [some (.bytes 8 (by decide))] .none .calm), .call 0 (.progress 0 (.reports [2, 1]))] := by
    refine ⟨⟨?_, ⟨(by intro env h; cases h), fun _ _ _ _ _ _ => Or.inl (by decide)⟩⟩,
      ⟨?_, ⟨fun env h => ?_, (by intro _ _ _ _ h; cases h)⟩⟩, trivial⟩
    · decide
    · decide
    · obtain rfl : ProgressEnv.reports [2, 1] = env := by simpa [Event.polls] using h
      exact ProgressEnv.reports_honest (by
        have hin : ((process.next w (.call 0 (.submit [some (.bytes 8 (by decide))] .none .calm))).schedulers
            0).provider.inflight 0 = [1, 2] := by decide
        exact hin ▸ (List.Perm.swap 1 2 []).subperm)
  have hdone : (w'.batches 0).done = true := by decide
  exact ⟨hdone, exact_coverage (World.fresh_initial _) hplays.reaches (by decide) (by decide) hdone
    (by decide)⟩

/-- One QP with 2^64 slots, and 2^64 bytes to read one by one: two chunks in flight share an identifier, and the batch
ends well when one of them has arrived. -/
theorem coverage_lost_beyond_the_ids :
    ¬ ∀ (w w' : World) (s : SchedulerId) (b : BatchId), w.Initial → (process.when (HonestPolls s)).Reaches w w' →
      b < w'.nextBatch → (w'.batches b).scheduler = s → (w'.batches b).done = true → (w'.batches b).error = none →
      ExactlyCovered (w'.schedulers s) b (w'.batches b) := by
  intro h
  have hpos : 0 < maxWrId := by decide
  obtain ⟨w, hr, hb, hs, hd, he, hlt⟩ := lost_chunk
    (c := .oneQp (maxWrId + 1) 1 (Nat.succ_pos _) (by decide))
    [.bytes maxWrId ⟨hpos, Nat.le_succ _⟩, .bytes 1 ⟨Nat.one_pos, Nat.succ_le_succ (Nat.zero_le _)⟩]
    rfl rfl (List.cons_ne_nil _ _) rfl rfl rfl
  exact absurd (h _ w 0 0 (World.fresh_initial _) hr hb hs hd he).bytes (Nat.ne_of_lt hlt)

/-! ## Announced chunks -/

/-- The announced number of chunks is the real one exactly when the roundings of the quotients cancel out. Then and only
then a batch that ends well has completed as many chunks as it announced. -/
theorem announced_chunks_iff (c : Config) (requests : List RdmaReadRequest) :
    (totalChunks c.chunkSize requests = (iterChunks c.chunkSize requests).length ↔
      miscount c.chunkSize requests = 0) ∧
    ∀ (w w' : World) (s : SchedulerId) (b : BatchId), w.Initial →
      (process.when fun w e => HonestPolls s w e ∧ EnoughIds s w e).Reaches w w' → b < w'.nextBatch →
      (w'.batches b).scheduler = s → (w'.schedulers s).config.chunkSize = c.chunkSize →
      (w'.batches b).requests = requests → (w'.batches b).done = true → (w'.batches b).error = none →
      ((w'.batches b).completedChunks = (w'.batches b).totalChunks ↔ miscount c.chunkSize requests = 0) := by
  have htotal := totalChunks_eq c.chunkSize_pos requests
  constructor
  · omega
  · intro w w' s b hi hr hb hs hc hreq hd he
    have hcounted := ((Sound.run hi (hr.when_mono fun _ _ h => h.2)).delivered b hb hs hd he).counted
    have hannounced := Announced.run hi hr.of_when b hb
    rw [hs, hc, hreq] at hannounced
    rw [hc, hreq] at hcounted
    rw [hcounted, hannounced]
    omega

/-- One QP of depth 2, with 8 bytes to read in chunks of 4: two chunks are announced and completed. -/
theorem announced_chunks_iff_one_qp :
    let w := World.fresh (.oneQp 2 4 (by decide) (by decide))
    let w' := process.play w [.call 0 (.submit [some (.bytes 8 (by decide))] .none .calm),
      .call 0 (.progress 0 (.reports [2, 1]))]
    totalChunks 4 [.bytes 8 (by decide)] = (iterChunks 4 [.bytes 8 (by decide)]).length ∧
      (w'.batches 0).completedChunks = (w'.batches 0).totalChunks := by
  intro w w'
  have hplays : (process.when fun w e => HonestPolls 0 w e ∧ EnoughIds 0 w e).Plays w
      [.call 0 (.submit [some (.bytes 8 (by decide))] .none .calm), .call 0 (.progress 0 (.reports [2, 1]))] := by
    refine ⟨⟨?_, ⟨(by intro env h; cases h), fun _ _ _ _ _ _ => Or.inl (by decide)⟩⟩,
      ⟨?_, ⟨fun env h => ?_, (by intro _ _ _ _ h; cases h)⟩⟩, trivial⟩
    · decide
    · decide
    · obtain rfl : ProgressEnv.reports [2, 1] = env := by simpa [Event.polls] using h
      exact ProgressEnv.reports_honest (by
        have hin : ((process.next w (.call 0 (.submit [some (.bytes 8 (by decide))] .none .calm))).schedulers
            0).provider.inflight 0 = [1, 2] := by decide
        exact hin ▸ (List.Perm.swap 1 2 []).subperm)
  obtain ⟨hcount, hruns⟩ := announced_chunks_iff (.oneQp 2 4 (by decide) (by decide)) [.bytes 8 (by decide)]
  have hzero : miscount 4 [.bytes 8 (by decide)] = 0 := miscount_of_le (by decide)
  refine ⟨hcount.mpr hzero, (hruns w w' 0 0 (World.fresh_initial _) hplays.reaches ?_ ?_ ?_ ?_ ?_ ?_).mpr hzero⟩
  · decide
  · decide
  · decide
  · decide
  · decide
  · decide

/-- A request of `2 ^ 53 + 1` bytes, read one by one: one chunk is not announced. -/
theorem announced_chunks_rounded :
    ¬ ∀ (c : Config) (requests : List RdmaReadRequest),
      totalChunks c.chunkSize requests = (iterChunks c.chunkSize requests).length := by
  intro h
  have hcount := h (.oneQp 2 1 (by decide) (by decide)) [.bytes (2 ^ 53 + 1) (by decide)]
  have htotal := totalChunks_eq Nat.one_pos [.bytes (2 ^ 53 + 1) (by decide)]
  have hmiss : miscount 1 [.bytes (2 ^ 53 + 1) (by decide)] = -1 := by decide
  rw [hmiss] at htotal
  have hcount : totalChunks 1 [.bytes (2 ^ 53 + 1) (by decide)] =
    (iterChunks 1 [.bytes (2 ^ 53 + 1) (by decide)]).length := hcount
  omega

/-! ## Rejected batches -/

/-- A call with an unfinished batch that is not active on the scheduler is rejected without a trace, unless it is a
wait that passes its own checks: such a wait raises the same error, but fails the batch. As long as there is no such
wait, unfinished batches and active batches are the same, and the first such wait ends that. -/
theorem rejected_batch (w w₀ w' : World) (self : SchedulerId) (b : BatchId) (c : Call) :
    (c.batch? = some b → (w.batches b).done = false → (w.schedulers self).active ≠ some b →
      ((∃ error, w.call self c = (w, .raised error)) ↔ ¬ c.EntersLoop self) ∧
      ((∃ env, c = .progress b env) ∨ c.EntersLoop self →
        ∃ error, validateBatch w self b = some error ∧ (w.call self c).2 = .raised error)) ∧
    (w₀.Initial → (process.when fun w e => ¬ ForeignWait w e).Reaches w₀ w' →
      Orderly w' ∧ ∀ e, process.Enabled w' e → (Orderly (process.next w' e) ↔ ¬ ForeignWait w' e)) := by
  refine ⟨fun hb hd ha => ⟨⟨?_, fun hn => call_not_entered hb hn hd ha⟩, ?_⟩, fun hi hr => ?_⟩
  · rintro ⟨error, he⟩ hin
    obtain ⟨_, _, he'⟩ := call_entered hb hin hd ha
    have hsame := congrArg (fun r : World × Outcome => (r.1.batches b).done) (he.symm.trans he')
    simp only [put_batches_self, failTransport, hd] at hsame
    cases hsame
  · rintro (⟨env, rfl⟩ | hin)
    · rcases progress_cases w self b env with ⟨error, he, hdone | hv⟩ | ⟨_, hdone⟩ | ⟨_, _, hact, _⟩
      · exact absurd (hd.symm.trans hdone) (by decide)
      · exact ⟨error, hv, by rw [World.call, he]⟩
      · exact absurd (hd.symm.trans hdone) (by decide)
      · exact absurd hact ha
    · obtain ⟨error, hv, he⟩ := call_entered hb hin hd ha
      exact ⟨error, hv, by rw [he]⟩
  · have hlife := Lifecycle.run hi hr
    refine ⟨hlife.orderly, fun e hen => ⟨fun hord hf => hf.breaks hen hlife.orderly hord, fun hf => ?_⟩⟩
    exact (hlife.step hen hf).orderly

/-- A batch of scheduler 1, passed to `progress` of scheduler 0. -/
theorem rejected_batch_progress :
    let w := World.fresh (.oneQp 2 4 (by decide) (by decide))
    let w' := process.play w [.call 1 (.submit [some (.bytes 8 (by decide))] .none .calm)]
    (∃ error, w'.call 0 (.progress 0 (.reports [])) = (w', .raised error)) ∧ Orderly w' := by
  intro w w'
  have hplays : (process.when fun w e => ¬ ForeignWait w e).Plays w
      [.call 1 (.submit [some (.bytes 8 (by decide))] .none .calm)] := by
    refine ⟨⟨by decide, ?_⟩, trivial⟩
    rintro ⟨_, wt, hwt, _⟩
    cases hwt
  obtain ⟨hcall, hruns⟩ := rejected_batch w' w w' 0 0 (.progress 0 (.reports []))
  exact ⟨(hcall rfl (by decide) (by decide)).1.mpr id, (hruns (World.fresh_initial _) hplays.reaches).1⟩

/-- The same batch, passed to `wait` of scheduler 0: it ends failed, and scheduler 0 poisoned. -/
theorem foreign_wait_leaves_traces :
    ¬ ∀ (w w' : World) (self : SchedulerId) (b : BatchId) (c : Call), w.Initial → process.Reaches w w' →
      process.Enabled w' (.call self c) → c.batch? = some b → (w'.batches b).done = false →
      (w'.schedulers self).active ≠ some b →
      ((w'.call self c).1.batches b).done = false ∧ ((w'.call self c).1.schedulers self).poisoned =
        (w'.schedulers self).poisoned := by
  intro h
  have hplays : process.Plays (World.fresh (.oneQp 2 4 (by decide) (by decide)))
      [.call 1 (.submit [some (.bytes 8 (by decide))] .none .calm)] := by
    decide
  have hopen := h _ _ 0 0 (.wait 0 none 0 (.ok 0) ⟨.reports [], .ok 0, none⟩) (World.fresh_initial _) hplays.reaches
    (by decide) rfl (by decide) (by decide)
  revert hopen
  decide

/-! ## Poisoned and closed schedulers -/

/-- Once a scheduler is poisoned or closed it stays so and posts nothing more, in every run in which no transition of a
`connect` with QPs of the caller raises while a batch with chunks left is active, and no closed CQ answers after it. -/
theorem poison_is_final {w w₁ w₂ : World} {s : SchedulerId} (hi : w.Initial)
    (hr : (process.when fun w e => ¬ CutsOff s w e).Reaches w w₁) (hun : Unusable (w₁.schedulers s))
    (hr' : (process.when fun w e => ¬ ClosedAnswers s w e).Reaches w₁ w₂) :
    ((w₁.schedulers s).poisoned = true → (w₂.schedulers s).poisoned = true) ∧
      ((w₁.schedulers s).closed = true → (w₂.schedulers s).closed = true) ∧
      (w₂.schedulers s).provider.posts = (w₁.schedulers s).provider.posts := by
  have hquiet := Quiet.run (s := s) hi hr
  obtain ⟨hp, hc⟩ := run_flags hr'.of_when s
  have hsilent : Silent s (w₁.schedulers s).provider.posts w₁ :=
    ⟨hquiet.owned, hun, hquiet.ends.imp_right fun h => h.2 hun, rfl⟩
  exact ⟨hp, hc, (hsilent.run hr').posts⟩

/-- Completing an unknown work request poisons the scheduler; the next `submit` and `progress` post nothing. -/
theorem poison_is_final_one_qp :
    let w := World.fresh (.oneQp 1 4 (by decide) (by decide))
    let w₁ := process.play w [.call 0 (.submit [some (.bytes 8 (by decide))] .none .calm),
      .call 0 (.progress 0 (.reports [9]))]
    let w₂ := process.play w₁ [.call 0 (.submit [some (.bytes 8 (by decide))] .none .calm),
      .call 0 (.progress 0 (.reports [1]))]
    (w₁.schedulers 0).poisoned = true ∧ (w₂.schedulers 0).poisoned = true ∧
      (w₂.schedulers 0).provider.posts = (w₁.schedulers 0).provider.posts := by
  intro w w₁ w₂
  have hplays : (process.when fun w e => ¬ CutsOff 0 w e).Plays w
      [.call 0 (.submit [some (.bytes 8 (by decide))] .none .calm), .call 0 (.progress 0 (.reports [9]))] := by
    refine ⟨⟨by decide, ?_⟩, ⟨by decide, ?_⟩, trivial⟩ <;>
      · rintro ⟨args, env, he, _⟩
        cases he
  have hplays' : process.Plays w₁ [.call 0 (.submit [some (.bytes 8 (by decide))] .none .calm),
      .call 0 (.progress 0 (.reports [1]))] := by
    decide
  have hanswers : (process.when fun w e => ¬ ClosedAnswers 0 w e).Plays w₁
      [.call 0 (.submit [some (.bytes 8 (by decide))] .none .calm), .call 0 (.progress 0 (.reports [1]))] := by
    refine ⟨⟨hplays'.1, ?_⟩, ⟨hplays'.2.1, ?_⟩, trivial⟩
    · rintro ⟨-, -, env, q, wcs, hp, -⟩
      cases hp
    · rintro ⟨hactive, -⟩
      exact hactive (by decide)
  have hpoisoned : (w₁.schedulers 0).poisoned = true := by decide
  obtain ⟨hp, _, hposts⟩ := poison_is_final (World.fresh_initial _) hplays.reaches (Or.inl hpoisoned) hanswers.reaches
  exact ⟨hpoisoned, hp hpoisoned, hposts⟩

/-- The transition of a QP to INIT raises while a batch is active: the scheduler is poisoned, but `progress` goes on. -/
theorem poisoned_scheduler_posts :
    ¬ ∀ (w w₁ w₂ : World) (s : SchedulerId), w.Initial → process.Reaches w w₁ → Unusable (w₁.schedulers s) →
      process.Reaches w₁ w₂ → (w₂.schedulers s).provider.posts = (w₁.schedulers s).provider.posts := by
  intro h
  have hplays : process.Plays (World.fresh (.oneQp 1 4 (by decide) (by decide)))
      [.call 0 (.submit [some (.bytes 8 (by decide))] .none .calm),
        .call 0 (.connect ⟨[3], .one 0, some 3, some 1, some 1⟩ ⟨false, .ok 1, fun _ => .ok 1,
          fun t => if t = .toInit 0 then some (.external false "EINVAL") else none⟩)] := by
    decide
  have hplays' : process.Plays (process.play (World.fresh (.oneQp 1 4 (by decide) (by decide)))
      [.call 0 (.submit [some (.bytes 8 (by decide))] .none .calm),
        .call 0 (.connect ⟨[3], .one 0, some 3, some 1, some 1⟩ ⟨false, .ok 1, fun _ => .ok 1,
          fun t => if t = .toInit 0 then some (.external false "EINVAL") else none⟩)])
      [.call 0 (.progress 0 (.reports [1]))] := by
    decide
  have hposts := congrArg List.length (h _ _ _ 0 (World.fresh_initial _) hplays.reaches (Or.inl (by decide))
    hplays'.reaches)
  revert hposts
  decide

end Rdma4py.ReadScheduler
