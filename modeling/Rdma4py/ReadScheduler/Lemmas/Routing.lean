import Rdma4py.ReadScheduler.Lemmas.Pipeline

/-!
# Polling the CQs

`progress` routes each completion to its pending chunk. When a CQ reports only work requests that were posted on its QP
and not reported before, no completion is unknown or on the wrong CQ, and the invariant of the batch is kept.
-/

namespace Rdma4py.ReadScheduler

open Rdma4py.Lib

variable {env : ProgressEnv} {b : BatchId} {q : Nat} {x x' : Session} {n n' : Nat}

/-- Each CQ reports work requests that were posted on its QP and not reported yet, in any order and number. -/
def ProgressEnv.Honest (env : ProgressEnv) (s : Scheduler) : Prop :=
  ∀ q wcs, env.poll q = .ok wcs → (wcs.map WC.wrId).Subperm (s.provider.inflight q)

/-! ## What polling leaves alone -/

/-- Polling takes entries out of `_pending` and counts them; it generates and posts nothing. -/
def Session.Routes (b : BatchId) (x x' : Session) : Prop :=
  ∃ pending outstanding inflight new chunks bytes, (∀ c ∈ new, c.1 = b) ∧
    x' = { scheduler := { x.scheduler with
             pending := pending, outstanding := outstanding
             provider := { x.scheduler.provider with
               inflight := inflight, completions := x.scheduler.provider.completions ++ new } }
           batch := { x.batch with completedChunks := chunks, completedBytes := bytes } }

theorem Session.Routes.refl (b : BatchId) (x : Session) : x.Routes b x :=
  ⟨_, _, x.scheduler.provider.inflight, [], _, _, by simp, by simp only [List.append_nil]; rfl⟩

theorem Session.Routes.trans {x'' : Session} (h : x.Routes b x') (h' : x'.Routes b x'') : x.Routes b x'' := by
  obtain ⟨_, _, _, new, _, _, hn, rfl⟩ := h
  obtain ⟨_, _, _, new', _, _, hn', rfl⟩ := h'
  refine ⟨_, _, _, new ++ new', _, _, fun c hc => ?_, by simp only [List.append_assoc]; rfl⟩
  rcases List.mem_append.mp hc with hc | hc
  · exact hn c hc
  · exact hn' c hc

theorem Session.Routes.worksFor (h : x.Routes b x') : WorksFor b x.scheduler x'.scheduler := by
  obtain ⟨_, _, _, new, _, _, hn, rfl⟩ := h
  refine ⟨⟨rfl, rfl, rfl, rfl, fun _ _ => rfl, fun b' hb => ?_, rfl, rfl⟩, fun hr => ⟨rfl, hr⟩⟩
  have hnone : new.filter (fun c => c.1 = b') = [] := by
    refine List.filter_eq_nil_iff.mpr fun c hc => ?_
    simpa [hn c hc] using hb.symm
  simp [Provider.completedFor, hnone]

/-! ## One completion -/

/-- A successful completion of a pending chunk. -/
def Session.complete (b : BatchId) (q wrId : Nat) (pending : PendingRead) (x : Session) : Session where
  scheduler := { x.scheduler with
    pending := x.scheduler.pending.erase wrId
    outstanding := Function.update x.scheduler.outstanding q (x.scheduler.outstanding q - 1)
    provider := { x.scheduler.provider with completions := x.scheduler.provider.completions ++ [(b, wrId)] } }
  batch := { x.batch with
    completedChunks := x.batch.completedChunks + 1
    completedBytes := x.batch.completedBytes + pending.chunk.length }

theorem Session.complete_routes (b : BatchId) (q wrId : Nat) (p : PendingRead) (x : Session) :
    x.Routes b (x.complete b q wrId p) :=
  ⟨_, _, _, [(b, wrId)], _, _, by simp, rfl⟩

/-- All that routing the first completion of a list can do. -/
theorem routeCompletions_cons (b : BatchId) (q : Nat) (wc : WC) (wcs : List WC) (x : Session) (n : Nat) :
    (∃ x' e, routeCompletions b q (wc :: wcs) x n = (x', n, some e) ∧ x.Routes b x' ∧ x'.batch = x.batch) ∨
    ∃ p, x.scheduler.pending.lookup wc.wrId = some p ∧ p.qpIndex = q ∧
      routeCompletions b q (wc :: wcs) x n = routeCompletions b q wcs (x.complete b q wc.wrId p) (n + 1) := by
  rw [routeCompletions]
  cases hl : x.scheduler.pending.lookup wc.wrId with
  | none => exact Or.inl ⟨_, _, rfl, .refl b x, rfl⟩
  | some p =>
      have hroutes : ∀ outstanding, x.Routes b ⟨{ x.scheduler with
          pending := x.scheduler.pending.erase wc.wrId, outstanding := outstanding }, x.batch⟩ := fun _ =>
        ⟨_, _, x.scheduler.provider.inflight, [], _, _, by simp, by simp only [List.append_nil]; rfl⟩
      simp only
      split
      · exact Or.inl ⟨_, _, rfl, hroutes _, rfl⟩
      · next hq =>
          cases wc.status with
          | some e => exact Or.inl ⟨_, _, rfl, hroutes _, rfl⟩
          | none => exact Or.inr ⟨p, rfl, not_not.mp hq, rfl⟩

theorem routeCompletions_routes (b : BatchId) (q : Nat) (wcs : List WC) (x : Session) (n : Nat) :
    x.Routes b (routeCompletions b q wcs x n).1 := by
  induction wcs generalizing x n with
  | nil => exact .refl b x
  | cons wc wcs ih =>
      rcases routeCompletions_cons b q wc wcs x n with ⟨x', e, he, hr, _⟩ | ⟨p, _, _, he⟩
      · rw [he]; exact hr
      · rw [he]; exact (x.complete_routes b q wc.wrId p).trans (ih _ _)

theorem pollCqs_routes (env : ProgressEnv) (b : BatchId) (qs : List Nat) (x : Session) (n : Nat) :
    x.Routes b (pollCqs env b qs x n).1 := by
  induction qs generalizing x n with
  | nil => exact .refl b x
  | cons q qs ih =>
      simp only [pollCqs]
      split
      · exact ih x n
      · cases env.poll q with
        | error e => exact .refl b x
        | ok wcs =>
            have hreap : x.Routes b { x with scheduler := x.scheduler.reap q wcs } :=
              ⟨_, _, _, [], _, _, by simp, by simp only [List.append_nil]; rfl⟩
            have hr := routeCompletions_routes b q wcs { x with scheduler := x.scheduler.reap q wcs } n
            simp only
            split
            · next he => rw [he] at hr; exact hreap.trans hr
            · next he => rw [he] at hr; exact (hreap.trans hr).trans (ih _ _)

/-! ## Polling keeps the invariant -/

theorem Pipeline.of_inflight {s : Scheduler} {batch : Batch} (h : Pipeline s b batch) {inflight : Nat → List Nat}
    (hp : ∀ q, (inflight q).Perm (s.provider.inflight q)) :
    Pipeline { s with provider := { s.provider with inflight := inflight } } b batch :=
  ⟨⟨h.accounts.next_range, h.accounts.key_range, h.accounts.qp_lt, h.accounts.count, h.accounts.depth,
    fun q => (hp q).trans (h.accounts.inflight q)⟩, h.drained, h.covered, h.matched, h.counted, h.bytes⟩

/-- The scheduler as it was before its CQ handed out some completions that are still to be routed. -/
def Scheduler.owe (s : Scheduler) (q : Nat) (ids : List Nat) : Scheduler :=
  { s with provider := { s.provider with
      inflight := Function.update s.provider.inflight q (s.provider.inflight q ++ ids) } }

theorem Scheduler.owe_nil (s : Scheduler) (q : Nat) : s.owe q [] = s := by
  simp [owe]

/-- Routing one completion. -/
theorem Pipeline.complete {wrId : Nat} {ids : List Nat} {p : PendingRead}
    (h : Pipeline (x.scheduler.owe q (wrId :: ids)) b x.batch) (hl : x.scheduler.pending.lookup wrId = some p)
    (hp : p.qpIndex = q) :
    Pipeline ((x.complete b q wrId p).scheduler.owe q ids) b (x.complete b q wrId p).batch := by
  obtain ⟨hacc, hdr, hcov, hmatch, hcount, hbytes⟩ := h
  have hkeys : x.scheduler.pending.keys.Perm (wrId :: (x.scheduler.pending.erase wrId).keys) :=
    Dict.keys_perm_of_lookup hl
  have hvals := Dict.values_perm_of_lookup hl
  have hon : ∀ q', (x.scheduler.pendingOn q').Perm (if q' = q
      then wrId :: (x.complete b q wrId p).scheduler.pendingOn q'
      else (x.complete b q wrId p).scheduler.pendingOn q') := by
    intro q'
    refine (Dict.keysWhere_perm_of_lookup hl _).trans (.of_eq ?_)
    by_cases hqq : q' = q
    · simp [hqq, hp, Scheduler.pendingOn, Session.complete]
    · simp [hqq, hp, Ne.symm hqq, Scheduler.pendingOn, Session.complete]
  refine ⟨⟨hacc.next_range, fun y hy => ?_, fun v hv => ?_, fun q' => ?_, fun q' => ?_, fun q' => ?_⟩, hdr, hcov, ?_,
    ?_, ?_⟩
  · exact hacc.key_range y (AList.mem_erase.mp hy).2
  · exact hacc.qp_lt v (hvals.symm.subset (List.mem_cons_of_mem _ hv))
  · have hc : x.scheduler.outstanding q' = (x.scheduler.pendingOn q').length := hacc.count q'
    rw [(hon q').length_eq] at hc
    show Function.update x.scheduler.outstanding q (x.scheduler.outstanding q - 1) q' =
      ((x.complete b q wrId p).scheduler.pendingOn q').length
    by_cases hqq : q' = q
    · subst hqq
      rw [if_pos rfl, List.length_cons] at hc
      rw [Function.update_self]
      omega
    · rw [if_neg hqq] at hc
      rw [Function.update_of_ne hqq]
      exact hc
  · have hd : x.scheduler.outstanding q' ≤ x.scheduler.config.queueDepth := hacc.depth q'
    show Function.update x.scheduler.outstanding q (x.scheduler.outstanding q - 1) q' ≤ x.scheduler.config.queueDepth
    by_cases hqq : q' = q
    · subst hqq; rw [Function.update_self]; omega
    · rw [Function.update_of_ne hqq]; exact hd
  · have hin : (Function.update x.scheduler.provider.inflight q (x.scheduler.provider.inflight q ++ wrId :: ids) q').Perm
        (x.scheduler.pendingOn q') := hacc.inflight q'
    have hin := hin.trans (hon q')
    show (Function.update x.scheduler.provider.inflight q (x.scheduler.provider.inflight q ++ ids) q').Perm
      ((x.complete b q wrId p).scheduler.pendingOn q')
    by_cases hqq : q' = q
    · subst hqq
      rw [Function.update_self, if_pos rfl] at hin
      rw [Function.update_self]
      exact (List.perm_middle.symm.trans hin).cons_inv
    · rw [Function.update_of_ne hqq, if_neg hqq] at hin
      rw [Function.update_of_ne hqq]
      exact hin
  · have hdone : (x.complete b q wrId p).scheduler.provider.completedFor b =
        x.scheduler.provider.completedFor b ++ [wrId] := by
      simp [Session.complete, Provider.completedFor]
    show ((x.complete b q wrId p).scheduler.provider.completedFor b ++ (x.scheduler.pending.erase wrId).keys).Perm _
    rw [hdone, List.append_assoc]
    exact (hkeys.symm.append_left _).trans hmatch
  · have hlen := hkeys.length_eq
    have hcount : x.batch.completedChunks + x.scheduler.pending.keys.length + x.scheduler.remaining.length =
      (iterChunks x.scheduler.config.chunkSize x.batch.requests).length := hcount
    show x.batch.completedChunks + 1 + (x.scheduler.pending.erase wrId).keys.length + x.scheduler.remaining.length =
      (iterChunks x.scheduler.config.chunkSize x.batch.requests).length
    rw [List.length_cons] at hlen
    omega
  · have hb := chunkBytes_perm (hvals.map PendingRead.chunk)
    have hbytes : x.batch.completedBytes + chunkBytes x.scheduler.pendingChunks + chunkBytes x.scheduler.remaining =
      x.batch.totalBytes := hbytes
    show x.batch.completedBytes + p.chunk.length + chunkBytes ((Dict.values (x.scheduler.pending.erase wrId)).map _) +
      chunkBytes x.scheduler.remaining = x.batch.totalBytes
    rw [Scheduler.pendingChunks, hb] at hbytes
    simp only [List.map_cons, chunkBytes, List.sum_cons] at hbytes ⊢
    omega

/-- Routing completions that are owed does not go wrong, unless one reports a failure. -/
theorem Pipeline.routed {wcs : List WC} (h : Pipeline (x.scheduler.owe q (wcs.map WC.wrId)) b x.batch)
    (hr : routeCompletions b q wcs x n = (x', n', none)) :
    Pipeline x'.scheduler b x'.batch ∧ n' = n + wcs.length := by
  induction wcs generalizing x n with
  | nil =>
      simp only [routeCompletions, Prod.mk.injEq, and_true] at hr
      obtain ⟨rfl, rfl⟩ := hr
      rw [List.map_nil, Scheduler.owe_nil] at h
      exact ⟨h, rfl⟩
  | cons wc wcs ih =>
      rcases routeCompletions_cons b q wc wcs x n with ⟨_, _, he, _⟩ | ⟨p, hl, hp, he⟩
      · rw [he] at hr; simp at hr
      · rw [he] at hr
        obtain ⟨hpipe, hn⟩ := ih (h.complete hl hp) hr
        exact ⟨hpipe, by rw [hn, List.length_cons]; omega⟩

/-- The invariant survives the poll of one CQ, before its completions are routed. -/
theorem Pipeline.reaped (h : Pipeline x.scheduler b x.batch) {wcs : List WC}
    (hsub : (wcs.map WC.wrId).Subperm (x.scheduler.provider.inflight q)) :
    Pipeline ((x.scheduler.reap q wcs).owe q (wcs.map WC.wrId)) b x.batch := by
  refine h.of_inflight fun q' => ?_
  by_cases hqq : q' = q
  · subst hqq
    simp only [Scheduler.reap, Function.update_self]
    exact List.perm_append_comm.trans (List.subperm_append_diff_self_of_count_le fun i _ => List.subperm_iff_count.mp hsub i)
  · simp [Scheduler.reap, Function.update_of_ne hqq]

/-- Completions that are all routed were reported for pending chunks of this QP, each once. -/
theorem routed_subperm {wcs : List WC} (hr : routeCompletions b q wcs x n = (x', n', none)) :
    (wcs.map WC.wrId).Subperm (x.scheduler.pendingOn q) := by
  induction wcs generalizing x n with
  | nil => exact List.nil_subperm
  | cons wc wcs ih =>
      rcases routeCompletions_cons b q wc wcs x n with ⟨_, _, he, _⟩ | ⟨p, hl, hp, he⟩
      · rw [he] at hr; simp at hr
      · rw [he] at hr
        have hon := Dict.keysWhere_perm_of_lookup hl fun v : PendingRead => decide (v.qpIndex = q)
        rw [if_pos (decide_eq_true hp)] at hon
        exact hon.subperm_left.mpr ((List.subperm_cons wc.wrId).mpr (ih hr))

/-- Polling that does not raise keeps the invariant, whatever the CQs report. -/
theorem Pipeline.polled {qs : List Nat} (h : Pipeline x.scheduler b x.batch) (hr : pollCqs env b qs x n = (x', n', none)) :
    Pipeline x'.scheduler b x'.batch ∧ n ≤ n' ∧
      (n' = n → x'.scheduler.pending = x.scheduler.pending ∧ x'.scheduler.outstanding = x.scheduler.outstanding) := by
  induction qs generalizing x n with
  | nil =>
      simp only [pollCqs, Prod.mk.injEq, and_true] at hr
      obtain ⟨rfl, rfl⟩ := hr
      exact ⟨h, Nat.le_refl _, fun _ => ⟨rfl, rfl⟩⟩
  | cons q qs ih =>
      simp only [pollCqs] at hr
      split at hr
      · exact ih h hr
      · cases hpoll : env.poll q with
        | error e => simp [hpoll] at hr
        | ok wcs =>
            simp only [hpoll] at hr
            split at hr
            · simp at hr
            · next x₁ n₁ hroute =>
                -- What was routed was in flight.
                have hpend := routed_subperm hroute
                have hsub := (h.accounts.inflight q).subperm_left.mpr hpend
                obtain ⟨hpipe, hn⟩ := (h.reaped hsub).routed hroute
                obtain ⟨hpipe', hle, hsame'⟩ := ih hpipe hr
                refine ⟨hpipe', by omega, fun he => ?_⟩
                obtain rfl : wcs = [] := List.length_eq_zero_iff.mp (by omega)
                simp only [routeCompletions, Prod.mk.injEq, and_true] at hroute
                obtain ⟨rfl, rfl⟩ := hroute
                exact hsame' he

end Rdma4py.ReadScheduler
