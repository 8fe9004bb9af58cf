import Rdma4py.ReadScheduler.Lemmas.Soundness

/-!
# What a batch that fails still lacks

When polling or posting fails, some chunk of the batch has not completed: the batch has something in flight or chunks
left to post. So a batch that has all its chunks has ended well.
-/

namespace Rdma4py.ReadScheduler

open Rdma4py.Lib

variable {s : SchedulerId} {b : BatchId} {w w' w₀ : World} {e : Event} {x x' : Session} {env : ProgressEnv} {q n n' : Nat}
  {error : Exn}

/-! ## `_refill` raises only when there are chunks left -/

section

variable {st : Staging} {env : RefillEnv}

/-- A generator that has nothing left. -/
theorem stagePass_dry (env : RefillEnv) (qs : List Nat) (made : Bool) (h : st.scheduler.chunkIter = some []) :
    (stagePass env qs made st).2.2 = none ∧ (stagePass env qs made st).1.scheduler.chunkIter = some [] := by
  induction qs with
  | nil => exact ⟨rfl, h⟩
  | cons q qs ih =>
      rw [stagePass, stageOne]
      split_ifs with hfull
      · exact ih
      · rw [h]
        exact ⟨rfl, h⟩

theorem stageLoop_dry (env : RefillEnv) (passes : Nat) (h : st.scheduler.chunkIter = some []) :
    (stageLoop env passes st).2 = none := by
  induction passes generalizing st with
  | zero => rfl
  | succ passes ih =>
      rw [stageLoop]
      split
      · rfl
      · obtain ⟨hnone, hiter⟩ := stagePass_dry env (List.range st.scheduler.config.qpCount) false h
        split
        · next he =>
            rw [he] at hnone
            cases hnone
        · next he =>
            rw [he] at hiter
            exact ih hiter
        · rfl

theorem refill_raised {s s' : Scheduler} (h : refill env b s = (s', some error)) (hiter : s.chunkIter ≠ none) :
    s.remaining ≠ [] := by
  intro hr
  have hdry : s.chunkIter = some [] := by
    obtain ⟨chunks, hc⟩ := Option.ne_none_iff_exists'.mp hiter
    rw [Scheduler.remaining, hc] at hr
    rw [hc]
    exact congrArg some hr
  have hnone := stageLoop_dry env ((s.chunkIter.getD []).length + 1)
    (show Scheduler.chunkIter (Staging.scheduler { scheduler := s, posts := fun _ => [], built := 0 }) = some [] from hdry)
  obtain ⟨hposts, -⟩ := stageLoop_spent env ((s.chunkIter.getD []).length + 1)
    (show Scheduler.remaining (Staging.scheduler { scheduler := s, posts := fun _ => [], built := 0 }) = [] from hr)
  rw [refill, stage] at h
  split at h
  · next he =>
      rw [he] at hnone
      cases hnone
  · next st he =>
      rw [he] at hposts
      rw [postAll_nothing fun q => congrFun hposts q] at h
      cases h

/-! ## The generator of an active batch -/

theorem turned_iter {st' : Staging} (h : Turned env st st') (hiter : st.scheduler.chunkIter ≠ none) :
    st'.scheduler.chunkIter ≠ none := by
  rcases h.cases with ⟨_, rfl⟩ | ⟨_, _, _, rest, _, _, _, _, _, rfl⟩
  · exact hiter
  · exact Option.some_ne_none rest

theorem turns_iter {st' : Staging} (h : Relation.ReflTransGen (Turned env) st st')
    (hiter : st.scheduler.chunkIter ≠ none) : st'.scheduler.chunkIter ≠ none := by
  induction h with
  | refl => exact hiter
  | tail _ ht ih => exact turned_iter ht ih

/-- A `_refill` that does not raise leaves the generator in place. -/
theorem refill_iter {s s' : Scheduler} (h : refill env b s = (s', none))
    (hd : s.inputExhausted = true → s.remaining = []) (hiter : s.chunkIter ≠ none) : s'.chunkIter ≠ none := by
  obtain ⟨st, hturns, -, -, rfl⟩ := refill_eq h hd
  exact turns_iter hturns hiter

end

/-! ## Polling raises only when something is in flight -/

theorem Session.Routes.iter (h : x.Routes b x') : x'.scheduler.chunkIter = x.scheduler.chunkIter := by
  obtain ⟨_, _, _, _, _, _, _, rfl⟩ := h
  rfl

theorem Session.Routes.requests (h : x.Routes b x') :
    x'.batch.requests = x.batch.requests ∧ x'.scheduler.config = x.scheduler.config := by
  obtain ⟨_, _, _, _, _, _, _, rfl⟩ := h
  exact ⟨rfl, rfl⟩

/-- With something outstanding on a QP, fewer chunks have completed than were taken from the generator. -/
theorem lacks_of_outstanding {s : Scheduler} {completed total : Nat} (hq : s.outstanding q ≠ 0)
    (hcount : s.outstanding q = (s.pendingOn q).length) (htotal : completed + s.pending.keys.length ≤ total) :
    completed < total := by
  have hle : (s.pendingOn q).length ≤ s.pending.keys.length := by
    rw [Scheduler.pendingOn, Dict.keysWhere, AList.keys, List.keys, List.length_map, List.length_map]
    exact List.length_filter_le ..
  omega

/-- A CQ that reports no more than it was asked for. -/
theorem routeCompletions_lacks {wcs : List WC} {total : Nat}
    (hcount : x.scheduler.outstanding q = (x.scheduler.pendingOn q).length)
    (htotal : x.batch.completedChunks + x.scheduler.pending.keys.length ≤ total)
    (hle : wcs.length ≤ x.scheduler.outstanding q) (hr : routeCompletions b q wcs x n = (x', n', some error)) :
    x'.batch.completedChunks < total := by
  induction wcs generalizing x n with
  | nil => simp [routeCompletions] at hr
  | cons wc wcs ih =>
      rw [List.length_cons] at hle
      rcases routeCompletions_cons b q wc wcs x n with ⟨x₁, err, he, -, hbatch⟩ | ⟨p, hl, hp, he⟩
      · rw [he] at hr
        cases hr
        rw [hbatch]
        exact lacks_of_outstanding (by omega) hcount htotal
      · rw [he] at hr
        have hon := Dict.keysWhere_perm_of_lookup hl fun v : PendingRead => decide (v.qpIndex = q)
        rw [if_pos (decide_eq_true hp)] at hon
        have hlen := hon.length_eq
        have hkeys := (Dict.keys_perm_of_lookup hl).length_eq
        rw [List.length_cons] at hlen hkeys
        have hcount : x.scheduler.outstanding q =
          (Dict.keysWhere (fun v : PendingRead => decide (v.qpIndex = q)) x.scheduler.pending).length := hcount
        refine ih (x := x.complete b q wc.wrId p) ?_ ?_ ?_ hr
        · show Function.update x.scheduler.outstanding q (x.scheduler.outstanding q - 1) q =
            (Dict.keysWhere (fun v : PendingRead => decide (v.qpIndex = q)) (x.scheduler.pending.erase wc.wrId)).length
          rw [Function.update_self]
          omega
        · show x.batch.completedChunks + 1 + (x.scheduler.pending.erase wc.wrId).keys.length ≤ total
          omega
        · show wcs.length ≤ Function.update x.scheduler.outstanding q (x.scheduler.outstanding q - 1) q
          rw [Function.update_self]
          omega

theorem routeCompletions_outstanding {wcs : List WC} {q' : Nat} (hq : q' ≠ q)
    (hr : routeCompletions b q wcs x n = (x', n', none)) :
    x'.scheduler.outstanding q' = x.scheduler.outstanding q' := by
  induction wcs generalizing x n with
  | nil =>
      simp only [routeCompletions, Prod.mk.injEq, and_true] at hr
      rw [hr.1]
  | cons wc wcs ih =>
      rcases routeCompletions_cons b q wc wcs x n with ⟨_, _, he, _⟩ | ⟨p, _, _, he⟩
      · rw [he] at hr
        cases hr
      · rw [he] at hr
        exact (ih hr).trans (Function.update_of_ne hq _ _)

/-- The completions that a CQ reports, when it is asked for some, are at most as many. -/
def ProgressEnv.AtMost (env : ProgressEnv) (s : Scheduler) : Prop :=
  ∀ q wcs, s.outstanding q ≠ 0 → env.poll q = .ok wcs → wcs.length ≤ min s.config.pollBatch (s.outstanding q)

theorem Pipeline.polled_lacks {qs : List Nat} (hqs : qs.Nodup)
    (hmost : ∀ q ∈ qs, ∀ wcs, x.scheduler.outstanding q ≠ 0 → env.poll q = .ok wcs →
      wcs.length ≤ x.scheduler.outstanding q)
    (h : Pipeline x.scheduler b x.batch) (hr : pollCqs env b qs x n = (x', n', some error)) :
    x'.batch.completedChunks < (iterChunks x.scheduler.config.chunkSize x.batch.requests).length := by
  induction qs generalizing x n with
  | nil => simp [pollCqs] at hr
  | cons q qs ih =>
      obtain ⟨hq, hqs⟩ := List.nodup_cons.mp hqs
      have htotal := h.counted
      simp only [pollCqs] at hr
      split at hr
      · exact ih hqs (fun q' hq' => hmost q' (List.mem_cons_of_mem q hq')) h hr
      · next hasked =>
          have hout : x.scheduler.outstanding q ≠ 0 := by
            intro hzero
            rw [hzero, Nat.min_zero] at hasked
            exact hasked rfl
          cases hpoll : env.poll q with
          | error err =>
              rw [hpoll] at hr
              cases hr
              exact lacks_of_outstanding hout (h.accounts.count q) (by omega)
          | ok wcs =>
              have hle := hmost q List.mem_cons_self wcs hout hpoll
              simp only [hpoll] at hr
              split at hr
              · next hroute =>
                  cases hr
                  exact routeCompletions_lacks (x := ⟨x.scheduler.reap q wcs, x.batch⟩) (h.accounts.count q)
                    (by show x.batch.completedChunks + x.scheduler.pending.keys.length ≤ _; omega) hle hroute
              · next x₁ n₁ hroute =>
                  have hpend := routed_subperm hroute
                  have hsub := (h.accounts.inflight q).subperm_left.mpr hpend
                  obtain ⟨hpipe, -⟩ := (h.reaped hsub).routed hroute
                  have hroutes := routeCompletions_routes b q wcs ⟨x.scheduler.reap q wcs, x.batch⟩ n
                  rw [hroute] at hroutes
                  have hreq : x₁.batch.requests = x.batch.requests := hroutes.requests.1
                  have hcfg : x₁.scheduler.config = x.scheduler.config := hroutes.requests.2
                  rw [← hreq, ← hcfg]
                  refine ih hqs (fun q' hq' wcs' hout' hpoll' => ?_) hpipe hr
                  -- The other CQs owe what they owed.
                  have hsame : x₁.scheduler.outstanding q' = x.scheduler.outstanding q' :=
                    routeCompletions_outstanding (x := ⟨x.scheduler.reap q wcs, x.batch⟩)
                      (by rintro rfl; exact hq hq') hroute
                  rw [hsame] at hout' ⊢
                  exact hmost q' (List.mem_cons_of_mem q hq') wcs' hout' hpoll'

/-! ## A batch that fails in `progress` -/

/-- A batch whose callback was not called has not all its chunks. -/
def Lacks (chunkSize : Nat) (batch : Batch) : Prop :=
  batch.onComplete = true → batch.callbackCalled = false →
    batch.completedChunks < (iterChunks chunkSize batch.requests).length

theorem progressBody_try (hr : (progressBody env b x).2 = .raised error) :
    ∃ y err, progressTry env b x = (y, .raised err) ∧
      (progressBody env b x).1.batch.completedChunks = y.batch.completedChunks := by
  unfold progressBody at hr ⊢
  rcases htry : progressTry env b x with ⟨y, err | m | m⟩
  · exact ⟨y, err, rfl, rfl⟩
  · rw [htry] at hr
    cases hr
  · rw [htry] at hr
    cases hr

/-- Whatever fails in the `try` block of `progress`, some chunk has not completed. -/
theorem Pipeline.try_lacks (h : Pipeline x.scheduler b x.batch) (hiter : x.scheduler.chunkIter ≠ none)
    (hmost : env.AtMost x.scheduler) (hr : progressTry env b x = (x', .raised error)) :
    x'.batch.completedChunks < (iterChunks x.scheduler.config.chunkSize x.batch.requests).length := by
  rw [progressTry] at hr
  rcases hp : pollCqs env b (List.range x.scheduler.config.qpCount) x 0 with ⟨x₁, n, _ | err⟩ <;> rw [hp] at hr
  · obtain ⟨hpipe, -⟩ := h.polled hp
    have hroutes := pollCqs_routes env b (List.range x.scheduler.config.qpCount) x 0
    rw [hp] at hroutes
    have hdrain : ∀ y : Session, (finishIfDrained y n).2 ≠ .raised error := by
      intro y
      unfold finishIfDrained
      split
      · split <;> exact fun heq => by cases heq
      · exact fun heq => by cases heq
    simp only at hr
    split at hr
    · exact absurd (congrArg Prod.snd hr) (hdrain x₁)
    · split at hr
      · next s err hre =>
          cases hr
          have hiter₁ : x₁.scheduler.chunkIter ≠ none := by
            rw [hroutes.iter]
            exact hiter
          have hpos := List.length_pos_iff.mpr (refill_raised hre hiter₁)
          have htotal := hpipe.counted
          rw [hroutes.requests.1, hroutes.requests.2] at htotal
          show x₁.batch.completedChunks < _
          omega
      · exact absurd (congrArg Prod.snd hr) (hdrain _)
  · cases hr
    refine h.polled_lacks List.nodup_range (fun q _ wcs hout hpoll => ?_) hp
    exact Nat.le_trans (hmost q wcs hout hpoll) (Nat.min_le_right _ _)

theorem finishSuccess_lacks (chunkSize : Nat) (x : Session) : Lacks chunkSize (finishSuccess x).1.batch := by
  unfold finishSuccess
  split
  · exact fun _ hc => Bool.noConfusion hc
  · next hn => exact fun ho hc => absurd ⟨ho, hc⟩ hn

theorem Flowing.keys_pos {s : Scheduler} (h : Flowing s) : 0 < s.pending.keys.length := by
  refine List.length_pos_iff.mpr fun hkeys => h.pending (Dict.isEmpty_iff.mp ?_)
  rw [Dict.isEmpty, List.isEmpty_iff]
  exact List.map_eq_nil_iff.mp hkeys

theorem Ran.iter (h : Ran env b x x' n) (hpipe : Pipeline x.scheduler b x.batch)
    (hiter : x.scheduler.chunkIter ≠ none) : x'.scheduler.chunkIter ≠ none := by
  obtain ⟨x₁, hp, hend⟩ := h
  have hroutes := pollCqs_routes env b (List.range x.scheduler.config.qpCount) x 0
  rw [hp] at hroutes
  have hiter₁ : x₁.scheduler.chunkIter ≠ none := by
    rw [hroutes.iter]
    exact hiter
  rcases hend with ⟨-, rfl⟩ | ⟨-, s, hre, rfl⟩
  · exact hiter₁
  · exact refill_iter hre (hpipe.polled hp).1.drained hiter₁

theorem Pipeline.progress_lacks (h : Pipeline x.scheduler b x.batch) (hflow : Flowing x.scheduler)
    (hroom : x.scheduler.config.RoomFor x.batch.requests) (hiter : x.scheduler.chunkIter ≠ none)
    (hmost : env.AtMost x.scheduler) :
    Lacks x.scheduler.config.chunkSize (progressBody env b x).1.batch ∧
      ((progressBody env b x).1.scheduler.active ≠ none → (progressBody env b x).1.scheduler.chunkIter ≠ none) := by
  rcases progressBody_cases env b x with ⟨x', err, hw, he⟩ | ⟨x', n, hran, hne, he⟩ | ⟨x', n, hran, _, _, he⟩
  · have hraised : (progressBody env b x).2 = .raised _ := congrArg Prod.snd he
    obtain ⟨y, err', htry, hsame⟩ := progressBody_try hraised
    have hlt := h.try_lacks hiter hmost htry
    rw [← hsame] at hlt
    rw [he] at hlt ⊢
    obtain ⟨_, _, hbatch⟩ := hw.batch
    refine ⟨fun _ _ => ?_, fun ha => absurd (failTransport_active _ _ _).1 ha⟩
    rw [(failTransport_ends x' err _).requests, hbatch]
    exact hlt
  · obtain ⟨hpipe, hflow'⟩ := h.ran hflow hroom hran
    have hpos := (hflow' hne).keys_pos
    have htotal := hpipe.counted
    obtain ⟨_, _, hbatch⟩ := hran.works.batch
    rw [he]
    refine ⟨fun _ _ => ?_, fun _ => hran.iter h hiter⟩
    rw [hran.works.scheduler.config] at htotal
    show x'.batch.completedChunks < (iterChunks x.scheduler.config.chunkSize x'.batch.requests).length
    omega
  · rw [he]
    exact ⟨finishSuccess_lacks _ x', fun ha => absurd (finishSuccess_active x').1 ha⟩

/-! ## Runs -/

/-- When the event polls the CQs of `s`, each reports at most as many completions as it is asked for. -/
def AtMostAsked (s : SchedulerId) (w : World) (e : Event) : Prop :=
  ∀ env, e.polls w = some (s, env) → env.AtMost (w.schedulers s)

/-- The scheduler is sound, an active batch has its generator, and a batch whose callback was not called has not all its
chunks. -/
structure Lacking (s : SchedulerId) (w : World) : Prop where
  sound : Sound s w
  iter : (w.schedulers s).active ≠ none → (w.schedulers s).chunkIter ≠ none
  lacks : ∀ b < w.nextBatch, (w.batches b).scheduler = s → Lacks (w.schedulers s).config.chunkSize (w.batches b)

theorem Lacking.ends (h : Lacking s w) (hs : Sound s w') (hn : w'.nextBatch = w.nextBatch)
    (hc : (w'.schedulers s).config = (w.schedulers s).config)
    (hi : (w'.schedulers s).active ≠ none → (w'.schedulers s).chunkIter ≠ none)
    (hb : ∀ b, Ends (w.batches b) (w'.batches b)) : Lacking s w' := by
  refine ⟨hs, hi, fun b hlt hsch => ?_⟩
  have hend := hb b
  rw [Lacks, hc, hend.onComplete, hend.callbackCalled, hend.completedChunks, hend.requests]
  exact h.lacks b (hn ▸ hlt) (hend.scheduler ▸ hsch)

theorem ends_failed (w : World) (self : SchedulerId) (b : BatchId) (error : Exn) (b' : BatchId) :
    Ends (w.batches b') ((w.put self b (failTransport (w.session self b) error none)).batches b') := by
  by_cases hb : b' = b
  · subst hb
    rw [put_batches_self]
    exact failTransport_ends (w.session self b') error none
  · rw [put_batches_of_ne hb]
    exact .refl _

theorem Lacking.failed (h : Lacking s w) (self : SchedulerId) (b : BatchId) (error : Exn) :
    Lacking s (w.put self b (failTransport (w.session self b) error none)) := by
  have hsound := h.sound.failed self b error
  by_cases hs : s = self
  · subst hs
    refine h.ends hsound rfl ?_ ?_ (ends_failed w s b error)
    · rw [put_schedulers_self]
      exact (failTransport_touched (b := b) (w.session s b) error none).config
    · rw [put_schedulers_self]
      exact fun ha => absurd (failTransport_active _ _ _).1 ha
  · have hsame := put_schedulers_of_ne (w := w) hs b (failTransport (w.session self b) error none)
    exact h.ends hsound rfl (by rw [hsame]) (by rw [hsame]; exact h.iter) (ends_failed w self b error)

/-- The scheduler works on its batch, or another scheduler on one of its own. -/
theorem Lacking.put (h : Lacking s w) {self : SchedulerId} {b m : BatchId} {y : Session}
    (hs : Sound s ({ w with nextBatch := m }.put self b y)) (hm : ∀ b', b' < m → b' ≠ b → b' < w.nextBatch)
    (hsch : y.batch.scheduler = self) (hc : y.scheduler.config = (w.schedulers self).config)
    (hown : self = s → Lacks (w.schedulers s).config.chunkSize y.batch ∧
      (y.scheduler.active ≠ none → y.scheduler.chunkIter ≠ none)) :
    Lacking s ({ w with nextBatch := m }.put self b y) := by
  have hcfg : (({ w with nextBatch := m }.put self b y).schedulers s).config = (w.schedulers s).config := by
    rw [put_schedulers]
    split
    · next heq => rw [hc, heq]
    · rfl
  refine ⟨hs, fun ha => ?_, fun b' hlt hb' => ?_⟩
  · rw [put_schedulers] at ha ⊢
    split at ha
    · next heq =>
        rw [if_pos heq]
        exact (hown heq.symm).2 ha
    · next hne =>
        rw [if_neg hne]
        exact h.iter ha
  · rw [hcfg]
    by_cases hb : b' = b
    · subst hb
      rw [put_batches_self] at hb' ⊢
      exact (hown (hsch.symm.trans hb')).1
    · rw [put_batches_of_ne hb] at hb' ⊢
      exact h.lacks b' (hm b' hlt hb) hb'

theorem Lacking.progressed (h : Lacking s w) (self : SchedulerId) (b : BatchId) (env : ProgressEnv)
    (hmost : self = s → env.AtMost (w.schedulers s)) (hd : (w.batches b).done = false)
    (hself : (w.batches b).scheduler = self) (ha : (w.schedulers self).active = some b) :
    Lacking s (w.put self b (progressBody env b (w.session self b)).1) := by
  refine h.put (m := w.nextBatch) (h.sound.progressed self b env hd hself ha) (fun _ hlt _ => hlt) ?_
    (progressBody_touched env b (w.session self b)).config fun heq => ?_
  · rcases progressBody_cases env b (w.session self b) with ⟨x', err, hw, he⟩ | ⟨x', n, hran, _, he⟩ |
      ⟨x', n, hran, _, _, he⟩ <;> rw [he]
    · obtain ⟨_, _, hbatch⟩ := hw.batch
      rw [(failTransport_ends x' err _).scheduler, hbatch]
      exact hself
    · obtain ⟨_, _, hbatch⟩ := hran.works.batch
      rw [hbatch]
      exact hself
    · obtain ⟨_, _, hbatch⟩ := hran.works.batch
      obtain ⟨_, hf⟩ := finishSuccess_eq x'
      rw [hf, hbatch]
      exact hself
  · subst heq
    obtain ⟨hpipe, hflow, hroom⟩ := h.sound.inFlight b ha
    have hiter := h.iter (by rw [ha]; exact Option.some_ne_none b)
    exact hpipe.progress_lacks (x := w.session self b) hflow hroom hiter (hmost rfl)

theorem Lacking.submitted (h : Lacking s w) (self : SchedulerId) (requests : List RdmaReadRequest) (oc : OnComplete)
    (env : RefillEnv) (x' : Session) (hroom : self = s → (w.schedulers s).config.RoomFor requests)
    (hu : ensureUsable (w.schedulers self) = none) (ha : (w.schedulers self).active = none)
    (hx : SubmitEnds env w.nextBatch ((w.schedulers self).start self w.nextBatch requests oc) x'
      (totalChunks (w.schedulers self).config.chunkSize requests)) :
    Lacking s ({ w with nextBatch := w.nextBatch + 1 }.put self w.nextBatch x') := by
  have hsound := h.sound.submitted self requests oc env x' hroom hu ha hx
  have hworks := refill_worksFor env w.nextBatch ((w.schedulers self).start self w.nextBatch requests oc).scheduler
  have hpos : totalChunks (w.schedulers self).config.chunkSize requests ≠ 0 →
      0 < (iterChunks (w.schedulers self).config.chunkSize requests).length := by
    intro hz
    have hne : requests ≠ [] := fun hn => hz ((totalChunks_eq_zero (w.schedulers self).config.chunkSize_pos).mpr hn)
    exact List.length_pos_iff.mpr (iterChunks_ne_nil (w.schedulers self).config.chunkSize_pos hne)
  refine h.put hsound (fun b' hlt hne => Nat.lt_of_le_of_ne (Nat.le_of_lt_succ hlt) hne) ?_ ?_ fun heq => ?_
  · rcases hx with ⟨_, rfl⟩ | ⟨_, _, _, rfl⟩ | ⟨_, _, _, _, rfl⟩
    · obtain ⟨_, hf⟩ := finishSuccess_eq ((w.schedulers self).start self w.nextBatch requests oc)
      rw [hf]
      rfl
    · rfl
    · rfl
  · rcases hx with ⟨_, rfl⟩ | ⟨_, s', hr, rfl⟩ | ⟨_, s', err, hr, rfl⟩
    · exact (finishSuccess_touched (b := 0) _).config
    · rw [hr] at hworks
      exact hworks.config
    · rw [hr] at hworks
      exact (failTransport_touched (b := 0) _ _ _).config.trans hworks.config
  · subst heq
    rcases hx with ⟨_, rfl⟩ | ⟨hz, s', hr, rfl⟩ | ⟨hz, s', err, hr, rfl⟩
    · exact ⟨finishSuccess_lacks _ _, fun hact => absurd (finishSuccess_active _).1 hact⟩
    · refine ⟨fun _ _ => hpos hz, fun _ => ?_⟩
      exact refill_iter hr (fun hex => absurd (of_decide_eq_true hex) hz) (Option.some_ne_none _)
    · exact ⟨fun _ _ => hpos hz, fun hact => absurd (failTransport_active _ _ _).1 hact⟩

theorem Lacking.change (hmost : AtMostAsked s w₀ e) (hroom : EnoughIds s w₀ e) (hc : Change w₀ e w w')
    (h : Lacking s w) : Lacking s w' := by
  have hsound := h.sound.change hroom hc
  have hcfg := change_config hc s
  cases hc with
  | control stack tasks => exact ⟨hsound, h.iter, h.lacks⟩
  | callbackError b error =>
      refine h.ends hsound rfl rfl h.iter fun b' => ?_
      simp only [Function.update_apply]
      split
      · next hb =>
          subst hb
          exact ⟨rfl, rfl, rfl, rfl, rfl, rfl, rfl, rfl, id, .inr (Option.some_ne_none error)⟩
      · exact .refl _
  | failed self b error => exact h.failed self b error
  | misfired self b error => exact h.failed self b error
  | progressed self b env hw hp hd hs ha =>
      refine h.progressed self b env (fun hself => ?_) hd hs ha
      subst hself
      rw [hw]
      exact hmost env hp
  | submitted self items requests oc env x' he hi hu ha hx =>
      refine h.submitted self requests oc env x' (fun hself => ?_) hu ha hx
      subst hself
      exact hroom items oc env requests he hi
  | connected self context transitions =>
      refine h.ends hsound rfl hcfg ?_ fun _ => .refl _
      simp only [World.setScheduler, Function.update_apply]
      split
      · next hs =>
          subst hs
          exact h.iter
      · exact h.iter
  | disconnected self args env context transitions =>
      refine h.ends hsound rfl hcfg ?_ fun _ => .refl _
      simp only [World.setScheduler, Function.update_apply]
      split
      · next hs =>
          subst hs
          obtain ⟨_, _, _, _, heq⟩ := poisonResources_eq { w.schedulers s with
            hasContext := context, provider := { (w.schedulers s).provider with transitions := transitions } }
          rw [heq]
          exact h.iter
      · exact h.iter
  | closed self env hopen =>
      have hcl := close_closes env hopen
      refine h.ends hsound hcl.nextBatch hcfg (fun ha => ?_) hcl.ends
      by_cases hs : s = self
      · subst hs
        exact absurd hcl.active ha
      · rw [hcl.others s hs] at ha ⊢
        exact h.iter ha

theorem Lacking.initial (s : SchedulerId) (h : w.Initial) : Lacking s w := by
  refine ⟨.initial s h, fun ha => ?_, fun b hlt => ?_⟩
  · exact absurd (h.1 s).idle.2.1 ha
  · rw [h.2.1] at hlt
    exact absurd hlt (Nat.not_lt_zero b)

theorem Lacking.run (hi : w.Initial)
    (hr : (process.when fun w e => AtMostAsked s w e ∧ EnoughIds s w e).Reaches w w') : Lacking s w' :=
  Machine.Reaches.invariant (I := Lacking s)
    (fun w e h (he : w.Enabled e ∧ AtMostAsked s w e ∧ EnoughIds s w e) =>
      step_invariant (fun _ _ hc h => h.change he.2.1 he.2.2 hc) he.1 h) hr (.initial s hi)

end Rdma4py.ReadScheduler
