import Rdma4py.ReadScheduler.Lemmas.Staging

/-!
# The second loop of `_refill`
-/

namespace Rdma4py.ReadScheduler

open Rdma4py.Lib

variable {env : RefillEnv} {b : BatchId} {posts : Nat → List Staged} {s s' : Scheduler}

/-! ## What the pipeline leaves alone -/

/-- What the pipeline methods leave alone while they work for batch `b`. -/
structure Keeps (b : BatchId) (s s' : Scheduler) : Prop where
  config : s'.config = s.config
  active : s'.active = s.active
  closed : s'.closed = s.closed
  poisoned : s'.poisoned = s.poisoned
  posted : ∀ b' ≠ b, s'.provider.postedFor b' = s.provider.postedFor b'
  completed : ∀ b' ≠ b, s'.provider.completedFor b' = s.provider.completedFor b'
  owns : s'.ownsResources = s.ownsResources
  closes : s'.provider.closes = s.provider.closes

theorem Keeps.refl (b : BatchId) (s : Scheduler) : Keeps b s s :=
  ⟨rfl, rfl, rfl, rfl, fun _ _ => rfl, fun _ _ => rfl, rfl, rfl⟩

theorem Keeps.trans {s'' : Scheduler} (h : Keeps b s s') (h' : Keeps b s' s'') : Keeps b s s'' where
  config := h'.config.trans h.config
  active := h'.active.trans h.active
  closed := h'.closed.trans h.closed
  poisoned := h'.poisoned.trans h.poisoned
  posted b' hb := (h'.posted b' hb).trans (h.posted b' hb)
  completed b' hb := (h'.completed b' hb).trans (h.completed b' hb)
  owns := h'.owns.trans h.owns
  closes := h'.closes.trans h.closes

theorem Scheduler.Advances.keeps (h : s.Advances s') : Keeps b s s' := by
  obtain ⟨_, _, _, rfl⟩ := h
  exact ⟨rfl, rfl, rfl, rfl, fun _ _ => rfl, fun _ _ => rfl, rfl, rfl⟩

/-- Besides, they post nothing when there are no chunks left. -/
structure WorksFor (b : BatchId) (s s' : Scheduler) : Prop extends Keeps b s s' where
  spent : s.remaining = [] → s'.provider.posts = s.provider.posts ∧ s'.remaining = []

theorem WorksFor.trans {s'' : Scheduler} (h : WorksFor b s s') (h' : WorksFor b s' s'') : WorksFor b s s'' where
  toKeeps := h.toKeeps.trans h'.toKeeps
  spent hr := ⟨(h'.spent (h.spent hr).2).1.trans (h.spent hr).1, (h'.spent (h.spent hr).2).2⟩

/-! ## The record of the posts -/

/-- The posts of the QPs in a list, in order; a QP with nothing staged posts nothing. -/
def newPosts (b : BatchId) (posts : Nat → List Staged) (qs : List Nat) : List Post :=
  (qs.filter fun q => posts q ≠ []).map fun q => ⟨b, q, (posts q).map Staged.wr⟩

theorem postedFor_newPosts (p : Provider) (qs : List Nat) (b' : BatchId) :
    Provider.postedFor { p with posts := p.posts ++ newPosts b posts qs } b' =
      p.postedFor b' ++ if b' = b then (qs.flatMap posts).map Staged.wr else [] := by
  have hnew : ((newPosts b posts qs).filter fun post => post.batch = b').flatMap Post.wrs =
      if b' = b then (qs.flatMap posts).map Staged.wr else [] := by
    induction qs with
    | nil => simp [newPosts]
    | cons q qs ih => simp only [newPosts] at ih ⊢; grind
  simp only [Provider.postedFor, List.filter_append, List.flatMap_append, hnew]

/-! ## Posting -/

/-- The new entries of `_pending` for a QP. -/
def newPending (posts : Nat → List Staged) (q : Nat) : List (Nat × PendingRead) :=
  (posts q).map fun x => (x.wrId, ⟨q, x.chunk⟩)

theorem postOne_keeps (env : RefillEnv) (b : BatchId) (q : Nat) (queued : List Staged) (s : Scheduler) :
    Keeps b s (postOne env b q queued s).1 := by
  have hposted : ∀ b' ≠ b, ∀ inflight, Provider.postedFor { s.provider with
      posts := s.provider.posts ++ [⟨b, q, queued.map Staged.wr⟩], inflight := inflight } b' = s.provider.postedFor b' := by
    intro b' hb inflight
    simp [Provider.postedFor, hb.symm]
  rw [postOne]
  split
  · exact ⟨rfl, rfl, rfl, rfl, fun b' hb => hposted b' hb _, fun _ _ => rfl, rfl, rfl⟩
  · exact ⟨rfl, rfl, rfl, rfl, fun b' hb => hposted b' hb _, fun _ _ => rfl, rfl, rfl⟩

theorem postAll_keeps (env : RefillEnv) (b : BatchId) (posts : Nat → List Staged) (qs : List Nat) (s : Scheduler) :
    Keeps b s (postAll env b posts qs s).1 := by
  induction qs generalizing s with
  | nil => exact .refl b s
  | cons q qs ih =>
      rw [postAll]
      split
      · exact ih s
      · have hw := postOne_keeps env b q (posts q) s
        split
        · next he => rw [he] at hw; exact hw
        · next he => rw [he] at hw; exact hw.trans (ih _)

theorem postAll_nothing {qs : List Nat} (h : ∀ q, posts q = []) : postAll env b posts qs s = (s, none) := by
  induction qs with
  | nil => rfl
  | cons q qs ih => rw [postAll, if_pos (h q), ih]

/-- What the loop leaves when no `post_send` raises. -/
theorem postAll_eq {qs : List Nat} (hqs : qs.Nodup) (h : postAll env b posts qs s = (s', none)) :
    s' = { s with
      pending := s.pending.update (qs.flatMap (newPending posts))
      outstanding := fun q => s.outstanding q + if q ∈ qs then (posts q).length else 0
      provider := { s.provider with
        posts := s.provider.posts ++ newPosts b posts qs
        inflight := fun q => s.provider.inflight q ++ if q ∈ qs then (posts q).map Staged.wrId else [] } } := by
  induction qs generalizing s with
  | nil =>
      simp only [postAll, Prod.mk.injEq, and_true] at h
      rw [← h]
      simp [newPosts, Dict.update]
  | cons q qs ih =>
      obtain ⟨hq, hqs⟩ := List.nodup_cons.mp hqs
      rw [postAll] at h
      split at h
      · next hnil =>
          rw [ih hqs h]
          have hout : ∀ q', (q' ∈ qs ∨ q' = q) ∧ q' ∉ qs → posts q' = [] := by grind
          congr 1
          · simp [newPending, hnil]
          · funext q'; grind
          · simp only [newPosts, hnil, List.filter_cons, ne_eq, not_true_eq_false, decide_false,
              Bool.false_eq_true, if_false, Provider.mk.injEq, true_and, and_true, List.mem_cons]
            funext q'; grind
      · next hne =>
          rw [postOne] at h
          cases hpost : env.post q with
          | some e => simp [hpost] at h
          | none =>
              simp only [hpost] at h
              rw [ih hqs h]
              congr 1
              · rw [List.flatMap_cons, Dict.update_append]; rfl
              · funext q'
                by_cases hqq : q' = q
                · subst hqq; simp [hq]
                · simp [hqq]
              · simp only [newPosts, hne, List.filter_cons, ne_eq, not_false_eq_true, decide_true, if_true,
                  List.map_cons, List.append_assoc, List.singleton_append, Provider.mk.injEq, true_and, and_true]
                funext q'
                by_cases hqq : q' = q
                · subst hqq; simp [hq]
                · simp [hqq]

/-! ## `_refill` -/

theorem refill_worksFor (env : RefillEnv) (b : BatchId) (s : Scheduler) : WorksFor b s (refill env b s).1 := by
  have ha := stageLoop_advances env ((s.chunkIter.getD []).length + 1) { scheduler := s, posts := fun _ => [], built := 0 }
  have hs := fun h => stageLoop_spent env ((s.chunkIter.getD []).length + 1)
    (show Scheduler.remaining (Staging.scheduler { scheduler := s, posts := fun _ => [], built := 0 }) = [] from h)
  rw [refill, stage]
  split
  · next he =>
      rw [he] at ha hs
      refine ⟨ha.keeps, fun hr => ⟨?_, (hs hr).2⟩⟩
      obtain ⟨_, _, _, ha⟩ := ha
      rw [ha]
  · next st he =>
      rw [he] at ha hs
      refine ⟨ha.keeps.trans (postAll_keeps ..), fun hr => ?_⟩
      obtain ⟨hposts, hrem⟩ := hs hr
      obtain ⟨_, _, _, ha⟩ := ha
      rw [postAll_nothing fun q => congrFun hposts q]
      exact ⟨by rw [ha], hrem⟩

/-- A `_refill` that does not raise: a staging that ran to its end, then the posts. -/
theorem refill_eq (h : refill env b s = (s', none)) (hd : s.inputExhausted = true → s.remaining = []) :
    ∃ st, Relation.ReflTransGen (Turned env) { scheduler := s, posts := fun _ => [], built := 0 } st ∧
      StagingOk s st ∧
      (st.scheduler.inputExhausted = true ∨ ∀ q < s.config.qpCount, st.Full q) ∧
      s' = { st.scheduler with
        pending := s.pending.update (flat s.config.qpCount (newPending st.posts))
        outstanding := fun q => s.outstanding q + (st.posts q).length
        provider := { s.provider with
          posts := s.provider.posts ++ newPosts b st.posts (List.range s.config.qpCount)
          inflight := fun q => s.provider.inflight q ++ (st.posts q).map Staged.wrId } } := by
  rw [refill] at h
  split at h
  · simp at h
  · next st hstage =>
      have hturns := stageLoop_turns hstage
      have hok := (StagingOk.init hd).turns hturns
      obtain ⟨iter, ex, next, hs⟩ := hok.advances
      have hend := stageLoop_end (by simp [Scheduler.remaining]) hstage
      rw [hok.advances.config] at hend
      refine ⟨st, hturns, hok, hend, ?_⟩
      rw [postAll_eq List.nodup_range h]
      have hout : ∀ q, ¬ q < s.config.qpCount → st.posts q = [] := fun q hq => hok.outside q (by omega)
      simp only [hs, List.mem_range, flat]
      congr 1
      · funext q
        split <;> simp [*]
      · congr 1
        funext q
        split <;> simp [*]

end Rdma4py.ReadScheduler
