import Rdma4py.ReadScheduler.Lemmas.Ownership

/-!
# Poisoned and closed schedulers

The flags are never cleared. A poisoned or closed scheduler posts nothing more, unless it still has an unfinished active
batch with chunks left and a CQ that answers. Only a failing `connect` leaves such a batch behind, and a scheduler that
owns its CQs has closed them by then.
-/

namespace Rdma4py.ReadScheduler

open Rdma4py.Lib

variable {s self : SchedulerId} {b : BatchId} {w w' w₀ : World} {e : Event}

/-- The active batch, if any, is finished or has no chunks left to post. -/
def Spent (s : SchedulerId) (w : World) : Prop :=
  ∀ b, (w.schedulers s).active = some b → (w.batches b).done = true ∨ (w.schedulers s).remaining = []

theorem put_done {x : Session} (hx : (w.batches b).done = true → x.batch.done = true) (b' : BatchId)
    (hd : (w.batches b').done = true) : ((w.put self b x).batches b').done = true := by
  by_cases hb : b' = b
  · subst hb; rw [put_batches_self]; exact hx hd
  · rw [put_batches_of_ne hb]; exact hd

/-- What `progress` does to a scheduler whose batch has no chunks left. -/
theorem progressBody_spent (env : ProgressEnv) {x : Session} (hr : x.scheduler.remaining = []) :
    (progressBody env b x).1.scheduler.provider.posts = x.scheduler.provider.posts ∧
      ((progressBody env b x).1.scheduler.active = none ∨
        (progressBody env b x).1.scheduler.active = x.scheduler.active ∧
          (progressBody env b x).1.scheduler.remaining = []) := by
  rcases progressBody_cases env b x with ⟨x', err, hw, he⟩ | ⟨x', n, hran, _, he⟩ | ⟨x', n, hran, _, _, he⟩ <;> rw [he]
  · exact ⟨(failTransport_posts x' err _).trans (hw.scheduler.spent hr).1, Or.inl (failTransport_active x' err _).1⟩
  · have hw := hran.works.scheduler
    exact ⟨(hw.spent hr).1, Or.inr ⟨hw.active, (hw.spent hr).2⟩⟩
  · obtain ⟨_, hf⟩ := finishSuccess_eq x'
    refine ⟨?_, Or.inl (finishSuccess_active x').1⟩
    rw [hf]
    exact (hran.works.scheduler.spent hr).1

theorem pollCqs_closed {env : ProgressEnv} {qs : List Nat} (h : ∀ q ∈ qs, ∃ err, env.poll q = .error err) (x : Session)
    (completed : Nat) : (pollCqs env b qs x completed).1 = x ∧ (pollCqs env b qs x completed).2.1 = completed := by
  induction qs with
  | nil => exact ⟨rfl, rfl⟩
  | cons q qs ih =>
      rw [pollCqs]
      split
      · exact ih fun q hq => h q (List.mem_cons_of_mem _ hq)
      · obtain ⟨err, herr⟩ := h q List.mem_cons_self
        rw [herr]
        exact ⟨rfl, rfl⟩

theorem progressBody_closed {env : ProgressEnv} {x : Session}
    (h : ∀ q < x.scheduler.config.qpCount, ∃ err, env.poll q = .error err) :
    (progressBody env b x).1.scheduler.provider.posts = x.scheduler.provider.posts := by
  obtain ⟨hx, hn⟩ := pollCqs_closed (b := b) (fun q hq => h q (List.mem_range.mp hq)) x 0
  rw [progressBody, progressTry]
  rcases hp : pollCqs env b (List.range x.scheduler.config.qpCount) x 0 with ⟨x', n, _ | e⟩
  · rw [hp] at hx hn
    obtain rfl : x' = x := hx
    obtain rfl : n = 0 := hn
    obtain ⟨_, hf⟩ := finishSuccess_eq x'
    have hposts : (finishSuccess x').1.scheduler.provider.posts = x'.scheduler.provider.posts := by rw [hf]
    simp only [if_true, finishIfDrained]
    split
    next he =>
      split at he
      · split at he <;> cases he
      · cases he
    next =>
      split
      · split
        next heq => rw [heq] at hposts; exact hposts
        next heq => rw [heq] at hposts; exact hposts
      · rfl
  · rw [hp] at hx
    obtain rfl : x' = x := hx
    exact failTransport_posts x' e _

/-! ## The flags stay set -/

theorem change_flags (hc : Change w₀ e w w') (s : SchedulerId) :
    ((w.schedulers s).poisoned = true → (w'.schedulers s).poisoned = true) ∧
      ((w.schedulers s).closed = true → (w'.schedulers s).closed = true) := by
  rcases change_touched hc s with ⟨_, b, ht⟩ | ⟨hclosed, hpoisoned, _⟩
  · exact ⟨ht.poisoned, ht.closed⟩
  · exact ⟨fun hp => absurd (hp.symm.trans hpoisoned) (by decide), fun hc => absurd (hc.symm.trans hclosed) (by decide)⟩

/-- What the flags say after a run they said before or the run set them. -/
theorem run_flags (hr : process.Reaches w w') (s : SchedulerId) :
    ((w.schedulers s).poisoned = true → (w'.schedulers s).poisoned = true) ∧
      ((w.schedulers s).closed = true → (w'.schedulers s).closed = true) := by
  refine Machine.Reaches.invariant (M := process) (I := fun w' => ((w.schedulers s).poisoned = true →
    (w'.schedulers s).poisoned = true) ∧ ((w.schedulers s).closed = true → (w'.schedulers s).closed = true))
    (fun w₁ e h he => ?_) hr ⟨id, id⟩
  refine step_invariant (I := fun w' => ((w.schedulers s).poisoned = true →
    (w'.schedulers s).poisoned = true) ∧ ((w.schedulers s).closed = true → (w'.schedulers s).closed = true))
    (fun w₂ w₃ hc h => ?_) he h
  obtain ⟨hp, hcl⟩ := change_flags hc s
  exact ⟨fun h' => hp (h.1 h'), fun h' => hcl (h.2 h')⟩

/-! ## Nothing more is posted -/

/-- An active batch exists. -/
def Owned (s : SchedulerId) (w : World) : Prop := ∀ b, (w.schedulers s).active = some b → b < w.nextBatch

theorem Owned.change (hc : Change w₀ e w w') (h : Owned s w) : Owned s w' := by
  intro b ha
  rcases change_touched hc s with ⟨hn, _, ht⟩ | ⟨_, _, hn, _, hnone | ⟨hsome, _⟩⟩
  · rcases ht.active with hsame | hnone
    · rw [hsame] at ha; exact Nat.lt_of_lt_of_le (h b ha) hn
    · rw [hnone] at ha; cases ha
  · rw [hnone] at ha; cases ha
  · rw [hsome] at ha
    rw [hn, ← Option.some.inj ha]
    exact Nat.lt_succ_self _

theorem change_done (hc : Change w₀ e w w') {b : BatchId} (hb : b < w.nextBatch) (hd : (w.batches b).done = true) :
    (w'.batches b).done = true := by
  cases hc with
  | control stack tasks => exact hd
  | callbackError b' error =>
      simp only [Function.update_apply]
      split
      · next he => subst he; exact hd
      · exact hd
  | failed self b' error => exact put_done (fun _ => rfl) b hd
  | misfired self b' error => exact put_done (fun _ => rfl) b hd
  | progressed self b' env _ _ hd' =>
      refine put_done (fun h => ?_) b hd
      rw [hd'] at h; cases h
  | submitted self items requests oc env x' => rw [put_batches_of_ne (Nat.ne_of_lt hb)]; exact hd
  | connected self context transitions => exact hd
  | disconnected self args env context transitions => exact hd
  | closed self env hopen => exact ((close_closes env hopen).ends b).done hd

/-- An unusable scheduler posts nothing but by a `progress` on its active batch. -/
theorem change_posts (hun : Unusable (w.schedulers s)) (hc : Change w₀ e w w')
    (hprogress : ∀ b env, w.schedulers = w₀.schedulers → e.polls w₀ = some (s, env) → (w.batches b).done = false →
      (w.schedulers s).active = some b →
        (progressBody env b (w.session s b)).1.scheduler.provider.posts = (w.schedulers s).provider.posts) :
    (w'.schedulers s).provider.posts = (w.schedulers s).provider.posts := by
  have hother : w'.schedulers s = w.schedulers s →
      (w'.schedulers s).provider.posts = (w.schedulers s).provider.posts := fun heq => by rw [heq]
  cases hc with
  | control stack tasks => exact hother rfl
  | callbackError b error => exact hother rfl
  | failed self b error | misfired self b error =>
      by_cases hs : s = self
      · subst hs
        rw [put_schedulers_self]
        exact failTransport_posts (w.session s b) error none
      · exact hother (put_schedulers_of_ne hs _ _)
  | progressed self b env hw hp hd _ ha =>
      by_cases hs : s = self
      · subst hs
        rw [put_schedulers_self]
        exact hprogress b env hw hp hd ha
      · exact hother (put_schedulers_of_ne hs _ _)
  | submitted self items requests oc env x' _ _ hu =>
      obtain ⟨hclosed, hpoisoned⟩ := ensureUsable_none hu
      have hs : s ≠ self := by
        rintro rfl
        rcases hun with h | h
        · exact absurd (h.symm.trans hpoisoned) (by decide)
        · exact absurd (h.symm.trans hclosed) (by decide)
      exact hother (put_schedulers_of_ne hs _ _)
  | connected self context transitions =>
      by_cases hs : s = self
      · subst hs
        simp only [World.setScheduler, Function.update_self]
      · exact hother (Function.update_of_ne hs _ _)
  | disconnected self args env context transitions =>
      by_cases hs : s = self
      · subst hs
        simp only [World.setScheduler, Function.update_self]
        exact (aside_disconnected _ _ _).posts.1
      · exact hother (Function.update_of_ne hs _ _)
  | closed self env hopen =>
      have hcl := close_closes env hopen
      by_cases hs : s = self
      · subst hs
        exact hcl.posts
      · exact hother (hcl.others s hs)

theorem Spent.change (hun : Unusable (w.schedulers s)) (hown : Owned s w) (hc : Change w₀ e w w') (h : Spent s w) :
    Spent s w' := by
  have hkept : (w'.schedulers s).active = (w.schedulers s).active →
      ((w.schedulers s).remaining = [] → (w'.schedulers s).remaining = []) → Spent s w' := by
    intro ha hr b ha'
    rw [ha] at ha'
    exact (h b ha').imp (change_done hc (hown b ha')) hr
  have hended : (w'.schedulers s).active = none → Spent s w' := by
    intro ha b ha'
    rw [ha] at ha'; cases ha'
  have hother : w'.schedulers s = w.schedulers s → Spent s w' := by
    intro heq
    exact hkept (by rw [heq]) (by rw [heq]; exact id)
  have haside : Aside (w.schedulers s) (w'.schedulers s) → Spent s w' := by
    intro ha
    exact hkept ha.active (fun hr => ha.posts.2.trans hr)
  cases hc with
  | control stack tasks => exact hother rfl
  | callbackError b error => exact hother rfl
  | failed self b error | misfired self b error =>
      by_cases hs : s = self
      · subst hs
        refine hended ?_
        rw [put_schedulers_self]
        exact (failTransport_active _ _ _).1
      · exact hother (put_schedulers_of_ne hs _ _)
  | progressed self b env _ _ hd _ ha =>
      by_cases hs : s = self
      · subst hs
        rcases h b ha with hdone | hrem
        · rw [hd] at hdone; cases hdone
        · obtain ⟨-, hend⟩ := progressBody_spent (b := b) env (x := w.session s b) hrem
          rcases hend with hnone | ⟨hact, hrem'⟩
          · exact hended (by rw [put_schedulers_self]; exact hnone)
          · exact hkept (by rw [put_schedulers_self]; exact hact) fun _ => by rw [put_schedulers_self]; exact hrem'
      · exact hother (put_schedulers_of_ne hs _ _)
  | submitted self items requests oc env x' _ _ hu =>
      obtain ⟨hclosed, hpoisoned⟩ := ensureUsable_none hu
      have hs : s ≠ self := by
        rintro rfl
        rcases hun with h | h
        · exact absurd (h.symm.trans hpoisoned) (by decide)
        · exact absurd (h.symm.trans hclosed) (by decide)
      exact hother (put_schedulers_of_ne hs _ _)
  | connected self context transitions =>
      by_cases hs : s = self
      · subst hs
        exact haside (by simp only [World.setScheduler, Function.update_self]; exact aside_connected _ _ _)
      · exact hother (Function.update_of_ne hs _ _)
  | disconnected self args env context transitions =>
      by_cases hs : s = self
      · subst hs
        exact haside (by simp only [World.setScheduler, Function.update_self]; exact aside_disconnected _ _ _)
      · exact hother (Function.update_of_ne hs _ _)
  | closed self env hopen =>
      have hcl := close_closes env hopen
      by_cases hs : s = self
      · subst hs; exact hended hcl.active
      · exact hother (hcl.others s hs)

theorem Spent.posts (hun : Unusable (w.schedulers s)) (hc : Change w₀ e w w') (h : Spent s w) :
    (w'.schedulers s).provider.posts = (w.schedulers s).provider.posts := by
  refine change_posts hun hc fun b env _ _ hd ha => ?_
  rcases h b ha with hdone | hrem
  · rw [hd] at hdone; cases hdone
  · exact (progressBody_spent (b := b) env (x := w.session s b) hrem).1

/-- A `connect` whose transitions raise, on a usable scheduler that the caller gave the QPs and whose active batch is
unfinished and has chunks left. -/
def CutsOff (s : SchedulerId) (w : World) (e : Event) : Prop :=
  ∃ args env, e = .call s (.connect args env) ∧ Injected (w.schedulers s) ∧ ¬ Unusable (w.schedulers s) ∧
    ConnectRaises (w.schedulers s) args env ∧ ¬ Spent s w

/-- A CQ that the scheduler has closed is polled without an exception, while the active batch has chunks left. -/
def ClosedAnswers (s : SchedulerId) (w : World) (e : Event) : Prop :=
  (w.schedulers s).active ≠ none ∧ (w.schedulers s).remaining ≠ [] ∧ ∃ env q wcs, e.polls w = some (s, env) ∧
    Resource.cq q ∈ (w.schedulers s).provider.closes ∧ env.poll q = .ok wcs

/-- A scheduler that has closed its CQs gets no more completions. -/
theorem Owning.posts (h : Owning (w.schedulers s)) (hun : Unusable (w.schedulers s)) (hno : ¬ ClosedAnswers s w₀ e)
    (hc : Change w₀ e w w') : (w'.schedulers s).provider.posts = (w.schedulers s).provider.posts := by
  obtain ⟨-, husable, -⟩ | ⟨-, -, hall⟩ := h
  · exact absurd hun husable
  refine change_posts hun hc fun b env hw hp _ ha => ?_
  by_cases hrem : (w.schedulers s).remaining = []
  · exact (progressBody_spent (b := b) env (x := w.session s b) hrem).1
  refine progressBody_closed fun q hq => ?_
  cases hpoll : env.poll q with
  | error err => exact ⟨err, rfl⟩
  | ok wcs =>
      refine absurd ⟨?_, ?_, env, q, wcs, hp, ?_, hpoll⟩ hno
      · rw [← hw, ha]
        exact Option.some_ne_none b
      · rwa [← hw]
      · rw [← hw, hall]
        exact List.mem_append_right _ (List.mem_map_of_mem (List.mem_reverse.mpr (List.mem_range.mpr hq)))

/-- Once it is unusable, the scheduler has closed its CQs or has nothing more to post. -/
structure Quiet (s : SchedulerId) (w : World) : Prop where
  owned : Owned s w
  ends : Owning (w.schedulers s) ∨ Injected (w.schedulers s) ∧ (Unusable (w.schedulers s) → Spent s w)

theorem spent_change (hin : Injected (w.schedulers s)) (hown : Owned s w) (hcut : ¬ CutsOff s w₀ e)
    (hc : Change w₀ e w w') (h : Unusable (w.schedulers s) → Spent s w) (hun : Unusable (w'.schedulers s)) :
    Spent s w' := by
  by_cases hbefore : Unusable (w.schedulers s)
  · exact (h hbefore).change hbefore hown hc
  · -- This change made the scheduler unusable: the batch ended, or the transitions of a `connect` raised.
    have hended : (w'.schedulers s).active = none → Spent s w' := by
      intro ha b ha'
      rw [ha] at ha'; cases ha'
    have hother : w'.schedulers s = w.schedulers s → Spent s w' := by
      intro heq
      rw [heq] at hun
      exact absurd hun hbefore
    cases hc with
    | control stack tasks => exact hother rfl
    | callbackError b error => exact hother rfl
    | failed self b error | misfired self b error =>
        by_cases hs : s = self
        · subst hs
          exact hended (by rw [put_schedulers_self]; exact (failTransport_active _ _ _).1)
        · exact hother (put_schedulers_of_ne hs _ _)
    | progressed self b env =>
        by_cases hs : s = self
        · subst hs
          have hput := put_schedulers_self w s b (progressBody env b (w.session s b)).1
          rcases progressBody_cases env b (w.session s b) with ⟨x', err, _, he⟩ | ⟨x', n, hran, _, he⟩ |
            ⟨x', n, _, _, _, he⟩
          · exact hended (by rw [hput, he]; exact (failTransport_active x' err _).1)
          · rw [hput, he] at hun
            have hw := hran.works.scheduler
            exact absurd (hun.imp (hw.poisoned.symm.trans ·) (hw.closed.symm.trans ·)) hbefore
          · exact hended (by rw [hput, he]; exact (finishSuccess_active x').1)
        · exact hother (put_schedulers_of_ne hs _ _)
    | submitted self items requests oc env x' he hi hu ha hx =>
        rcases change_touched (.submitted self items requests oc env x' he hi hu ha hx) s with
          ⟨_, _, ht⟩ | ⟨_, _, _, _, hnone | ⟨_, hnot⟩⟩
        · by_cases hs : s = self
          · subst hs
            rcases ht.active with hsame | hnone
            · exact hended (hsame.trans ha)
            · exact hended hnone
          · exact hother (put_schedulers_of_ne hs _ _)
        · exact hended hnone
        · exact absurd hun hnot
    | connected self context transitions =>
        by_cases hs : s = self
        · subst hs
          simp only [World.setScheduler, Function.update_self] at hun
          exact absurd hun hbefore
        · exact hother (Function.update_of_ne hs _ _)
    | disconnected self args env context transitions he hr =>
        by_cases hs : s = self
        · subst hs
          have hspent : Spent s w := not_not.mp fun hn => hcut ⟨args, env, he, hin, hbefore, hr, hn⟩
          have ha := aside_disconnected (w.schedulers s) context transitions
          intro b hb
          simp only [World.setScheduler, Function.update_self] at hb ⊢
          rw [ha.active] at hb
          rw [ha.posts.2]
          exact hspent b hb
        · exact hother (Function.update_of_ne hs _ _)
    | closed self env hopen =>
        have hcl := close_closes env hopen
        by_cases hs : s = self
        · subst hs; exact hended hcl.active
        · exact hother (hcl.others s hs)

theorem Quiet.change (hcut : ¬ CutsOff s w₀ e) (hc : Change w₀ e w w') (h : Quiet s w) : Quiet s w' := by
  refine ⟨h.owned.change hc, ?_⟩
  rcases h.ends with howns | ⟨hin, hspent⟩
  · exact .inl (ownership_owning.change hc s howns)
  · exact .inr ⟨ownership_injected.change hc s hin, spent_change hin h.owned hcut hc hspent⟩

theorem Quiet.initial (s : SchedulerId) (h : w.Initial) : Quiet s w := by
  obtain ⟨context, owns, hs⟩ := h.1 s
  have hnone : ∀ b, (w.schedulers s).active ≠ some b := by intro b; rw [hs]; simp
  refine ⟨fun b ha => absurd ha (hnone b), ?_⟩
  cases owns with
  | true =>
      left
      rw [hs]
      exact .inl ⟨rfl, by simp [Unusable], rfl⟩
  | false =>
      right
      refine ⟨?_, fun _ b ha => absurd ha (hnone b)⟩
      rw [hs]
      rfl

theorem Quiet.run (hi : w.Initial) (hr : (process.when fun w e => ¬ CutsOff s w e).Reaches w w') : Quiet s w' :=
  Machine.Reaches.invariant (I := Quiet s) (fun w e h (he : w.Enabled e ∧ ¬ CutsOff s w e) =>
    step_invariant (fun _ _ hc h => h.change he.2 hc) he.1 h) hr (.initial s hi)

/-- An unusable scheduler with closed CQs or nothing more to post. -/
structure Silent (s : SchedulerId) (posts : List Post) (w : World) : Prop where
  owned : Owned s w
  unusable : Unusable (w.schedulers s)
  ends : Owning (w.schedulers s) ∨ Spent s w
  posts : (w.schedulers s).provider.posts = posts

theorem Silent.change {posts : List Post} (hno : ¬ ClosedAnswers s w₀ e) (hc : Change w₀ e w w') (h : Silent s posts w) :
    Silent s posts w' := by
  obtain ⟨hp, hcl⟩ := change_flags hc s
  refine ⟨h.owned.change hc, h.unusable.imp hp hcl, ?_, ?_⟩
  · exact h.ends.imp (ownership_owning.change hc s) fun hspent => hspent.change h.unusable h.owned hc
  · rcases h.ends with howns | hspent
    · exact (howns.posts h.unusable hno hc).trans h.posts
    · exact (hspent.posts h.unusable hc).trans h.posts

/-- From then on, whatever is called, nothing is posted. -/
theorem Silent.run {posts : List Post} (h : Silent s posts w)
    (hr : (process.when fun w e => ¬ ClosedAnswers s w e).Reaches w w') : Silent s posts w' :=
  Machine.Reaches.invariant (I := Silent s posts) (fun w e h (he : w.Enabled e ∧ ¬ ClosedAnswers s w e) =>
    step_invariant (fun _ _ hc h => h.change he.2 hc) he.1 h) hr h

end Rdma4py.ReadScheduler
