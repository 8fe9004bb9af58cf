import Rdma4py.ReadScheduler.Lemmas.Changes

/-!
# What the changes leave alone
-/

namespace Rdma4py.ReadScheduler

open Rdma4py.Lib

variable {b : BatchId} {s s' : Scheduler} {batch batch' : Batch} {x x' : Session}

/-! ## Schedulers -/

/-- What every change leaves alone in a scheduler, when it works for no batch but `b`. Flags are only set. -/
structure Touched (b : BatchId) (s s' : Scheduler) : Prop where
  config : s'.config = s.config
  active : s'.active = s.active ∨ s'.active = none
  closed : s.closed = true → s'.closed = true
  poisoned : s.poisoned = true → s'.poisoned = true
  posted : ∀ b' ≠ b, s'.provider.postedFor b' = s.provider.postedFor b'
  completed : ∀ b' ≠ b, s'.provider.completedFor b' = s.provider.completedFor b'

theorem Touched.refl (b : BatchId) (s : Scheduler) : Touched b s s :=
  ⟨rfl, .inl rfl, id, id, fun _ _ => rfl, fun _ _ => rfl⟩

theorem Touched.trans {s'' : Scheduler} (h : Touched b s s') (h' : Touched b s' s'') : Touched b s s'' where
  config := h'.config.trans h.config
  active := by
    rcases h'.active with ha | ha
    · rw [ha]; exact h.active
    · exact .inr ha
  closed hc := h'.closed (h.closed hc)
  poisoned hp := h'.poisoned (h.poisoned hp)
  posted b' hb := (h'.posted b' hb).trans (h.posted b' hb)
  completed b' hb := (h'.completed b' hb).trans (h.completed b' hb)

theorem WorksFor.touched (h : WorksFor b s s') : Touched b s s' :=
  ⟨h.config, .inl h.active, fun hc => h.closed.trans hc, fun hp => h.poisoned.trans hp, h.posted, h.completed⟩

theorem failTransport_touched (x : Session) (error : Exn) (message : Option String) :
    Touched b x.scheduler (failTransport x error message).scheduler := by
  obtain ⟨_, _, closed, hc, he⟩ := failTransport_scheduler x error message
  rw [he]
  exact ⟨rfl, .inr rfl, hc, fun _ => rfl, fun _ _ => rfl, fun _ _ => rfl⟩

theorem failTransport_active (x : Session) (error : Exn) (message : Option String) :
    (failTransport x error message).scheduler.active = none ∧
      (failTransport x error message).scheduler.poisoned = true := by
  obtain ⟨_, _, _, _, he⟩ := failTransport_scheduler x error message
  rw [he]
  exact ⟨rfl, rfl⟩

theorem failTransport_posts (x : Session) (error : Exn) (message : Option String) :
    (failTransport x error message).scheduler.provider.posts = x.scheduler.provider.posts := by
  obtain ⟨_, _, _, _, he⟩ := failTransport_scheduler x error message
  rw [he]

theorem finishSuccess_touched (x : Session) : Touched b x.scheduler (finishSuccess x).1.scheduler := by
  obtain ⟨_, he⟩ := finishSuccess_eq x
  rw [he]
  exact ⟨rfl, .inr rfl, id, id, fun _ _ => rfl, fun _ _ => rfl⟩

theorem finishSuccess_active (x : Session) :
    (finishSuccess x).1.scheduler.active = none ∧ (finishSuccess x).1.batch.done = true := by
  obtain ⟨_, he⟩ := finishSuccess_eq x
  rw [he]
  exact ⟨rfl, rfl⟩

/-- A change to what the pipeline does not look at. -/
def Aside (s s' : Scheduler) : Prop :=
  ∃ context owns closed poisoned transitions closes,
    (s.closed = true → closed = true) ∧ (s.poisoned = true → poisoned = true) ∧
    s' = { s with hasContext := context, ownsResources := owns, closed := closed, poisoned := poisoned
                  provider := { s.provider with transitions := transitions, closes := closes } }

theorem Aside.touched (h : Aside s s') : Touched b s s' := by
  obtain ⟨_, _, _, _, _, _, hc, hp, rfl⟩ := h
  exact ⟨rfl, .inl rfl, hc, hp, fun _ _ => rfl, fun _ _ => rfl⟩

theorem Aside.active (h : Aside s s') : s'.active = s.active := by
  obtain ⟨_, _, _, _, _, _, _, _, rfl⟩ := h; rfl

theorem Aside.posts (h : Aside s s') : s'.provider.posts = s.provider.posts ∧ s'.remaining = s.remaining := by
  obtain ⟨_, _, _, _, _, _, _, _, rfl⟩ := h; exact ⟨rfl, rfl⟩

theorem Aside.pipeline (h : Aside s s') (hp : Pipeline s b batch) : Pipeline s' b batch := by
  obtain ⟨_, _, _, _, _, _, _, _, rfl⟩ := h
  obtain ⟨hacc, hd, hc, hm, hn, hb⟩ := hp
  exact ⟨⟨hacc.next_range, hacc.key_range, hacc.qp_lt, hacc.count, hacc.depth, hacc.inflight⟩, hd, hc, hm, hn, hb⟩

theorem Aside.flowing (h : Aside s s') (hf : Flowing s) : Flowing s' := by
  obtain ⟨_, _, _, _, _, _, _, _, rfl⟩ := h
  exact ⟨hf.full, hf.pending⟩

theorem Aside.idle (h : Aside s s') (hi : Idle s) : Idle s' := by
  obtain ⟨_, _, _, _, _, _, _, _, rfl⟩ := h
  have hacc := hi.accounts
  exact ⟨⟨hacc.next_range, hacc.key_range, hacc.qp_lt, hacc.count, hacc.depth, hacc.inflight⟩, hi.pending⟩

theorem aside_connected (s : Scheduler) (context : Bool) (transitions : List Transition) :
    Aside s { s with hasContext := context, provider := { s.provider with transitions := transitions } } :=
  ⟨_, s.ownsResources, s.closed, s.poisoned, _, s.provider.closes, id, id, rfl⟩

theorem aside_disconnected (s : Scheduler) (context : Bool) (transitions : List Transition) :
    Aside s (poisonResources
      { s with hasContext := context, provider := { s.provider with transitions := transitions } }) := by
  obtain ⟨owns, closes, closed, hc, he⟩ := poisonResources_eq
    { s with hasContext := context, provider := { s.provider with transitions := transitions } }
  rw [he]
  exact ⟨context, owns, closed, true, transitions, closes, hc, fun _ => rfl, rfl⟩

/-! ## Batches -/

/-- A change to a batch that the pipeline does not look at. An error stays, and so does the end of the batch. -/
structure Ends (batch batch' : Batch) : Prop where
  scheduler : batch'.scheduler = batch.scheduler
  requests : batch'.requests = batch.requests
  totalBytes : batch'.totalBytes = batch.totalBytes
  totalChunks : batch'.totalChunks = batch.totalChunks
  completedBytes : batch'.completedBytes = batch.completedBytes
  completedChunks : batch'.completedChunks = batch.completedChunks
  onComplete : batch'.onComplete = batch.onComplete
  callbackCalled : batch'.callbackCalled = batch.callbackCalled
  done : batch.done = true → batch'.done = true
  error : batch' = batch ∨ batch'.error ≠ none

theorem Ends.refl (batch : Batch) : Ends batch batch := ⟨rfl, rfl, rfl, rfl, rfl, rfl, rfl, rfl, id, .inl rfl⟩

theorem Ends.pipeline (h : Ends batch batch') (hp : Pipeline s b batch) : Pipeline s b batch' := by
  refine ⟨hp.accounts, hp.drained, ?_, hp.matched, ?_, ?_⟩
  · rw [h.requests]; exact hp.covered
  · rw [h.requests, h.completedChunks]; exact hp.counted
  · rw [h.completedBytes, h.totalBytes]; exact hp.bytes

theorem failTransport_ends (x : Session) (error : Exn) (message : Option String) :
    Ends x.batch (failTransport x error message).batch :=
  ⟨rfl, rfl, rfl, rfl, rfl, rfl, rfl, rfl, fun _ => rfl, .inr (by simp [failTransport])⟩

theorem failTransport_batch (x : Session) (error : Exn) (message : Option String) :
    (failTransport x error message).batch.done = true ∧ (failTransport x error message).batch.error ≠ none :=
  ⟨rfl, by simp [failTransport]⟩

/-! ## Batches that were delivered -/

theorem Delivered.touched {b' : BatchId} (h : Delivered s b' batch) (ht : Touched b s s') (hb : b' ≠ b) :
    Delivered s' b' batch := by
  refine ⟨?_, ?_, ?_, h.bytes⟩
  · rw [ht.posted b' hb, ht.config]; exact h.covered
  · rw [ht.posted b' hb, ht.completed b' hb]; exact h.completed
  · rw [ht.config]; exact h.counted

/-! ## Worlds -/

theorem put_schedulers (w : World) (self s : SchedulerId) (b : BatchId) (x : Session) :
    (w.put self b x).schedulers s = if s = self then x.scheduler else w.schedulers s := by
  simp only [World.put, Function.update_apply]

theorem put_batches (w : World) (self : SchedulerId) (b b' : BatchId) (x : Session) :
    (w.put self b x).batches b' = if b' = b then x.batch else w.batches b' := by
  simp only [World.put, Function.update_apply]

theorem put_schedulers_of_ne {w : World} {self s : SchedulerId} (h : s ≠ self) (b : BatchId) (x : Session) :
    (w.put self b x).schedulers s = w.schedulers s := by
  rw [put_schedulers, if_neg h]

theorem put_batches_of_ne {w : World} {b b' : BatchId} (h : b' ≠ b) (self : SchedulerId) (x : Session) :
    (w.put self b x).batches b' = w.batches b' := by
  rw [put_batches, if_neg h]

@[simp] theorem put_nextBatch (w : World) (self : SchedulerId) (b : BatchId) (x : Session) :
    (w.put self b x).nextBatch = w.nextBatch := rfl

/-- What `close` makes of a world, on a scheduler that was not closed. -/
structure Closes (w : World) (s : SchedulerId) (w' : World) : Prop where
  nextBatch : w'.nextBatch = w.nextBatch
  others : ∀ s' ≠ s, w'.schedulers s' = w.schedulers s'
  active : (w'.schedulers s).active = none
  closed : (w'.schedulers s).closed = true
  posts : (w'.schedulers s).provider.posts = (w.schedulers s).provider.posts
  touched : ∀ b, Touched b (w.schedulers s) (w'.schedulers s)
  ends : ∀ b, Ends (w.batches b) (w'.batches b)
  done : ∀ b, (w.schedulers s).active = some b → (w'.batches b).done = true
  same : ∀ b, (w.schedulers s).active ≠ some b → w'.batches b = w.batches b

theorem close_closes {w : World} {self : SchedulerId} (env : Resource → Option Exn)
    (hc : (w.schedulers self).closed = false) : Closes w self (close w self env).1 := by
  obtain ⟨owns, closes, he⟩ := closeOwned_eq env { w.schedulers self with
    active := none, pending := ∅, outstanding := fun _ => 0, closed := true }
  have hsch : (close w self env).1.schedulers = Function.update w.schedulers self { w.schedulers self with
      active := none, pending := ∅, outstanding := fun _ => 0, closed := true, ownsResources := owns
      provider := { (w.schedulers self).provider with closes := closes } } := by
    simp only [close, hc, Bool.false_eq_true, if_false, World.setScheduler, he]
    cases (w.schedulers self).active with
    | none => rfl
    | some a => simp only; split <;> rfl
  have hnext : (close w self env).1.nextBatch = w.nextBatch := by
    simp only [close, hc, Bool.false_eq_true, if_false, World.setScheduler]
    cases (w.schedulers self).active with
    | none => rfl
    | some a => simp only; split <;> rfl
  have hself : (close w self env).1.schedulers self = { w.schedulers self with
      active := none, pending := ∅, outstanding := fun _ => 0, closed := true, ownsResources := owns
      provider := { (w.schedulers self).provider with closes := closes } } := by
    rw [hsch, Function.update_self]
  have hbatch : ∀ b, Ends (w.batches b) ((close w self env).1.batches b) ∧
      ((w.schedulers self).active = some b → ((close w self env).1.batches b).done = true) ∧
      ((w.schedulers self).active ≠ some b → (close w self env).1.batches b = w.batches b) := by
    intro b
    simp only [close, hc, Bool.false_eq_true, if_false, World.setScheduler]
    cases ha : (w.schedulers self).active with
    | none => exact ⟨.refl _, by simp, fun _ => rfl⟩
    | some a =>
        simp only
        split
        · next hd =>
            refine ⟨.refl _, fun h => ?_, fun _ => rfl⟩
            cases h
            exact hd
        · by_cases hb : b = a
          · subst hb
            simp only [Function.update_self]
            exact ⟨⟨rfl, rfl, rfl, rfl, rfl, rfl, rfl, rfl, fun _ => rfl, .inr (by simp)⟩, fun _ => trivial, fun h => absurd rfl h⟩
          · simp only [Function.update_of_ne hb]
            exact ⟨.refl _, fun h => absurd (Option.some.inj h).symm hb, fun _ => trivial⟩
  exact
    { nextBatch := hnext
      others := fun s hs => by rw [hsch, Function.update_of_ne hs]
      active := by rw [hself]
      closed := by rw [hself]
      posts := by rw [hself]
      touched := fun b => by rw [hself]; exact ⟨rfl, .inr rfl, fun _ => rfl, id, fun _ _ => rfl, fun _ _ => rfl⟩
      ends := fun b => (hbatch b).1
      done := fun b => (hbatch b).2.1
      same := fun b => (hbatch b).2.2 }

/-! ## What a change does to the flags and the active batch -/

/-- The scheduler is poisoned or closed. -/
def Unusable (s : Scheduler) : Prop := s.poisoned = true ∨ s.closed = true

variable {w w' w₀ : World} {e : Event}

theorem progressBody_touched (env : ProgressEnv) (b : BatchId) (x : Session) :
    Touched b x.scheduler (progressBody env b x).1.scheduler := by
  rcases progressBody_cases env b x with ⟨x', err, hw, he⟩ | ⟨x', n, hran, _, he⟩ | ⟨x', n, hran, _, _, he⟩ <;> rw [he]
  · exact hw.scheduler.touched.trans (failTransport_touched x' err _)
  · exact hran.works.scheduler.touched
  · exact hran.works.scheduler.touched.trans (finishSuccess_touched x')

/-- A change leaves a scheduler's flags and its active batch alone, or sets a flag or ends the batch, or starts a batch on
a usable scheduler. -/
theorem change_touched (hc : Change w₀ e w w') (s : SchedulerId) :
    (w.nextBatch ≤ w'.nextBatch ∧ ∃ b, Touched b (w.schedulers s) (w'.schedulers s)) ∨
    ((w.schedulers s).closed = false ∧ (w.schedulers s).poisoned = false ∧ w'.nextBatch = w.nextBatch + 1 ∧
      (w'.schedulers s).config = (w.schedulers s).config ∧
      ((w'.schedulers s).active = none ∨
        (w'.schedulers s).active = some w.nextBatch ∧ ¬ Unusable (w'.schedulers s))) := by
  have hput : ∀ (self : SchedulerId) (b : BatchId) (x : Session), Touched b (w.schedulers self) x.scheduler →
      ∃ b, Touched b (w.schedulers s) ((w.put self b x).schedulers s) := by
    intro self b x ht
    by_cases hs : s = self
    · subst hs; exact ⟨b, by rw [put_schedulers_self]; exact ht⟩
    · exact ⟨b, by rw [put_schedulers_of_ne hs]; exact .refl b _⟩
  have hset : ∀ (self : SchedulerId) (s' : Scheduler), Aside (w.schedulers self) s' →
      ∃ b, Touched b (w.schedulers s) ((w.setScheduler self s').schedulers s) := by
    intro self s' ha
    simp only [World.setScheduler, Function.update_apply]
    split
    · next hs => subst hs; exact ⟨0, ha.touched⟩
    · exact ⟨0, .refl 0 _⟩
  cases hc with
  | control stack tasks => exact Or.inl ⟨Nat.le_refl _, 0, .refl 0 _⟩
  | callbackError b error => exact Or.inl ⟨Nat.le_refl _, 0, .refl 0 _⟩
  | failed self b error =>
      exact Or.inl ⟨Nat.le_refl _, hput self b _ (failTransport_touched (w.session self b) error none)⟩
  | misfired self b error =>
      exact Or.inl ⟨Nat.le_refl _, hput self b _ (failTransport_touched (w.session self b) error none)⟩
  | progressed self b env => exact Or.inl ⟨Nat.le_refl _, hput self b _ (progressBody_touched env b (w.session self b))⟩
  | submitted self items requests oc env x' _ _ hu _ hx =>
      by_cases hs : s = self
      · subst hs
        obtain ⟨hclosed, hpoisoned⟩ := ensureUsable_none hu
        refine Or.inr ⟨hclosed, hpoisoned, rfl, ?_⟩
        rw [put_schedulers_self]
        have hw := refill_worksFor env w.nextBatch ((w.schedulers s).start s w.nextBatch requests oc).scheduler
        rcases hx with ⟨_, rfl⟩ | ⟨_, s', hr, rfl⟩ | ⟨_, s', err, hr, rfl⟩
        · exact ⟨(finishSuccess_touched (b := 0) _).config, Or.inl (finishSuccess_active _).1⟩
        · rw [hr] at hw
          refine ⟨hw.config, Or.inr ⟨hw.active, ?_⟩⟩
          rintro (h | h)
          · rw [hw.poisoned] at h
            exact absurd (h.symm.trans hpoisoned) (by decide)
          · rw [hw.closed] at h
            exact absurd (h.symm.trans hclosed) (by decide)
        · rw [hr] at hw
          exact ⟨(failTransport_touched (b := 0) _ _ _).config.trans hw.config, Or.inl (failTransport_active _ _ _).1⟩
      · have hsame := put_schedulers_of_ne (w := { w with nextBatch := w.nextBatch + 1 }) hs w.nextBatch x'
        rw [hsame]
        exact Or.inl ⟨Nat.le_succ _, 0, .refl 0 _⟩
  | connected self context transitions => exact Or.inl ⟨Nat.le_refl _, hset self _ (aside_connected _ _ _)⟩
  | disconnected self args env context transitions =>
      exact Or.inl ⟨Nat.le_refl _, hset self _ (aside_disconnected _ _ _)⟩
  | closed self env hopen =>
      have hcl := close_closes env hopen
      refine Or.inl ⟨Nat.le_of_eq hcl.nextBatch.symm, 0, ?_⟩
      by_cases hs : s = self
      · subst hs; exact hcl.touched 0
      · rw [hcl.others s hs]; exact .refl 0 _

theorem change_config (hc : Change w₀ e w w') (s : SchedulerId) :
    (w'.schedulers s).config = (w.schedulers s).config := by
  rcases change_touched hc s with ⟨_, _, ht⟩ | ⟨_, _, _, hcfg, _⟩
  · exact ht.config
  · exact hcfg

end Rdma4py.ReadScheduler
