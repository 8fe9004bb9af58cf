import Rdma4py.ReadScheduler.Lemmas.Frames

/-!
# Active and unfinished batches

As long as nobody waits on a scheduler for an unfinished batch that is not active there, the unfinished batches are
the active ones.
-/

namespace Rdma4py.ReadScheduler

open Rdma4py.Lib

variable {s self : SchedulerId} {b : BatchId} {w w' w₀ : World} {e : Event}

/-! ## The invariant -/

/-- A scheduler's active batch is its own and unfinished, and every unfinished batch is active. -/
structure Orderly (w : World) : Prop where
  active : ∀ s b, (w.schedulers s).active = some b →
    b < w.nextBatch ∧ (w.batches b).scheduler = s ∧ (w.batches b).done = false
  unfinished : ∀ b < w.nextBatch, (w.batches b).done = false →
    (w.schedulers (w.batches b).scheduler).active = some b

theorem Orderly.kept (h : Orderly w) (hn : w'.nextBatch = w.nextBatch)
    (hs : ∀ s, (w'.schedulers s).active = (w.schedulers s).active)
    (hb : ∀ b, (w'.batches b).scheduler = (w.batches b).scheduler ∧ (w'.batches b).done = (w.batches b).done) :
    Orderly w' where
  active s b ha := by
    rw [hs] at ha
    rw [hn, (hb b).1, (hb b).2]
    exact h.active s b ha
  unfinished b hlt hd := by
    rw [hn] at hlt
    rw [(hb b).2] at hd
    rw [hs, (hb b).1]
    exact h.unfinished b hlt hd

/-- A scheduler and its active batch part. -/
theorem Orderly.parted (h : Orderly w) (ha : (w.schedulers s).active = some b) (hn : w'.nextBatch = w.nextBatch)
    (hs : ∀ s' ≠ s, w'.schedulers s' = w.schedulers s') (hb : ∀ b' ≠ b, w'.batches b' = w.batches b')
    (hnone : (w'.schedulers s).active = none) (hdone : (w'.batches b).done = true) : Orderly w' where
  active s' b' ha' := by
    by_cases hss : s' = s
    · rw [hss, hnone] at ha'; cases ha'
    · rw [hs s' hss] at ha'
      obtain ⟨hlt, hsch, hd⟩ := h.active s' b' ha'
      have hbb : b' ≠ b := by
        rintro rfl
        exact hss (hsch.symm.trans (h.active s b' ha).2.1)
      rw [hn, hb b' hbb]
      exact ⟨hlt, hsch, hd⟩
  unfinished b' hlt hd := by
    by_cases hbb : b' = b
    · rw [hbb, hdone] at hd; cases hd
    · rw [hn] at hlt
      rw [hb b' hbb] at hd ⊢
      have ha' := h.unfinished b' hlt hd
      by_cases hss : (w.batches b').scheduler = s
      · rw [hss, ha] at ha'
        exact absurd (Option.some.inj ha').symm hbb
      · rw [hs _ hss]; exact ha'

theorem Orderly.put_parted (h : Orderly w) (ha : (w.schedulers s).active = some b) (x : Session)
    (hnone : x.scheduler.active = none) (hdone : x.batch.done = true) : Orderly (w.put s b x) :=
  h.parted ha rfl (fun _ hs => put_schedulers_of_ne hs _ _) (fun _ hb => put_batches_of_ne hb _ _)
    (by rw [put_schedulers_self]; exact hnone) (by rw [put_batches_self]; exact hdone)

theorem Orderly.progressed (h : Orderly w) (env : ProgressEnv) (ha : (w.schedulers s).active = some b) :
    Orderly (w.put s b (progressBody env b (w.session s b)).1) := by
  rcases progressBody_cases env b (w.session s b) with ⟨x', err, hw, he⟩ | ⟨x', n, hran, _, he⟩ |
    ⟨x', n, _, _, _, he⟩ <;> rw [he]
  · exact h.put_parted ha _ (failTransport_active _ _ _).1 rfl
  · obtain ⟨_, _, hbatch⟩ := hran.works.batch
    refine h.kept rfl (fun s' => ?_) fun b' => ?_
    · by_cases hs : s' = s
      · subst hs; rw [put_schedulers_self]; exact hran.works.scheduler.active
      · rw [put_schedulers_of_ne hs]
    · by_cases hb : b' = b
      · subst hb; rw [put_batches_self, hbatch]; exact ⟨rfl, rfl⟩
      · rw [put_batches_of_ne hb]; exact ⟨rfl, rfl⟩
  · exact h.put_parted ha _ (finishSuccess_active x').1 (finishSuccess_active x').2

theorem Orderly.submitted (h : Orderly w) (requests : List RdmaReadRequest) (oc : OnComplete)
    (env : RefillEnv) (x' : Session) (ha : (w.schedulers s).active = none)
    (hx : SubmitEnds env w.nextBatch ((w.schedulers s).start s w.nextBatch requests oc) x'
      (totalChunks (w.schedulers s).config.chunkSize requests)) :
    Orderly ({ w with nextBatch := w.nextBatch + 1 }.put s w.nextBatch x') := by
  have hends : x'.batch.scheduler = s ∧ ((x'.scheduler.active = none ∧ x'.batch.done = true) ∨
      (x'.scheduler.active = some w.nextBatch ∧ x'.batch.done = false)) := by
    rcases hx with ⟨_, rfl⟩ | ⟨_, s', hr, rfl⟩ | ⟨_, s', err, _, rfl⟩
    · obtain ⟨_, hf⟩ := finishSuccess_eq ((w.schedulers s).start s w.nextBatch requests oc)
      rw [hf]
      exact ⟨rfl, Or.inl ⟨rfl, rfl⟩⟩
    · have hw := refill_worksFor env w.nextBatch ((w.schedulers s).start s w.nextBatch requests oc).scheduler
      rw [hr] at hw
      exact ⟨rfl, Or.inr ⟨hw.active, rfl⟩⟩
    · exact ⟨rfl, Or.inl ⟨(failTransport_active _ _ _).1, rfl⟩⟩
  obtain ⟨hsch, hends⟩ := hends
  have hsame : ∀ s' ≠ s, ({ w with nextBatch := w.nextBatch + 1 }.put s w.nextBatch x').schedulers s' =
      w.schedulers s' := fun s' hs => put_schedulers_of_ne hs _ _
  refine ⟨fun s' b' ha' => ?_, fun b' hlt hd => ?_⟩
  · by_cases hs : s' = s
    · subst hs
      rw [put_schedulers_self] at ha'
      rcases hends with ⟨hnone, _⟩ | ⟨hsome, hd⟩
      · rw [hnone] at ha'; cases ha'
      · rw [hsome] at ha'
        obtain rfl := Option.some.inj ha'
        rw [put_batches_self]
        exact ⟨Nat.lt_succ_self _, hsch, hd⟩
    · rw [hsame s' hs] at ha'
      obtain ⟨hlt, hrest⟩ := h.active s' b' ha'
      rw [put_batches_of_ne (Nat.ne_of_lt hlt)]
      exact ⟨Nat.lt_succ_of_lt hlt, hrest⟩
  · by_cases hb : b' = w.nextBatch
    · subst hb
      rw [put_batches_self] at hd ⊢
      rcases hends with ⟨_, hdone⟩ | ⟨hsome, _⟩
      · rw [hdone] at hd; cases hd
      · rw [hsch, put_schedulers_self]; exact hsome
    · have hlt' : b' < w.nextBatch := Nat.lt_of_le_of_ne (Nat.le_of_lt_succ hlt) hb
      rw [put_batches_of_ne hb] at hd ⊢
      have ha' : (w.schedulers (w.batches b').scheduler).active = some b' := h.unfinished b' hlt' hd
      by_cases hs : (w.batches b').scheduler = s
      · rw [hs, ha] at ha'; cases ha'
      · exact (congrArg Scheduler.active (hsame _ hs)).trans ha'

/-- Every change but a misfire keeps the batches in order. -/
theorem Orderly.change (hm : ¬ Misfires w₀ e) (hc : Change w₀ e w w') (h : Orderly w) : Orderly w' := by
  cases hc with
  | control stack tasks => exact ⟨h.active, h.unfinished⟩
  | callbackError b error =>
      refine h.kept rfl (fun _ => rfl) fun b' => ?_
      simp only [Function.update_apply]
      split
      · next hb => subst hb; exact ⟨rfl, rfl⟩
      · exact ⟨rfl, rfl⟩
  | failed self b error _ ha => exact h.put_parted ha _ (failTransport_active _ _ _).1 rfl
  | misfired self b error _ _ hm' => exact absurd hm' hm
  | progressed self b env _ _ _ _ ha => exact h.progressed env ha
  | submitted self items requests oc env x' _ _ _ ha hx => exact h.submitted requests oc env x' ha hx
  | connected self context transitions =>
      refine h.kept rfl (fun s' => ?_) fun _ => ⟨rfl, rfl⟩
      simp only [World.setScheduler, Function.update_apply]
      split
      · next hs => subst hs; rfl
      · rfl
  | disconnected self args env context transitions =>
      refine h.kept rfl (fun s' => ?_) fun _ => ⟨rfl, rfl⟩
      simp only [World.setScheduler, Function.update_apply]
      split
      · next hs => subst hs; exact (aside_disconnected _ _ _).active
      · rfl
  | closed self env hopen =>
      have hcl := close_closes env hopen
      cases ha : (w.schedulers self).active with
      | none =>
          refine h.kept hcl.nextBatch (fun s' => ?_) fun b => ?_
          · by_cases hs : s' = self
            · subst hs; rw [hcl.active, ha]
            · rw [hcl.others s' hs]
          · rw [hcl.same b (by simp [ha])]; exact ⟨rfl, rfl⟩
      | some a =>
          refine h.parted ha hcl.nextBatch hcl.others (fun b hb => hcl.same b ?_) hcl.active (hcl.done a ha)
          rw [ha]
          exact fun h => hb (Option.some.inj h).symm

/-! ## The waits in progress -/

/-- The waits that may go on later: suspended tasks, and those on the stack. -/
def World.waiters (w : World) : List Waiter :=
  w.tasks ++ w.stack.filterMap fun f => match f with
    | .wait wt => some wt
    | .callback _ _ => none

/-- A wait that validated its batch. -/
def Validated (w : World) (wt : Waiter) : Prop := wt.batch < w.nextBatch ∧ (w.batches wt.batch).scheduler = wt.scheduler

theorem waitHandler_control (w : World) (wt : Waiter) (error : Exn) :
    (waitHandler w wt error).1.stack = w.stack ∧ (waitHandler w wt error).1.tasks = w.tasks := by
  unfold waitHandler
  split <;> exact ⟨rfl, rfl⟩

theorem waitTail_control (w : World) (wt : Waiter) (n : Nat) (clock : Except Exn Int) (sleep : Option Exn) :
    (waitTail w wt n clock sleep).1.stack = w.stack ∧ (waitTail w wt n clock sleep).1.tasks = w.tasks := by
  have hsleep : (waitSleep w wt n sleep).1.stack = w.stack ∧ (waitSleep w wt n sleep).1.tasks = w.tasks := by
    unfold waitSleep
    split
    · split
      · exact waitHandler_control w wt _
      · exact ⟨rfl, rfl⟩
    · exact ⟨rfl, rfl⟩
  unfold waitTail
  split
  · exact hsleep
  · split
    · exact waitHandler_control w wt _
    · split
      · exact ⟨rfl, rfl⟩
      · exact hsleep

/-- An iteration of a wait leaves the stack and the tasks alone; one that goes on has validated the batch. -/
theorem waitIteration_control (w : World) (wt : Waiter) (env : WaitEnv) :
    (waitIteration w wt env).1.stack = w.stack ∧ (waitIteration w wt env).1.tasks = w.tasks ∧
      ((waitIteration w wt env).2 = .again → (w.batches wt.batch).scheduler = wt.scheduler) := by
  unfold waitIteration
  split
  · exact ⟨rfl, rfl, by simp⟩
  · next hd =>
      rcases progress_cases w wt.scheduler wt.batch env.progress with ⟨error, he, _⟩ | ⟨_, hd'⟩ | ⟨_, hs, _, he⟩
      · rw [he]
        obtain ⟨hst, ht⟩ := waitHandler_control w wt error
        exact ⟨hst, ht, by simp⟩
      · exact absurd hd' hd
      · rw [he]
        cases hr : (progressBody env.progress wt.batch (w.session wt.scheduler wt.batch)).2 with
        | raised error =>
            obtain ⟨hst, ht⟩ := waitHandler_control (w.put wt.scheduler wt.batch
              (progressBody env.progress wt.batch (w.session wt.scheduler wt.batch)).1) wt error
            exact ⟨hst, ht, by simp⟩
        | returned n =>
            simp only
            split
            · exact ⟨rfl, rfl, fun _ => hs⟩
            · obtain ⟨hst, ht⟩ := waitTail_control (w.put wt.scheduler wt.batch
                (progressBody env.progress wt.batch (w.session wt.scheduler wt.batch)).1) wt n env.clock env.sleep
              exact ⟨hst, ht, fun _ => hs⟩
        | callback n => exact ⟨rfl, rfl, fun _ => hs⟩

/-- A stretch of a wait adds at most the wait itself to the waits in progress, and then its batch is validated. -/
theorem waitStretch_waiters {wt wt' : Waiter} {env : WaitEnv} (h : wt' ∈ (waitStretch w wt env).1.waiters) :
    wt' ∈ w.waiters ∨ (wt' = wt ∧ (w.batches wt.batch).scheduler = wt.scheduler) := by
  obtain ⟨hst, ht, hagain⟩ := waitIteration_control w wt env
  unfold waitStretch at h
  rcases hr : waitIteration w wt env with ⟨w₁, o | _ | _⟩ <;> rw [hr] at h hst ht hagain <;> simp only at hst ht h
  · left; simpa [World.waiters, hst, ht] using h
  · left; simpa [World.waiters, World.push, hst, ht] using h
  · rcases List.mem_append.mp h with h | h
    · left; exact List.mem_append_left _ (ht ▸ h)
    · rw [World.push, List.filterMap_cons] at h
      rcases List.mem_cons.mp h with rfl | h
      · exact Or.inr ⟨rfl, hagain rfl⟩
      · left; exact List.mem_append_right _ (hst ▸ h)

theorem waitAsyncStretch_waiters {wt wt' : Waiter} {env : WaitEnv} (h : wt' ∈ (waitAsyncStretch w wt env).1.waiters) :
    wt' ∈ w.waiters ∨ (wt' = wt ∧ (w.batches wt.batch).scheduler = wt.scheduler) := by
  obtain ⟨hst, ht, hagain⟩ := waitIteration_control w wt { env with sleep := none }
  unfold waitAsyncStretch at h
  rcases hr : waitIteration w wt { env with sleep := none } with ⟨w₁, o | _ | _⟩ <;> rw [hr] at h hst ht hagain <;>
    simp only at hst ht h
  · left; simpa [World.waiters, hst, ht] using h
  · left; simpa [World.waiters, World.push, hst, ht] using h
  · rcases List.mem_append.mp h with h | h
    · rcases List.mem_append.mp h with h | h
      · left; exact List.mem_append_left _ (ht ▸ h)
      · exact Or.inr ⟨List.mem_singleton.mp h, hagain rfl⟩
    · left; exact List.mem_append_right _ (hst ▸ h)

theorem waiters_push_callback (w : World) (b : BatchId) (caller : Caller) :
    (w.push (.callback b caller)).waiters = w.waiters := by
  simp [World.waiters, World.push]

theorem connect_waiters (w : World) (self : SchedulerId) (args : ConnectArgs) (env : ConnectEnv) :
    (connect w self args env).1.waiters = w.waiters := by
  unfold connect
  simp only
  split
  · rfl
  · split
    · rfl
    · split
      · rfl
      · split
        · rfl
        · split
          · rfl
          · split
            · rfl
            · split <;> rfl

theorem submit_waiters (w : World) (self : SchedulerId) (items : List (Option RdmaReadRequest)) (oc : OnComplete)
    (env : RefillEnv) : (submit w self items oc env).1.waiters = w.waiters := by
  unfold submit
  simp only
  split
  · rfl
  · split
    · rfl
    · split
      · rfl
      · split
        · rfl
        · split
          · split
            · exact waiters_push_callback _ _ _
            · rfl
          · split <;> rfl

theorem close_waiters (w : World) (self : SchedulerId) (env : Resource → Option Exn) :
    (close w self env).1.waiters = w.waiters := by
  unfold close
  simp only
  split
  · rfl
  · split
    · rfl
    · split <;> rfl

/-- The waits in progress after a call were in progress before, or have validated their batch. -/
theorem call_waiters {c : Call} (hen : w.Enabled (.call self c)) {wt : Waiter}
    (h : wt ∈ (w.call self c).1.waiters) : wt ∈ w.waiters ∨ Validated w wt := by
  obtain ⟨_, hb, _⟩ := hen
  cases c with
  | localInfos psns env => rw [World.call, localInfos_world] at h; exact Or.inl h
  | connect args env => rw [World.call, connect_waiters] at h; exact Or.inl h
  | submit items oc env => rw [World.call, submit_waiters] at h; exact Or.inl h
  | close env => rw [World.call, close_waiters] at h; exact Or.inl h
  | progress b env =>
      left
      rw [World.call] at h
      rcases progress_cases w self b env with ⟨error, hr, _⟩ | ⟨hr, _⟩ | ⟨_, _, _, hr⟩ <;> rw [hr] at h
      · exact h
      · exact h
      · cases hp : (progressBody env b (w.session self b)).2 with
        | raised error => simp only [hp] at h; exact h
        | returned n => simp only [hp] at h; exact h
        | callback n => simp only [hp] at h; rwa [waiters_push_callback] at h
  | wait b timeout idleSleep start env =>
      rw [World.call] at h
      split at h
      · exact Or.inl h
      · next wt' hset =>
          refine (waitStretch_waiters h).imp_right ?_
          rintro ⟨rfl, hs⟩
          obtain ⟨_, rfl⟩ := waitSetup_ok hset
          exact ⟨hb _ rfl, hs⟩
  | waitAsync b timeout idleSleep start env =>
      rw [World.call] at h
      split at h
      · exact Or.inl h
      · next wt' hset =>
          refine (waitAsyncStretch_waiters h).imp_right ?_
          rintro ⟨rfl, hs⟩
          obtain ⟨_, rfl⟩ := waitSetup_ok hset
          exact ⟨hb _ rfl, hs⟩

theorem task_mem {i : Nat} (hi : i < w.tasks.length) : w.task i ∈ w.waiters := by
  refine List.mem_append_left _ ?_
  rw [World.task, List.getD_eq_getElem?_getD, List.getElem?_eq_getElem hi]
  exact List.getElem_mem hi

theorem step_waiters (hen : w.Enabled e) {wt : Waiter} (h : wt ∈ (w.step e).1.waiters) :
    wt ∈ w.waiters ∨ Validated w wt := by
  have herase : ∀ i, wt ∈ ({ w with tasks := w.tasks.eraseIdx i } : World).waiters → wt ∈ w.waiters := by
    intro i hmem
    refine (List.mem_append.mp hmem).elim (fun hmem => ?_) (List.mem_append_right _)
    exact List.mem_append_left _ (List.mem_of_mem_eraseIdx hmem)
  cases e with
  | call self c => exact call_waiters hen h
  | iterate env =>
      obtain ⟨wt', rest, hst⟩ := hen
      have hpop : ∀ wt'', wt'' ∈ ({ w with stack := rest } : World).waiters → wt'' ∈ w.waiters := by
        intro wt'' hmem
        refine (List.mem_append.mp hmem).elim (List.mem_append_left _) fun hmem => List.mem_append_right _ ?_
        rw [hst]
        exact List.mem_cons_of_mem _ hmem
      rw [World.step, hst] at h
      left
      rcases waitStretch_waiters h with h | ⟨rfl, _⟩
      · exact hpop _ h
      · exact List.mem_append_right _ (by rw [hst]; exact List.mem_cons_self)
  | resume i env =>
      left
      rcases waitAsyncStretch_waiters h with h | ⟨rfl, _⟩
      · exact herase i h
      · exact task_mem hen.2
  | cancel i err =>
      left
      have hc := waitHandler_control { w with tasks := w.tasks.eraseIdx i } (w.task i) err
      refine herase i ?_
      have h : wt ∈ (waitHandler { w with tasks := w.tasks.eraseIdx i } (w.task i) err).1.waiters := h
      rw [World.waiters, hc.1, hc.2] at h
      exact h
  | callbackReturns raised =>
      obtain ⟨b, caller, rest, hst⟩ := hen
      left
      have hc : (w.step (.callbackReturns raised)).1.stack = rest ∧
          (w.step (.callbackReturns raised)).1.tasks = w.tasks := by
        rw [World.step, hst]
        cases raised <;> cases caller <;> exact ⟨rfl, rfl⟩
      rw [World.waiters, hc.1, hc.2] at h
      rw [World.waiters, hst]
      exact h

/-! ## Runs -/

/-- A call of `wait` or `wait_async` that passes its own checks, for an unfinished batch that is not the active one of
the scheduler. -/
def ForeignWait (w : World) (e : Event) : Prop := (∃ self c, e = .call self c) ∧ Misfires w e

/-- The batches are in order, and every wait in progress has validated its batch. -/
structure Lifecycle (w : World) : Prop where
  orderly : Orderly w
  waiters : ∀ wt ∈ w.waiters, Validated w wt

theorem Lifecycle.no_misfire (h : Lifecycle w) (hen : w.Enabled e) (hf : ¬ ForeignWait w e) : ¬ Misfires w e := by
  rintro ⟨wt, hwt, hd, ha⟩
  have hin : wt ∈ w.waiters → False := by
    intro hmem
    obtain ⟨hlt, hs⟩ := h.waiters wt hmem
    exact ha (by rw [← hs]; exact h.orderly.unfinished wt.batch hlt hd)
  cases e with
  | call self c => exact hf ⟨⟨self, c, rfl⟩, wt, hwt, hd, ha⟩
  | iterate env =>
      obtain ⟨wt', rest, hst⟩ := hen
      simp only [Event.waiter, hst, Option.some.injEq] at hwt
      subst hwt
      exact hin (List.mem_append_right _ (by rw [hst]; exact List.mem_cons_self))
  | resume i env =>
      obtain rfl := Option.some.inj hwt
      exact hin (task_mem hen.2)
  | cancel i err =>
      obtain rfl := Option.some.inj hwt
      exact hin (task_mem hen.2)
  | callbackReturns raised => cases hwt

theorem change_scheduler (hc : Change w₀ e w w') :
    w.nextBatch ≤ w'.nextBatch ∧ ∀ b < w.nextBatch, (w'.batches b).scheduler = (w.batches b).scheduler := by
  have hput : ∀ (self : SchedulerId) (b : BatchId) (x : Session), x.batch.scheduler = (w.batches b).scheduler →
      ∀ b' < w.nextBatch, ((w.put self b x).batches b').scheduler = (w.batches b').scheduler := by
    intro self b x hx b' _
    by_cases hb : b' = b
    · subst hb; rw [put_batches_self]; exact hx
    · rw [put_batches_of_ne hb]
  cases hc with
  | control stack tasks => exact ⟨Nat.le_refl _, fun _ _ => rfl⟩
  | callbackError b error =>
      refine ⟨Nat.le_refl _, fun b' _ => ?_⟩
      simp only [Function.update_apply]
      split
      · next hb => rw [hb]
      · rfl
  | failed self b error => exact ⟨Nat.le_refl _, hput self b _ rfl⟩
  | misfired self b error => exact ⟨Nat.le_refl _, hput self b _ rfl⟩
  | progressed self b env =>
      refine ⟨Nat.le_refl _, hput self b _ ?_⟩
      rcases progressBody_cases env b (w.session self b) with ⟨x', err, hw, he⟩ | ⟨x', n, hran, _, he⟩ |
        ⟨x', n, hran, _, _, he⟩ <;> rw [he]
      · obtain ⟨_, _, hbatch⟩ := hw.batch
        rw [(failTransport_ends x' err _).scheduler, hbatch]; rfl
      · obtain ⟨_, _, hbatch⟩ := hran.works.batch
        rw [hbatch]; rfl
      · obtain ⟨_, _, hbatch⟩ := hran.works.batch
        obtain ⟨_, hf⟩ := finishSuccess_eq x'
        rw [hf, hbatch]; rfl
  | submitted self items requests oc env x' =>
      refine ⟨Nat.le_succ _, fun b hb => ?_⟩
      rw [put_batches_of_ne (Nat.ne_of_lt hb)]
  | connected self context transitions => exact ⟨Nat.le_refl _, fun _ _ => rfl⟩
  | disconnected self args env context transitions => exact ⟨Nat.le_refl _, fun _ _ => rfl⟩
  | closed self env hopen =>
      have hcl := close_closes env hopen
      exact ⟨Nat.le_of_eq hcl.nextBatch.symm, fun b _ => (hcl.ends b).scheduler⟩

theorem Lifecycle.step (h : Lifecycle w) (hen : w.Enabled e) (hf : ¬ ForeignWait w e) : Lifecycle (w.step e).1 := by
  have hm := h.no_misfire hen hf
  have hkeep : w.nextBatch ≤ (w.step e).1.nextBatch ∧
      ∀ b < w.nextBatch, ((w.step e).1.batches b).scheduler = (w.batches b).scheduler := by
    refine step_invariant (w := w) (e := e) (I := fun w' => w.nextBatch ≤ w'.nextBatch ∧
      ∀ b < w.nextBatch, (w'.batches b).scheduler = (w.batches b).scheduler) (fun w₁ w₂ hc hI => ?_) hen
      ⟨Nat.le_refl _, fun _ _ => rfl⟩
    obtain ⟨hle, hsame⟩ := change_scheduler hc
    exact ⟨Nat.le_trans hI.1 hle, fun b hb => (hsame b (Nat.lt_of_lt_of_le hb hI.1)).trans (hI.2 b hb)⟩
  refine ⟨step_invariant (fun _ _ hc => .change hm hc) hen h.orderly, fun wt hwt => ?_⟩
  have hv : Validated w wt := (step_waiters hen hwt).elim (h.waiters wt) id
  exact ⟨Nat.lt_of_lt_of_le hv.1 hkeep.1, (hkeep.2 _ hv.1).trans hv.2⟩

theorem Lifecycle.initial (h : w.Initial) : Lifecycle w := by
  obtain ⟨hfresh, hnext, hst, ht⟩ := h
  refine ⟨⟨fun s b ha => ?_, fun b hlt => ?_⟩, fun wt hwt => ?_⟩
  · obtain ⟨_, _, hs⟩ := hfresh s
    rw [hs] at ha; cases ha
  · rw [hnext] at hlt; exact absurd hlt (Nat.not_lt_zero b)
  · rw [World.waiters, hst, ht] at hwt; cases hwt

theorem Lifecycle.run (hi : w.Initial) (hr : (process.when fun w e => ¬ ForeignWait w e).Reaches w w') :
    Lifecycle w' :=
  Machine.Reaches.invariant (I := Lifecycle)
    (fun w e h (he : w.Enabled e ∧ ¬ ForeignWait w e) => h.step he.1 he.2) hr (.initial hi)

/-! ## One rejected call -/

/-- A wait that gets as far as its loop: its options are valid, and reading the clock does not raise. -/
def Call.EntersLoop (self : SchedulerId) : Call → Prop
  | .wait b timeout idleSleep start _ | .waitAsync b timeout idleSleep start _ =>
      ∃ wt, waitSetup self b timeout idleSleep start = .ok wt
  | _ => False

/-- A wait that goes into its loop with a batch that is neither finished nor active on the scheduler fails the batch. -/
theorem waitIteration_rejected {wt : Waiter} (env : WaitEnv) (hd : (w.batches wt.batch).done = false)
    (ha : (w.schedulers wt.scheduler).active ≠ some wt.batch) :
    ∃ error, validateBatch w wt.scheduler wt.batch = some error ∧ waitIteration w wt env =
      (w.put wt.scheduler wt.batch (failTransport (w.session wt.scheduler wt.batch) error none),
        .ended (.raised error)) := by
  cases hv : validateBatch w wt.scheduler wt.batch with
  | none => exact absurd ((validateBatch_none hv).2 hd) ha
  | some error =>
      refine ⟨error, rfl, ?_⟩
      simp [waitIteration, hd, progress, hv, waitHandler]

theorem call_not_entered {c : Call} (hb : c.batch? = some b) (hn : ¬ c.EntersLoop self)
    (hd : (w.batches b).done = false) (ha : (w.schedulers self).active ≠ some b) :
    ∃ error, w.call self c = (w, .raised error) := by
  cases c with
  | progress b' env =>
      obtain rfl := Option.some.inj hb
      rcases progress_cases w self b' env with ⟨error, he, _⟩ | ⟨_, hd'⟩ | ⟨_, _, ha', _⟩
      · exact ⟨error, by rw [World.call, he]⟩
      · exact absurd (hd'.symm.trans hd) (by decide)
      · exact absurd ha' ha
  | wait b' timeout idleSleep start env | waitAsync b' timeout idleSleep start env =>
      cases hs : waitSetup self b' timeout idleSleep start with
      | error error => exact ⟨error, by rw [World.call, hs]⟩
      | ok wt => exact absurd ⟨wt, hs⟩ hn
  | localInfos psns env => cases hb
  | connect args env => cases hb
  | submit items oc env => cases hb
  | close env => cases hb

/-- A wait that enters its loop raises the validation error, and marks the batch failed. -/
theorem call_entered {c : Call} (hb : c.batch? = some b) (hn : c.EntersLoop self) (hd : (w.batches b).done = false)
    (ha : (w.schedulers self).active ≠ some b) :
    ∃ error, validateBatch w self b = some error ∧ w.call self c =
      (w.put self b (failTransport (w.session self b) error none), .raised error) := by
  cases c with
  | wait b' timeout idleSleep start env =>
      obtain ⟨wt, hs⟩ := hn
      obtain rfl := Option.some.inj hb
      obtain ⟨rfl, rfl⟩ := waitSetup_ok hs
      obtain ⟨error, hv, he⟩ := waitIteration_rejected env hd ha
      exact ⟨error, hv, by simp only [World.call, hs, waitStretch, he]⟩
  | waitAsync b' timeout idleSleep start env =>
      obtain ⟨wt, hs⟩ := hn
      obtain rfl := Option.some.inj hb
      obtain ⟨rfl, rfl⟩ := waitSetup_ok hs
      obtain ⟨error, hv, he⟩ := waitIteration_rejected { env with sleep := none } hd ha
      exact ⟨error, hv, by simp only [World.call, hs, waitAsyncStretch, he]⟩
  | progress b' env => cases hn
  | localInfos psns env => cases hn
  | connect args env => cases hn
  | submit items oc env => cases hn
  | close env => cases hn

/-- A foreign wait is a call that enters its loop with such a batch. -/
theorem ForeignWait.call (h : ForeignWait w e) : ∃ self c b, e = .call self c ∧ c.batch? = some b ∧ c.EntersLoop self ∧
    (w.batches b).done = false ∧ (w.schedulers self).active ≠ some b := by
  obtain ⟨⟨self, c, rfl⟩, wt, hwt, hd, ha⟩ := h
  cases c with
  | wait b timeout idleSleep start env | waitAsync b timeout idleSleep start env =>
      cases hs : waitSetup self b timeout idleSleep start with
      | error error => simp [Event.waiter, hs, Except.toOption] at hwt
      | ok wt' =>
          simp only [Event.waiter, hs, Except.toOption, Option.some.injEq] at hwt
          subst hwt
          obtain ⟨hsch, hbatch⟩ := waitSetup_ok hs
          exact ⟨self, _, b, rfl, rfl, ⟨_, hs⟩, hbatch ▸ hd, by rw [← hsch, ← hbatch]; exact ha⟩
  | progress b env => cases hwt
  | localInfos psns env => cases hwt
  | connect args env => cases hwt
  | submit items oc env => cases hwt
  | close env => cases hwt

/-- A foreign wait leaves the batch failed, and active on its own scheduler. -/
theorem ForeignWait.breaks (hf : ForeignWait w e) (hen : w.Enabled e) (h : Orderly w) : ¬ Orderly (w.step e).1 := by
  obtain ⟨self, c, b, rfl, hb, hin, hd, ha⟩ := hf.call
  have howner := h.unfinished b (hen.2.1 b hb) hd
  have hne : (w.batches b).scheduler ≠ self := by
    rintro rfl
    exact ha howner
  obtain ⟨error, _, he⟩ := call_entered hb hin hd ha
  intro hord
  rw [World.step, he] at hord
  have hopen := (hord.active (w.batches b).scheduler b (by rw [put_schedulers_of_ne hne]; exact howner)).2.2
  rw [put_batches_self] at hopen
  cases hopen

end Rdma4py.ReadScheduler
