import Rdma4py.ReadScheduler.Lemmas.Lifecycle

/-!
# What an event does to a batch

A batch ends once: it fails, or it finishes and its callback, if it has one, is called. `Fate` lists what can happen to a
batch in one event, together with the calls of its callback that begin, and every event is shown to be one of these.
-/

namespace Rdma4py.ReadScheduler

open Rdma4py.Lib

variable {self : SchedulerId} {b b' : BatchId} {w w₁ w₂ w' : World} {x x₁ x' : Batch} {n n' : Nat} {y : Session}

/-! ## Callbacks that run -/

/-- The batch whose callback runs in a frame. -/
def Frame.callbackOf : Frame → Option BatchId
  | .callback b _ => some b
  | .wait _ => none

/-- How many calls of a batch's `_on_complete` are in progress. -/
def World.running (w : World) (b : BatchId) : Nat := (w.stack.filterMap Frame.callbackOf).count b

theorem running_push (w : World) (b b' : BatchId) (caller : Caller) :
    (w.push (.callback b caller)).running b' = w.running b' + if b' = b then 1 else 0 := by
  simp only [World.running, World.push, List.filterMap_cons, Frame.callbackOf, List.count_cons, beq_iff_eq]
  simp only [eq_comm]

theorem running_of_stack (h : w'.stack = w.stack) (b : BatchId) : w'.running b = w.running b := by
  rw [World.running, World.running, h]

/-! ## Fates -/

/-- What can happen to a batch, and how often its callback is called in it. -/
inductive Fate (x : Batch) : Batch → Nat → Prop
  /-- At most some chunks complete. -/
  | kept (chunks bytes : Nat) : Fate x { x with completedChunks := chunks, completedBytes := bytes } 0
  | failed (chunks bytes : Nat) (error : Exn) (hd : x.done = false) :
      Fate x { x with completedChunks := chunks, completedBytes := bytes, error := some error, done := true } 0
  | finished (chunks bytes : Nat) (hd : x.done = false) (hn : x.onComplete = true → x.callbackCalled = true) :
      Fate x { x with completedChunks := chunks, completedBytes := bytes, done := true } 0
  | called (chunks bytes : Nat) (hd : x.done = false) (ho : x.onComplete = true) (hc : x.callbackCalled = false) :
      Fate x { x with completedChunks := chunks, completedBytes := bytes, done := true, callbackCalled := true } 1

theorem Fate.refl (x : Batch) : Fate x x 0 := .kept x.completedChunks x.completedBytes

/-- A batch ends once. -/
theorem Fate.trans (h : Fate x x₁ n) (h' : Fate x₁ x' n') : Fate x x' (n + n') := by
  cases h with
  | kept _ _ =>
      rw [Nat.zero_add]
      cases h' with
      | kept chunks bytes => exact .kept chunks bytes
      | failed chunks bytes error hd => exact .failed chunks bytes error hd
      | finished chunks bytes hd hn => exact .finished chunks bytes hd hn
      | called chunks bytes hd ho hc => exact .called chunks bytes hd ho hc
  | failed _ _ error hd =>
      cases h' with
      | kept chunks bytes => exact .failed chunks bytes error hd
      | failed _ _ _ hd' => cases hd'
      | finished _ _ hd' _ => cases hd'
      | called _ _ hd' _ _ => cases hd'
  | finished _ _ hd hn =>
      cases h' with
      | kept chunks bytes => exact .finished chunks bytes hd hn
      | failed _ _ _ hd' => cases hd'
      | finished _ _ hd' _ => cases hd'
      | called _ _ hd' _ _ => cases hd'
  | called _ _ hd ho hc =>
      cases h' with
      | kept chunks bytes => exact .called chunks bytes hd ho hc
      | failed _ _ _ hd' => cases hd'
      | finished _ _ hd' _ => cases hd'
      | called _ _ hd' _ _ => cases hd'

/-- A finished batch does not change any more. -/
theorem Fate.of_done (h : Fate x x' n) (hd : x.done = true) : x'.done = true ∧ x'.error = x.error ∧ n = 0 := by
  cases h with
  | kept _ _ => exact ⟨hd, rfl, rfl⟩
  | failed _ _ _ hd' => exact absurd (hd.symm.trans hd') (by decide)
  | finished _ _ hd' _ => exact absurd (hd.symm.trans hd') (by decide)
  | called _ _ hd' _ _ => exact absurd (hd.symm.trans hd') (by decide)

/-! ## How a batch stands -/

/-- A batch of which `running` callbacks run. -/
structure Batch.Settled (x : Batch) (running : Nat) : Prop where
  failed : x.error ≠ none → x.done = true
  called : x.callbackCalled = true → x.done = true ∧ x.onComplete = true
  missed : x.done = true → x.onComplete = true → x.callbackCalled = false → x.error ≠ none
  running : running ≠ 0 → running = 1 ∧ x.callbackCalled = true ∧ x.error = none

theorem settled_new (s : SchedulerId) (requests : List RdmaReadRequest) (totalChunks : Nat) (onComplete : Bool) :
    (Batch.new s requests totalChunks onComplete).Settled 0 :=
  ⟨fun he => absurd rfl he, fun hc => Bool.noConfusion hc, fun hd => Bool.noConfusion hd, fun hr => absurd rfl hr⟩

theorem Batch.Settled.fate (h : x.Settled n) (hf : Fate x x' n') : x'.Settled (n + n') := by
  have hopen : x.done = false → x.error = none := by
    intro hd
    by_contra he
    exact absurd (hd.symm.trans (h.failed he)) (by decide)
  have hidle : x.done = false → n = 0 := by
    intro hd
    by_contra hn
    exact absurd (hd.symm.trans (h.called (h.running hn).2.1).1) (by decide)
  cases hf with
  | kept chunks bytes => exact ⟨h.failed, h.called, h.missed, h.running⟩
  | failed chunks bytes error hd =>
      refine ⟨fun _ => rfl, fun hc => ⟨rfl, (h.called hc).2⟩, fun _ _ _ => Option.some_ne_none error, fun hn => ?_⟩
      exact absurd (hidle hd) hn
  | finished chunks bytes hd hn =>
      refine ⟨fun _ => rfl, fun hc => ⟨rfl, (h.called hc).2⟩, fun _ ho hc => ?_, fun hn => ?_⟩
      · exact absurd (hc.symm.trans (hn ho)) (by decide)
      · exact absurd (hidle hd) hn
  | called chunks bytes hd ho hc =>
      refine ⟨fun _ => rfl, fun _ => ⟨rfl, ho⟩, fun _ _ hc' => ?_, fun _ => ?_⟩
      · cases hc'
      · exact ⟨by rw [hidle hd], rfl, hopen hd⟩

/-! ## What the methods do to their batch -/

theorem failTransport_fate (error : Exn) (message : Option String) (hd : y.batch.done = false) :
    Fate y.batch (failTransport y error message).batch 0 :=
  .failed y.batch.completedChunks y.batch.completedBytes _ hd

theorem finishSuccess_fate (hd : y.batch.done = false) :
    Fate y.batch (finishSuccess y).1.batch (finishSuccess y).2.toNat := by
  unfold finishSuccess
  split
  · next h => exact .called y.batch.completedChunks y.batch.completedBytes hd h.1 h.2
  · next h =>
      refine .finished y.batch.completedChunks y.batch.completedBytes hd fun ho => ?_
      by_contra hc
      exact h ⟨ho, Bool.eq_false_iff.mpr hc⟩

/-- How often `progress` calls the callback. -/
def ProgressEnd.calls : ProgressEnd → Nat
  | .callback _ => 1
  | .raised _ | .returned _ => 0

theorem progressBody_fate (env : ProgressEnv) (b : BatchId) (hd : y.batch.done = false) :
    Fate y.batch (progressBody env b y).1.batch (progressBody env b y).2.calls := by
  have hworks : ∀ y', y.Works b y' → Fate y.batch y'.batch 0 ∧ y'.batch.done = false := by
    intro y' hw
    obtain ⟨chunks, bytes, hbatch⟩ := hw.batch
    rw [hbatch]
    exact ⟨.kept chunks bytes, hd⟩
  rcases progressBody_cases env b y with ⟨y', error, hw, he⟩ | ⟨y', m, hran, _, he⟩ | ⟨y', m, hran, _, _, he⟩ <;> rw [he]
  · obtain ⟨hkept, hd'⟩ := hworks y' hw
    exact hkept.trans (failTransport_fate error _ hd')
  · exact (hworks y' hran.works).1
  · obtain ⟨hkept, hd'⟩ := hworks y' hran.works
    have hfin := hkept.trans (finishSuccess_fate hd')
    cases hc : (finishSuccess y').2 with
    | true => simpa [hc, ProgressEnd.calls] using hfin
    | false => simpa [hc, ProgressEnd.calls] using hfin

/-! ## What they do to all batches -/

/-- Every batch meets its fate; only the callback of `b` is called. -/
structure Fates (b : BatchId) (n : Nat) (w w' : World) : Prop where
  batch : ∀ b', Fate (w.batches b') (w'.batches b') (if b' = b then n else 0)
  nextBatch : w'.nextBatch = w.nextBatch

theorem Fates.of_batches (b : BatchId) (h : w'.batches = w.batches) (hn : w'.nextBatch = w.nextBatch) :
    Fates b 0 w w' := by
  refine ⟨fun b' => ?_, hn⟩
  rw [h, ite_self]
  exact .refl _

theorem Fates.refl (b : BatchId) (w : World) : Fates b 0 w w := .of_batches b rfl rfl

theorem Fates.trans (h : Fates b n w w₁) (h' : Fates b n' w₁ w') : Fates b (n + n') w w' := by
  refine ⟨fun b' => ?_, h'.nextBatch.trans h.nextBatch⟩
  have htrans := (h.batch b').trans (h'.batch b')
  split at htrans
  · next hb => rwa [if_pos hb]
  · next hb => rwa [if_neg hb]

theorem fates_put (self : SchedulerId) (h : Fate (w.batches b) y.batch n) : Fates b n w (w.put self b y) := by
  refine ⟨fun b' => ?_, rfl⟩
  by_cases hb : b' = b
  · subst hb
    rwa [put_batches_self, if_pos rfl]
  · rw [put_batches_of_ne hb, if_neg hb]
    exact .refl _

theorem fates_failed (self : SchedulerId) (b : BatchId) (error : Exn) (hd : (w.batches b).done = false) :
    Fates b 0 w (w.put self b (failTransport (w.session self b) error none)) :=
  fates_put self (failTransport_fate (y := w.session self b) error none hd)

theorem waitHandler_fates (w : World) (wt : Waiter) (error : Exn) :
    Fates wt.batch 0 w (waitHandler w wt error).1 := by
  unfold waitHandler
  split
  · exact .refl _ _
  · next hd => exact fates_failed wt.scheduler wt.batch error (by simpa using hd)

/-- How often an iteration of a wait calls the callback. -/
def WaitEnd.calls : WaitEnd → Nat
  | .callback => 1
  | .ended _ | .again => 0

theorem waitTail_fates (w : World) (wt : Waiter) (m : Nat) (clock : Except Exn Int) (sleep : Option Exn)
    (hd : (w.batches wt.batch).done = false) : Fates wt.batch 0 w (waitTail w wt m clock sleep).1 := by
  have hsleep : Fates wt.batch 0 w (waitSleep w wt m sleep).1 := by
    unfold waitSleep
    split
    · split
      · exact waitHandler_fates w wt _
      · exact .refl _ _
    · exact .refl _ _
  unfold waitTail
  split
  · exact hsleep
  · split
    · exact waitHandler_fates w wt _
    · split
      · exact fates_failed wt.scheduler wt.batch _ hd
      · exact hsleep

theorem waitTail_calls (w : World) (wt : Waiter) (m : Nat) (clock : Except Exn Int) (sleep : Option Exn) :
    (waitTail w wt m clock sleep).2.calls = 0 := by
  have hsleep : (waitSleep w wt m sleep).2.calls = 0 := by
    unfold waitSleep
    split
    · split <;> rfl
    · rfl
  unfold waitTail
  split
  · exact hsleep
  · split
    · rfl
    · split
      · rfl
      · exact hsleep

theorem waitIteration_fates (w : World) (wt : Waiter) (env : WaitEnv) :
    Fates wt.batch (waitIteration w wt env).2.calls w (waitIteration w wt env).1 := by
  unfold waitIteration
  split
  · exact .refl _ _
  · next hd =>
      have hd : (w.batches wt.batch).done = false := by simpa using hd
      rcases progress_cases w wt.scheduler wt.batch env.progress with ⟨error, he, _⟩ | ⟨_, hd'⟩ | ⟨_, _, _, he⟩
      · rw [he]
        exact waitHandler_fates w wt error
      · exact absurd (hd.symm.trans hd') (by decide)
      · have hprog := fates_put wt.scheduler
          (progressBody_fate env.progress wt.batch (y := w.session wt.scheduler wt.batch) hd)
        rw [he]
        cases hr : (progressBody env.progress wt.batch (w.session wt.scheduler wt.batch)).2 with
        | raised error =>
            rw [hr] at hprog
            exact hprog.trans (waitHandler_fates _ wt error)
        | callback m =>
            rw [hr] at hprog
            exact hprog
        | returned m =>
            rw [hr] at hprog
            simp only
            split
            · exact hprog
            · next hopen =>
                have hprog := hprog.trans (waitTail_fates _ wt m env.clock env.sleep (by simpa using hopen))
                rwa [waitTail_calls]

/-! ## The scheduler of a batch whose callback is called -/

/-- The scheduler of a batch works for none, and nothing was closed or poisoned. -/
structure Released (b : BatchId) (w w' : World) : Prop where
  active : (w'.schedulers (w'.batches b).scheduler).active = none
  closed : ∀ s, (w'.schedulers s).closed = (w.schedulers s).closed
  poisoned : ∀ s, (w'.schedulers s).poisoned = (w.schedulers s).poisoned

theorem released_put (hs : y.batch.scheduler = self) (ha : y.scheduler.active = none)
    (hc : y.scheduler.closed = (w.schedulers self).closed) (hp : y.scheduler.poisoned = (w.schedulers self).poisoned) :
    Released b w (w.put self b y) := by
  refine ⟨?_, fun s => ?_, fun s => ?_⟩
  · rw [put_batches_self, hs, put_schedulers_self]
    exact ha
  · by_cases hself : s = self
    · rw [hself, put_schedulers_self]
      exact hc
    · rw [put_schedulers_of_ne hself]
  · by_cases hself : s = self
    · rw [hself, put_schedulers_self]
      exact hp
    · rw [put_schedulers_of_ne hself]

theorem progressBody_called {env : ProgressEnv} {m : Nat} (h : (progressBody env b y).2 = .callback m) :
    (progressBody env b y).1.batch.scheduler = y.batch.scheduler ∧
      (progressBody env b y).1.scheduler.active = none ∧
      (progressBody env b y).1.scheduler.closed = y.scheduler.closed ∧
      (progressBody env b y).1.scheduler.poisoned = y.scheduler.poisoned := by
  rcases progressBody_cases env b y with ⟨y', error, _, he⟩ | ⟨y', m', _, _, he⟩ | ⟨y', m', hran, _, _, he⟩
  · rw [he] at h
    cases h
  · rw [he] at h
    cases h
  · obtain ⟨_, _, hbatch⟩ := hran.works.batch
    obtain ⟨_, hf⟩ := finishSuccess_eq y'
    rw [he, hf]
    exact ⟨by rw [hbatch], rfl, hran.works.scheduler.closed, hran.works.scheduler.poisoned⟩

theorem waitIteration_released {wt : Waiter} {env : WaitEnv} (h : (waitIteration w wt env).2.calls ≠ 0) :
    Released wt.batch w (waitIteration w wt env).1 := by
  unfold waitIteration at h ⊢
  split
  · next hd =>
      rw [if_pos hd] at h
      exact absurd rfl h
  · next hd =>
      rw [if_neg hd] at h
      rcases progress_cases w wt.scheduler wt.batch env.progress with ⟨error, he, _⟩ | ⟨_, hd'⟩ | ⟨_, hs, _, he⟩
      · rw [he] at h
        exact absurd rfl h
      · exact absurd hd' hd
      · rw [he] at h ⊢
        cases hr : (progressBody env.progress wt.batch (w.session wt.scheduler wt.batch)).2 with
        | raised error =>
            rw [hr] at h
            exact absurd rfl h
        | callback m =>
            obtain ⟨hbatch, ha, hc, hp⟩ := progressBody_called hr
            exact released_put (hbatch.trans hs) ha hc hp
        | returned m =>
            rw [hr] at h
            simp only at h
            split at h
            · exact absurd rfl h
            · exact absurd (waitTail_calls ..) h

end Rdma4py.ReadScheduler
