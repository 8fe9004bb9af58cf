import Rdma4py.ReadScheduler.Lemmas.Advances

/-!
# Runs with an onlooker

An onlooker of one batch counts the calls of its callback and keeps what they raise. `Attests` is what the onlooker's
notes say about the batch.
-/

namespace Rdma4py.ReadScheduler

open Rdma4py.Lib

variable {s : SchedulerId} {b b' : BatchId} {w w' : World} {e : Event} {x x' : Watched} {calls : Nat}
  {raised error : Option Exn}

/-! ## Runs of one scheduler -/

/-- Calls are made on one scheduler only. -/
def OnlyOn (s : SchedulerId) (e : Event) : Prop := ∀ self c, e = .call self c → self = s

/-- The batches are in order and belong to one scheduler. -/
structure Alone (s : SchedulerId) (w : World) : Prop where
  lifecycle : Lifecycle w
  scheduler : ∀ b < w.nextBatch, (w.batches b).scheduler = s

/-- With one scheduler nobody waits on the wrong one. -/
theorem Alone.no_foreignWait (h : Alone s w) (hen : w.Enabled e) (ho : OnlyOn s e) : ¬ ForeignWait w e := by
  intro hf
  obtain ⟨self, c, b, rfl, hb, -, hd, ha⟩ := hf.call
  obtain rfl := ho self c rfl
  have hlt : b < w.nextBatch := hen.2.1 b hb
  refine ha ?_
  rw [← h.scheduler b hlt]
  exact h.lifecycle.orderly.unfinished b hlt hd

/-- The batch that a change creates, if any, belongs to the scheduler of the call. -/
theorem change_alone {w₀ : World} (ho : OnlyOn s e) (hc : Change w₀ e w w')
    (h : ∀ b < w.nextBatch, (w.batches b).scheduler = s) : ∀ b < w'.nextBatch, (w'.batches b).scheduler = s := by
  intro b hlt
  obtain ⟨-, hsame⟩ := change_scheduler hc
  by_cases hold : b < w.nextBatch
  · exact (hsame b hold).trans (h b hold)
  · cases hc with
    | submitted self items requests oc env x' he _ _ _ hx =>
        obtain rfl := ho self _ he
        have hb : b = w.nextBatch := Nat.le_antisymm (Nat.le_of_lt_succ hlt) (Nat.le_of_not_lt hold)
        subst hb
        rw [put_batches_self]
        rcases hx with ⟨_, rfl⟩ | ⟨_, _, _, rfl⟩ | ⟨_, _, _, _, rfl⟩
        · obtain ⟨_, hf⟩ := finishSuccess_eq ((w.schedulers self).start self w.nextBatch requests oc)
          rw [hf]
          rfl
        · rfl
        · rfl
    | closed self env hopen =>
        rw [(close_closes env hopen).nextBatch] at hlt
        exact absurd hlt hold
    | control stack tasks => exact absurd hlt hold
    | callbackError b error => exact absurd hlt hold
    | failed self b error => exact absurd hlt hold
    | misfired self b error => exact absurd hlt hold
    | progressed self b env => exact absurd hlt hold
    | connected self context transitions => exact absurd hlt hold
    | disconnected self args env context transitions => exact absurd hlt hold

theorem Alone.step (h : Alone s w) (hen : w.Enabled e) (ho : OnlyOn s e) : Alone s (w.step e).1 where
  lifecycle := h.lifecycle.step hen (h.no_foreignWait hen ho)
  scheduler := step_invariant (I := fun w => ∀ b < w.nextBatch, (w.batches b).scheduler = s)
    (fun _ _ hc => change_alone ho hc) hen h.scheduler

theorem Alone.initial (s : SchedulerId) (h : w.Initial) : Alone s w :=
  ⟨.initial h, fun b hlt => absurd (h.2.1 ▸ hlt) (Nat.not_lt_zero b)⟩

/-! ## The onlooker -/

/-- What a callback of `b` raises in an event. -/
def Event.raises (w : World) (b : BatchId) : Event → Option Exn
  | .callbackReturns raised =>
      match w.stack with
      | .callback b' _ :: _ => if b' = b then raised else none
      | _ => none
  | _ => none

/-- The process, how often the callback of a batch was called, and what it raised. -/
structure Watched where
  world : World
  calls : Nat := 0
  raised : Option Exn := none

/-- The process with an onlooker of the batch `b`. -/
def watch (b : BatchId) : Machine Watched Event where
  Enabled x e := x.world.Enabled e
  next x e :=
    { world := (x.world.step e).1
      calls := x.calls + ((x.world.step e).1.running b - x.world.running b)
      raised := (e.raises x.world b).or x.raised }

instance (b : BatchId) : DecidableRel (watch b).Enabled :=
  fun x e => inferInstanceAs (Decidable (x.world.Enabled e))

/-- The onlooker does not disturb the process. -/
theorem watch_reaches {P : World → Event → Prop} (h : ((watch b).when fun x e => P x.world e).Reaches x x') :
    (process.when P).Reaches x.world x'.world :=
  h.lift Watched.world fun _ _ ⟨e, he, ht⟩ => ⟨e, he, congrArg Watched.world ht⟩

/-! ## What the notes say -/

/-- The notes about a batch that exists. -/
structure Batch.Noted (y : Batch) (running calls : Nat) (raised : Option Exn) : Prop where
  settled : y.Settled running
  calls : calls = y.callbackCalled.toNat
  error : y.callbackCalled = true → y.error = raised
  silent : y.callbackCalled = false → raised = none

theorem Batch.Noted.fate {y y' : Batch} {running n : Nat} (h : y.Noted running calls raised) (hf : Fate y y' n) :
    y'.Noted (running + n) (calls + n) raised := by
  have hset := h.settled.fate hf
  have hopen : y.done = false → y.error = none ∧ y.callbackCalled = false := by
    intro hd
    refine ⟨?_, Bool.eq_false_iff.mpr fun hc => ?_⟩
    · by_contra he
      exact absurd (hd.symm.trans (h.settled.failed he)) (by decide)
    · exact absurd (hd.symm.trans (h.settled.called hc).1) (by decide)
  cases hf with
  | kept chunks bytes => exact ⟨hset, h.calls, h.error, h.silent⟩
  | failed chunks bytes error hd =>
      refine ⟨hset, h.calls, fun hc => ?_, h.silent⟩
      exact absurd ((hopen hd).2.symm.trans hc) (by decide)
  | finished chunks bytes hd hn => exact ⟨hset, h.calls, h.error, h.silent⟩
  | called chunks bytes hd ho hc =>
      refine ⟨hset, ?_, fun _ => ?_, fun hc' => ?_⟩
      · rw [h.calls, hc]
        rfl
      · exact (hopen hd).1.trans (h.silent hc).symm
      · cases hc'

/-- A running callback returns. -/
theorem Batch.Noted.returned {y : Batch} {running : Nat} (h : y.Noted (running + 1) calls raised) :
    Batch.Noted { y with error := error.or y.error } running calls (error.or raised) := by
  obtain ⟨hone, hc, -⟩ := h.settled.running (Nat.succ_ne_zero running)
  obtain ⟨hd, ho⟩ := h.settled.called hc
  obtain rfl : running = 0 := Nat.succ.inj hone
  refine ⟨⟨fun _ => hd, fun _ => ⟨hd, ho⟩, fun _ _ hc' => ?_, fun hn => absurd rfl hn⟩, h.calls, fun _ => ?_, fun hc' => ?_⟩
  · exact absurd (hc.symm.trans hc') (by decide)
  · show error.or y.error = error.or raised
    rw [h.error hc]
  · exact absurd (hc.symm.trans hc') (by decide)

/-- What the notes of the onlooker of `b` say. -/
structure Attests (b : BatchId) (w : World) (calls : Nat) (raised : Option Exn) : Prop where
  idle : ∀ b', w.nextBatch ≤ b' → w.running b' = 0
  unborn : w.nextBatch ≤ b → calls = 0 ∧ raised = none
  noted : b < w.nextBatch → (w.batches b).Noted (w.running b) calls raised

theorem Attests.initial (b : BatchId) (h : w.Initial) : Attests b w 0 none := by
  obtain ⟨-, hnext, hst, -⟩ := h
  refine ⟨fun b' _ => ?_, fun _ => ⟨rfl, rfl⟩, fun hb => ?_⟩
  · rw [World.running, hst]
    rfl
  · rw [hnext] at hb
    exact absurd hb (Nat.not_lt_zero b)

theorem Attests.advances (h : Attests b w calls raised) (ha : Advances w w') :
    Attests b w' (calls + (w'.running b - w.running b)) raised := by
  obtain ⟨b₀, n, ⟨hfate, hnext⟩, hrun, hcalled⟩ := ha
  -- Only a batch that exists is called.
  have hnew : ∀ b', w.nextBatch ≤ b' → (if b' = b₀ then n else 0) = 0 := by
    intro b' hle
    split
    · next heq =>
        by_contra hn
        exact absurd (hcalled hn).1 (Nat.not_lt.mpr (heq ▸ hle))
    · rfl
  rw [hrun, Nat.add_sub_cancel_left]
  refine ⟨fun b' hle => ?_, fun hle => ?_, fun hlt => ?_⟩
  · rw [hnext] at hle
    rw [hrun, h.idle b' hle, hnew b' hle]
  · rw [hnext] at hle
    rw [hnew b hle]
    exact h.unborn hle
  · rw [hrun]
    exact (h.noted (hnext ▸ hlt)).fate (hfate b)

theorem Attests.enlisted (h : Attests b w calls raised) (self : SchedulerId) (requests : List RdmaReadRequest)
    (total : Nat) (called : Bool) : Attests b (w.enlist (.new self requests total called)) calls raised := by
  refine ⟨fun b' hle => h.idle b' (Nat.le_of_succ_le hle), fun hle => h.unborn (Nat.le_of_succ_le hle), fun hlt => ?_⟩
  by_cases hb : b = w.nextBatch
  · subst hb
    obtain ⟨rfl, rfl⟩ := h.unborn (Nat.le_refl _)
    have hrun : (w.enlist (.new self requests total called)).running w.nextBatch = 0 := h.idle _ (Nat.le_refl _)
    rw [enlist_batch, hrun]
    exact ⟨settled_new self requests total called, rfl, fun hc => Bool.noConfusion hc, fun _ => rfl⟩
  · have hbatch : (w.enlist (.new self requests total called)).batches b = w.batches b := Function.update_of_ne hb _ _
    rw [hbatch]
    exact h.noted (Nat.lt_of_le_of_ne (Nat.le_of_lt_succ hlt) hb)

theorem Attests.returned (h : Attests b w calls raised) (hr : Returns b' error w w') :
    Attests b w' (calls + (w'.running b - w.running b)) ((if b' = b then error else none).or raised) := by
  have hrun := hr.running b
  have hcount : w'.running b - w.running b = 0 := by omega
  rw [hcount, Nat.add_zero]
  have hlt : b' < w.nextBatch := by
    by_contra hge
    have hidle := h.idle b' (Nat.le_of_not_lt hge)
    rw [hr.running, if_pos rfl] at hidle
    exact Nat.succ_ne_zero _ hidle
  have hidle : ∀ b'', w'.nextBatch ≤ b'' → w'.running b'' = 0 := by
    intro b'' hle
    have hzero := h.idle b'' (hr.nextBatch ▸ hle)
    rw [hr.running] at hzero
    exact (Nat.add_eq_zero_iff.mp hzero).1
  by_cases hb : b = b'
  · subst hb
    have hnoted := h.noted hlt
    rw [hrun, if_pos rfl] at hnoted
    refine ⟨hidle, fun hle => absurd (hr.nextBatch ▸ hle) (Nat.not_le.mpr hlt), fun _ => ?_⟩
    rw [hr.batch, if_pos rfl]
    exact hnoted.returned
  · rw [if_neg hb, Nat.add_zero] at hrun
    rw [if_neg (Ne.symm hb), Option.none_or]
    refine ⟨hidle, fun hle => h.unborn (hr.nextBatch ▸ hle), fun hlt' => ?_⟩
    rw [hr.others b hb, ← hrun]
    exact h.noted (hr.nextBatch ▸ hlt')

/-- Every event keeps the notes right. -/
theorem Attests.step (h : Attests b x.world x.calls x.raised) (ha : Alone s x.world) (hen : x.world.Enabled e) :
    Attests b ((watch b).next x e).world ((watch b).next x e).calls ((watch b).next x e).raised := by
  by_cases hret : ∃ raised, e = .callbackReturns raised
  · obtain ⟨raised, rfl⟩ := hret
    obtain ⟨b', caller, rest, hst⟩ := hen
    have hraises : Event.raises x.world b (.callbackReturns raised) = if b' = b then raised else none := by
      rw [Event.raises, hst]
    have hnotes := h.returned (step_returns raised hst)
    rwa [← hraises] at hnotes
  · have hother : ∀ raised, e ≠ .callbackReturns raised := fun raised he => hret ⟨raised, he⟩
    have hraises : e.raises x.world b = none := by
      cases e with
      | callbackReturns raised => exact absurd rfl (hother raised)
      | call _ _ => rfl
      | iterate _ => rfl
      | resume _ _ => rfl
      | cancel _ _ => rfl
    have hwait : ∀ wt ∈ x.world.waiters, wt.batch < x.world.nextBatch := fun wt hwt => (ha.lifecycle.waiters wt hwt).1
    show Attests b (x.world.step e).1 _ ((e.raises x.world b).or x.raised)
    rw [hraises, Option.none_or]
    rcases step_goes hen hwait hother with hgo | ⟨self, requests, total, called, hgo⟩
    · exact h.advances hgo
    · exact (h.enlisted self requests total called).advances hgo

/-- The notes are right after every run of one scheduler. -/
theorem Attests.run (hi : w.Initial) (hr : ((watch b).when fun _ e => OnlyOn s e).Reaches ⟨w, 0, none⟩ x) :
    Attests b x.world x.calls x.raised ∧ Alone s x.world :=
  Machine.Reaches.invariant (I := fun x => Attests b x.world x.calls x.raised ∧ Alone s x.world)
    (fun _ _ h (he : _ ∧ _) => ⟨h.1.step h.2 he.1, h.2.step he.1 he.2⟩) hr ⟨.initial b hi, .initial s hi⟩

/-! ## The call of a callback -/

/-- When a callback is called, the scheduler of its batch has been released. -/
theorem step_released (ha : Alone s w) (hen : w.Enabled e) (hgrow : w.running b < (w.step e).1.running b) :
    b < (w.step e).1.nextBatch ∧ Released b w (w.step e).1 := by
  have hcalled : ∀ w₁, Advances w₁ (w.step e).1 → w₁.running b = w.running b →
      b < (w.step e).1.nextBatch ∧ Released b w₁ (w.step e).1 := by
    rintro w₁ ⟨b₀, n, ⟨-, hnext⟩, hrun, hcalled⟩ hsame
    have hgrow' := hgrow
    rw [hrun, hsame] at hgrow'
    split at hgrow'
    · next heq =>
        subst heq
        obtain ⟨hlt, hrel⟩ := hcalled (by omega)
        exact ⟨hnext ▸ hlt, hrel⟩
    · omega
  by_cases hret : ∃ raised, e = .callbackReturns raised
  · obtain ⟨raised, rfl⟩ := hret
    obtain ⟨b', caller, rest, hst⟩ := hen
    have hrun := (step_returns raised hst).running b
    omega
  · have hwait : ∀ wt ∈ w.waiters, wt.batch < w.nextBatch := fun wt hwt => (ha.lifecycle.waiters wt hwt).1
    rcases step_goes hen hwait fun raised he => hret ⟨raised, he⟩ with hgo | ⟨self, requests, total, called, hgo⟩
    · exact hcalled w hgo rfl
    · obtain ⟨hlt, hrel⟩ := hcalled _ hgo rfl
      exact ⟨hlt, hrel.active, hrel.closed, hrel.poisoned⟩

/-! ## A batch that ended -/

theorem done_advances (ha : Advances w w') (hd : (w.batches b).done = true) :
    w'.nextBatch = w.nextBatch ∧ (w'.batches b).done = true ∧ (w'.batches b).error = (w.batches b).error ∧
      w'.running b = w.running b := by
  obtain ⟨b₀, n, ⟨hfate, hnext⟩, hrun, -⟩ := ha
  obtain ⟨hd', he, hzero⟩ := (hfate b).of_done hd
  exact ⟨hnext, hd', he, by rw [hrun, hzero, Nat.add_zero]⟩

/-- An event leaves a finished batch finished, and only the return of its callback sets its error. -/
theorem done_step (ha : Alone s w) (hen : w.Enabled e) (hlt : b < w.nextBatch) (hd : (w.batches b).done = true) :
    b < (w.step e).1.nextBatch ∧ ((w.step e).1.batches b).done = true ∧
      (w.running b = 0 → (w.step e).1.running b = 0 ∧ ((w.step e).1.batches b).error = (w.batches b).error) := by
  by_cases hret : ∃ raised, e = .callbackReturns raised
  · obtain ⟨raised, rfl⟩ := hret
    obtain ⟨b', caller, rest, hst⟩ := hen
    have hr := step_returns raised hst
    have hrun := hr.running b
    refine ⟨hr.nextBatch ▸ hlt, ?_, fun hzero => ?_⟩
    · by_cases hb : b = b'
      · subst hb
        rw [hr.batch]
        exact hd
      · rw [hr.others b hb]
        exact hd
    · have hb : b ≠ b' := by
        rintro rfl
        rw [if_pos rfl] at hrun
        omega
      rw [if_neg hb] at hrun
      exact ⟨by omega, by rw [hr.others b hb]⟩
  · have hwait : ∀ wt ∈ w.waiters, wt.batch < w.nextBatch := fun wt hwt => (ha.lifecycle.waiters wt hwt).1
    rcases step_goes hen hwait fun raised he => hret ⟨raised, he⟩ with hgo | ⟨self, requests, total, called, hgo⟩
    · obtain ⟨hnext, hd', he, hrun⟩ := done_advances hgo hd
      exact ⟨hnext ▸ hlt, hd', fun hzero => ⟨hrun.trans hzero, he⟩⟩
    · have hbatch : (w.enlist (.new self requests total called)).batches b = w.batches b :=
        Function.update_of_ne (Nat.ne_of_lt hlt) _ _
      obtain ⟨hnext, hd', he, hrun⟩ := done_advances hgo (by rw [hbatch]; exact hd)
      rw [hbatch] at he
      exact ⟨hnext ▸ Nat.lt_succ_of_lt hlt, hd', fun hzero => ⟨hrun.trans hzero, he⟩⟩

/-- A finished batch stays finished, and after its callback its error stays. -/
theorem done_run (ha : Alone s w) (hr : (process.when fun _ e => OnlyOn s e).Reaches w w') (hlt : b < w.nextBatch)
    (hd : (w.batches b).done = true) :
    (w'.batches b).done = true ∧ (w.running b = 0 → (w'.batches b).error = (w.batches b).error) := by
  have hinv : Alone s w' ∧ b < w'.nextBatch ∧ (w'.batches b).done = true ∧
      (w.running b = 0 → w'.running b = 0 ∧ (w'.batches b).error = (w.batches b).error) := by
    refine Machine.Reaches.invariant (I := fun w' => Alone s w' ∧ b < w'.nextBatch ∧ (w'.batches b).done = true ∧
      (w.running b = 0 → w'.running b = 0 ∧ (w'.batches b).error = (w.batches b).error)) ?_ hr
      ⟨ha, hlt, hd, fun hzero => ⟨hzero, rfl⟩⟩
    rintro w₁ e ⟨ha₁, hlt₁, hd₁, hfinal⟩ ⟨hen, ho⟩
    obtain ⟨hlt', hd', hfinal'⟩ := done_step ha₁ hen hlt₁ hd₁
    refine ⟨ha₁.step hen ho, hlt', hd', fun hzero => ?_⟩
    obtain ⟨hzero₁, he₁⟩ := hfinal hzero
    obtain ⟨hzero', he'⟩ := hfinal' hzero₁
    exact ⟨hzero', he'.trans he₁⟩
  exact ⟨hinv.2.2.1, fun hzero => (hinv.2.2.2 hzero).2⟩

/-! ## The end of a wait -/

/-- The batch of the wait that goes on in an event. -/
def Event.waitsFor (w : World) : Event → Option BatchId
  | .call _ (.wait b _ _ _ _) | .call _ (.waitAsync b _ _ _ _) => some b
  | .iterate _ => match w.stack with
      | .wait wt :: _ => some wt.batch
      | _ => none
  | .resume i _ | .cancel i _ => some (w.task i).batch
  | .callbackReturns _ => match w.stack with
      | .callback b .wait :: _ => some b
      | _ => none
  | _ => none

/-- A `wait` or `wait_async` with invalid options, or whose first look at the clock raises. -/
def Event.Rejected (e : Event) (error : Exn) : Prop :=
  ∃ self b timeout idleSleep start env,
    (e = .call self (.wait b timeout idleSleep start env) ∨ e = .call self (.waitAsync b timeout idleSleep start env)) ∧
    (validateWaitOptions timeout idleSleep = some error ∨ (timeout ≠ none ∧ start = .error error))

/-- The batch is finished, and the wait returns when it has no error. -/
structure Tells (b : BatchId) (w : World) (o : Outcome) : Prop where
  done : (w.batches b).done = true
  returns : (∃ value, o = .returned value) ↔ (w.batches b).error = none

theorem tells_status {value : List Int} (hd : (w.batches b).done = true) : Tells b w (w.status b value) := by
  refine ⟨hd, ?_⟩
  unfold World.status
  split
  · next error he =>
      rw [he]
      constructor
      · rintro ⟨_, h⟩
        cases h
      · intro h
        cases h
  · next he => exact ⟨fun _ => he, fun _ => ⟨value, rfl⟩⟩

theorem tells_raised {error' : Exn} (hd : (w.batches b).done = true) (he : (w.batches b).error ≠ none) :
    Tells b w (.raised error') := by
  refine ⟨hd, ?_, fun h => absurd h he⟩
  rintro ⟨_, h⟩
  cases h

/-- What a handler leaves: the batch is finished. When it was not finished before, it has an error now. -/
theorem waitHandler_done (w : World) (wt : Waiter) (error : Exn) :
    ((waitHandler w wt error).1.batches wt.batch).done = true ∧
      ((w.batches wt.batch).done = false → ((waitHandler w wt error).1.batches wt.batch).error ≠ none) ∧
      ((w.batches wt.batch).done = true → (waitHandler w wt error).1 = w) ∧
      (waitHandler w wt error).2 = .raised error := by
  unfold waitHandler
  split
  · next hd => exact ⟨hd, fun hd' => absurd (hd.symm.trans hd') (by decide), fun _ => rfl, rfl⟩
  · next hd =>
      rw [put_batches_self]
      exact ⟨rfl, fun _ => (failTransport_batch _ _ _).2, fun hd' => absurd hd' hd, rfl⟩

theorem waitTail_ended {wt : Waiter} {n : Nat} {clock : Except Exn Int} {sleep : Option Exn} {o : Outcome}
    (hd : (w.batches wt.batch).done = false) (h : waitTail w wt n clock sleep = (w', .ended o)) :
    Tells wt.batch w' o := by
  have hhandler : ∀ error, Tells wt.batch (waitHandler w wt error).1 (.raised error) := by
    intro error
    obtain ⟨hd', he, -⟩ := waitHandler_done w wt error
    exact tells_raised hd' (he hd)
  have hsleep : waitSleep w wt n sleep = (w', .ended o) → Tells wt.batch w' o := by
    intro h
    unfold waitSleep at h
    split at h
    · split at h
      · cases h
        exact hhandler _
      · cases h
    · cases h
  unfold waitTail at h
  split at h
  · exact hsleep h
  · split at h
    · cases h
      exact hhandler _
    · split at h
      · cases h
        exact tells_raised (by rw [put_batches_self]; rfl) (by rw [put_batches_self]; exact (failTransport_batch _ _ _).2)
      · exact hsleep h

theorem waitIteration_ended {wt : Waiter} {env : WaitEnv} {o : Outcome}
    (h : waitIteration w wt env = (w', .ended o)) : Tells wt.batch w' o := by
  unfold waitIteration at h
  split at h
  · next hd =>
      cases h
      exact tells_status hd
  · next hd =>
      have hd : (w.batches wt.batch).done = false := by simpa using hd
      rcases progress_cases w wt.scheduler wt.batch env.progress with ⟨error, he, _⟩ | ⟨_, hd'⟩ | ⟨_, _, _, he⟩
      · rw [he] at h
        cases h
        obtain ⟨hd', he', -⟩ := waitHandler_done w wt error
        exact tells_raised hd' (he' hd)
      · exact absurd (hd.symm.trans hd') (by decide)
      · rw [he] at h
        cases hr : (progressBody env.progress wt.batch (w.session wt.scheduler wt.batch)).2 with
        | raised error =>
            -- `progress` has failed the batch, and the handler leaves it.
            have hfailed : ((w.put wt.scheduler wt.batch
                (progressBody env.progress wt.batch (w.session wt.scheduler wt.batch)).1).batches wt.batch).done = true ∧
                ((w.put wt.scheduler wt.batch
                (progressBody env.progress wt.batch (w.session wt.scheduler wt.batch)).1).batches wt.batch).error ≠ none := by
              rw [put_batches_self]
              exact progressBody_raised hr
            obtain ⟨-, -, hsame, -⟩ := waitHandler_done (w.put wt.scheduler wt.batch
              (progressBody env.progress wt.batch (w.session wt.scheduler wt.batch)).1) wt error
            rw [hr] at h
            cases h
            rw [hsame hfailed.1]
            exact tells_raised hfailed.1 hfailed.2
        | callback m =>
            rw [hr] at h
            cases h
        | returned m =>
            rw [hr] at h
            simp only at h
            split at h
            · next hd' =>
                cases h
                exact tells_status hd'
            · next hd' => exact waitTail_ended (by simpa using hd') h

theorem waitStretch_ended {wt : Waiter} {env : WaitEnv} (h : (waitStretch w wt env).2 ≠ .running) :
    Tells wt.batch (waitStretch w wt env).1 (waitStretch w wt env).2 := by
  unfold waitStretch at h ⊢
  rcases hr : waitIteration w wt env with ⟨w₁, o | _ | _⟩ <;> rw [hr] at h
  · exact waitIteration_ended hr
  · exact absurd rfl h
  · exact absurd rfl h

theorem waitAsyncStretch_ended {wt : Waiter} {env : WaitEnv} (h : (waitAsyncStretch w wt env).2 ≠ .running) :
    Tells wt.batch (waitAsyncStretch w wt env).1 (waitAsyncStretch w wt env).2 := by
  unfold waitAsyncStretch at h ⊢
  rcases hr : waitIteration w wt { env with sleep := none } with ⟨w₁, o | _ | _⟩ <;> rw [hr] at h
  · exact waitIteration_ended hr
  · exact absurd rfl h
  · exact absurd rfl h

theorem waitSetup_error {self : SchedulerId} {timeout : Option Int} {idleSleep : Int} {start : Except Exn Int}
    {error : Exn} (h : waitSetup self b timeout idleSleep start = .error error) :
    validateWaitOptions timeout idleSleep = some error ∨ (timeout ≠ none ∧ start = .error error) := by
  unfold waitSetup at h
  split at h
  · next hv =>
      cases h
      exact Or.inl hv
  · split at h
    · cases h
    · cases start with
      | error e =>
          cases h
          exact Or.inr ⟨Option.some_ne_none _, rfl⟩
      | ok now => cases h

/-- A wait that ends: it was rejected, or its batch is finished and it returns when the batch has no error. A cancelled
one raises whatever became of its batch. -/
theorem step_tells (h : Attests b w calls raised) (hen : w.Enabled e) (hwait : e.waitsFor w = some b)
    (hend : (w.step e).2 ≠ .running) :
    (∃ error, e.Rejected error ∧ w.step e = (w, .raised error)) ∨
      ((w.step e).1.batches b).done = true ∧
        ((∃ value, (w.step e).2 = .returned value) ↔
          ((w.step e).1.batches b).error = none ∧ ∀ i error, e ≠ .cancel i error) := by
  have htells : (∀ i error, e ≠ .cancel i error) → Tells b (w.step e).1 (w.step e).2 →
      ((w.step e).1.batches b).done = true ∧
        ((∃ value, (w.step e).2 = .returned value) ↔
          ((w.step e).1.batches b).error = none ∧ ∀ i error, e ≠ .cancel i error) :=
    fun hc ht => ⟨ht.done, ht.returns.trans ⟨fun he => ⟨he, hc⟩, And.left⟩⟩
  cases e with
  | call self c =>
      have hc : ∀ i error, Event.call self c ≠ .cancel i error := by
        intro _ _ heq
        cases heq
      cases c with
      | wait b' timeout idleSleep start env =>
          obtain rfl := Option.some.inj hwait
          cases hset : waitSetup self b' timeout idleSleep start with
          | error error =>
              refine Or.inl ⟨error, ⟨self, b', timeout, idleSleep, start, env, Or.inl rfl, waitSetup_error hset⟩, ?_⟩
              rw [World.step, World.call, hset]
          | ok wt =>
              obtain ⟨-, hb⟩ := waitSetup_ok hset
              refine Or.inr (htells hc ?_)
              simp only [World.step, World.call, hset] at hend ⊢
              rw [← hb]
              exact waitStretch_ended hend
      | waitAsync b' timeout idleSleep start env =>
          obtain rfl := Option.some.inj hwait
          cases hset : waitSetup self b' timeout idleSleep start with
          | error error =>
              refine Or.inl ⟨error, ⟨self, b', timeout, idleSleep, start, env, Or.inr rfl, waitSetup_error hset⟩, ?_⟩
              rw [World.step, World.call, hset]
          | ok wt =>
              obtain ⟨-, hb⟩ := waitSetup_ok hset
              refine Or.inr (htells hc ?_)
              simp only [World.step, World.call, hset] at hend ⊢
              rw [← hb]
              exact waitAsyncStretch_ended hend
      | localInfos psns env => cases hwait
      | connect args env => cases hwait
      | submit items oc env => cases hwait
      | progress b' env => cases hwait
      | close env => cases hwait
  | iterate env =>
      obtain ⟨wt, rest, hst⟩ := hen
      simp only [Event.waitsFor, hst, Option.some.injEq] at hwait
      subst hwait
      refine Or.inr (htells (by intro _ _ heq; cases heq) ?_)
      simp only [World.step, hst] at hend ⊢
      exact waitStretch_ended hend
  | resume i env =>
      obtain rfl := Option.some.inj hwait
      exact Or.inr (htells (by intro _ _ heq; cases heq) (waitAsyncStretch_ended hend))
  | cancel i error =>
      obtain rfl := Option.some.inj hwait
      obtain ⟨hd, -, -, hraised⟩ := waitHandler_done { w with tasks := w.tasks.eraseIdx i } (w.task i) error
      refine Or.inr ⟨hd, ?_, fun hc => absurd rfl (hc.2 i error)⟩
      rintro ⟨value, hv⟩
      rw [World.step, hraised] at hv
      cases hv
  | callbackReturns r =>
      obtain ⟨b', caller, rest, hst⟩ := hen
      cases caller with
      | wait =>
          simp only [Event.waitsFor, hst, Option.some.injEq] at hwait
          subst hwait
          -- The callback was called for a finished batch.
          have hrun := (step_returns r hst).running b'
          rw [if_pos rfl] at hrun
          have hlt : b' < w.nextBatch := by
            by_contra hge
            rw [h.idle b' (Nat.le_of_not_lt hge)] at hrun
            exact Nat.succ_ne_zero _ hrun.symm
          have hset := (h.noted hlt).settled
          have hd := (hset.called (hset.running (by omega)).2.1).1
          have hd' : ((w.step (.callbackReturns r)).1.batches b').done = true := by
            rw [(step_returns r hst).batch]
            exact hd
          refine Or.inr (htells (by intro _ _ heq; cases heq) ?_)
          have hstatus : (w.step (.callbackReturns r)).2 =
              (w.step (.callbackReturns r)).1.status b' [(b' : Int)] := by
            rw [World.step, hst]
            cases r <;> rfl
          rw [hstatus]
          exact tells_status hd'
      | submit => simp [Event.waitsFor, hst] at hwait
      | progress m => simp [Event.waitsFor, hst] at hwait

end Rdma4py.ReadScheduler
