import Rdma4py.ReadScheduler.Lemmas.OneQp
import Rdma4py.ReadScheduler.Lemmas.Shortfall
import Rdma4py.ReadScheduler.Lemmas.Watched

/-!
# The outcome of a batch

A batch ends once, its callback is called at most once and only when nothing went wrong, and a wait that ends tells how
the batch ended. The exception is a cancelled `wait_async`: it raises even when the batch has ended well.
-/

namespace Rdma4py.ReadScheduler

open Rdma4py.Lib

/-- In every run of one scheduler, with an onlooker of the batch `b`: a finished batch stays finished, and unless its
callback still runs its error stays. The callback is called at most once, exactly when the batch ends with no other
error than the one the callback raises; with CQs that report no more than they are asked for, and identifiers enough,
it is called when all chunks have completed. A wait that ends, unless it was rejected, leaves the batch finished, and
returns when the batch has no error and the wait was not cancelled. The error of a callback does not touch the
scheduler, which works for no batch when the callback is called. -/
theorem batch_outcome {w : World} {s : SchedulerId} {b : BatchId} {x : Watched} (hi : w.Initial)
    (hr : ((watch b).when fun _ e => OnlyOn s e).Reaches ⟨w, 0, none⟩ x) :
    (b < x.world.nextBatch → (x.world.batches b).done = true →
      ∀ x', ((watch b).when fun _ e => OnlyOn s e).Reaches x x' → (x'.world.batches b).done = true ∧
        (x.world.running b = 0 → (x'.world.batches b).error = (x.world.batches b).error)) ∧
    (b < x.world.nextBatch → x.calls ≤ 1 ∧
      (x.calls = 1 → (x.world.batches b).onComplete = true ∧ (x.world.batches b).done = true) ∧
      ((x.world.batches b).onComplete = true → (x.world.batches b).done = true →
        (x.calls = 1 ↔ (x.world.batches b).error = x.raised)) ∧
      (((watch b).when fun x e => OnlyOn s e ∧ AtMostAsked s x.world e ∧ EnoughIds s x.world e).Reaches
          ⟨w, 0, none⟩ x → (x.world.batches b).onComplete = true →
        (x.world.batches b).completedChunks =
          (iterChunks (x.world.schedulers s).config.chunkSize (x.world.batches b).requests).length → x.calls = 1)) ∧
    (∀ e, x.world.Enabled e → OnlyOn s e → e.waitsFor x.world = some b → (x.world.step e).2 ≠ .running →
      (∃ error, e.Rejected error ∧ x.world.step e = (x.world, .raised error)) ∨
        ((x.world.step e).1.batches b).done = true ∧
          ((∃ value, (x.world.step e).2 = .returned value) ↔
            ((x.world.step e).1.batches b).error = none ∧ ∀ i error, e ≠ .cancel i error)) ∧
    (∀ error, x.world.Enabled (.callbackReturns (some error)) →
      (x.world.step (.callbackReturns (some error))).1.schedulers = x.world.schedulers) ∧
    (∀ e, x.world.Enabled e → OnlyOn s e → x.world.running b < (x.world.step e).1.running b →
      ((x.world.step e).1.schedulers s).active = none ∧
        ((x.world.step e).1.schedulers s).closed = (x.world.schedulers s).closed ∧
        ((x.world.step e).1.schedulers s).poisoned = (x.world.schedulers s).poisoned) := by
  obtain ⟨hnotes, halone⟩ := Attests.run hi hr
  refine ⟨fun hlt hd x' hr' => done_run halone (watch_reaches hr') hlt hd, fun hlt => ?_, fun e hen _ => step_tells hnotes hen,
    fun error hen => ?_, fun e hen ho hgrow => ?_⟩
  · have hnoted := hnotes.noted hlt
    have hcalls := hnoted.calls
    refine ⟨?_, fun hone => ?_, fun ho hd => ⟨fun hone => ?_, fun he => ?_⟩, fun hr' ho hall => ?_⟩
    · rw [hcalls]
      exact Bool.toNat_le _
    · obtain ⟨hd, ho⟩ := hnoted.settled.called (Bool.toNat_eq_one.mp (hcalls.symm.trans hone))
      exact ⟨ho, hd⟩
    · exact hnoted.error (Bool.toNat_eq_one.mp (hcalls.symm.trans hone))
    · cases hc : (x.world.batches b).callbackCalled with
      | true => rw [hcalls, hc]; rfl
      | false => exact absurd (he.trans (hnoted.silent hc)) (hnoted.settled.missed hd ho hc)
    · cases hc : (x.world.batches b).callbackCalled with
      | true => rw [hcalls, hc]; rfl
      | false =>
          have hlack := Lacking.run hi (watch_reaches (hr'.when_mono fun _ _ h => h.2))
          have hlt' := hlack.lacks b hlt (halone.scheduler b hlt) ho hc
          exact absurd hall (Nat.ne_of_lt hlt')
  · obtain ⟨b', caller, rest, hst⟩ := hen
    exact (step_returns (some error) hst).schedulers
  · obtain ⟨hlt, hrel⟩ := step_released halone hen hgrow
    have hsch := (halone.step hen ho).scheduler b hlt
    have ha := hrel.active
    rw [hsch] at ha
    exact ⟨ha, hrel.closed s, hrel.poisoned s⟩

/-- One QP of depth 2, with 8 bytes to read in chunks of 4: the callback is called, raises, and its error stays. -/
theorem batch_outcome_one_qp :
    let x := (watch 0).play ⟨World.fresh (.oneQp 2 4 (by decide) (by decide)), 0, none⟩
      [.call 0 (.submit [some (.bytes 8 (by decide))] .callable .calm), .call 0 (.progress 0 (.reports [2, 1])),
        .callbackReturns (some (.external false "full"))]
    x.calls = 1 ∧ (x.world.batches 0).error = some (.external false "full") ∧
      ∀ x', ((watch 0).when fun _ e => OnlyOn 0 e).Reaches x x' →
        (x'.world.batches 0).error = some (.external false "full") := by
  intro x
  have hplays : ((watch 0).when fun _ e => OnlyOn 0 e).Plays
      ⟨World.fresh (.oneQp 2 4 (by decide) (by decide)), 0, none⟩
      [.call 0 (.submit [some (.bytes 8 (by decide))] .callable .calm), .call 0 (.progress 0 (.reports [2, 1])),
        .callbackReturns (some (.external false "full"))] := by
    refine Machine.Plays.when (by decide) ?_
    rintro e he - self c rfl
    simp only [List.mem_cons, Event.call.injEq, reduceCtorEq, List.not_mem_nil, or_false] at he
    rcases he with ⟨rfl, -⟩ | ⟨rfl, -⟩ <;> rfl
  have herror : (x.world.batches 0).error = some (.external false "full") := by decide
  have hdone : (x.world.batches 0).done = true := by decide
  have hlt : 0 < x.world.nextBatch := by decide
  have hquiet : x.world.running 0 = 0 := by decide
  obtain ⟨hfinal, hcalls, -⟩ := batch_outcome (World.fresh_initial _) hplays.reaches
  refine ⟨((hcalls hlt).2.2.1 (by decide) hdone).mpr (herror.trans (by decide)), herror, ?_⟩
  intro x' hx'
  exact ((hfinal hlt hdone x' hx').2 hquiet).trans herror

/-- A suspended `wait_async` is cancelled after a call of `progress` has finished its batch: it raises, and the batch has
no error. -/
theorem finished_wait_cancelled :
    ¬ ∀ (w : World) (s : SchedulerId) (b : BatchId) (x : Watched) (e : Event), w.Initial →
      ((watch b).when fun _ e => OnlyOn s e).Reaches ⟨w, 0, none⟩ x → x.world.Enabled e → OnlyOn s e →
      e.waitsFor x.world = some b → (x.world.step e).2 ≠ .running → (∀ error, ¬ e.Rejected error) →
      ((∃ value, (x.world.step e).2 = .returned value) ↔ ((x.world.step e).1.batches b).error = none) := by
  intro h
  have hplays : ((watch 0).when fun _ e => OnlyOn 0 e).Plays
      ⟨World.fresh (.oneQp 2 4 (by decide) (by decide)), 0, none⟩
      [.call 0 (.submit [some (.bytes 8 (by decide))] .none .calm),
        .call 0 (.waitAsync 0 none 0 (.ok 0) ⟨.reports [], .ok 0, none⟩), .call 0 (.progress 0 (.reports [2, 1]))] := by
    refine Machine.Plays.when (by decide) ?_
    rintro e he - self c rfl
    simp only [List.mem_cons, Event.call.injEq, List.not_mem_nil, or_false] at he
    rcases he with ⟨rfl, -⟩ | ⟨rfl, -⟩ | ⟨rfl, -⟩ <;> rfl
  have hiff := h _ 0 0 _ (.cancel 0 (.external false "CancelledError")) (World.fresh_initial _) hplays.reaches
    (by decide) (by intro self c he; cases he) (by decide) (by decide) ?_
  · obtain ⟨value, hv⟩ := hiff.mpr (by decide)
    cases hv
  · rintro error ⟨self, b, timeout, idleSleep, start, env, he | he, -⟩
    · cases he
    · cases he

end Rdma4py.ReadScheduler
