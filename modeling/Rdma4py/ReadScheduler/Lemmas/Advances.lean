import Rdma4py.ReadScheduler.Lemmas.Fates

/-!
# What an event does to the batches

Every event but the return of a callback leaves all batches alone but one, whose callback it calls at most once. A
`submit` creates that batch first.
-/

namespace Rdma4py.ReadScheduler

open Rdma4py.Lib

variable {self : SchedulerId} {b b' : BatchId} {w w₁ w' : World} {e : Event} {n : Nat}

/-- From one world to the other the callback of `b` is called `n` times. -/
structure AdvancesBy (b : BatchId) (n : Nat) (w w' : World) : Prop extends Fates b n w w' where
  running : ∀ b', w'.running b' = w.running b' + if b' = b then n else 0
  called : n ≠ 0 → b < w.nextBatch ∧ Released b w w'

/-- The callback of some batch is called some times. -/
def Advances (w w' : World) : Prop := ∃ b n, AdvancesBy b n w w'

/-- A batch is created. -/
def World.enlist (w : World) (x : Batch) : World :=
  { w with nextBatch := w.nextBatch + 1, batches := Function.update w.batches w.nextBatch x }

theorem Fates.advances (h : Fates b 0 w w') (hr : ∀ b', w'.running b' = w.running b') : Advances w w' :=
  ⟨b, 0, h, fun b' => by rw [hr, ite_self, Nat.add_zero], fun hn => absurd rfl hn⟩

theorem Advances.refl (w : World) : Advances w w := (Fates.refl 0 w).advances fun _ => rfl

theorem Fates.advances_push (h : Fates b 1 w w') (hr : ∀ b', w'.running b' = w.running b') (hb : b < w.nextBatch)
    (hrel : Released b w w') (caller : Caller) : Advances w (w'.push (.callback b caller)) :=
  ⟨b, 1, ⟨h.batch, h.nextBatch⟩, fun b' => by rw [running_push, hr], fun _ => ⟨hb, hrel.active, hrel.closed, hrel.poisoned⟩⟩

/-! ## The methods -/

theorem waitStretch_advances {wt : Waiter} (env : WaitEnv) (hlt : wt.batch < w.nextBatch) :
    Advances w (waitStretch w wt env).1 := by
  obtain ⟨hst, -, -⟩ := waitIteration_control w wt env
  have hf := waitIteration_fates w wt env
  have hrel : (waitIteration w wt env).2.calls ≠ 0 → Released wt.batch w (waitIteration w wt env).1 :=
    waitIteration_released
  unfold waitStretch
  rcases hr : waitIteration w wt env with ⟨w₁, o | _ | _⟩ <;> rw [hr] at hst hf hrel
  · exact hf.advances (running_of_stack hst)
  · exact hf.advances_push (running_of_stack hst) hlt (hrel Nat.one_ne_zero) .wait
  · have hrun : ∀ b, (w₁.push (.wait wt)).running b = w.running b := fun b => running_of_stack hst b
    exact Fates.advances ⟨hf.batch, hf.nextBatch⟩ hrun

theorem waitAsyncStretch_advances {wt : Waiter} (env : WaitEnv) (hlt : wt.batch < w.nextBatch) :
    Advances w (waitAsyncStretch w wt env).1 := by
  obtain ⟨hst, -, -⟩ := waitIteration_control w wt { env with sleep := none }
  have hf := waitIteration_fates w wt { env with sleep := none }
  have hrel : (waitIteration w wt { env with sleep := none }).2.calls ≠ 0 →
      Released wt.batch w (waitIteration w wt { env with sleep := none }).1 := waitIteration_released
  unfold waitAsyncStretch
  rcases hr : waitIteration w wt { env with sleep := none } with ⟨w₁, o | _ | _⟩ <;> rw [hr] at hst hf hrel
  · exact hf.advances (running_of_stack hst)
  · exact hf.advances_push (running_of_stack hst) hlt (hrel Nat.one_ne_zero) .wait
  · have hrun : ∀ b, ({ w₁ with tasks := w₁.tasks ++ [wt] } : World).running b = w.running b := running_of_stack hst
    exact Fates.advances ⟨hf.batch, hf.nextBatch⟩ hrun

theorem connect_advances (args : ConnectArgs) (env : ConnectEnv) : Advances w (connect w self args env).1 := by
  have hset : ∀ s, Advances w (w.setScheduler self s) := fun _ =>
    Fates.advances (.of_batches 0 rfl rfl) fun _ => rfl
  unfold connect
  simp only
  split
  · exact .refl w
  · split
    · exact .refl w
    · split
      · exact .refl w
      · split
        · exact hset _
        · split
          · exact hset _
          · split
            · exact hset _
            · split <;> exact hset _

theorem close_advances (env : Resource → Option Exn) : Advances w (close w self env).1 := by
  unfold close
  simp only
  split
  · exact .refl w
  · split
    · exact Fates.advances (.of_batches 0 rfl rfl) fun _ => rfl
    · next a _ =>
        split
        · exact Fates.advances (.of_batches 0 rfl rfl) fun _ => rfl
        · next hd =>
            -- The batch that was active fails.
            refine Fates.advances (b := a) ⟨fun b' => ?_, rfl⟩ fun _ => rfl
            rw [ite_self]
            by_cases hb : b' = a
            · subst hb
              have hfail := Fate.failed (w.batches b').completedChunks (w.batches b').completedBytes
                (.rdmaReadError "RDMA read scheduler closed with work in flight") (by simpa using hd)
              simpa only [World.setScheduler, Function.update_self] using hfail
            · simp only [World.setScheduler, Function.update_of_ne hb]
              exact .refl _

theorem progress_advances (b : BatchId) (env : ProgressEnv) (hlt : b < w.nextBatch) :
    Advances w (w.call self (.progress b env)).1 := by
  rw [World.call]
  rcases progress_cases w self b env with ⟨error, hr, _⟩ | ⟨hr, _⟩ | ⟨hd, hs, _, hr⟩ <;> rw [hr]
  · exact .refl w
  · exact .refl w
  · have hprog := fates_put self (progressBody_fate env b (y := w.session self b) hd)
    cases hp : (progressBody env b (w.session self b)).2 with
    | raised error =>
        rw [hp] at hprog
        exact hprog.advances fun _ => rfl
    | returned m =>
        rw [hp] at hprog
        exact hprog.advances fun _ => rfl
    | callback m =>
        obtain ⟨hbatch, ha, hc, hpo⟩ := progressBody_called hp
        rw [hp] at hprog
        exact hprog.advances_push (fun _ => rfl) hlt (released_put (hbatch.trans hs) ha hc hpo) (.progress m)

/-! ## `submit` -/

theorem enlist_put (w : World) (self : SchedulerId) (x : Batch) (y : Session) :
    (w.enlist x).put self w.nextBatch y = { w with nextBatch := w.nextBatch + 1 }.put self w.nextBatch y := by
  simp [World.put, World.enlist]

theorem enlist_batch (w : World) (x : Batch) : (w.enlist x).batches w.nextBatch = x := by
  simp [World.enlist]

theorem finishSuccess_spec {x y : Session} {called : Bool} (h : finishSuccess x = (y, called))
    (hd : x.batch.done = false) :
    Fate x.batch y.batch called.toNat ∧ y.batch.scheduler = x.batch.scheduler ∧ y.scheduler.active = none ∧
      y.scheduler.closed = x.scheduler.closed ∧ y.scheduler.poisoned = x.scheduler.poisoned := by
  have hf := finishSuccess_fate hd
  obtain ⟨_, he⟩ := finishSuccess_eq x
  rw [h] at hf he
  have he : y = _ := he
  refine ⟨hf, ?_⟩
  rw [he]
  exact ⟨rfl, rfl, rfl, rfl⟩

/-- A `submit` that is rejected changes nothing, and one that is not creates a batch first. -/
theorem submit_advances (w : World) (self : SchedulerId) (items : List (Option RdmaReadRequest)) (oc : OnComplete)
    (env : RefillEnv) :
    Advances w (submit w self items oc env).1 ∨
      ∃ requests total called,
        Advances (w.enlist (.new self requests total called)) (submit w self items oc env).1 := by
  unfold submit
  simp only
  split
  · exact Or.inl (.refl w)
  · split
    · exact Or.inl (.refl w)
    · split
      · exact Or.inl (.refl w)
      · split
        · exact Or.inl (.refl w)
        · next requests _ =>
            refine Or.inr ⟨requests, totalChunks (w.schedulers self).config.chunkSize requests,
              decide (oc = .callable), ?_⟩
            generalize hx : Batch.new self requests (totalChunks (w.schedulers self).config.chunkSize requests)
              (decide (oc = .callable)) = x
            have hopen : x.done = false := by rw [← hx]; rfl
            have hsch : x.scheduler = self := by rw [← hx]; rfl
            have hput : ∀ (y : Session) m, Fate x y.batch m →
                Fates w.nextBatch m (w.enlist x) ({ w with nextBatch := w.nextBatch + 1 }.put self w.nextBatch y) := by
              intro y m hf
              rw [← enlist_put w self x y]
              exact fates_put self (by rwa [enlist_batch])
            split
            · split
              · next y hcalled =>
                  obtain ⟨hfin, hs, ha, hc, hp⟩ := finishSuccess_spec hcalled hopen
                  refine (hput y 1 hfin).advances_push (fun _ => rfl) (Nat.lt_succ_self _) ?_ .submit
                  rw [← enlist_put w self x y]
                  exact released_put (hs.trans hsch) ha hc hp
              · next y hcalled =>
                  obtain ⟨hfin, -⟩ := finishSuccess_spec hcalled hopen
                  exact (hput y 0 hfin).advances fun _ => rfl
            · split
              · next s _ => exact (hput ⟨s, x⟩ 0 (.refl x)).advances fun _ => rfl
              · next s error _ => exact (hput _ 0 (failTransport_fate (y := ⟨s, x⟩) error _ hopen)).advances fun _ => rfl

/-! ## Events -/

/-- The batches advance, after one was created if the event is a `submit` that is not rejected. -/
def Goes (w w' : World) : Prop :=
  Advances w w' ∨ ∃ self requests total called, Advances (w.enlist (.new self requests total called)) w'

theorem call_goes {c : Call} (hb : ∀ b ∈ c.batch?, b < w.nextBatch) : Goes w (w.call self c).1 := by
  cases c with
  | localInfos psns env =>
      rw [World.call, localInfos_world]
      exact Or.inl (.refl w)
  | connect args env => exact Or.inl (connect_advances args env)
  | submit items oc env => exact (submit_advances w self items oc env).imp_right fun h => ⟨self, h⟩
  | progress b env => exact Or.inl (progress_advances b env (hb b rfl))
  | wait b timeout idleSleep start env =>
      rw [World.call]
      split
      · exact Or.inl (.refl w)
      · next wt hset =>
          obtain ⟨-, hwt⟩ := waitSetup_ok hset
          exact Or.inl (waitStretch_advances env (by rw [hwt]; exact hb b rfl))
  | waitAsync b timeout idleSleep start env =>
      rw [World.call]
      split
      · exact Or.inl (.refl w)
      · next wt hset =>
          obtain ⟨-, hwt⟩ := waitSetup_ok hset
          exact Or.inl (waitAsyncStretch_advances env (by rw [hwt]; exact hb b rfl))
  | close env => exact Or.inl (close_advances env)

/-- What was in progress before the stretch of a wait began. -/
theorem Advances.of_same (h : Advances w₁ w') (hn : w₁.nextBatch = w.nextBatch) (hb : w₁.batches = w.batches)
    (hs : w₁.schedulers = w.schedulers) (hr : ∀ b, w₁.running b = w.running b) : Advances w w' := by
  obtain ⟨b, n, ⟨hfate, hnext⟩, hrun, hcalled⟩ := h
  refine ⟨b, n, ⟨fun b' => ?_, hnext.trans hn⟩, fun b' => ?_, fun hne => ?_⟩
  · rw [← hb]
    exact hfate b'
  · rw [hrun, hr]
  · obtain ⟨hlt, ha, hc, hp⟩ := hcalled hne
    exact ⟨hn ▸ hlt, ha, fun s => by rw [hc, hs], fun s => by rw [hp, hs]⟩

/-- Every event but the return of a callback. -/
theorem step_goes (hen : w.Enabled e) (hwait : ∀ wt ∈ w.waiters, wt.batch < w.nextBatch)
    (he : ∀ raised, e ≠ .callbackReturns raised) : Goes w (w.step e).1 := by
  cases e with
  | call self c => exact call_goes hen.2.1
  | iterate env =>
      obtain ⟨wt, rest, hst⟩ := hen
      have hlt : wt.batch < w.nextBatch := hwait wt (List.mem_append_right _ (by rw [hst]; exact List.mem_cons_self))
      have hrun : ∀ b, ({ w with stack := rest } : World).running b = w.running b := by
        intro b
        rw [World.running, World.running, hst]
        rfl
      rw [World.step, hst]
      exact Or.inl ((waitStretch_advances (w := { w with stack := rest }) env hlt).of_same rfl rfl rfl hrun)
  | resume i env =>
      have hlt : (w.task i).batch < w.nextBatch := hwait _ (task_mem hen.2)
      exact Or.inl ((waitAsyncStretch_advances (w := { w with tasks := w.tasks.eraseIdx i }) env hlt).of_same rfl rfl
        rfl fun _ => rfl)
  | cancel i error =>
      have hfates := waitHandler_fates { w with tasks := w.tasks.eraseIdx i } (w.task i) error
      have hstack := (waitHandler_control { w with tasks := w.tasks.eraseIdx i } (w.task i) error).1
      exact Or.inl ((hfates.advances (running_of_stack hstack)).of_same rfl rfl rfl fun _ => rfl)
  | callbackReturns raised => exact absurd rfl (he raised)

/-- What the return of a callback does: its batch takes the error. -/
structure Returns (b : BatchId) (raised : Option Exn) (w w' : World) : Prop where
  nextBatch : w'.nextBatch = w.nextBatch
  schedulers : w'.schedulers = w.schedulers
  batch : w'.batches b = { w.batches b with error := raised.or (w.batches b).error }
  others : ∀ b' ≠ b, w'.batches b' = w.batches b'
  running : ∀ b', w.running b' = w'.running b' + if b' = b then 1 else 0

theorem step_returns (raised : Option Exn) {caller : Caller} {rest : List Frame}
    (hst : w.stack = .callback b caller :: rest) : Returns b raised w (w.step (.callbackReturns raised)).1 := by
  have hrun : ∀ b', w.running b' = ({ w with stack := rest } : World).running b' + if b' = b then 1 else 0 := by
    intro b'
    have hpush := running_push { w with stack := rest } b b' caller
    rwa [World.push, ← hst] at hpush
  rw [World.step, hst]
  cases raised with
  | none => cases caller <;> exact ⟨rfl, rfl, rfl, fun _ _ => rfl, hrun⟩
  | some error =>
      cases caller <;>
        exact ⟨rfl, rfl, Function.update_self .., fun _ hb => Function.update_of_ne hb .., hrun⟩

end Rdma4py.ReadScheduler
