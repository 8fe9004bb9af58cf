import Rdma4py.ReadScheduler.Lemmas.Progress

/-!
# What an event can change

Every event is a short sequence of changes to the schedulers and batches. An invariant of the process is proved for
each kind of change and then holds after every event.
-/

namespace Rdma4py.ReadScheduler

open Rdma4py.Lib

variable {w₀ w w' : World} {e : Event} {self : SchedulerId} {b : BatchId}

/-! ## What an event asks for -/

/-- The scheduler whose CQs an event may poll, and what they answer. -/
def Event.polls (w : World) : Event → Option (SchedulerId × ProgressEnv)
  | .call self (.progress _ env) => some (self, env)
  | .call self (.wait _ _ _ _ env) | .call self (.waitAsync _ _ _ _ env) => some (self, env.progress)
  | .iterate env => match w.stack with
      | .wait wt :: _ => some (wt.scheduler, env.progress)
      | _ => none
  | .resume i env => some ((w.task i).scheduler, env.progress)
  | _ => none

/-- The wait that an event enters or goes on with: on which scheduler and for which batch. -/
def Event.waiter (w : World) : Event → Option Waiter
  | .call self (.wait b timeout idleSleep start _) | .call self (.waitAsync b timeout idleSleep start _) =>
      (waitSetup self b timeout idleSleep start).toOption
  | .iterate _ => match w.stack with
      | .wait wt :: _ => some wt
      | _ => none
  | .resume i _ | .cancel i _ => some (w.task i)
  | _ => none

/-- An event goes into a wait for an unfinished batch that is not the active one of the scheduler. -/
def Misfires (w : World) (e : Event) : Prop :=
  ∃ wt, e.waiter w = some wt ∧ (w.batches wt.batch).done = false ∧ (w.schedulers wt.scheduler).active ≠ some wt.batch

/-- A QP transition of a `connect` raises, after its checks passed. -/
def ConnectRaises (s : Scheduler) (args : ConnectArgs) (env : ConnectEnv) : Prop :=
  ∃ psns maxRd maxDest,
    args.remoteMtus.length = s.config.qpCount ∧ perQpValues s.config.qpCount args.localPsns "local_psns" = .ok psns ∧
    atomicLimits { s with hasContext := s.hasContext || env.pdHasContext } args env = .ok (maxRd, maxDest) ∧
    (1 ≤ maxRd ∧ maxRd ≤ 255) ∧ (1 ≤ maxDest ∧ maxDest ≤ 255) ∧
    (connectQps args.mtu maxRd maxDest env ((List.range s.config.qpCount).zip (args.remoteMtus.zip psns))).2 ≠ none

/-! ## The changes -/

/-- How a `submit` that passed its checks leaves the new batch and its scheduler. -/
def SubmitEnds (env : RefillEnv) (b : BatchId) (x x' : Session) (total : Nat) : Prop :=
  (total = 0 ∧ x' = (finishSuccess x).1) ∨
  (total ≠ 0 ∧ ∃ s, refill env b x.scheduler = (s, none) ∧ x' = { x with scheduler := s }) ∨
  (total ≠ 0 ∧ ∃ s err, refill env b x.scheduler = (s, some err) ∧
    x' = failTransport { x with scheduler := s } err (some "posting RDMA reads failed"))

/-- One change that is made during the event `e` at the world `w₀`. -/
inductive Change (w₀ : World) (e : Event) : World → World → Prop
  /-- Calls begin and end. -/
  | control {w : World} (stack : List Frame) (tasks : List Waiter) :
      Change w₀ e w { w with stack := stack, tasks := tasks }
  /-- A callback raised. -/
  | callbackError {w : World} (b : BatchId) (error : Exn) :
      Change w₀ e w { w with batches := Function.update w.batches b { w.batches b with error := some error } }
  /-- An active batch fails outside of `progress`. -/
  | failed {w : World} (self : SchedulerId) (b : BatchId) (error : Exn) (hd : (w.batches b).done = false)
      (ha : (w.schedulers self).active = some b) :
      Change w₀ e w (w.put self b (failTransport (w.session self b) error none))
  /-- A batch fails on a scheduler where it is not active. -/
  | misfired {w : World} (self : SchedulerId) (b : BatchId) (error : Exn) (hd : (w.batches b).done = false)
      (ha : (w.schedulers self).active ≠ some b) (hm : Misfires w₀ e) :
      Change w₀ e w (w.put self b (failTransport (w.session self b) error none))
  | progressed {w : World} (self : SchedulerId) (b : BatchId) (env : ProgressEnv)
      (hw : w.schedulers = w₀.schedulers) (hp : e.polls w₀ = some (self, env))
      (hd : (w.batches b).done = false) (hs : (w.batches b).scheduler = self)
      (ha : (w.schedulers self).active = some b) :
      Change w₀ e w (w.put self b (progressBody env b (w.session self b)).1)
  | submitted (self : SchedulerId) (items : List (Option RdmaReadRequest)) (requests : List RdmaReadRequest)
      (oc : OnComplete) (env : RefillEnv) (x' : Session)
      (he : e = .call self (.submit items oc env)) (hi : items.mapM id = some requests)
      (hu : ensureUsable (w₀.schedulers self) = none) (ha : (w₀.schedulers self).active = none)
      (hx : SubmitEnds env w₀.nextBatch ((w₀.schedulers self).start self w₀.nextBatch requests oc) x'
        (totalChunks (w₀.schedulers self).config.chunkSize requests)) :
      Change w₀ e w₀ ({ w₀ with nextBatch := w₀.nextBatch + 1 }.put self w₀.nextBatch x')
  | connected (self : SchedulerId) (context : Bool) (transitions : List Transition) :
      Change w₀ e w₀ (w₀.setScheduler self { w₀.schedulers self with
        hasContext := context, provider := { (w₀.schedulers self).provider with transitions := transitions } })
  | disconnected (self : SchedulerId) (args : ConnectArgs) (env : ConnectEnv) (context : Bool)
      (transitions : List Transition) (he : e = .call self (.connect args env))
      (hr : ConnectRaises (w₀.schedulers self) args env) :
      Change w₀ e w₀ (w₀.setScheduler self (poisonResources { w₀.schedulers self with
        hasContext := context, provider := { (w₀.schedulers self).provider with transitions := transitions } }))
  | closed (self : SchedulerId) (env : Resource → Option Exn) (hc : (w₀.schedulers self).closed = false) :
      Change w₀ e w₀ (close w₀ self env).1

/-- A sequence of changes. -/
abbrev Changes (w₀ : World) (e : Event) : World → World → Prop := Relation.ReflTransGen (Change w₀ e)

/-! ## Events are sequences of changes -/

theorem ensureUsable_none {s : Scheduler} (h : ensureUsable s = none) : s.closed = false ∧ s.poisoned = false := by
  unfold ensureUsable at h
  split at h
  · cases h
  · split at h
    · cases h
    · next hc hp => exact ⟨by simpa using hc, by simpa using hp⟩

theorem validateBatch_none (h : validateBatch w self b = none) :
    (w.batches b).scheduler = self ∧ ((w.batches b).done = false → (w.schedulers self).active = some b) := by
  unfold validateBatch at h
  split at h
  · cases h
  · next hs =>
      split at h
      · cases h
      · next hd => exact ⟨not_not.mp hs, fun hf => not_not.mp fun ha => hd ⟨hf, ha⟩⟩

theorem localInfos_world (w : World) (self : SchedulerId) (psns : PerQp) (env : Option Exn) :
    (localInfos w self psns env).1 = w := by
  unfold localInfos
  split
  · rfl
  · split
    · rfl
    · split <;> rfl

theorem connect_changes (args : ConnectArgs) (env : ConnectEnv) (he : e = .call self (.connect args env)) :
    Changes w₀ e w₀ (connect w₀ self args env).1 := by
  have hctx : Change w₀ e w₀ (w₀.setScheduler self { w₀.schedulers self with
      hasContext := (w₀.schedulers self).hasContext || env.pdHasContext }) :=
    .connected self ((w₀.schedulers self).hasContext || env.pdHasContext) (w₀.schedulers self).provider.transitions
  unfold connect
  simp only
  split
  · exact .refl
  · split
    · exact .refl
    · next hlen =>
        split
        · exact .refl
        · next psns hpsns =>
            split
            · exact .single hctx
            · next maxRd maxDest hlim =>
                split
                · exact .single hctx
                · next hrd =>
                    split
                    · exact .single hctx
                    · next hdest =>
                        split
                        · next err herr =>
                            refine .single (.disconnected self args env _ _ he ?_)
                            exact ⟨psns, maxRd, maxDest, not_not.mp hlen, hpsns, hlim, not_not.mp hrd,
                              not_not.mp hdest, by rw [herr]; simp⟩
                        · exact .single (.connected self _ _)

theorem submit_changes (items : List (Option RdmaReadRequest)) (oc : OnComplete) (env : RefillEnv)
    (he : e = .call self (.submit items oc env)) : Changes w₀ e w₀ (submit w₀ self items oc env).1 := by
  unfold submit
  simp only
  split
  · exact .refl
  · next hu =>
      split
      · exact .refl
      · next ha =>
          have ha : (w₀.schedulers self).active = none := by simpa using ha
          split
          · exact .refl
          · split
            · exact .refl
            · next requests hi =>
                have hsub := fun x' hx => Change.submitted self items requests oc env x' he hi hu ha hx
                split
                · next hz =>
                    have hx := hsub _ (Or.inl ⟨hz, rfl⟩)
                    split
                    · next hf =>
                        simp only [Scheduler.start, hf] at hx
                        exact .tail (.single hx) (.control _ _)
                    · next hf =>
                        simp only [Scheduler.start, hf] at hx
                        exact .single hx
                · next hz =>
                    split
                    · next hr => exact .single (hsub _ (Or.inr (Or.inl ⟨hz, _, hr, rfl⟩)))
                    · next hr => exact .single (hsub _ (Or.inr (Or.inr ⟨hz, _, _, hr, rfl⟩)))

theorem close_changes (env : Resource → Option Exn) : Changes w₀ e w₀ (close w₀ self env).1 := by
  cases hc : (w₀.schedulers self).closed with
  | true => simp only [close, hc, if_true]; exact .refl
  | false => exact .single (.closed self env hc)

/-- `progress` rejects or returns at once, or runs its body on the active batch. -/
theorem progress_cases (w : World) (self : SchedulerId) (b : BatchId) (env : ProgressEnv) :
    (∃ error, progress w self b env = (w, .raised error) ∧
      ((w.batches b).done = true ∨ validateBatch w self b = some error)) ∨
    (progress w self b env = (w, .returned 0) ∧ (w.batches b).done = true) ∨
    ((w.batches b).done = false ∧ (w.batches b).scheduler = self ∧ (w.schedulers self).active = some b ∧
      progress w self b env =
        (w.put self b (progressBody env b (w.session self b)).1, (progressBody env b (w.session self b)).2)) := by
  unfold progress
  split
  · next error hv => exact Or.inl ⟨error, rfl, Or.inr hv⟩
  · next hv =>
      obtain ⟨hs, ha⟩ := validateBatch_none hv
      split
      · next hd =>
          split
          · exact Or.inl ⟨_, rfl, Or.inl hd⟩
          · exact Or.inr (Or.inl ⟨rfl, hd⟩)
      · next hd =>
          have hd : (w.batches b).done = false := by simpa using hd
          exact Or.inr (Or.inr ⟨hd, hs, ha hd, rfl⟩)

/-- While `progress` returns and the batch is unfinished, the batch stays active. -/
theorem progressBody_active {x : Session} {env : ProgressEnv} {n : Nat} (ha : x.scheduler.active = some b)
    (hr : (progressBody env b x).2 = .returned n) (hd : (progressBody env b x).1.batch.done = false) :
    (progressBody env b x).1.scheduler.active = some b := by
  rcases progressBody_cases env b x with ⟨x', _, _, he⟩ | ⟨x', _, hran, _, he⟩ | ⟨x', _, _, _, _, he⟩
  · rw [he] at hr; cases hr
  · rw [he, hran.works.scheduler.active]; exact ha
  · rw [he] at hd
    obtain ⟨_, hf⟩ := finishSuccess_eq x'
    simp [hf] at hd

theorem progressBody_raised {x : Session} {env : ProgressEnv} {error : Exn}
    (hr : (progressBody env b x).2 = .raised error) :
    (progressBody env b x).1.batch.done = true ∧ (progressBody env b x).1.batch.error ≠ none := by
  rcases progressBody_cases env b x with ⟨x', _, _, he⟩ | ⟨x', _, _, _, he⟩ | ⟨x', _, _, _, _, he⟩
  · rw [he]; exact ⟨rfl, Option.some_ne_none _⟩
  · rw [he] at hr; cases hr
  · rw [he] at hr
    split at hr <;> cases hr

@[simp] theorem put_schedulers_self (w : World) (self : SchedulerId) (b : BatchId) (x : Session) :
    (w.put self b x).schedulers self = x.scheduler := by simp [World.put]

@[simp] theorem put_batches_self (w : World) (self : SchedulerId) (b : BatchId) (x : Session) :
    (w.put self b x).batches b = x.batch := by simp [World.put]

/-- The handler of a wait fails the batch when it is unfinished. -/
theorem waitHandler_changes (wt : Waiter) (error : Exn)
    (h : (w.batches wt.batch).done = false → (w.schedulers wt.scheduler).active = some wt.batch ∨ Misfires w₀ e) :
    Changes w₀ e w (waitHandler w wt error).1 := by
  unfold waitHandler
  split
  · exact .refl
  · next hd =>
      have hd : (w.batches wt.batch).done = false := by simpa using hd
      by_cases ha : (w.schedulers wt.scheduler).active = some wt.batch
      · exact .single (.failed _ _ error hd ha)
      · exact .single (.misfired _ _ error hd ha ((h hd).resolve_left ha))

theorem waitTail_changes (wt : Waiter) (n : Nat) (clock : Except Exn Int) (sleep : Option Exn)
    (ha : (w.schedulers wt.scheduler).active = some wt.batch) (hd : (w.batches wt.batch).done = false) :
    Changes w₀ e w (waitTail w wt n clock sleep).1 := by
  have hhandler : ∀ error, Changes w₀ e w (waitHandler w wt error).1 :=
    fun error => waitHandler_changes wt error fun _ => Or.inl ha
  have hsleep : Changes w₀ e w (waitSleep w wt n sleep).1 := by
    unfold waitSleep
    split
    · split
      · exact hhandler _
      · exact .refl
    · exact .refl
  unfold waitTail
  split
  · exact hsleep
  · split
    · exact hhandler _
    · split
      · exact .single (.failed _ _ _ hd ha)
      · exact hsleep

/-- An iteration of a wait: `progress`, then perhaps a failure. -/
theorem waitIteration_changes (wt : Waiter) (env : WaitEnv) (hw : w.schedulers = w₀.schedulers)
    (hb : w.batches = w₀.batches) (hp : e.polls w₀ = some (wt.scheduler, env.progress))
    (hwt : e.waiter w₀ = some wt) : Changes w₀ e w (waitIteration w wt env).1 := by
  unfold waitIteration
  split
  · exact .refl
  · next hd =>
      have hd : (w.batches wt.batch).done = false := by simpa using hd
      have hmis : (w.schedulers wt.scheduler).active = some wt.batch ∨ Misfires w₀ e := by
        by_cases ha : (w.schedulers wt.scheduler).active = some wt.batch
        · exact Or.inl ha
        · exact Or.inr ⟨wt, hwt, by rw [← hb]; exact hd, by rw [← hw]; exact ha⟩
      rcases progress_cases w wt.scheduler wt.batch env.progress with ⟨error, he, _⟩ | ⟨_, hd'⟩ | ⟨_, hs, ha, he⟩
      · rw [he]
        exact waitHandler_changes wt error fun _ => hmis
      · rw [hd] at hd'; cases hd'
      · have hprog : Change w₀ e w (w.put wt.scheduler wt.batch
            (progressBody env.progress wt.batch (w.session wt.scheduler wt.batch)).1) :=
          .progressed wt.scheduler wt.batch env.progress hw hp hd hs ha
        rw [he]
        rcases hr : (progressBody env.progress wt.batch (w.session wt.scheduler wt.batch)).2 with error | n | n
        · refine .trans (.single hprog) (waitHandler_changes wt error fun hf => ?_)
          rw [put_batches_self, (progressBody_raised hr).1] at hf
          cases hf
        · simp only
          split
          · exact .single hprog
          · next hd' =>
              have hd' := by simpa using hd'
              refine .trans (.single hprog) (waitTail_changes wt n env.clock env.sleep ?_ (by simpa using hd'))
              rw [put_schedulers_self]
              exact progressBody_active ha hr hd'
        · exact .single hprog

theorem waitStretch_changes (wt : Waiter) (env : WaitEnv) (hw : w.schedulers = w₀.schedulers)
    (hb : w.batches = w₀.batches) (hp : e.polls w₀ = some (wt.scheduler, env.progress))
    (hwt : e.waiter w₀ = some wt) : Changes w₀ e w (waitStretch w wt env).1 := by
  have h := waitIteration_changes wt env hw hb hp hwt
  unfold waitStretch
  split <;> next he => rw [he] at h; first | exact h | exact h.tail (.control _ _)

theorem waitAsyncStretch_changes (wt : Waiter) (env : WaitEnv) (hw : w.schedulers = w₀.schedulers)
    (hb : w.batches = w₀.batches) (hp : e.polls w₀ = some (wt.scheduler, env.progress))
    (hwt : e.waiter w₀ = some wt) : Changes w₀ e w (waitAsyncStretch w wt env).1 := by
  have h := waitIteration_changes wt { env with sleep := none } hw hb hp hwt
  unfold waitAsyncStretch
  split <;> next he => rw [he] at h; first | exact h | exact h.tail (.control _ _)

theorem callbackReturns_changes (b : BatchId) (caller : Caller) (raised : Option Exn) :
    Changes w₀ e w (callbackReturns w b caller raised).1 := by
  unfold callbackReturns
  cases raised with
  | none => cases caller <;> exact .refl
  | some err => cases caller <;> exact .single (.callbackError b err)

theorem waitSetup_ok {timeout : Option Int} {idleSleep : Int} {start : Except Exn Int} {wt : Waiter}
    (h : waitSetup self b timeout idleSleep start = .ok wt) : wt.scheduler = self ∧ wt.batch = b := by
  unfold waitSetup at h
  split at h
  · cases h
  · split at h
    · cases h; exact ⟨rfl, rfl⟩
    · cases start with
      | error e => cases h
      | ok now => cases h; exact ⟨rfl, rfl⟩

theorem call_changes (self : SchedulerId) (c : Call) (he : e = .call self c) : Changes w₀ e w₀ (w₀.call self c).1 := by
  cases c with
  | localInfos psns env => rw [World.call, localInfos_world]
  | connect args env => exact connect_changes args env he
  | submit items oc env => exact submit_changes items oc env he
  | progress b env =>
      have hp : e.polls w₀ = some (self, env) := by rw [he]; rfl
      rw [World.call]
      rcases progress_cases w₀ self b env with ⟨error, hr, _⟩ | ⟨hr, _⟩ | ⟨hd, hs, ha, hr⟩
      · rw [hr]
      · rw [hr]
      · have hprog := Change.progressed (e := e) self b env rfl hp hd hs ha
        rw [hr]
        cases (progressBody env b (w₀.session self b)).2 with
        | raised error => exact .single hprog
        | returned n => exact .single hprog
        | callback n => exact .tail (.single hprog) (.control _ _)
  | wait b timeout idleSleep start env =>
      rw [World.call]
      split
      · exact .refl
      · next wt hset =>
          have hb : wt.scheduler = self ∧ wt.batch = b := waitSetup_ok hset
          refine waitStretch_changes wt env rfl rfl ?_ ?_
          · rw [he, hb.1, Event.polls]
          · rw [he, Event.waiter, hset]; rfl
  | waitAsync b timeout idleSleep start env =>
      rw [World.call]
      split
      · exact .refl
      · next wt hset =>
          have hb : wt.scheduler = self ∧ wt.batch = b := waitSetup_ok hset
          refine waitAsyncStretch_changes wt env rfl rfl ?_ ?_
          · rw [he, hb.1, Event.polls]
          · rw [he, Event.waiter, hset]; rfl
  | close env => exact close_changes env

/-- An enabled event is a sequence of changes. -/
theorem step_changes (h : w.Enabled e) : Changes w e w (w.step e).1 := by
  cases e with
  | call self c => exact call_changes self c rfl
  | iterate env =>
      obtain ⟨wt, rest, hst⟩ := h
      have hpop : Change w (.iterate env) w { w with stack := rest } := .control rest w.tasks
      rw [World.step, hst]
      exact .trans (.single hpop) (waitStretch_changes wt env rfl rfl (by simp [Event.polls, hst])
        (by simp [Event.waiter, hst]))
  | resume i env =>
      have hpop : Change w (.resume i env) w { w with tasks := w.tasks.eraseIdx i } := .control w.stack _
      exact .trans (.single hpop) (waitAsyncStretch_changes (w.task i) env rfl rfl rfl rfl)
  | cancel i err =>
      have hpop : Change w (.cancel i err) w { w with tasks := w.tasks.eraseIdx i } := .control w.stack _
      refine .trans (.single hpop) (waitHandler_changes (w.task i) err fun hd => ?_)
      by_cases ha : (w.schedulers (w.task i).scheduler).active = some (w.task i).batch
      · exact Or.inl ha
      · exact Or.inr ⟨w.task i, rfl, hd, ha⟩
  | callbackReturns raised =>
      obtain ⟨b, caller, rest, hst⟩ := h
      have hpop : Change w (.callbackReturns raised) w { w with stack := rest } := .control rest w.tasks
      rw [World.step, hst]
      exact .trans (.single hpop) (callbackReturns_changes b caller raised)

/-- What every change keeps holds after every event. -/
theorem step_invariant {I : World → Prop} (h : ∀ w₁ w₂, Change w e w₁ w₂ → I w₁ → I w₂) (hen : w.Enabled e)
    (hI : I w) : I (w.step e).1 := by
  have hch := step_changes hen
  generalize (w.step e).1 = w' at hch
  induction hch with
  | refl => exact hI
  | tail _ hc ih => exact h _ _ hc ih

end Rdma4py.ReadScheduler
