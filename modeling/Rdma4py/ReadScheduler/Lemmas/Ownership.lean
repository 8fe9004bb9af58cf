import Rdma4py.ReadScheduler.Lemmas.Frames

/-!
# Who owns the QPs and CQs

A scheduler that owns its QPs and CQs closes them all when it is closed or poisoned, and not before.
-/

namespace Rdma4py.ReadScheduler

open Rdma4py.Lib

variable {s s' : Scheduler} {self : SchedulerId} {b : BatchId} {w w' w₀ : World} {e : Event}

/-- The QPs and then the CQs, each in reverse. -/
def Config.resources (c : Config) : List Resource :=
  (List.range c.qpCount).reverse.map Resource.qp ++ (List.range c.qpCount).reverse.map Resource.cq

theorem Config.nodup_resources (c : Config) : c.resources.Nodup := by
  have hrange : (List.range c.qpCount).reverse.Nodup := List.nodup_reverse.mpr List.nodup_range
  refine List.nodup_append.mpr ⟨hrange.map ?_, hrange.map ?_, ?_⟩
  · intro i j h
    exact Resource.qp.inj h
  · intro i j h
    exact Resource.cq.inj h
  · rintro r hr r' hr' rfl
    obtain ⟨i, -, rfl⟩ := List.mem_map.mp hr
    obtain ⟨j, -, h⟩ := List.mem_map.mp hr'
    exact nomatch h

/-- Either the scheduler owns its resources and closed none, or it closed them all. -/
def Owning (s : Scheduler) : Prop :=
  (s.ownsResources = true ∧ ¬ Unusable s ∧ s.provider.closes = []) ∨
    (s.ownsResources = false ∧ s.closed = true ∧ s.provider.closes = s.config.resources)

/-- The same in what ownership is about. -/
structure SameOwner (s s' : Scheduler) : Prop where
  config : s'.config = s.config
  owns : s'.ownsResources = s.ownsResources
  closed : s'.closed = s.closed
  poisoned : s'.poisoned = s.poisoned
  closes : s'.provider.closes = s.provider.closes

theorem Owning.same (h : Owning s) (hs : SameOwner s s') : Owning s' := by
  rw [Owning, Unusable, hs.config, hs.owns, hs.closed, hs.poisoned, hs.closes]
  exact h

theorem Keeps.sameOwner (h : Keeps b s s') : SameOwner s s' := ⟨h.config, h.owns, h.closed, h.poisoned, h.closes⟩

theorem finishSuccess_sameOwner (x : Session) : SameOwner x.scheduler (finishSuccess x).1.scheduler := by
  obtain ⟨_, he⟩ := finishSuccess_eq x
  rw [he]
  exact ⟨rfl, rfl, rfl, rfl, rfl⟩

/-! ## The three ways of closing -/

/-- `_close_owned` closes everything once, and nothing a second time. -/
theorem closeOwned_owning (env : Resource → Option Exn) (h : s.ownsResources = true ∧ s.provider.closes = [] ∨
    s.ownsResources = false ∧ s.provider.closes = s.config.resources) (hc : s.closed = true) :
    Owning (closeOwned env s).1 := by
  refine .inr ?_
  rcases h with ⟨howns, hnone⟩ | ⟨howns, hall⟩
  · simp [closeOwned, howns, hnone, hc, Config.resources]
  · simp [closeOwned, howns, hall, hc]

theorem poisonResources_owning (h : Owning s) : Owning (poisonResources s) := by
  rcases h with ⟨howns, -, hnone⟩ | ⟨howns, hc, hall⟩
  · rw [poisonResources, if_pos howns]
    exact closeOwned_owning _ (.inl ⟨howns, hnone⟩) rfl
  · rw [poisonResources, if_neg (by simp [howns])]
    exact .inr ⟨howns, hc, hall⟩

theorem close_scheduler (env : Resource → Option Exn) (hc : (w.schedulers self).closed = false) :
    (close w self env).1.schedulers self = (closeOwned env { w.schedulers self with
      active := none, pending := ∅, outstanding := fun _ => 0, closed := true }).1 := by
  simp only [close, hc, Bool.false_eq_true, if_false, World.setScheduler, Function.update_self]

/-! ## Changes and runs -/

/-- A property of a scheduler that depends on what ownership is about and is kept by the ways of closing. -/
structure Ownership (P : Scheduler → Prop) : Prop where
  same : ∀ {s s'}, P s → SameOwner s s' → P s'
  poisonResources : ∀ {s}, P s → P (poisonResources s)
  closeOwned : ∀ {s} (env : Resource → Option Exn), P s → P (closeOwned env { s with
    active := none, pending := ∅, outstanding := fun _ => 0, closed := true }).1

theorem ownership_owning : Ownership Owning where
  same := Owning.same
  poisonResources := poisonResources_owning
  closeOwned env h := closeOwned_owning env (h.imp (fun h => ⟨h.1, h.2.2⟩) fun h => ⟨h.1, h.2.2⟩) rfl

/-- The caller has created the QPs and CQs. -/
def Injected (s : Scheduler) : Prop := s.ownsResources = false

theorem ownership_injected : Ownership Injected where
  same h hs := hs.owns.trans h
  poisonResources {s} h := by
    have h : s.ownsResources = false := h
    simp [ReadScheduler.poisonResources, Injected, h]
  closeOwned {s} env h := by
    have h : s.ownsResources = false := h
    simp [ReadScheduler.closeOwned, Injected, h]

variable {P : Scheduler → Prop}

theorem Ownership.failTransport (hP : Ownership P) {x : Session} (h : P x.scheduler) (error : Exn)
    (message : Option String) : P (failTransport x error message).scheduler :=
  hP.poisonResources (hP.same h ⟨rfl, rfl, rfl, rfl, rfl⟩)

theorem Ownership.progressBody (hP : Ownership P) (env : ProgressEnv) {x : Session} (h : P x.scheduler) :
    P (progressBody env b x).1.scheduler := by
  rcases progressBody_cases env b x with ⟨x', err, hw, he⟩ | ⟨x', n, hran, -, he⟩ | ⟨x', n, hran, -, -, he⟩
  · rw [he]
    exact hP.failTransport (hP.same h hw.scheduler.sameOwner) err _
  · rw [he]
    exact hP.same h hran.works.scheduler.sameOwner
  · rw [he]
    exact hP.same (hP.same h hran.works.scheduler.sameOwner) (finishSuccess_sameOwner x')

theorem Ownership.submitEnds (hP : Ownership P) {env : RefillEnv} {x x' : Session} {total : Nat}
    (hx : SubmitEnds env b x x' total) (h : P x.scheduler) : P x'.scheduler := by
  have hkeeps := (refill_worksFor env b x.scheduler).sameOwner
  rcases hx with ⟨-, rfl⟩ | ⟨-, s, hr, rfl⟩ | ⟨-, s, err, hr, rfl⟩
  · exact hP.same h (finishSuccess_sameOwner x)
  · rw [hr] at hkeeps
    exact hP.same h hkeeps
  · rw [hr] at hkeeps
    exact hP.failTransport (x := { x with scheduler := s }) (hP.same h hkeeps) err _

theorem Ownership.change (hP : Ownership P) (hc : Change w₀ e w w') (s : SchedulerId) (h : P (w.schedulers s)) :
    P (w'.schedulers s) := by
  have hput : ∀ (self : SchedulerId) (b : BatchId) (x : Session),
      (s = self → P x.scheduler) → P ((w.put self b x).schedulers s) := by
    intro self b x hx
    rw [put_schedulers]
    split
    next heq => exact hx heq
    next => exact h
  cases hc with
  | control stack tasks => exact h
  | callbackError b error => exact h
  | failed self b error | misfired self b error =>
      refine hput self b _ ?_
      rintro rfl
      exact hP.failTransport h error none
  | progressed self b env =>
      refine hput self b _ ?_
      rintro rfl
      exact hP.progressBody env h
  | submitted self items requests oc env x' _ _ _ _ hx =>
      refine hput self w.nextBatch x' ?_
      rintro rfl
      exact hP.submitEnds hx (hP.same h ⟨rfl, rfl, rfl, rfl, rfl⟩)
  | connected self context transitions =>
      by_cases heq : s = self
      · subst heq
        simp only [World.setScheduler, Function.update_self]
        exact hP.same h ⟨rfl, rfl, rfl, rfl, rfl⟩
      · simpa [World.setScheduler, heq] using h
  | disconnected self args env context transitions =>
      by_cases heq : s = self
      · subst heq
        simp only [World.setScheduler, Function.update_self]
        exact hP.poisonResources (hP.same h ⟨rfl, rfl, rfl, rfl, rfl⟩)
      · simpa [World.setScheduler, heq] using h
  | closed self env hopen =>
      by_cases heq : s = self
      · subst heq
        rw [close_scheduler env hopen]
        exact hP.closeOwned env h
      · rw [(close_closes env hopen).others s heq]
        exact h

theorem Ownership.run (hP : Ownership P) (hr : process.Reaches w w') (s : SchedulerId) (h : P (w.schedulers s)) :
    P (w'.schedulers s) :=
  hr.invariant (I := fun w => P (w.schedulers s))
    (fun _ _ hs hen => step_invariant (I := fun w => P (w.schedulers s)) (fun _ _ hc h => hP.change hc s h) hen hs) h

end Rdma4py.ReadScheduler
