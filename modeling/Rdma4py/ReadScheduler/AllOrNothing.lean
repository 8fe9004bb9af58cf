import Rdma4py.ReadScheduler.Lemmas.Create

/-!
# Creation is all-or-nothing

A `create` that raises has closed what it created, unless it is the construction of the scheduler that raises: it stands
behind the handler.
-/

namespace Rdma4py.ReadScheduler

open Rdma4py.Lib

variable {a : CreateArgs} {env : CreateEnv} {x : Settings} {s : Scheduler}

/-- The QPs come before the CQs. -/
def QpsFirst (l : List Resource) : Prop := ∃ qps cqs : List Nat, l = qps.map Resource.qp ++ cqs.map Resource.cq

/-- In every run: as long as the scheduler is neither closed nor poisoned, it closes nothing; then it has closed its QPs
and CQs, and nothing else. -/
def Releases (s : Scheduler) : Prop :=
  ∀ (w w' : World) (self : SchedulerId), w.schedulers self = s → process.Reaches w w' →
    (¬ Unusable (w'.schedulers self) → (w'.schedulers self).provider.closes = []) ∧
      (Unusable (w'.schedulers self) → (w'.schedulers self).provider.closes = s.config.resources)

/-- What is asked of a creation: one that raises has closed everything it created, QPs before CQs; one that returns gives
a scheduler that owns what was created, `qp_count` QPs and as many CQs, and closes each of them once. -/
structure AllOrNothing (a : CreateArgs) (run : Run Resource Exn Scheduler) : Prop where
  raised : ∀ e, run.result = .error e → run.closed.Perm run.opened ∧ QpsFirst run.closed
  returned : ∀ s, run.result = .ok s →
    a.qpCount = .ok (s.config.qpCount : Int) ∧ s.ownsResources = true ∧ run.closed = [] ∧
      run.opened.Perm s.config.resources ∧ s.config.resources.Nodup ∧ Releases s

theorem Constructed.releases {qpCount : Nat} (h : Constructed qpCount s) : Releases s := by
  rintro w w' self rfl hr
  have hconfig : (w'.schedulers self).config = (w.schedulers self).config := by
    refine hr.invariant (I := fun w' => (w'.schedulers self).config = (w.schedulers self).config) ?_ rfl
    intro w₁ e heq hen
    exact step_invariant (I := fun w' => (w'.schedulers self).config = (w.schedulers self).config)
      (fun _ _ hc heq => (change_config hc self).trans heq) hen heq
  rcases ownership_owning.run hr self h.owning with ⟨-, husable, hnone⟩ | ⟨-, hclosed, hall⟩
  · exact ⟨fun _ => hnone, fun hunusable => absurd hunusable husable⟩
  · exact ⟨fun husable => absurd (.inr hclosed) husable, fun _ => hall.trans (by rw [hconfig])⟩

/-! ## The handler -/

/-- The handler closes what was created, QPs before CQs. -/
theorem closeCreated_closed (created : List Resource) :
    (closeCreated created).closed.Perm created ∧ QpsFirst (closeCreated created).closed := by
  constructor
  · refine .trans ?_ (List.filter_append_perm Resource.isQp created)
    exact (List.reverse_perm _).append (List.reverse_perm _)
  · have hnames : ∀ l : List Resource, (∃ is : List Nat, l.filter Resource.isQp = is.map Resource.qp) ∧
        ∃ is : List Nat, (l.filter fun r => !r.isQp) = is.map Resource.cq := by
      intro l
      induction l with
      | nil => exact ⟨⟨[], rfl⟩, [], rfl⟩
      | cons r l ih =>
          obtain ⟨⟨qps, hqps⟩, cqs, hcqs⟩ := ih
          cases r with
          | qp i => exact ⟨⟨i :: qps, by simp [List.filter_cons, hqps]⟩, cqs, by simp [hcqs]⟩
          | cq i => exact ⟨⟨qps, by simp [hqps]⟩, i :: cqs, by simp [hcqs]⟩
    obtain ⟨⟨qps, hqps⟩, cqs, hcqs⟩ := hnames created
    refine ⟨qps.reverse, cqs.reverse, ?_⟩
    rw [List.map_reverse, List.map_reverse, ← hqps, ← hcqs]
    rfl

theorem resources_perm (n : Nat) (c : Config) (hc : c.qpCount = n) :
    ((List.range n).flatMap fun i => [Resource.cq i, Resource.qp i]).Perm c.resources := by
  subst hc
  refine (created_perm _).trans ?_
  exact ((List.reverse_perm _).symm.map _).append ((List.reverse_perm _).symm.map _)

/-! ## How `create` ends -/

/-- An argument is refused and nothing was created; or an allocation raises and what was created is closed; or everything
was created, and the construction decides. -/
theorem create_cases (a : CreateArgs) (env : CreateEnv) :
    ((∀ x, ¬ a.Accepts x) ∧ ∃ e, create a env = Run.raise e) ∨
    (∃ x, a.Accepts x ∧ ¬ env.Allocates x ∧ (∃ e, (create a env).result = .error e) ∧
      (create a env).closed.Perm (create a env).opened ∧ QpsFirst (create a env).closed) ∨
    (∃ x, a.Accepts x ∧ env.Allocates x ∧ create a env =
      ⟨a.construct x, (List.range x.qpCount).flatMap fun i => [Resource.cq i, Resource.qp i], []⟩) := by
  cases hcheck : a.check with
  | error e =>
      refine .inl ⟨?_, e, ?_⟩
      · intro x hx
        rw [check_eq_ok.mpr hx] at hcheck
        exact nomatch hcheck
      · rw [create, hcheck]
        exact Run.eval_bind_error e _
  | ok x =>
      have hx := check_eq_ok.mp hcheck
      rw [create, hcheck, Run.eval_bind_ok]
      obtain ⟨hclosed, hends⟩ := allocate_cases env x (List.range x.qpCount)
      simp only [List.mem_range] at hends
      rcases hends with ⟨hall, hresult, hopened⟩ | ⟨hnot, e, hresult⟩
      · refine .inr (.inr ⟨x, hx, hall, ?_⟩)
        rw [Run.onError_of_ok hresult, Run.bind_of_ok hresult, hopened, hclosed]
        simp [Run.eval]
      · refine .inr (.inl ⟨x, hx, hnot, ?_⟩)
        obtain ⟨hperm, hfirst⟩ := closeCreated_closed (allocate env x (List.range x.qpCount)).opened
        rw [Run.onError_of_error hresult rfl, Run.bind_of_error (e := e) rfl]
        refine ⟨⟨e, rfl⟩, ?_, ?_⟩
        · simpa [hclosed, closeCreated, Run.release] using hperm
        · simpa [hclosed] using hfirst

/-- The condition: when every argument is accepted and every allocation succeeds, the clock is callable and `poll_batch`
converts to a positive number the second time too. -/
def CreateArgs.HoldsWhen (a : CreateArgs) (env : CreateEnv) : Prop :=
  ∀ x, a.Accepts x → env.Allocates x → a.Constructible

/-- Creation is all-or-nothing exactly under that condition. -/
theorem create_all_or_nothing (a : CreateArgs) (env : CreateEnv) :
    AllOrNothing a (create a env) ↔ a.HoldsWhen env := by
  rcases create_cases a env with ⟨hrefused, e, he⟩ | ⟨x, hx, hnot, ⟨e, he⟩, hperm, hfirst⟩ | ⟨x, hx, hall, hrun⟩
  · rw [he]
    constructor
    · intro _ x hx
      exact absurd hx (hrefused x)
    · intro _
      refine ⟨fun _ _ => ⟨.refl _, [], [], rfl⟩, ?_⟩
      intro s hs
      exact nomatch hs
  · constructor
    · intro _ x' hx' hall
      obtain rfl : x = x' := Except.ok.inj ((check_eq_ok.mpr hx).symm.trans (check_eq_ok.mpr hx'))
      exact absurd hall hnot
    · intro _
      refine ⟨fun _ _ => ⟨hperm, hfirst⟩, ?_⟩
      intro s hs
      rw [he] at hs
      exact nomatch hs
  · constructor
    · intro h x' hx' _
      obtain rfl : x = x' := Except.ok.inj ((check_eq_ok.mpr hx).symm.trans (check_eq_ok.mpr hx'))
      by_contra hnot
      rw [← construct_isOk hx] at hnot
      cases hconstruct : a.construct x with
      | ok s => exact hnot ⟨s, hconstruct⟩
      | error e =>
          -- nothing is closed, but at least one CQ is open
          obtain ⟨hperm, -⟩ := h.raised e (by rw [hrun, hconstruct])
          rw [hrun] at hperm
          have hcq : Resource.cq 0 ∈ (List.range x.qpCount).flatMap fun i => [Resource.cq i, Resource.qp i] :=
            List.mem_flatMap.mpr ⟨0, List.mem_range.mpr hx.qpCount_pos, by simp⟩
          exact absurd (hperm.mem_iff.mpr hcq) List.not_mem_nil
    · intro h
      obtain ⟨s, hs⟩ := (construct_isOk hx).mpr (h x hx hall)
      have hc := construct_constructed hs
      rw [hrun, hs]
      refine ⟨?_, ?_⟩
      · intro e he
        exact nomatch he
      · intro s' hs'
        obtain rfl : s = s' := Except.ok.inj hs'
        refine ⟨?_, hc.owns, rfl, resources_perm _ _ hc.qpCount, s.config.nodup_resources, hc.releases⟩
        rw [hc.qpCount]
        exact hx.qpCount

/-- The arguments of a call with `clock=None`. -/
def withoutClock : CreateArgs := { clockCallable := false, context := 0, pdContext := some 0 }

/-- All allocations succeed. -/
def CreateEnv.calm : CreateEnv := ⟨fun _ _ => none, fun _ _ _ => none⟩

/-- The construction raises `TypeError`, and a CQ and a QP stay open. -/
theorem clock_not_callable :
    (create withoutClock .calm).result.isOk = false ∧
      (create withoutClock .calm).opened = [.cq 0, .qp 0] ∧ (create withoutClock .calm).closed = [] ∧
        ¬ AllOrNothing withoutClock (create withoutClock .calm) := by
  have hopened : (create withoutClock .calm).opened = [.cq 0, .qp 0] := by decide
  have hclosed : (create withoutClock .calm).closed = [] := by decide
  have hraised : ∃ e, (create withoutClock .calm).result = .error e := ⟨_, rfl⟩
  obtain ⟨e, he⟩ := hraised
  refine ⟨by rw [he]; rfl, hopened, hclosed, ?_⟩
  intro h
  have hlength := (h.raised e he).1.length_eq
  rw [hopened, hclosed] at hlength
  exact nomatch hlength

end Rdma4py.ReadScheduler
