import Rdma4py.Lib.Outcome
import Rdma4py.ReadScheduler.Create
import Rdma4py.ReadScheduler.Lemmas.Ownership

/-!
# The stages of `create`

What passes the checks, what the loop leaves behind, and when the scheduler can be constructed.
-/

namespace Rdma4py.ReadScheduler

open Rdma4py.Lib

variable {a : CreateArgs} {env : CreateEnv} {x : Settings} {s : Scheduler}

/-! ## The checks -/

/-- The arguments pass the checks of `create`, with these values. -/
structure CreateArgs.Accepts (a : CreateArgs) (x : Settings) : Prop where
  qpCount : a.qpCount = .ok (x.qpCount : Int)
  qpCount_pos : 0 < x.qpCount
  queueDepth : a.queueDepth = .ok x.queueDepth
  queueDepth_pos : 0 < x.queueDepth
  chunkSize : a.chunkSize = .ok x.chunkSize
  chunkSize_pos : 0 < x.chunkSize
  chunkSize_le : x.chunkSize ≤ maxSgeLength
  pollBatch : ∀ p ∈ a.pollBatch, ∃ n, p.first = .ok n ∧ 0 < n
  cqSlack : a.cqSlack = .ok x.cqSlack
  cqSlack_nonneg : 0 ≤ x.cqSlack
  pd : a.pdContext.getD a.context = a.context

theorem refuse_eq_ok {bad : Prop} [Decidable bad] {text : String} {u : Unit} :
    refuse bad text = .ok u ↔ ¬ bad := by
  unfold refuse
  split
  · simp_all
  · simp_all

theorem checkPollBatch_eq_ok {pollBatch : Option PollBatch} {u : Unit} :
    checkPollBatch pollBatch = .ok u ↔ ∀ p ∈ pollBatch, ∃ n, p.first = .ok n ∧ 0 < n := by
  cases pollBatch with
  | none => simp [checkPollBatch]
  | some p =>
      rw [checkPollBatch, bind_eq, bind_eq_ok]
      simp [refuse_eq_ok]

theorem check_eq_ok : a.check = .ok x ↔ a.Accepts x := by
  unfold CreateArgs.check
  simp only [bind_eq, bind_eq_ok, pure_eq, Except.ok.injEq, refuse_eq_ok, checkPollBatch_eq_ok]
  constructor
  · rintro ⟨qpCount, hqp, queueDepth, hdepth, chunkSize, hchunk, cqSlack, hslack, -, hqp', -, hdepth', -, hchunk', -,
      hpoll, -, hslack', -, hpd, hx⟩
    subst hx
    have hcount : ((qpCount.toNat : Nat) : Int) = qpCount := Int.toNat_of_nonneg (by omega)
    exact
      { qpCount := by rw [hcount]; exact hqp
        qpCount_pos := by show 0 < qpCount.toNat; omega
        queueDepth := hdepth
        queueDepth_pos := by show 0 < queueDepth; omega
        chunkSize := hchunk
        chunkSize_pos := by show 0 < chunkSize; omega
        chunkSize_le := by show chunkSize ≤ maxSgeLength; omega
        pollBatch := hpoll
        cqSlack := hslack
        cqSlack_nonneg := by show 0 ≤ cqSlack; omega
        pd := not_not.mp hpd }
  · intro h
    have hqp := h.qpCount_pos
    have hdepth := h.queueDepth_pos
    have hchunk := h.chunkSize_pos
    have hchunk' := h.chunkSize_le
    have hslack := h.cqSlack_nonneg
    refine ⟨_, h.qpCount, _, h.queueDepth, _, h.chunkSize, _, h.cqSlack, (), by omega, (), by omega, (), by omega, (),
      h.pollBatch, (), by omega, (), not_not.mpr h.pd, ?_⟩
    rw [Int.toNat_natCast]

/-! ## The allocations -/

/-- No allocation raises. -/
def CreateEnv.Allocates (env : CreateEnv) (x : Settings) : Prop :=
  ∀ i < x.qpCount, env.createCq i (x.queueDepth + x.cqSlack) = none ∧
    env.createQp i (x.queueDepth + x.cqSlack) (max 1 x.cqSlack) = none

/-- The loop creates everything, or one of its calls raises. It closes nothing itself. -/
theorem allocate_cases (env : CreateEnv) (x : Settings) (is : List Nat) :
    (allocate env x is).closed = [] ∧
    (((∀ i ∈ is, env.createCq i (x.queueDepth + x.cqSlack) = none ∧
        env.createQp i (x.queueDepth + x.cqSlack) (max 1 x.cqSlack) = none) ∧
      (allocate env x is).result = .ok () ∧
        (allocate env x is).opened = is.flatMap fun i => [Resource.cq i, Resource.qp i]) ∨
    (¬ (∀ i ∈ is, env.createCq i (x.queueDepth + x.cqSlack) = none ∧
        env.createQp i (x.queueDepth + x.cqSlack) (max 1 x.cqSlack) = none) ∧
      ∃ e, (allocate env x is).result = .error e)) := by
  induction is with
  | nil => exact ⟨rfl, .inl ⟨by simp, rfl, rfl⟩⟩
  | cons i is ih =>
      obtain ⟨hclosed, ih⟩ := ih
      rw [allocate]
      cases hcq : env.createCq i (x.queueDepth + x.cqSlack) with
      | some e =>
          rw [Run.bind_of_error (e := e) rfl]
          exact ⟨rfl, .inr ⟨fun h => by simp [hcq] at h, e, rfl⟩⟩
      | none =>
          rw [Run.bind_of_ok (a := Resource.cq i) rfl]
          cases hqp : env.createQp i (x.queueDepth + x.cqSlack) (max 1 x.cqSlack) with
          | some e =>
              rw [Run.bind_of_error (e := e) rfl]
              exact ⟨rfl, .inr ⟨fun h => by simp [hqp] at h, e, rfl⟩⟩
          | none =>
              rw [Run.bind_of_ok (a := Resource.qp i) rfl]
              refine ⟨hclosed, ?_⟩
              rcases ih with ⟨hall, hresult, hopened⟩ | ⟨hnot, e, hresult⟩
              · refine .inl ⟨?_, hresult, ?_⟩
                · exact List.forall_mem_cons.mpr ⟨⟨hcq, hqp⟩, hall⟩
                · simp [Run.acquire, hopened]
              · exact .inr ⟨fun h => hnot (List.forall_mem_cons.mp h).2, e, hresult⟩

/-- What the loop created, in another order. -/
theorem created_perm (is : List Nat) :
    (is.flatMap fun i => [Resource.cq i, Resource.qp i]).Perm (is.map Resource.qp ++ is.map Resource.cq) := by
  induction is with
  | nil => exact .refl _
  | cons i is ih =>
      have hmiddle : (Resource.cq i :: (is.map Resource.qp ++ is.map Resource.cq)).Perm
          (is.map Resource.qp ++ Resource.cq i :: is.map Resource.cq) := List.perm_middle.symm
      refine (List.Perm.append_left [Resource.cq i, Resource.qp i] ih).trans ?_
      exact (List.Perm.swap (Resource.qp i) (Resource.cq i) _).trans (hmiddle.cons _)

/-! ## The construction -/

/-- `__init__` accepts what `create` hands to it. -/
structure CreateArgs.Constructible (a : CreateArgs) : Prop where
  clock : a.clockCallable = true
  pollBatch : ∀ p ∈ a.pollBatch, ∃ n, p.second = .ok n ∧ 0 < n

/-- The scheduler that `__init__` leaves owns its resources. -/
structure Constructed (qpCount : Nat) (s : Scheduler) : Prop where
  qpCount : s.config.qpCount = qpCount
  owns : s.ownsResources = true
  usable : ¬ Unusable s
  closes : s.provider.closes = []

theorem Constructed.owning {qpCount : Nat} (h : Constructed qpCount s) : Owning s := .inl ⟨h.owns, h.usable, h.closes⟩

theorem init_constructed {qps cqs : Nat} {queueDepth chunkSize : Int} {pollBatch : Option Int}
    {hasContext clockCallable : Bool}
    (h : Scheduler.init qps cqs queueDepth chunkSize pollBatch hasContext true clockCallable = .ok s) :
    Constructed qps s := by
  obtain ⟨hqps, hs⟩ := Scheduler.init_eq h
  refine ⟨hqps, ?_, ?_, ?_⟩
  · rw [hs]
  · rw [hs]
    simp [Unusable]
  · rw [hs]

theorem init_isOk {qps : Nat} {queueDepth chunkSize : Int} {pollBatch : Option Int} {hasContext clockCallable : Bool}
    (hqps : 0 < qps) (hdepth : 0 < queueDepth) (hchunk : 0 < chunkSize) (hchunk' : chunkSize ≤ maxSgeLength) :
    (∃ s, Scheduler.init qps qps queueDepth chunkSize pollBatch hasContext true clockCallable = .ok s) ↔
      clockCallable = true ∧ 0 < pollBatch.getD queueDepth := by
  unfold Scheduler.init
  rw [dif_neg (by omega), if_neg (not_not.mpr rfl), dif_neg (by omega), dif_neg (by omega)]
  split
  · constructor
    · rintro ⟨s, hs⟩
      cases hs
    · rintro ⟨-, hpos⟩
      omega
  · split
    · constructor
      · rintro ⟨s, hs⟩
        cases hs
      · rintro ⟨hclock, -⟩
        simp_all
    · constructor
      · intro _
        exact ⟨by simp_all, by omega⟩
      · intro _
        exact ⟨_, rfl⟩

theorem construct_constructed (h : a.construct x = .ok s) : Constructed x.qpCount s := by
  unfold CreateArgs.construct at h
  split at h
  · exact init_constructed h
  · rw [bind_eq, bind_eq_ok] at h
    obtain ⟨n, -, hinit⟩ := h
    exact init_constructed hinit

theorem construct_isOk (h : a.Accepts x) : (∃ s, a.construct x = .ok s) ↔ a.Constructible := by
  have hinit : ∀ pollBatch,
      (∃ s, Scheduler.init x.qpCount x.qpCount x.queueDepth x.chunkSize pollBatch true true a.clockCallable = .ok s) ↔
        a.clockCallable = true ∧ 0 < pollBatch.getD x.queueDepth := fun _ =>
    init_isOk h.qpCount_pos h.queueDepth_pos h.chunkSize_pos h.chunkSize_le
  have hdepth := h.queueDepth_pos
  unfold CreateArgs.construct
  split
  next hnone =>
    rw [hinit none]
    constructor
    · rintro ⟨hclock, -⟩
      exact ⟨hclock, by simp [hnone]⟩
    · rintro ⟨hclock, -⟩
      exact ⟨hclock, hdepth⟩
  next p hsome =>
    simp only [bind_eq, bind_eq_ok]
    constructor
    · rintro ⟨s, n, hsecond, hs⟩
      obtain ⟨hclock, hpos⟩ := (hinit (some n)).mp ⟨s, hs⟩
      refine ⟨hclock, ?_⟩
      intro p' hp'
      obtain rfl : p = p' := by simpa [hsome] using hp'
      exact ⟨n, hsecond, hpos⟩
    · rintro ⟨hclock, hpoll⟩
      obtain ⟨n, hsecond, hpos⟩ := hpoll p (by simp [hsome])
      obtain ⟨s, hs⟩ := (hinit (some n)).mpr ⟨hclock, hpos⟩
      exact ⟨s, n, hsecond, hs⟩

end Rdma4py.ReadScheduler
