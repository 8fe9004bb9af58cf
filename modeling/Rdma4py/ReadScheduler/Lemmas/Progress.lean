import Rdma4py.ReadScheduler.Calls
import Rdma4py.ReadScheduler.Lemmas.Routing

/-!
# How a batch starts, goes on and ends

The inversion of `progress`, and the invariant of a batch through `submit` and `progress`.
-/

namespace Rdma4py.ReadScheduler

open Rdma4py.Lib

variable {env : ProgressEnv} {b : BatchId} {s s' : Scheduler} {x x' : Session} {n : Nat}

/-! ## The end of a batch -/

theorem closeOwned_eq (env : Resource → Option Exn) (s : Scheduler) :
    ∃ owns closes, (closeOwned env s).1 =
      { s with ownsResources := owns, provider := { s.provider with closes := closes } } := by
  unfold closeOwned
  split
  · exact ⟨_, _, rfl⟩
  · exact ⟨_, s.provider.closes, rfl⟩

theorem poisonResources_eq (s : Scheduler) :
    ∃ owns closes closed, (s.closed = true → closed = true) ∧ poisonResources s =
      { s with poisoned := true, closed := closed, ownsResources := owns
               provider := { s.provider with closes := closes } } := by
  unfold poisonResources
  split
  · obtain ⟨owns, closes, he⟩ := closeOwned_eq (fun _ => none) { s with poisoned := true, closed := true }
    exact ⟨owns, closes, true, fun _ => rfl, he⟩
  · exact ⟨_, s.provider.closes, _, id, rfl⟩

/-- What `_fail_transport` does to the scheduler. -/
theorem failTransport_scheduler (x : Session) (error : Exn) (message : Option String) :
    ∃ owns closes closed, (x.scheduler.closed = true → closed = true) ∧
      (failTransport x error message).scheduler =
        { x.scheduler with
          active := none, chunkIter := none, inputExhausted := true, pending := ∅, outstanding := fun _ => 0
          poisoned := true, closed := closed, ownsResources := owns
          provider := { x.scheduler.provider with closes := closes } } := by
  obtain ⟨owns, closes, closed, hc, he⟩ := poisonResources_eq { x.scheduler with
    active := none, chunkIter := none, inputExhausted := true, pending := ∅, outstanding := fun _ => 0 }
  exact ⟨owns, closes, closed, hc, he⟩

theorem finishSuccess_eq (x : Session) :
    ∃ called, (finishSuccess x).1 =
      ⟨{ x.scheduler with active := none, chunkIter := none },
        { x.batch with done := true, callbackCalled := called }⟩ := by
  unfold finishSuccess
  split
  · exact ⟨_, rfl⟩
  · exact ⟨_, rfl⟩

/-! ## The inversion of `progress` -/

/-- What `progress` leaves alone in the scheduler and in the batch until the batch ends. -/
structure Session.Works (b : BatchId) (x x' : Session) : Prop where
  scheduler : WorksFor b x.scheduler x'.scheduler
  batch : ∃ chunks bytes, x'.batch = { x.batch with completedChunks := chunks, completedBytes := bytes }

theorem Session.Routes.works (h : x.Routes b x') : x.Works b x' := by
  refine ⟨h.worksFor, ?_⟩
  obtain ⟨_, _, _, _, chunks, bytes, _, rfl⟩ := h
  exact ⟨chunks, bytes, rfl⟩

theorem Session.Works.refilled (h : x.Works b x') (env : RefillEnv) (b' : BatchId) (hb : b' = b) :
    x.Works b { x' with scheduler := (refill env b' x'.scheduler).1 } := by
  subst hb
  exact ⟨h.scheduler.trans (refill_worksFor env b' x'.scheduler), h.batch⟩

/-- The `try` block of `progress` up to the question whether the batch is drained. -/
def Ran (env : ProgressEnv) (b : BatchId) (x x' : Session) (n : Nat) : Prop :=
  ∃ x₁, pollCqs env b (List.range x.scheduler.config.qpCount) x 0 = (x₁, n, none) ∧
    ((n = 0 ∧ x' = x₁) ∨
      (n ≠ 0 ∧ ∃ s, refill env.refill b x₁.scheduler = (s, none) ∧ x' = { x₁ with scheduler := s }))

theorem Ran.works (h : Ran env b x x' n) : x.Works b x' := by
  obtain ⟨x₁, hp, h⟩ := h
  have hr := (pollCqs_routes env b (List.range x.scheduler.config.qpCount) x 0).works
  rw [hp] at hr
  rcases h with ⟨_, rfl⟩ | ⟨_, s, he, rfl⟩
  · exact hr
  · have := hr.refilled env.refill b rfl
    rwa [he] at this

/-- All that the body of `progress` can do: fail, go on, or finish the batch. -/
theorem progressBody_cases (env : ProgressEnv) (b : BatchId) (x : Session) :
    (∃ x' e, x.Works b x' ∧ progressBody env b x =
      (failTransport x' e (some "RDMA read progress failed"),
        .raised (transportError e (some "RDMA read progress failed")))) ∨
    (∃ x' n, Ran env b x x' n ∧ (x'.scheduler.inputExhausted = true → x'.scheduler.pending ≠ ∅) ∧
      progressBody env b x = (x', .returned n)) ∨
    (∃ x' n, Ran env b x x' n ∧ x'.scheduler.inputExhausted = true ∧ x'.scheduler.pending = ∅ ∧
      progressBody env b x =
        ((finishSuccess x').1, if (finishSuccess x').2 then .callback n else .returned n)) := by
  have hdrain : ∀ x' n, Ran env b x x' n →
      (finishIfDrained x' n = (x', .returned n) ∧
        (x'.scheduler.inputExhausted = true → x'.scheduler.pending ≠ ∅)) ∨
      (x'.scheduler.inputExhausted = true ∧ x'.scheduler.pending = ∅ ∧ finishIfDrained x' n =
        ((finishSuccess x').1, if (finishSuccess x').2 then .callback n else .returned n)) := by
    intro x' n _
    unfold finishIfDrained
    split
    · next h =>
        refine Or.inr ⟨h.1, Dict.isEmpty_iff.mp h.2, ?_⟩
        split
        · next he => simp [he]
        · next he => simp [he]
    · next h => exact Or.inl ⟨rfl, fun hex he => h ⟨hex, Dict.isEmpty_iff.mpr he⟩⟩
  have hroutes := pollCqs_routes env b (List.range x.scheduler.config.qpCount) x 0
  rw [progressBody, progressTry]
  rcases hp : pollCqs env b (List.range x.scheduler.config.qpCount) x 0 with ⟨x₁, n, _ | e⟩
  · rw [hp] at hroutes
    by_cases hn : n = 0
    · have hran : Ran env b x x₁ n := ⟨x₁, hp, Or.inl ⟨hn, rfl⟩⟩
      simp only [if_pos hn]
      rcases hdrain x₁ n hran with ⟨he, hne⟩ | ⟨hex, hem, he⟩
      · exact Or.inr (Or.inl ⟨x₁, n, hran, hne, by rw [he]⟩)
      · refine Or.inr (Or.inr ⟨x₁, n, hran, hex, hem, ?_⟩)
        rw [he]
        cases (finishSuccess x₁).2 <;> rfl
    · simp only [if_neg hn]
      rcases hre : refill env.refill b x₁.scheduler with ⟨s, _ | e⟩
      · have hran : Ran env b x { x₁ with scheduler := s } n := ⟨x₁, hp, Or.inr ⟨hn, s, hre, rfl⟩⟩
        rcases hdrain _ n hran with ⟨he, hne⟩ | ⟨hex, hem, he⟩
        · exact Or.inr (Or.inl ⟨_, n, hran, hne, by simp only [he]⟩)
        · refine Or.inr (Or.inr ⟨_, n, hran, hex, hem, ?_⟩)
          simp only [he]
          cases (finishSuccess { x₁ with scheduler := s }).2 <;> rfl
      · have hw := hroutes.works.refilled env.refill b rfl
        rw [hre] at hw
        exact Or.inl ⟨_, e, hw, rfl⟩
  · rw [hp] at hroutes
    exact Or.inl ⟨x₁, e, hroutes.works, rfl⟩

/-! ## `progress` keeps the invariant -/

theorem Flowing.of_refilled {batch : Batch} (h : Pipeline s b batch)
    (hfull : s.inputExhausted = true ∨ ∀ q < s.config.qpCount, s.outstanding q = s.config.queueDepth)
    (hne : s.inputExhausted = true → s.pending ≠ ∅) : Flowing s := by
  refine ⟨fun hex => hfull.resolve_left (by simp [hex]), ?_⟩
  cases hex : s.inputExhausted with
  | true => exact hne hex
  | false =>
      have h0 := hfull.resolve_left (by simp [hex]) 0 s.config.qpCount_pos
      exact h.accounts.pending_ne_empty (q := 0) (by rw [h0]; exact s.config.queueDepth_pos)

theorem Pipeline.ran (h : Pipeline x.scheduler b x.batch) (hflow : Flowing x.scheduler)
    (hroom : x.scheduler.config.RoomFor x.batch.requests) (hr : Ran env b x x' n) :
    Pipeline x'.scheduler b x'.batch ∧
      ((x'.scheduler.inputExhausted = true → x'.scheduler.pending ≠ ∅) → Flowing x'.scheduler) := by
  obtain ⟨x₁, hp, hend⟩ := hr
  obtain ⟨hpipe, _, hsame⟩ := h.polled hp
  have hroutes := pollCqs_routes env b (List.range x.scheduler.config.qpCount) x 0
  rw [hp] at hroutes
  have hcfg := hroutes.worksFor.config
  have hreq : x₁.batch.requests = x.batch.requests := by
    obtain ⟨_, _, he⟩ := hroutes.works.batch
    rw [he]
  have hex : x₁.scheduler.inputExhausted = x.scheduler.inputExhausted := by
    obtain ⟨_, _, _, _, _, _, _, rfl⟩ := hroutes; rfl
  rcases hend with ⟨hn, rfl⟩ | ⟨_, s, hre, rfl⟩
  · obtain ⟨hpend, hout⟩ := hsame hn
    refine ⟨hpipe, fun _ => ⟨fun he q hq => ?_, ?_⟩⟩
    · rw [hout, hcfg]
      rw [hcfg] at hq
      exact hflow.full (by rw [← hex]; exact he) q hq
    · rw [hpend]; exact hflow.pending
  · obtain ⟨hpipe', hfull⟩ := hpipe.refilled (by rw [hcfg, hreq]; exact hroom) hre
    exact ⟨hpipe', fun hne => .of_refilled hpipe' hfull hne⟩

/-! ## The start of a batch -/

/-- A batch that ended well: every chunk was posted once and completed once. -/
structure Delivered (s : Scheduler) (b : BatchId) (batch : Batch) : Prop where
  covered : ∃ chunks, AreFor (s.provider.postedFor b) chunks ∧
    chunks.Perm (iterChunks s.config.chunkSize batch.requests)
  completed : (s.provider.completedFor b).Perm ((s.provider.postedFor b).map SendWR.wrId)
  counted : batch.completedChunks = (iterChunks s.config.chunkSize batch.requests).length
  bytes : batch.completedBytes = batch.totalBytes

theorem Pipeline.delivered {batch : Batch} (h : Pipeline s b batch) (hex : s.inputExhausted = true)
    (hem : s.pending = ∅) : Delivered s b batch := by
  have hr := h.drained hex
  refine ⟨?_, ?_, ?_, ?_⟩
  · obtain ⟨chunks, hfor, hperm⟩ := h.covered
    rw [hr, List.append_nil] at hperm
    exact ⟨chunks, hfor, hperm⟩
  · have := h.matched
    rw [hem, AList.keys_empty, List.append_nil] at this
    exact this
  · have := h.counted
    rw [hr, hem, AList.keys_empty] at this
    exact this
  · have := h.bytes
    rw [hr, Scheduler.pendingChunks, hem] at this
    simpa [chunkBytes, Dict.values, AList.empty_entries] using this

/-- A scheduler that has nothing in flight. -/
structure Idle (s : Scheduler) : Prop where
  accounts : Accounts s
  pending : s.pending = ∅

theorem Pipeline.idle {batch : Batch} (h : Pipeline s b batch) (hem : s.pending = ∅) : Idle s := ⟨h.accounts, hem⟩

/-- The scheduler and the batch of a `submit` before anything is posted. -/
def Scheduler.start (s : Scheduler) (self : SchedulerId) (b : BatchId) (requests : List RdmaReadRequest)
    (onComplete : OnComplete) : Session where
  scheduler := { s with
    active := some b, chunkIter := some (iterChunks s.config.chunkSize requests)
    inputExhausted := totalChunks s.config.chunkSize requests = 0 }
  batch := Batch.new self requests (totalChunks s.config.chunkSize requests) (onComplete = .callable)

/-- There are no chunks to count exactly when there are no requests. -/
theorem totalChunks_eq_zero {chunkSize : Nat} (hc : 0 < chunkSize) {requests : List RdmaReadRequest} :
    totalChunks chunkSize requests = 0 ↔ requests = [] := by
  constructor
  · intro h
    cases requests with
    | nil => rfl
    | cons r rs =>
        have := ceil_trueDiv_pos r.length_pos hc
        simp only [totalChunks, List.map_cons, List.sum_cons] at h
        omega
  · rintro rfl; rfl

theorem iterChunks_ne_nil {chunkSize : Nat} (hc : 0 < chunkSize) {requests : List RdmaReadRequest}
    (h : requests ≠ []) : iterChunks chunkSize requests ≠ [] := by
  intro he
  have hsum := sum_lengths_iterChunks hc requests
  obtain ⟨r, rs, rfl⟩ := List.exists_cons_of_ne_nil h
  have := r.length_pos
  rw [he] at hsum
  simp only [List.map_nil, List.sum_nil, List.map_cons, List.sum_cons] at hsum
  omega

theorem Idle.started (h : Idle s) (hpost : s.provider.postedFor b = []) (hcomp : s.provider.completedFor b = [])
    (self : SchedulerId) (requests : List RdmaReadRequest) (oc : OnComplete) :
    Pipeline (s.start self b requests oc).scheduler b (s.start self b requests oc).batch := by
  have hk : s.pending.keys = [] := by rw [h.pending]; rfl
  refine ⟨⟨h.accounts.next_range, h.accounts.key_range, h.accounts.qp_lt, h.accounts.count, h.accounts.depth,
    h.accounts.inflight⟩, fun hex => ?_, ⟨[], ?_, ?_⟩, ?_, ?_, ?_⟩
  · have hz : totalChunks s.config.chunkSize requests = 0 := of_decide_eq_true hex
    rw [totalChunks_eq_zero s.config.chunkSize_pos] at hz
    subst hz; rfl
  · show AreFor (s.provider.postedFor b) []
    rw [hpost]; exact .nil
  · exact .refl _
  · show (s.provider.completedFor b ++ s.pending.keys).Perm ((s.provider.postedFor b).map SendWR.wrId)
    rw [hpost, hcomp, hk]; exact .refl _
  · show 0 + s.pending.keys.length + (iterChunks s.config.chunkSize requests).length =
      (iterChunks s.config.chunkSize requests).length
    rw [hk]; simp
  · show 0 + chunkBytes (s.pending.values.map PendingRead.chunk) + chunkBytes (iterChunks s.config.chunkSize requests) =
      (requests.map RdmaReadRequest.length).sum
    rw [h.pending, chunkBytes, chunkBytes, sum_lengths_iterChunks s.config.chunkSize_pos]
    simp [Dict.values, AList.empty_entries]

/-- The first refill of a batch with chunks leaves something pending. -/
theorem Pipeline.flowing_of_submit {batch : Batch} (h : Pipeline s b batch) (hzero : batch.completedChunks = 0)
    (hne : batch.requests ≠ [])
    (hfull : s.inputExhausted = true ∨ ∀ q < s.config.qpCount, s.outstanding q = s.config.queueDepth) : Flowing s := by
  refine .of_refilled h hfull fun hex hem => ?_
  have hcount := h.counted
  have hpos := List.length_pos_iff.mpr (iterChunks_ne_nil s.config.chunkSize_pos hne)
  rw [h.drained hex, hem, hzero] at hcount
  simp only [AList.keys_empty, List.length_nil] at hcount
  omega

end Rdma4py.ReadScheduler
