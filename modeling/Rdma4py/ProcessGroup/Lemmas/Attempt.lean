import Rdma4py.ProcessGroup.Lemmas.Group
import Rdma4py.ProcessGroup.Lemmas.Reconfigure

/-!
# When a failed attempt closes everything

The `try` block of `_reconfigure` closes the lanes, the exported state and the sockets that its variables hold. What stays
open was opened before it, or is an accepted socket that never became one of the variables.
-/

namespace Rdma4py.ProcessGroup.Env

open Lib Run

variable {env : Env} {qps created : Nat}

/-! ## The `try` block -/

/-- What the variables hold. -/
def Locals.held (x : Locals) : List Resource :=
  x.nextSocket.toList ++ x.prevSocket.toList ++ x.gpunetio.elim [] Exported.close

/-- The request is sent to the next member. -/
structure RequestSent (env : Env) : Prop where
  connects : Connects env.connects
  sent : env.raises .sendRequest = none

/-- The variables before the block. -/
def Locals.start : Locals := ⟨none, none, none, none⟩

theorem requestSteps_cases (env : Env) :
    (RequestSent env ∧ runSteps env.requestSteps .start =
      ⟨.ok ({ Locals.start with nextSocket := some .nextSocket }, none), [.nextSocket], []⟩) ∨
    (¬ RequestSent env ∧ ∃ y e, (runSteps env.requestSteps .start).result = .ok (y, some e)) := by
  rcases connectUntil_cases env env.connects with ⟨hc, hrun⟩ | ⟨hc, e, hrun⟩
  · have hfirst : (env.connectUntil env.connects >>= fun sock =>
        pure { Locals.start with nextSocket := some sock } : Run Resource Exn Locals) =
        ⟨.ok { Locals.start with nextSocket := some .nextSocket }, [.nextSocket], []⟩ := by
      rw [hrun]
      rfl
    cases hs : env.raises .sendRequest with
    | none =>
        refine .inl ⟨⟨hc, hs⟩, ?_⟩
        rw [requestSteps, runSteps_cons_of_ok (congrArg Run.result hfirst), hfirst]
        simp only [runSteps, callStep, Env.call, hs]
        rfl
    | some e =>
        refine .inr ⟨fun h => by simp [h.sent] at hs, { Locals.start with nextSocket := some .nextSocket }, e, ?_⟩
        rw [requestSteps, runSteps_cons_of_ok (congrArg Run.result hfirst)]
        simp only [runSteps, callStep, Env.call, hs]
        rfl
  · refine .inr ⟨fun h => hc h.connects, .start, e, ?_⟩
    have hfirst : (env.connectUntil env.connects >>= fun sock =>
        pure { Locals.start with nextSocket := some sock } : Run Resource Exn Locals).result = .error e := by
      rw [hrun]
      rfl
    rw [requestSteps, runSteps_cons_of_error hfirst]

theorem keeps_requestSteps (env : Env) :
    Keeps Locals.held (fun x => x = .start) (fun x => x.prevSocket = none ∧ x.gpunetio = none) env.requestSteps := by
  refine Keeps.cons (keeps_one ?_ ?_) (keeps_callStep _)
  · intro x e _ h
    rcases connectUntil_cases env env.connects with ⟨hc, hrun⟩ | ⟨hc, e, hrun⟩
    · rw [hrun] at h
      cases h
    · rw [hrun]
      intro r hr
      cases hr
  · intro x x' hx h
    rcases connectUntil_cases env env.connects with ⟨hc, hrun⟩ | ⟨hc, e, hrun⟩
    · rw [hrun] at h ⊢
      cases h
      rw [hx]
      refine ⟨fun r hr => .inr ?_, List.nil_subset _, rfl, rfl⟩
      have hmem : r ∈ [Resource.nextSocket] ++ [] := hr
      simpa [Locals.held, Locals.start] using hmem
    · rw [hrun] at h
      cases h

theorem keeps_acceptStep (h : ¬ Drops env.arrivals) :
    Keeps Locals.held (fun x => x.prevSocket = none ∧ x.gpunetio = none) (fun x => x.gpunetio = none)
      [env.acceptStep] := by
  have haccept : AcceptsCleanly (acceptMember env.arrivals 0) := by
    rcases acceptMember_cases env.arrivals 0 with ⟨_, h⟩ | ⟨hd, _⟩
    · exact h
    · exact absurd hd h
  apply keeps_one
  · intro x e _ he
    rw [acceptStep] at he ⊢
    cases hr : (acceptMember env.arrivals 0).result with
    | error e =>
        rw [bind_of_error hr]
        exact haccept.raised e hr
    | ok sock =>
        rw [bind_of_ok hr] at he
        cases he
  · rintro x x' ⟨hprev, hgpu⟩ hx
    rw [acceptStep] at hx ⊢
    cases hr : (acceptMember env.arrivals 0).result with
    | error e =>
        rw [bind_of_error hr] at hx
        cases hx
    | ok sock =>
        rw [bind_of_ok hr] at hx ⊢
        cases hx
        refine ⟨fun r hmem => ?_, fun r hmem => ?_, hgpu⟩
        · rcases haccept.returned sock hr r (by simpa using hmem) with hc | hs
          · exact .inl (List.mem_append_left _ hc)
          · refine .inr ?_
            rw [List.mem_singleton.mp hs]
            simp [Locals.held]
        · simp only [Locals.held, hprev, hgpu, Option.toList_none, Option.elim_none, List.append_nil] at hmem
          exact List.mem_append_left _ (List.mem_append_left _ hmem)

theorem keeps_responseSteps (env : Env) (lanes : Lanes) :
    Keeps Locals.held (fun x => x.gpunetio = none) (fun _ => True) (env.responseSteps lanes) := by
  have hquiet : Keeps Locals.held (fun x => x.gpunetio = none) (fun x => x.gpunetio = none)
      ([fun x => (do
          env.laneInfos true lanes.incoming
          env.call (.bufferInfo true)
          return x),
        env.callStep .sendResponse, env.callStep .recvResponse, env.callStep .checkResponse, env.callStep .qpInfos] ++
        (lanes.outgoing ++ lanes.incoming).map (fun n => env.callStep (.connectRc n))) := by
    apply keeps_quiet
    intro f hf
    simp only [List.cons_append, List.nil_append, List.mem_cons, List.mem_map] at hf
    rcases hf with rfl | rfl | rfl | rfl | rfl | ⟨n, -, rfl⟩
    · constructor
      · intro x
        exact (silent_laneInfos _ _ _).bind fun _ => (silent_call _).bind fun _ => silent_pure _
      · intro x x' h
        obtain ⟨_, _, h⟩ := bind_ok_iff.mp h
        obtain ⟨_, _, h⟩ := bind_ok_iff.mp h
        cases h
        rfl
    · exact quiet_callStep _
    · exact quiet_callStep _
    · exact quiet_callStep _
    · exact quiet_callStep _
    · exact quiet_callStep _
  refine hquiet.append (Keeps.cons (Q := fun x => x.gpunetio = none)
    (keeps_one ?_ ?_) (keeps_one ?_ ?_))
  · intro x e _ h
    cases hb : env.nextBuffers with
    | error e =>
        intro r hr
        cases hr
    | ok buffers =>
        simp only [hb] at h
        cases h
  · intro x x' hx h
    cases hb : env.nextBuffers with
    | error e =>
        simp only [hb] at h
        cases h
    | ok buffers =>
        simp only [hb] at h
        cases h
        exact ⟨fun r hr => (by cases hr), List.Subset.refl _, hx⟩
  · intro x e _ h
    cases hr : (env.exportGpunetio lanes).result with
    | error e =>
        rw [bind_of_error hr]
        exact (exportGpunetio_clean env lanes).1 e hr
    | ok state =>
        rw [bind_of_ok hr] at h
        cases h
  · intro x x' hx h
    cases hr : (env.exportGpunetio lanes).result with
    | error e =>
        rw [bind_of_error hr] at h
        cases h
    | ok state =>
        rw [bind_of_ok hr] at h ⊢
        cases h
        refine ⟨fun r hmem => ?_, fun r hmem => ?_, trivial⟩
        · rcases (exportGpunetio_clean env lanes).2 state hr r (by simpa using hmem) with hc | hs
          · exact .inl (by simpa using hc)
          · exact .inr (List.mem_append_right _ hs)
        · simp only [Locals.held, hx, Option.elim_none, List.append_nil] at hmem
          exact List.mem_append_left _ hmem

/-- The statements of the block. -/
def blockSteps (env : Env) (lanes : Lanes) : List (Locals → Run Resource Exn Locals) :=
  env.requestSteps ++ env.acceptStep :: env.responseSteps lanes

theorem connect_eq (env : Env) (lanes : Lanes) :
    env.connect lanes = tryBlock (env.blockSteps lanes) .start (handler lanes) final := rfl

theorem connect_of_some {lanes : Lanes} {y : Locals} {e : Exn}
    (h : (runSteps (env.blockSteps lanes) .start).result = .ok (y, some e)) :
    env.connect lanes = ⟨.error e, (runSteps (env.blockSteps lanes) .start).opened,
      (runSteps (env.blockSteps lanes) .start).closed ++ (y.gpunetio.elim [] Exported.close ++
        laneResources (lanes.outgoing ++ lanes.incoming).reverse ++ (y.nextSocket.toList ++ y.prevSocket.toList))⟩ := by
  rw [connect_eq, tryBlock_of_some h rfl rfl]
  simp [handler, final, closeLanes, release, laneResources, bind_of_ok]

/-- Without a dropped socket, the variables hold what the statements leave open. -/
theorem blockSteps_holds (h : ¬ (RequestSent env ∧ Drops env.arrivals)) {lanes : Lanes} {y : Locals} {err : Option Exn}
    (hy : (runSteps (env.blockSteps lanes) .start).result = .ok (y, err)) :
    (runSteps (env.blockSteps lanes) .start).Holds y.held := by
  by_cases hd : Drops env.arrivals
  · rcases requestSteps_cases env with ⟨hs, _⟩ | ⟨_, y', e, hraised⟩
    · exact absurd ⟨hs, hd⟩ h
    · rcases runSteps_append env.requestSteps (env.acceptStep :: env.responseSteps lanes) .start with
        ⟨_, _, _, hrun⟩ | ⟨_, hok, _⟩
      · rw [blockSteps, hrun] at hy ⊢
        exact (keeps_requestSteps env _ rfl _ _ hy).1
      · rw [hraised] at hok
        cases hok
  · have hkeeps := (keeps_requestSteps env).append ((keeps_acceptStep hd).cons (keeps_responseSteps env lanes))
    exact (hkeeps _ rfl _ _ hy).1

/-- Unless an accepted socket is dropped, the block closes the lanes and what it opened itself. -/
theorem connect_clean (h : ¬ (RequestSent env ∧ Drops env.arrivals)) {lanes : Lanes} {e : Exn}
    (he : (env.connect lanes).result = .error e) :
    (env.connect lanes).Clean ∧ lanes.held ⊆ (env.connect lanes).closed := by
  obtain ⟨y, err, hy⟩ := runSteps_result (env.blockSteps lanes) .start
  cases err with
  | none =>
      rw [connect_eq, tryBlock_of_none hy rfl] at he
      cases he
  | some e' =>
      rw [connect_of_some hy]
      refine ⟨fun r hr => ?_, fun r hr => ?_⟩
      · rcases blockSteps_holds h hy r hr with hc | hheld
        · exact List.mem_append_left _ hc
        · refine List.mem_append_right _ ?_
          simp only [Locals.held, List.mem_append] at hheld ⊢
          tauto
      · refine List.mem_append_right _ (List.mem_append_left _ (List.mem_append_right _ ?_))
        exact laneResources_reverse.mpr hr

/-- An accepted socket that is dropped stays open, and it is all that stays open. -/
theorem connect_leaves (hs : RequestSent env) (hd : Drops env.arrivals) (lanes : Lanes) :
    (∃ e, (env.connect lanes).result = .error e) ∧
      (∃ r ∈ (env.connect lanes).opened, r ∉ lanes.held ∧ r ∉ (env.connect lanes).closed) ∧
      lanes.held ⊆ (env.connect lanes).closed ∧
      ∀ r ∈ (env.connect lanes).opened, r ∈ (env.connect lanes).closed ∨ ∃ k, r = .accepted k := by
  have hrequest : runSteps env.requestSteps .start =
      ⟨.ok ({ Locals.start with nextSocket := some .nextSocket }, none), [.nextSocket], []⟩ := by
    rcases requestSteps_cases env with ⟨_, h⟩ | ⟨h, _⟩
    · exact h
    · exact absurd hs h
  obtain ⟨⟨e, he⟩, k, -, hopened, hclosed⟩ : LeavesOpen 0 (acceptMember env.arrivals 0) := by
    rcases acceptMember_cases env.arrivals 0 with ⟨h, _⟩ | ⟨_, h⟩
    · exact absurd hd h
    · exact h
  have haccept : env.acceptStep { Locals.start with nextSocket := some .nextSocket } =
      ⟨.error e, (acceptMember env.arrivals 0).opened, (acceptMember env.arrivals 0).closed⟩ := by
    rw [acceptStep, bind_of_error he]
  have hrest := runSteps_cons_of_error (congrArg Run.result haccept) (env.responseSteps lanes)
  have hblock : runSteps (env.blockSteps lanes) .start =
      ⟨.ok ({ Locals.start with nextSocket := some .nextSocket }, some e),
        .nextSocket :: (acceptMember env.arrivals 0).opened, (acceptMember env.arrivals 0).closed⟩ := by
    rcases runSteps_append env.requestSteps (env.acceptStep :: env.responseSteps lanes) .start with
      ⟨_, _, hraised, _⟩ | ⟨y, hok, hr, ho, hc⟩
    · rw [hrequest] at hraised
      cases hraised
    · rw [hrequest] at hok ho hc
      cases hok
      rw [hrest, haccept] at hr ho hc
      cases hrun : runSteps (env.requestSteps ++ env.acceptStep :: env.responseSteps lanes) .start with
      | mk result opened closed =>
          rw [hrun] at hr ho hc
          rw [blockSteps, hrun]
          simp_all
  rw [connect_of_some (congrArg Run.result hblock), hblock]
  refine ⟨⟨e, rfl⟩, ⟨.accepted k, List.mem_cons_of_mem _ hopened, ?_, ?_⟩, fun r hr => ?_, fun r hr => ?_⟩
  · simp [Lanes.held, mem_laneResources]
  · simp [hclosed, mem_laneResources, Locals.start]
  · refine List.mem_append_right _ (List.mem_append_left _ (List.mem_append_right _ ?_))
    exact laneResources_reverse.mpr hr
  · rcases List.mem_cons.mp hr with rfl | hr
    · exact .inl (by simp)
    · exact .inr (acceptMember_opened _ _ r hr)

/-! ## The attempt -/

/-- All lanes are open when the request cannot be put together. -/
def LanesDropped (env : Env) (qps created : Nat) : Prop := LanesOpen env qps created ∧ ¬ RequestReady env qps created

theorem createLanes_of_open (ho : LanesOpen env qps created) :
    (env.createLanes qps created).result = .ok (lanesOf qps created) ∧ (env.createLanes qps created).closed = [] ∧
      (∀ r ∈ (env.createLanes qps created).opened, r ∈ (lanesOf qps created).held) ∧
      ∀ i < qps, .cq (created + 2 * i) ∈ (env.createLanes qps created).opened := by
  rcases createLanes_cases env qps created with ⟨_, hr, hc, hheld, hopened⟩ | ⟨hno, _⟩
  · refine ⟨hr, hc, fun r hmem => ?_, hopened⟩
    rcases hheld r hmem with hclosed | hlane
    · rw [hc] at hclosed
      cases hclosed
    · exact hlane
  · exact absurd ho hno

theorem attempt_of_not_open (ho : ¬ LanesOpen env qps created) :
    ∃ e, (env.attempt qps created).result = .error e ∧ (env.attempt qps created).Clean := by
  rcases createLanes_cases env qps created with ⟨hyes, _⟩ | ⟨_, e, hr, hclean⟩
  · exact absurd hyes ho
  · rw [attempt, bind_of_error hr]
    exact ⟨e, rfl, hclean⟩

theorem attempt_of_dropped (h : LanesDropped env qps created) :
    ∃ e, env.attempt qps created = ⟨.error e, (env.createLanes qps created).opened, []⟩ := by
  obtain ⟨hr, hc, -⟩ := createLanes_of_open h.1
  have hsilent := silent_request env (lanesOf qps created)
  cases hres : (env.request (lanesOf qps created)).result with
  | ok u => exact absurd (request_ok_iff.mp hres) h.2
  | error e =>
      refine ⟨e, ?_⟩
      rw [attempt, bind_of_ok hr, bind_of_error hres, hsilent.opened, hsilent.closed, hc, List.append_nil, List.append_nil]

theorem attempt_of_ready (ho : LanesOpen env qps created) (hq : RequestReady env qps created) :
    env.attempt qps created = ⟨(env.connect (lanesOf qps created)).result,
      (env.createLanes qps created).opened ++ (env.connect (lanesOf qps created)).opened,
      (env.connect (lanesOf qps created)).closed⟩ := by
  obtain ⟨hr, hc, -⟩ := createLanes_of_open ho
  have hsilent := silent_request env (lanesOf qps created)
  rw [attempt, bind_of_ok hr, bind_of_ok (request_ok_iff.mpr hq), hsilent.opened, hsilent.closed, hc]
  rfl

/-- Unless its lanes are dropped, at most an accepted socket is left open. -/
theorem attempt_closes (h : ¬ LanesDropped env qps created) {e : Exn} (he : (env.attempt qps created).result = .error e) :
    ∀ r ∈ (env.attempt qps created).opened, r ∈ (env.attempt qps created).closed ∨ ∃ k, r = .accepted k := by
  by_cases ho : LanesOpen env qps created
  · have hready : RequestReady env qps created := by
      by_contra hready
      exact h ⟨ho, hready⟩
    obtain ⟨-, -, hheld, -⟩ := createLanes_of_open ho
    rw [attempt_of_ready ho hready] at he ⊢
    intro r hr
    by_cases hd : RequestSent env ∧ Drops env.arrivals
    · obtain ⟨-, -, hlanes, hopened⟩ := connect_leaves hd.1 hd.2 (lanesOf qps created)
      rcases List.mem_append.mp hr with hr | hr
      · exact .inl (hlanes (hheld r hr))
      · exact hopened r hr
    · obtain ⟨hclean, hlanes⟩ := connect_clean hd he
      rcases List.mem_append.mp hr with hr | hr
      · exact .inl (hlanes (hheld r hr))
      · exact .inl (hclean r hr)
  · obtain ⟨e, -, hclean⟩ := attempt_of_not_open ho
    exact fun r hr => .inl (hclean r hr)

/-! ## The group -/

theorem attempt_nextBuffers {x : Locals} (h : (env.attempt qps created).result = .ok x) :
    ∃ buffers, env.nextBuffers = .ok buffers := by
  obtain ⟨lanes, -, h⟩ := bind_ok_iff.mp h
  obtain ⟨_, -, h⟩ := bind_ok_iff.mp h
  obtain ⟨y, err, hy⟩ := runSteps_result (env.blockSteps lanes) .start
  cases err with
  | some e =>
      rw [connect_of_some hy] at h
      cases h
  | none =>
      have hread : ∃ f ∈ env.blockSteps lanes, ∀ z z', (f z).result = .ok z' →
          ∃ buffers, env.nextBuffers = .ok buffers := by
        refine ⟨_, List.mem_append_right _ (List.mem_cons_of_mem _ (List.mem_append_right _ List.mem_cons_self)), ?_⟩
        intro z z' hz
        cases hb : env.nextBuffers with
        | error e =>
            simp only [hb] at hz
            cases hz
        | ok buffers => exact ⟨buffers, rfl⟩
      obtain ⟨f, hf, hbuffers⟩ := hread
      obtain ⟨z, z', hz⟩ := runSteps_returned hy f hf
      exact hbuffers z z' hz

/-- The fields as a failed `_reconfigure` leaves them. -/
structure RolledBack (uuid : Int) (g : Group) : Prop where
  outgoing : g.outgoing = []
  incoming : g.incoming = []
  failed : g.failed = true
  rank : g.rank = -1
  size : g.size = 0
  unused : uuid ∉ g.usedUuids
  uuid : g.uuid = none

theorem rebuild_outcome (env : Env) (cfg : Config) (uuid : Int) (rank : Nat) {size : Nat} (hsize : size ≠ 1) (g : Group)
    (hfresh : uuid ∉ g.usedUuids) :
    (∃ x, (env.attempt cfg.qps g.created).result = .ok x ∧
      (g.rebuild cfg uuid rank size (env.outcome cfg.qps g.created)).2 = .ok (rank : Int)) ∨
    ∃ e, (env.attempt cfg.qps g.created).result = .error e ∧
      (g.rebuild cfg uuid rank size (env.outcome cfg.qps g.created)).2 = .error e ∧
      RolledBack uuid (g.rebuild cfg uuid rank size (env.outcome cfg.qps g.created)).1 := by
  have hback : ∀ created closed, RolledBack uuid (g.revoke.failAttempt created closed) := fun created closed =>
    ⟨rfl, rfl, rfl, rfl, rfl, hfresh, rfl⟩
  simp only [Group.rebuild, hsize, if_false, outcome]
  cases hl : (env.createLanes cfg.qps g.created).result with
  | error e =>
      have hattempt := bind_of_error (f := fun lanes => do env.request lanes; env.connect lanes) hl
      refine .inr ⟨e, by rw [attempt, hattempt], ?_⟩
      simp only [raised, hl]
      exact ⟨trivial, hback _ _⟩
  | ok lanes =>
      have hattempt := bind_of_ok (f := fun lanes => do env.request lanes; env.connect lanes) hl
      simp only [raised, hl]
      cases hq : (env.request lanes).result with
      | error e =>
          have hrequest := bind_of_error (f := fun _ => env.connect lanes) hq
          refine .inr ⟨e, by rw [attempt, hattempt, hrequest], ?_⟩
          exact ⟨rfl, hback _ _⟩
      | ok _ =>
          cases ha : (env.attempt cfg.qps g.created).result with
          | error e => exact .inr ⟨e, rfl, rfl, hback _ _⟩
          | ok x =>
              obtain ⟨buffers, hb⟩ := attempt_nextBuffers ha
              refine .inl ⟨x, rfl, ?_⟩
              simp only [hb]

theorem reconfigure_of_ok {cfg : Config} {uuid : Int} {handles : Handles} {timeout : Option Duration} {g : Group}
    {rank size : Nat} (hv : g.validateReconfigure cfg uuid handles timeout = .ok (rank, size)) (hsize : 2 ≤ size)
    (env : Env) :
    env.reconfigure cfg uuid handles timeout g =
      ((g.rebuild cfg uuid rank size (env.outcome cfg.qps g.created)).1,
        ⟨(g.rebuild cfg uuid rank size (env.outcome cfg.qps g.created)).2, (env.attempt cfg.qps g.created).opened,
          (env.attempt cfg.qps g.created).closed⟩) := by
  have hone : size ≠ 1 := by omega
  simp only [reconfigure, Group.reconfigure, hv, hone, if_false]

end Rdma4py.ProcessGroup.Env
