import Mathlib.Tactic.Common
import Rdma4py.ProcessGroup.Reconfigure

/-!
# What an attempt leaves open

Every part of an attempt cleans up when it raises, but for the request, whose parts are computed outside of the `try`
block, and for an accepted socket on which an exception arises that is not caught.
-/

namespace Rdma4py.ProcessGroup.Env

open Lib Run

variable {env : Env} {qps created : Nat}

/-! ## Lanes -/

/-- The queue pair and the completion queue of a lane. -/
def laneResources (lanes : List Nat) : List Resource := lanes.flatMap fun n => [.qp n, .cq n]

def Lanes.held (lanes : Lanes) : List Resource := laneResources (lanes.outgoing ++ lanes.incoming)

theorem mem_laneResources {lanes : List Nat} {r : Resource} :
    r ∈ laneResources lanes ↔ ∃ n ∈ lanes, r = .qp n ∨ r = .cq n := by
  simp [laneResources]

/-- No call raises that creates lane `n`. -/
structure LaneOpens (env : Env) (n : Nat) : Prop where
  cq : env.raises (.createCq n) = none
  attr : env.raises (.initAttr n) = none
  qp : env.raises (.createQp n) = none

theorem createLane_cases (env : Env) (n : Nat) :
    (LaneOpens env n ∧ env.createLane n = ⟨.ok n, [.cq n, .qp n], []⟩) ∨
      (¬ LaneOpens env n ∧ ∃ e, (env.createLane n).result = .error e ∧ (env.createLane n).Clean) := by
  cases hcq : env.raises (.createCq n) with
  | some e =>
      have hlane : env.createLane n = ⟨.error e, [], []⟩ := by
        simp only [createLane, hcq, acquire]
        rfl
      exact .inr ⟨fun h => by simp [h.cq] at hcq, e, by rw [hlane], by simp [Clean, hlane]⟩
  | none =>
      cases hattr : env.raises (.initAttr n) with
      | some e =>
          have hlane : env.createLane n = ⟨.error e, [.cq n], [.cq n]⟩ := by
            simp only [createLane, hcq, acquire, Env.call, hattr, Run.call]
            rfl
          exact .inr ⟨fun h => by simp [h.attr] at hattr, e, by rw [hlane], by simp [Clean, hlane]⟩
      | none =>
          cases hqp : env.raises (.createQp n) with
          | some e =>
              have hlane : env.createLane n = ⟨.error e, [.cq n], [.cq n]⟩ := by
                simp only [createLane, hcq, acquire, Env.call, hattr, Run.call, hqp]
                rfl
              exact .inr ⟨fun h => by simp [h.qp] at hqp, e, by rw [hlane], by simp [Clean, hlane]⟩
          | none =>
              refine .inl ⟨⟨hcq, hattr, hqp⟩, ?_⟩
              simp only [createLane, hcq, acquire, Env.call, hattr, Run.call, hqp]
              rfl

/-- A statement of `_create_lanes` that stores lane `n` by `store`. -/
def laneStep (env : Env) (store : Lanes → Nat → Lanes) (n : Nat) (lanes : Lanes) : Run Resource Exn Lanes := do
  let n ← env.createLane n
  return store lanes n

theorem laneStep_cases (env : Env) (store : Lanes → Nat → Lanes) (n : Nat) (lanes : Lanes) :
    (LaneOpens env n ∧ laneStep env store n lanes = ⟨.ok (store lanes n), [.cq n, .qp n], []⟩) ∨
      (¬ LaneOpens env n ∧ ∃ e, (laneStep env store n lanes).result = .error e ∧ (laneStep env store n lanes).Clean) := by
  rcases createLane_cases env n with ⟨ho, h⟩ | ⟨ho, e, h, hc⟩
  · refine .inl ⟨ho, ?_⟩
    have hr : (env.createLane n).result = .ok n := by rw [h]
    rw [laneStep, bind_of_ok hr, h]
    rfl
  · refine .inr ⟨ho, e, ?_⟩
    rw [laneStep, bind_of_error h]
    exact ⟨rfl, hc⟩

theorem laneSteps_eq (env : Env) (qps created : Nat) :
    env.laneSteps qps created = (List.range qps).flatMap fun i =>
      [laneStep env (fun lanes n => { lanes with outgoing := lanes.outgoing ++ [n] }) (created + 2 * i),
       laneStep env (fun lanes n => { lanes with incoming := lanes.incoming ++ [n] }) (created + 2 * i + 1)] := rfl

theorem keeps_laneStep (store : Lanes → Nat → Lanes) (n : Nat)
    (hs : ∀ lanes, ∀ r, r ∈ (store lanes n).held ↔ r ∈ lanes.held ∨ r = .qp n ∨ r = .cq n) :
    Keeps Lanes.held (fun _ => True) (fun _ => True) [laneStep env store n] := by
  apply keeps_one
  · intro lanes e _ h
    rcases laneStep_cases env store n lanes with ⟨_, hl⟩ | ⟨_, _, _, hc⟩
    · simp [hl] at h
    · exact hc
  · intro lanes lanes' _ h
    rcases laneStep_cases env store n lanes with ⟨_, hl⟩ | ⟨_, e, he, _⟩
    · simp only [hl, Except.ok.injEq] at h
      subst h
      refine ⟨fun r hr => .inr ?_, fun r hr => (hs lanes r).mpr (.inl hr), trivial⟩
      simp only [hl, List.mem_cons, List.not_mem_nil, or_false] at hr
      exact (hs lanes r).mpr (.inr hr.symm)
    · simp [he] at h

theorem keeps_laneSteps :
    Keeps Lanes.held (fun _ => True) (fun _ => True) (env.laneSteps qps created) := by
  apply keeps_all
  intro f hf
  rw [laneSteps_eq, List.mem_flatMap] at hf
  obtain ⟨i, -, hf⟩ := hf
  simp only [List.mem_cons, List.not_mem_nil, or_false] at hf
  rcases hf with rfl | rfl
  · apply keeps_laneStep
    intro lanes r
    simp only [Lanes.held, mem_laneResources, List.mem_append, List.mem_singleton]
    aesop
  · apply keeps_laneStep
    intro lanes r
    simp only [Lanes.held, mem_laneResources, List.mem_append, List.mem_singleton]
    aesop

/-- No call raises that creates the lanes of an attempt. -/
def LanesOpen (env : Env) (qps created : Nat) : Prop :=
  ∀ i < qps, LaneOpens env (created + 2 * i) ∧ LaneOpens env (created + 2 * i + 1)

/-- The lanes of an attempt. -/
def lanesOf (qps created : Nat) : Lanes := ⟨(Group.createLanes qps created).1, (Group.createLanes qps created).2⟩

theorem laneSteps_cases (env : Env) (qps created : Nat) :
    (LanesOpen env qps created ∧
      (runSteps (env.laneSteps qps created) ⟨[], []⟩).result = .ok (lanesOf qps created, none) ∧
      (runSteps (env.laneSteps qps created) ⟨[], []⟩).closed = [] ∧
      ∀ i < qps, .cq (created + 2 * i) ∈ (runSteps (env.laneSteps qps created) ⟨[], []⟩).opened) ∨
    (¬ LanesOpen env qps created ∧
      ∃ y e, (runSteps (env.laneSteps qps created) ⟨[], []⟩).result = .ok (y, some e)) := by
  induction qps with
  | zero =>
      refine .inl ⟨?_, rfl, rfl, ?_⟩
      · intro i hi
        cases hi
      · intro i hi
        cases hi
  | succ qps ih =>
      have hsteps : env.laneSteps (qps + 1) created = env.laneSteps qps created ++
          [laneStep env (fun lanes n => { lanes with outgoing := lanes.outgoing ++ [n] }) (created + 2 * qps),
           laneStep env (fun lanes n => { lanes with incoming := lanes.incoming ++ [n] }) (created + 2 * qps + 1)] := by
        simp [laneSteps_eq, List.range_succ]
      have hopen : LanesOpen env (qps + 1) created ↔ LanesOpen env qps created ∧
          LaneOpens env (created + 2 * qps) ∧ LaneOpens env (created + 2 * qps + 1) := by
        constructor
        · intro h
          exact ⟨fun i hi => h i (Nat.lt_succ_of_lt hi), h qps (Nat.lt_succ_self qps)⟩
        · rintro ⟨h, hlast⟩ i hi
          rcases Nat.lt_succ_iff_lt_or_eq.mp hi with hi | rfl
          · exact h i hi
          · exact hlast
      rw [hsteps, hopen]
      rcases runSteps_append (env.laneSteps qps created)
        [laneStep env (fun lanes n => { lanes with outgoing := lanes.outgoing ++ [n] }) (created + 2 * qps),
         laneStep env (fun lanes n => { lanes with incoming := lanes.incoming ++ [n] }) (created + 2 * qps + 1)]
        ⟨[], []⟩ with ⟨y, e, hy, hs⟩ | ⟨y, hy, hr, hop, hc⟩
      · rcases ih with ⟨_, hok, _⟩ | ⟨hno, _⟩
        · simp [hy] at hok
        · exact .inr ⟨fun h => hno h.1, y, e, by rw [hs, hy]⟩
      · rcases ih with ⟨hyes, hok, hclosed, hopened⟩ | ⟨_, _, _, herr⟩
        · simp only [hy, Except.ok.injEq, Prod.mk.injEq, and_true] at hok
          subst hok
          rw [hr, hop, hc, hclosed]
          rcases laneStep_cases env (fun lanes n => { lanes with outgoing := lanes.outgoing ++ [n] })
            (created + 2 * qps) (lanesOf qps created) with ⟨h1, he1⟩ | ⟨h1, e, he1, _⟩
          · have hr1 := congrArg Run.result he1
            rcases laneStep_cases env (fun lanes n => { lanes with incoming := lanes.incoming ++ [n] })
              (created + 2 * qps + 1) ⟨(lanesOf qps created).outgoing ++ [created + 2 * qps],
                (lanesOf qps created).incoming⟩ with ⟨h2, he2⟩ | ⟨h2, e, he2, _⟩
            · have hr2 := congrArg Run.result he2
              refine .inl ⟨⟨hyes, h1, h2⟩, ?_⟩
              rw [runSteps_cons_of_ok hr1, runSteps_cons_of_ok hr2, he1, he2]
              refine ⟨by simp [runSteps, lanesOf, Group.createLanes, List.range_succ], rfl, ?_⟩
              intro i hi
              rcases Nat.lt_succ_iff_lt_or_eq.mp hi with hi | rfl
              · exact List.mem_append_left _ (hopened i hi)
              · exact List.mem_append_right _ (by simp)
            · refine .inr ⟨fun h => h2 h.2.2,
                ⟨(lanesOf qps created).outgoing ++ [created + 2 * qps], (lanesOf qps created).incoming⟩, e, ?_⟩
              rw [runSteps_cons_of_ok hr1, runSteps_cons_of_error he2]
          · refine .inr ⟨fun h => h1 h.2.1, lanesOf qps created, e, ?_⟩
            rw [runSteps_cons_of_error he1]
        · simp [hy] at herr

theorem closeLanes_run (lanes : List Nat) : closeLanes lanes = ⟨.ok (), [], laneResources lanes⟩ := rfl

theorem laneResources_reverse {lanes : List Nat} {r : Resource} :
    r ∈ laneResources lanes.reverse ↔ r ∈ laneResources lanes := by
  simp [mem_laneResources]

/-- `_create_lanes` opens all lanes, or raises and leaves none open. -/
theorem createLanes_cases (env : Env) (qps created : Nat) :
    (LanesOpen env qps created ∧ (env.createLanes qps created).result = .ok (lanesOf qps created) ∧
      (env.createLanes qps created).closed = [] ∧ (env.createLanes qps created).Holds (lanesOf qps created).held ∧
      ∀ i < qps, .cq (created + 2 * i) ∈ (env.createLanes qps created).opened) ∨
    (¬ LanesOpen env qps created ∧
      ∃ e, (env.createLanes qps created).result = .error e ∧ (env.createLanes qps created).Clean) := by
  rcases laneSteps_cases env qps created with ⟨ho, hr, hc, hopened⟩ | ⟨ho, y, e, hr⟩
  · obtain ⟨hheld, -⟩ := keeps_laneSteps _ trivial _ _ hr
    refine .inl ⟨ho, ?_⟩
    rw [createLanes, tryBlock_of_none hr rfl]
    exact ⟨rfl, by simp [hc], fun r h => by simpa using hheld r (by simpa using h), fun i hi => by simpa using hopened i hi⟩
  · obtain ⟨hheld, -⟩ := keeps_laneSteps _ trivial _ _ hr
    refine .inr ⟨ho, e, ?_⟩
    rw [createLanes, tryBlock_of_some hr rfl rfl]
    refine ⟨rfl, fun r h => ?_⟩
    simp only [closeLanes_run, pure_run, List.append_nil] at h ⊢
    refine List.mem_append.mpr ((hheld r h).imp_right fun hmem => ?_)
    exact laneResources_reverse.mpr hmem

/-! ## The request -/

/-- No call raises that puts the request together. -/
structure RequestReady (env : Env) (qps created : Nat) : Prop where
  queryPort : env.raises (.queryPort false) = none
  queryGid : env.raises (.queryGid false) = none
  localQpInfo : ∀ i < qps, env.raises (.localQpInfo (created + 2 * i)) = none
  bufferInfo : env.raises (.bufferInfo false) = none

theorem silent_laneInfos (env : Env) (incoming : Bool) (lanes : List Nat) : (env.laneInfos incoming lanes).Silent :=
  (silent_call _).bind fun _ => (silent_call _).bind fun _ => silent_forM (fun _ => silent_call _) lanes

theorem silent_request (env : Env) (lanes : Lanes) : (env.request lanes).Silent :=
  (silent_laneInfos env false lanes.outgoing).bind fun _ => silent_call _

theorem env_call_ok_iff {site : Site} {u : Unit} : (env.call site).result = .ok u ↔ env.raises site = none := call_ok_iff

theorem request_ok_iff : (env.request (lanesOf qps created)).result = .ok () ↔ RequestReady env qps created := by
  simp only [request, laneInfos, bind_ok_iff, env_call_ok_iff, forM_ok_iff]
  constructor
  · rintro ⟨_, ⟨_, hport, _, hgid, hinfo⟩, hbuffer⟩
    refine ⟨hport, hgid, fun i hi => hinfo _ ?_, hbuffer⟩
    exact List.mem_map.mpr ⟨i, List.mem_range.mpr hi, rfl⟩
  · rintro ⟨hport, hgid, hinfo, hbuffer⟩
    refine ⟨(), ⟨(), hport, (), hgid, fun n hn => ?_⟩, hbuffer⟩
    obtain ⟨i, hi, rfl⟩ := List.mem_map.mp hn
    exact hinfo i (List.mem_range.mp hi)

/-! ## Sockets -/

/-- `_connect_until` returns. -/
def Connects : List ConnectTry → Prop
  | [] => False
  | .refused :: tries => Connects tries
  | .raises _ :: _ => False
  | .connected :: _ => True

theorem connectUntil_cases (env : Env) (tries : List ConnectTry) :
    (Connects tries ∧ env.connectUntil tries = ⟨.ok .nextSocket, [.nextSocket], []⟩) ∨
      (¬ Connects tries ∧ ∃ e, env.connectUntil tries = ⟨.error e, [], []⟩) := by
  induction tries with
  | nil => exact .inr ⟨id, _, rfl⟩
  | cons t tries ih =>
      cases t with
      | refused => exact ih
      | raises e => exact .inr ⟨id, e, rfl⟩
      | connected => exact .inl ⟨trivial, rfl⟩

/-- The first accepted connection that is not passed over raises an exception that `_accept_member` does not catch. -/
def Drops : List Arrival → Prop
  | [] => False
  | .raises _ :: _ => False
  | .accepted (.raises _) :: _ => True
  | .accepted (.message true) :: _ => False
  | .accepted (.message false) :: arrivals => Drops arrivals
  | .accepted .unreadable :: arrivals => Drops arrivals

/-- What `_accept_member` leaves open. -/
structure AcceptsCleanly (x : Run Resource Exn Resource) : Prop where
  raised : ∀ e, x.result = .error e → x.Clean
  returned : ∀ sock, x.result = .ok sock → x.Holds [sock]

/-- `_accept_member` raises, and an accepted socket from number `n` on stays open. -/
def LeavesOpen (n : Nat) (x : Run Resource Exn Resource) : Prop :=
  (∃ e, x.result = .error e) ∧ ∃ k, n ≤ k ∧ .accepted k ∈ x.opened ∧ .accepted k ∉ x.closed

/-- Accepted sockets are all that `_accept_member` opens. -/
theorem acceptMember_opened (arrivals : List Arrival) (n : Nat) :
    ∀ r ∈ (acceptMember arrivals n).opened, ∃ k, r = .accepted k := by
  induction arrivals generalizing n with
  | nil =>
      intro r hr
      cases hr
  | cons a arrivals ih =>
      have hpass : ∀ r ∈ Resource.accepted n :: (acceptMember arrivals (n + 1)).opened, ∃ k, r = .accepted k := by
        intro r hr
        rcases List.mem_cons.mp hr with rfl | hr
        · exact ⟨n, rfl⟩
        · exact ih (n + 1) r hr
      have hone : ∀ r ∈ [Resource.accepted n], ∃ k, r = .accepted k := by
        intro r hr
        exact ⟨n, List.mem_singleton.mp hr⟩
      cases a with
      | raises e =>
          intro r hr
          cases hr
      | accepted frame =>
          cases frame with
          | unreadable => exact hpass
          | raises e => exact hone
          | message matching =>
              cases matching with
              | false => exact hpass
              | true => exact hone

/-- A connection that is passed over. -/
def passOver (n : Nat) (x : Run Resource Exn Resource) : Run Resource Exn Resource :=
  ⟨x.result, .accepted n :: x.opened, .accepted n :: x.closed⟩

theorem acceptMember_pass {frame : Frame} (hf : frame = .message false ∨ frame = .unreadable) (arrivals : List Arrival)
    (n : Nat) : acceptMember (.accepted frame :: arrivals) n = passOver n (acceptMember arrivals (n + 1)) := by
  rcases hf with rfl | rfl <;> rfl

theorem AcceptsCleanly.passOver {x : Run Resource Exn Resource} (h : AcceptsCleanly x) (n : Nat) :
    AcceptsCleanly (passOver n x) where
  raised e he r hr := by
    rcases List.mem_cons.mp hr with rfl | hr
    · exact List.mem_cons_self
    · exact List.mem_cons_of_mem _ (h.raised e he r hr)
  returned sock hs r hr := by
    rcases List.mem_cons.mp hr with rfl | hr
    · exact .inl List.mem_cons_self
    · exact (h.returned sock hs r hr).imp_left (List.mem_cons_of_mem _)

theorem LeavesOpen.passOver {x : Run Resource Exn Resource} {n : Nat} (h : LeavesOpen (n + 1) x) :
    LeavesOpen n (passOver n x) := by
  obtain ⟨he, k, hk, ho, hc⟩ := h
  refine ⟨he, k, Nat.le_of_succ_le hk, List.mem_cons_of_mem _ ho, fun hmem => ?_⟩
  rcases List.mem_cons.mp hmem with heq | hmem
  · cases heq
    exact absurd hk (Nat.not_succ_le_self n)
  · exact hc hmem

theorem acceptMember_cases (arrivals : List Arrival) (n : Nat) :
    (¬ Drops arrivals ∧ AcceptsCleanly (acceptMember arrivals n)) ∨
      (Drops arrivals ∧ LeavesOpen n (acceptMember arrivals n)) := by
  induction arrivals generalizing n with
  | nil =>
      refine .inl ⟨id, ⟨fun e _ => ?_, fun sock h => by cases h⟩⟩
      exact fun r hr => absurd hr List.not_mem_nil
  | cons a arrivals ih =>
      have hpass : ∀ frame, (frame = .message false ∨ frame = .unreadable) →
          (¬ Drops arrivals ∧ AcceptsCleanly (acceptMember (.accepted frame :: arrivals) n)) ∨
            (Drops arrivals ∧ LeavesOpen n (acceptMember (.accepted frame :: arrivals) n)) := by
        intro frame hf
        rw [acceptMember_pass hf]
        exact (ih (n + 1)).imp (fun h => ⟨h.1, h.2.passOver n⟩) fun h => ⟨h.1, h.2.passOver⟩
      cases a with
      | raises e =>
          refine .inl ⟨id, ⟨fun e _ => ?_, fun sock h => by cases h⟩⟩
          exact fun r hr => absurd hr List.not_mem_nil
      | accepted frame =>
          cases frame with
          | unreadable => exact hpass .unreadable (.inr rfl)
          | raises e => exact .inr ⟨trivial, ⟨e, rfl⟩, n, Nat.le_refl n, List.mem_cons_self, List.not_mem_nil⟩
          | message matching =>
              cases matching with
              | false => exact hpass (.message false) (.inl rfl)
              | true =>
                  refine .inl ⟨id, ⟨(fun e h => by cases h), fun sock h => ?_⟩⟩
                  cases h
                  intro r hr
                  exact .inr hr

/-! ## The exported state -/

/-- A statement that opens `r` and stores it. -/
theorem keeps_acquire {σ : Type} {held : σ → List Resource} {P : σ → Prop} (failure : Option Exn) (r : Resource)
    (store : σ → Resource → σ)
    (hs : ∀ x, P x → P (store x r) ∧ r ∈ held (store x r) ∧ held x ⊆ held (store x r)) :
    Keeps held P P [fun x => (do
      let r ← Run.acquire failure r
      return store x r : Run Resource Exn σ)] := by
  cases failure with
  | some e =>
      apply keeps_one
      · intro x _ _ _ r hr
        cases hr
      · intro x x' _ h
        cases h
  | none =>
      apply keeps_one
      · intro x e _ h
        cases h
      · intro x x' hx h
        cases h
        obtain ⟨hp, hmem, hsub⟩ := hs x hx
        refine ⟨fun r' hr => .inr ?_, hsub, hp⟩
        have hr : r' = r := by simpa using (show r' ∈ [r] ++ [] from hr)
        rw [hr]
        exact hmem

theorem quiet_callStep {σ : Type} (site : Site) : Quiet (env.callStep site : σ → Run Resource Exn σ) where
  silent _ := (silent_call _).bind fun _ => silent_pure _
  stores x x' h := by
    obtain ⟨_, _, hx⟩ := bind_ok_iff.mp h
    cases hx
    rfl

theorem keeps_callStep {σ : Type} {held : σ → List Resource} {P : σ → Prop} (site : Site) :
    Keeps held P P [(env.callStep site : σ → Run Resource Exn σ)] := by
  apply keeps_quiet
  intro f hf
  rw [List.mem_singleton.mp hf]
  exact quiet_callStep site

/-- The variable of the memory region is used for nothing else. -/
def Exported.Typed (x : Exported) : Prop := x.signalMr = none ∨ x.signalMr = some .signalMr

theorem keeps_exportSteps (env : Env) (lanes : Lanes) :
    Keeps Exported.rollback Exported.Typed Exported.Typed (env.exportSteps lanes) := by
  have hgrow : ∀ (x x' : Exported) (r : Resource), x'.signalMr = x.signalMr →
      (∀ r', r' ∈ x'.outgoing ++ x'.incoming ++ x'.allocations ↔
        r' ∈ x.outgoing ++ x.incoming ++ x.allocations ∨ r' = r) →
      x.Typed → x'.Typed ∧ r ∈ x'.rollback ∧ x.rollback ⊆ x'.rollback := by
    intro x x' r hmr hmem hx
    refine ⟨by rwa [Exported.Typed, hmr], ?_, fun r' hr => ?_⟩
    · have := (hmem r).mpr (.inr rfl)
      simp only [Exported.rollback, List.mem_append, List.mem_reverse] at this ⊢
      tauto
    · have := hmem r'
      simp only [Exported.rollback, List.mem_append, List.mem_reverse, hmr] at this hr ⊢
      tauto
  apply keeps_all
  intro f hf
  simp only [exportSteps, List.mem_append, or_assoc] at hf
  rcases hf with hf | hf | hf | hf
  · obtain ⟨n, -, rfl⟩ := List.mem_map.mp hf
    exact keeps_acquire _ _ (fun x r => { x with outgoing := x.outgoing ++ [r] }) fun x hx =>
      hgrow x _ _ rfl (fun r' => by simp only [List.mem_append, List.mem_singleton]; tauto) hx
  · obtain ⟨n, -, rfl⟩ := List.mem_map.mp hf
    exact keeps_acquire _ _ (fun x r => { x with incoming := x.incoming ++ [r] }) fun x hx =>
      hgrow x _ _ rfl (fun r' => by simp only [List.mem_append, List.mem_singleton]; tauto) hx
  · obtain ⟨n, -, rfl⟩ := List.mem_map.mp hf
    exact keeps_acquire _ _ (fun x r => { x with allocations := x.allocations ++ [r] }) fun x hx =>
      hgrow x _ _ rfl (fun r' => by simp only [List.mem_append, List.mem_singleton]; tauto) hx
  · simp only [List.mem_cons, List.not_mem_nil, or_false] at hf
    rcases hf with rfl | rfl | rfl | rfl | rfl
    · exact keeps_callStep _
    · exact keeps_callStep _
    · exact keeps_callStep _
    · refine keeps_acquire _ _ (fun (x : Exported) r => { x with signalMr := some r }) fun x hx =>
        ⟨.inr rfl, by simp [Exported.rollback], fun r hr => ?_⟩
      · rcases hx with hx | hx
        · exact List.mem_cons_of_mem _ (by simpa [Exported.rollback, hx] using hr)
        · simpa [Exported.rollback, hx] using hr
    · exact keeps_callStep _

theorem Exported.mem_close {x : Exported} {r : Resource} : r ∈ x.close ↔ r ∈ x.rollback := by
  simp only [Exported.close, Exported.rollback, List.mem_append, List.mem_reverse]
  tauto

/-- `_export_gpunetio` cleans up when it raises; otherwise the state that it returns holds what it opened. -/
theorem exportGpunetio_clean (env : Env) (lanes : Lanes) :
    (∀ e, (env.exportGpunetio lanes).result = .error e → (env.exportGpunetio lanes).Clean) ∧
      ∀ x, (env.exportGpunetio lanes).result = .ok x → (env.exportGpunetio lanes).Holds x.close := by
  have hblock : ∀ y err, (runSteps (env.exportSteps lanes) ⟨[], [], [], none⟩).result = .ok (y, err) →
      (runSteps (env.exportSteps lanes) ⟨[], [], [], none⟩).Holds y.rollback := fun y err h =>
    (keeps_exportSteps env lanes _ (.inl rfl) y err h).1
  cases himport : env.raises .importDeviceQP with
  | some e =>
      have hrun : env.exportGpunetio lanes = ⟨.error e, [], []⟩ := by
        rw [exportGpunetio, bind_of_error (by rw [Env.call, himport]; rfl), Env.call, himport]
        rfl
      rw [hrun]
      exact ⟨(fun _ _ r hr => by cases hr), fun x h => by cases h⟩
  | none =>
      obtain ⟨y, err, hy⟩ := runSteps_result (env.exportSteps lanes) ⟨[], [], [], none⟩
      have hcall : env.call .importDeviceQP = ⟨.ok (), [], []⟩ := by
        rw [Env.call, himport]
        rfl
      have hrun : env.exportGpunetio lanes = Run.tryBlock (env.exportSteps lanes) ⟨[], [], [], none⟩
          (fun x => Run.release x.rollback) fun _ => pure () := by
        rw [exportGpunetio, bind_of_ok (a := ()) (by rw [hcall]), hcall]
        rfl
      rw [hrun]
      cases err with
      | none =>
          rw [tryBlock_of_none hy rfl]
          refine ⟨(fun e h => by cases h), fun x h r hr => ?_⟩
          cases h
          have := hblock y none hy r (by simpa using hr)
          simpa [Exported.mem_close] using this
      | some e =>
          rw [tryBlock_of_some hy rfl rfl]
          refine ⟨fun e _ r hr => ?_, fun x h => by cases h⟩
          have := hblock y _ hy r (by simpa [release] using hr)
          simpa [release] using this

end Rdma4py.ProcessGroup.Env
