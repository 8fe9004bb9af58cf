import Mathlib.Tactic.Common
import Rdma4py.Lib.Outcome
import Rdma4py.ProcessGroup.Group

/-!
# The communicator along a run

While the group is usable and something is exported, the fields are those that the newest reconfiguration in the history
built, and no call since has ended it.
-/

namespace Rdma4py.ProcessGroup

open Lib

variable {cfg : Config} {g : Group} {uuid : Int} {handles : Handles} {timeout : Option Duration} {rank size : Nat}

/-! ## Checks -/

/-- The group is one of the members. -/
theorem checkHandles_ok {members : List Member} (h : checkHandles cfg handles = .ok members) :
    members.findIdx (·.raw = cfg.handle) < members.length := by
  simp only [checkHandles, throw_eq, bind_eq, error_bind, bind_eq_ok, ite_error_eq_ok, pure_eq, Except.ok.injEq] at h
  obtain ⟨raw, -, -, -, ms, -, hone, -, -, -, rfl⟩ := h
  refine List.findIdx_lt_length_of_exists ?_
  by_contra hno
  push Not at hno
  refine hone fun hc => ?_
  have hpos : 0 < List.countP (fun m => decide (m.raw = cfg.handle))
      (if handles.ordered then ms else ms.insertionSort Member.Before) := by omega
  obtain ⟨m, hm, hraw⟩ := List.countP_pos_iff.mp hpos
  exact absurd hraw (by simpa using hno m hm)

theorem validateReconfigure_ok (h : g.validateReconfigure cfg uuid handles timeout = .ok (rank, size)) :
    g.closed = false ∧ uuid ∉ g.usedUuids ∧ rank < size := by
  simp only [Group.validateReconfigure, throw_eq, bind_eq, error_bind, bind_eq_ok, ite_error_eq_ok, pure_eq,
    Except.ok.injEq, Prod.mk.injEq] at h
  obtain ⟨hclosed, hfresh, members, hmembers, -, -, rfl, rfl⟩ := h
  exact ⟨by simpa using hclosed, hfresh, checkHandles_ok hmembers⟩

/-- Each handle gives a member. -/
theorem checkHandles_length {members : List Member} (h : checkHandles cfg handles = .ok members) :
    ∃ raw, handles.elements = .ok raw ∧ members.length = raw.length := by
  simp only [checkHandles, throw_eq, bind_eq, error_bind, bind_eq_ok, ite_error_eq_ok, pure_eq, Except.ok.injEq] at h
  obtain ⟨raw, hraw, -, -, ms, hdecode, -, -, -, -, rfl⟩ := h
  have hlength := (mapM_ok_iff.mp hdecode).length_eq
  refine ⟨raw, hraw, ?_⟩
  split
  · exact hlength.symm
  · rw [List.length_insertionSort, hlength]

theorem validateReconfigure_size (h : g.validateReconfigure cfg uuid handles timeout = .ok (rank, size)) :
    ∃ raw, handles.elements = .ok raw ∧ size = raw.length := by
  simp only [Group.validateReconfigure, throw_eq, bind_eq, error_bind, bind_eq_ok, ite_error_eq_ok, pure_eq,
    Except.ok.injEq, Prod.mk.injEq] at h
  obtain ⟨-, -, members, hmembers, -, -, -, rfl⟩ := h
  exact checkHandles_length hmembers

theorem decodeHandle_qps {payload : String → Option Payload} {handle : String} {m : Member}
    (h : decodeHandle payload handle = .ok m) : 0 < m.qps := by
  unfold decodeHandle at h
  split at h
  · cases h
  · split at h
    · cases h
    · split at h
      · cases h
      next hvalues =>
        split at h
        · cases h
        · cases h
          push Not at hvalues
          exact hvalues.2.2.2.2.2.2.2.2.1

/-- The handle of the group is valid, so that the group has queue pairs. -/
theorem validateReconfigure_qps (h : g.validateReconfigure cfg uuid handles timeout = .ok (rank, size)) :
    0 < cfg.qps := by
  simp only [Group.validateReconfigure, throw_eq, bind_eq, error_bind, bind_eq_ok, ite_error_eq_ok, pure_eq,
    Except.ok.injEq, Prod.mk.injEq] at h
  obtain ⟨-, -, members, hmembers, -⟩ := h
  have hrank := checkHandles_ok hmembers
  simp only [checkHandles, throw_eq, bind_eq, error_bind, bind_eq_ok, ite_error_eq_ok, pure_eq, Except.ok.injEq] at hmembers
  obtain ⟨raw, -, -, -, ms, hdecode, -, -, _, hcheck, rfl⟩ := hmembers
  obtain ⟨m, hm⟩ := List.exists_mem_of_length_pos (Nat.zero_lt_of_lt hrank)
  have hms : m ∈ ms := by
    split at hm
    · exact hm
    · exact (List.perm_insertionSort _ ms).mem_iff.mp hm
  obtain ⟨handle, -, hhandle⟩ := exists_of_mapM_ok hdecode m hms
  have hmember := forM_eq_ok.mp hcheck m hm
  rw [checkMember, ite_error_eq_ok] at hmember
  have hpos := decodeHandle_qps hhandle
  have heq : m.qps = cfg.qps := by
    by_contra hne
    exact hmember.1 (.inl hne)
  omega

/-- A closed group and a used uuid are refused. -/
theorem validateReconfigure_used (h : uuid ∈ g.usedUuids) (cfg : Config) (handles : Handles)
    (timeout : Option Duration) : ∃ e, g.validateReconfigure cfg uuid handles timeout = .error e := by
  cases hv : g.validateReconfigure cfg uuid handles timeout with
  | error e => exact ⟨e, rfl⟩
  | ok r =>
      obtain ⟨rank, size⟩ := r
      exact absurd h (validateReconfigure_ok hv).2.1

theorem validateAllreduce_ok {op : String} {tensor : Tensor} {checked : Nat × String × Nat}
    (h : g.validateAllreduce cfg op tensor timeout = .ok checked) :
    g.closed = false ∧ g.uuid ≠ none ∧ g.size ≠ 0 ∧ g.failed = false ∧
      checkTensor cfg.maxBytes tensor = .ok checked := by
  simp only [Group.validateAllreduce, throw_eq, bind_eq, error_bind, bind_eq_ok, ite_error_eq_ok, pure_eq,
    Except.ok.injEq] at h
  obtain ⟨-, hclosed, hformed, hfailed, c, hc, -, -, rfl⟩ := h
  push Not at hformed
  exact ⟨by simpa using hclosed, hformed.1, hformed.2, by simpa using hfailed, hc⟩

/-! ## The ways a reconfiguration ends -/

theorem mem_createLanes {qps created lane : Nat}
    (h : lane ∈ (Group.createLanes qps created).1 ++ (Group.createLanes qps created).2) :
    created ≤ lane ∧ lane < created + 2 * qps := by
  simp only [Group.createLanes, List.mem_append, List.mem_map, List.mem_range] at h
  rcases h with ⟨i, hi, rfl⟩ | ⟨i, hi, rfl⟩ <;> omega

/-- After the checks: a communicator of one member, an attempt that raised, or a communicator of several members. -/
theorem rebuild_cases (cfg : Config) (uuid : Int) (rank size : Nat) (attempt : Group.Attempt) (g : Group) :
    (size = 1 ∧ g.rebuild cfg uuid rank size attempt = (g.revoke.commit ⟨uuid, 0, 1, [], [], none, none⟩, .ok 0)) ∨
    (∃ created closed e, (∀ lane ∈ closed, lane < g.created + created) ∧
      g.rebuild cfg uuid rank size attempt = (g.revoke.failAttempt created closed, .error e)) ∨
    (size ≠ 1 ∧ ∃ buffers, attempt.connect = .ok buffers ∧ g.rebuild cfg uuid rank size attempt =
      ({ g.revoke.commit (Group.buildOf cfg uuid rank size buffers g.created) with
         created := g.created + 2 * cfg.qps }, .ok rank)) := by
  have hnew : ∀ lane ∈ ((Group.createLanes cfg.qps g.created).1 ++ (Group.createLanes cfg.qps g.created).2).reverse,
      lane < g.created + 2 * cfg.qps := fun lane hl => (mem_createLanes (List.mem_reverse.mp hl)).2
  unfold Group.rebuild
  dsimp only
  split
  next hsize => exact .inl ⟨hsize, rfl⟩
  next hsize =>
    refine .inr ?_
    cases attempt.createLanes with
    | some e => exact .inl ⟨0, [], e, by simp, rfl⟩
    | none =>
        cases attempt.laneInfos with
        | some e => exact .inl ⟨2 * cfg.qps, [], e, by simp, rfl⟩
        | none =>
            cases attempt.connect with
            | error e => exact .inl ⟨_, _, e, hnew, rfl⟩
            | ok buffers =>
                cases attempt.exportGpunetio with
                | some e => exact .inl ⟨_, _, e, hnew, rfl⟩
                | none => exact .inr ⟨hsize, buffers, rfl, rfl⟩

/-! ## The fields in every state -/

/-- `uuid`, `_size` and `_rank` agree on whether there is a communicator. -/
structure Identity (g : Group) : Prop where
  uuid_iff : g.uuid = none ↔ g.size = 0
  size_iff : g.size = 0 ↔ g.rank = -1
  range : g.uuid ≠ none → 0 ≤ g.rank ∧ g.rank < g.size

/-- The identity fields agree, lanes are numbered in order, and a closed group has nothing exported. -/
structure Inv (g : Group) : Prop where
  identity : Identity g
  fresh : ∀ lane ∈ g.closedLanes ++ (g.outgoing ++ g.incoming), lane < g.created
  closed : g.closed = true → g.gpunetio = none

theorem initial_inv : Inv .initial where
  identity := ⟨by decide, by decide, fun h => absurd rfl h⟩
  fresh := by simp [Group.initial]
  closed _ := rfl

theorem identity_of_none (hu : g.uuid = none) (hs : g.size = 0) (hr : g.rank = -1) : Identity g :=
  ⟨by simp [hu, hs], by simp [hs, hr], fun h => absurd hu h⟩

theorem closeLanes_fresh (h : Inv g) : ∀ lane ∈ g.closeLanes.closedLanes, lane < g.created := by
  intro lane hl
  refine h.fresh lane ?_
  simp only [Group.closeLanes, List.mem_append, List.mem_reverse] at hl ⊢
  tauto

theorem Inv.failAttempt (h : Inv g) {created : Nat} {closed : List Nat}
    (hclosed : ∀ lane ∈ closed, lane < g.created + created) : Inv (g.revoke.failAttempt created closed) where
  identity := identity_of_none rfl rfl rfl
  fresh lane hl := by
    have hl : lane ∈ closed ++ g.closeLanes.closedLanes := by
      simpa [Group.failAttempt, Group.revoke, Group.closeLanes] using hl
    rcases List.mem_append.mp hl with hl | hl
    · exact hclosed lane hl
    · exact (closeLanes_fresh h lane hl).trans_le (Nat.le_add_right ..)
  closed _ := rfl

theorem Inv.commit_one (h : Inv g) (uuid : Int) : Inv (g.revoke.commit ⟨uuid, 0, 1, [], [], none, none⟩) where
  identity := ⟨by simp [Group.commit], by simp [Group.commit], fun _ => ⟨Int.le_refl 0, Int.zero_lt_one⟩⟩
  fresh lane hl := by
    simp only [Group.commit, List.append_nil] at hl
    exact closeLanes_fresh h lane hl
  closed _ := rfl

theorem Inv.commit (h : Inv g) (uuid : Int) (buffers : Buffers) (hrank : rank < size) (hopen : g.closed = false) :
    Inv { g.revoke.commit (Group.buildOf cfg uuid rank size buffers g.created) with
      created := g.created + 2 * cfg.qps } where
  identity := by
    refine ⟨?_, ?_, fun _ => ⟨Int.natCast_nonneg rank, Int.ofNat_lt.mpr hrank⟩⟩
    · simp only [Group.commit, Group.buildOf, reduceCtorEq, false_iff]
      omega
    · simp only [Group.commit, Group.buildOf]
      omega
  fresh lane hl := by
    rcases List.mem_append.mp hl with hl | hl
    · exact (closeLanes_fresh h lane hl).trans_le (Nat.le_add_right ..)
    · exact (mem_createLanes hl).2
  closed hc := by
    have hc : g.closed = true := hc
    simp [hopen] at hc

theorem Inv.reconfigure (h : Inv g) (cfg : Config) (uuid : Int) (handles : Handles) (timeout : Option Duration)
    (attempt : Group.Attempt) : Inv (g.reconfigure cfg uuid handles timeout attempt).1 := by
  unfold Group.reconfigure
  cases hv : g.validateReconfigure cfg uuid handles timeout with
  | error e => exact h
  | ok r =>
      obtain ⟨rank, size⟩ := r
      obtain ⟨hopen, -, hrank⟩ := validateReconfigure_ok hv
      dsimp only
      obtain ⟨-, hr⟩ | ⟨created, closed, e, hclosed, hr⟩ | ⟨-, buffers, -, hr⟩ :=
        rebuild_cases cfg uuid rank size attempt g
      · rw [hr]
        exact h.commit_one uuid
      · rw [hr]
        exact h.failAttempt hclosed
      · rw [hr]
        exact h.commit uuid buffers hrank hopen

/-- A collective changes `_failed` at most. -/
theorem allreduceTensor_cases (cfg : Config) (op : String) (tensor : Tensor) (timeout : Option Duration)
    (c : Group.Collective) (g : Group) :
    (g.allreduceTensor cfg op tensor timeout c).1 = g ∨
      (g.allreduceTensor cfg op tensor timeout c).1 = { g with failed := true } := by
  unfold Group.allreduceTensor
  cases g.validateAllreduce cfg op tensor timeout with
  | error e => exact .inl rfl
  | ok checked =>
      dsimp only
      split
      · exact .inr rfl
      · exact .inl rfl

theorem Inv.allreduceTensor (h : Inv g) (cfg : Config) (op : String) (tensor : Tensor) (timeout : Option Duration)
    (c : Group.Collective) : Inv (g.allreduceTensor cfg op tensor timeout c).1 := by
  rcases allreduceTensor_cases cfg op tensor timeout c g with hg | hg
  · rwa [hg]
  · rw [hg]
    exact ⟨⟨h.identity.uuid_iff, h.identity.size_iff, h.identity.range⟩, h.fresh, h.closed⟩

theorem Inv.abort (h : Inv g) : Inv g.abort := by
  unfold Group.abort
  split
  · exact h
  · refine ⟨identity_of_none rfl rfl rfl, fun lane hl => ?_, fun _ => rfl⟩
    exact closeLanes_fresh h lane (by simpa [Group.revoke, Group.closeLanes] using hl)

theorem Inv.closeLanes (h : Inv g) (closed : Bool) : Inv { g.closeLanes with closed := closed } where
  identity := ⟨h.identity.uuid_iff, h.identity.size_iff, h.identity.range⟩
  fresh lane hl := closeLanes_fresh h lane (by simpa [Group.closeLanes] using hl)
  closed _ := rfl

theorem Inv.close (h : Inv g) (failure : Option Exn) : Inv (g.close failure).1 := by
  unfold Group.close
  split
  · exact h
  · cases failure with
    | some e => exact h.closeLanes g.closed
    | none => exact h.closeLanes true

theorem Inv.next (h : Inv g) (cfg : Config) (call : Call) : Inv (next cfg g call) := by
  cases call with
  | reconfigure uuid handles timeout attempt => exact h.reconfigure cfg uuid handles timeout attempt
  | allreduceTensor op tensor timeout c => exact h.allreduceTensor cfg op tensor timeout c
  | abort => exact h.abort
  | close failure => exact h.close failure

theorem reaches_inv {s : Session} (h : (machine cfg).Reaches .initial s) : Inv s.group :=
  h.invariant (I := fun s => Inv s.group) (fun _ e hi _ => hi.next cfg e) initial_inv

/-! ## The history of a communicator -/

namespace Past

/-- After this call no earlier communicator may be used. -/
def Ends : Past → Prop
  | .reconfigure _ _ _ accepted _ _ => accepted = true
  | .allreduceTensor accepted result => accepted = true ∧ ∃ e, result = .error e
  | .abort => True
  | .close => True

end Past

/-- The newest `_reconfigure` that its checks accepted: its arguments, its first lane and the rank it returned, with only
harmless calls since. -/
def Newest (history : List Past) (uuid : Int) (handles : Handles) (attempt : Group.Attempt) (first : Nat) (rank : Int) :
    Prop :=
  ∃ since before, history = since ++ .reconfigure uuid handles attempt true first (.ok rank) :: before ∧
    ∀ call ∈ since, ¬ call.Ends

theorem Newest.cons {history : List Past} {attempt : Group.Attempt} {first : Nat} {r : Int} {call : Past}
    (h : Newest history uuid handles attempt first r) (hcall : ¬ call.Ends) :
    Newest (call :: history) uuid handles attempt first r := by
  obtain ⟨since, before, rfl, hsince⟩ := h
  exact ⟨call :: since, before, rfl, List.forall_mem_cons.mpr ⟨hcall, hsince⟩⟩

/-- The fields are what this `_reconfigure` built: `qps` open lanes in each direction, all exported, and the buffers of the
next member. -/
structure BuiltBy (cfg : Config) (g : Group) (uuid : Int) (handles : Handles) (attempt : Group.Attempt) (first : Nat)
    (rank : Int) : Prop where
  uuid : g.uuid = some uuid
  rank : g.rank = rank
  two_le : 2 ≤ g.size
  size : ∃ raw, handles.elements = .ok raw ∧ g.size = raw.length
  outgoing : g.outgoing = (List.range cfg.qps).map fun i => first + 2 * i
  incoming : g.incoming = (List.range cfg.qps).map fun i => first + 2 * i + 1
  nextBuffers : ∃ buffers, attempt.connect = .ok buffers ∧ g.nextBuffers = some buffers
  exported : g.gpunetio = some ⟨g.outgoing, g.incoming⟩
  isOpen : ∀ lane ∈ g.outgoing ++ g.incoming, lane ∉ g.closedLanes

/-- While the group is usable and something is exported, the fields are those of the newest reconfiguration. -/
def Live (cfg : Config) (s : Session) : Prop :=
  s.group.failed = false → s.group.gpunetio ≠ none → ∃ uuid handles attempt first rank,
    Newest s.history uuid handles attempt first rank ∧ BuiltBy cfg s.group uuid handles attempt first rank

/-- A call that leaves the group as it is and does not end a communicator. -/
theorem Live.unchanged {s : Session} {call : Past} (h : Live cfg s) (hcall : ¬ call.Ends) :
    Live cfg ⟨s.group, call :: s.history⟩ := by
  intro hf hg
  obtain ⟨uuid, handles, attempt, first, rank, hnewest, hbuilt⟩ := h hf hg
  exact ⟨uuid, handles, attempt, first, rank, hnewest.cons hcall, hbuilt⟩

theorem builtBy_commit (h : Inv g) {attempt : Group.Attempt} {buffers : Buffers}
    (hraw : ∃ raw, handles.elements = .ok raw ∧ size = raw.length) (hsize : 2 ≤ size)
    (hconnect : attempt.connect = .ok buffers) :
    BuiltBy cfg { g.revoke.commit (Group.buildOf cfg uuid rank size buffers g.created) with
      created := g.created + 2 * cfg.qps } uuid handles attempt g.created rank where
  uuid := rfl
  rank := rfl
  two_le := hsize
  size := hraw
  outgoing := rfl
  incoming := rfl
  nextBuffers := ⟨buffers, hconnect, rfl⟩
  exported := rfl
  isOpen lane hl hin := by
    have hnew := (mem_createLanes hl).1
    have hold := closeLanes_fresh h lane hin
    exact absurd hold (Nat.not_lt.mpr hnew)

theorem Live.reconfigure {s : Session} (h : Live cfg s) (hi : Inv s.group) (uuid : Int) (handles : Handles)
    (timeout : Option Duration) (attempt : Group.Attempt) :
    Live cfg ((machine cfg).next s (.reconfigure uuid handles timeout attempt)) := by
  simp only [machine, ProcessGroup.next, past, Group.reconfigure]
  cases hv : s.group.validateReconfigure cfg uuid handles timeout with
  | error e => exact h.unchanged (by simp [Past.Ends, Except.isOk, Except.toBool])
  | ok r =>
      obtain ⟨rank, size⟩ := r
      have hrank := (validateReconfigure_ok hv).2.2
      dsimp only
      obtain ⟨-, hr⟩ | ⟨created, closed, e, -, hr⟩ | ⟨hsize, buffers, hconnect, hr⟩ :=
        rebuild_cases cfg uuid rank size attempt s.group
      · rw [hr]
        exact fun _ hg => absurd rfl hg
      · rw [hr]
        exact fun hf => by cases hf
      · rw [hr]
        exact fun _ _ => ⟨uuid, handles, attempt, s.group.created, rank, ⟨[], s.history, rfl, by simp⟩,
          builtBy_commit hi (validateReconfigure_size hv) (by omega) hconnect⟩

theorem Live.allreduceTensor {s : Session} (h : Live cfg s) (op : String) (tensor : Tensor) (timeout : Option Duration)
    (c : Group.Collective) : Live cfg ((machine cfg).next s (.allreduceTensor op tensor timeout c)) := by
  simp only [machine, ProcessGroup.next, past, Group.allreduceTensor]
  cases s.group.validateAllreduce cfg op tensor timeout with
  | error e => exact h.unchanged (by simp [Past.Ends, Except.isOk, Except.toBool])
  | ok checked =>
      dsimp only
      split
      · exact fun hf => by cases hf
      · exact h.unchanged (by simp [Past.Ends])

theorem Live.next {s : Session} (h : Live cfg s) (hi : Inv s.group) (call : Call) :
    Live cfg ((machine cfg).next s call) := by
  cases call with
  | reconfigure uuid handles timeout attempt => exact h.reconfigure hi uuid handles timeout attempt
  | allreduceTensor op tensor timeout c => exact h.allreduceTensor op tensor timeout c
  | abort =>
      simp only [machine, ProcessGroup.next, Group.abort]
      split
      next hc => exact fun _ hg => absurd (hi.closed hc) hg
      · exact fun hf => by cases hf
  | close failure =>
      simp only [machine, ProcessGroup.next, Group.close]
      split
      next hc => exact fun _ hg => absurd (hi.closed hc) hg
      · cases failure <;> exact fun _ hg => absurd rfl hg

theorem reaches_live {s : Session} (h : (machine cfg).Reaches .initial s) : Live cfg s :=
  (h.invariant (I := fun s => Inv s.group ∧ Live cfg s) (fun _ e hi _ => ⟨hi.1.next cfg e, hi.2.next hi.1 e⟩)
    ⟨initial_inv, fun _ hg => absurd rfl hg⟩).2

/-! ## The launch -/

/-- The launch takes its arguments from the exported state and the buffers. -/
theorem launch_eq {op : String} {tensor : Tensor} {c : Group.Collective} {launch : Group.Launch}
    (h : (g.allreduceTensor cfg op tensor timeout c).2.1 = some launch) :
    g.failed = false ∧ g.size ≠ 1 ∧ ∃ gpunetio buffers, g.gpunetio = some gpunetio ∧ g.nextBuffers = some buffers ∧
      launch.outgoing = gpunetio.outgoing ∧ launch.incoming = gpunetio.incoming ∧ launch.rank = g.rank ∧
      launch.world = g.size ∧ launch.remoteBuffers = buffers := by
  unfold Group.allreduceTensor at h
  cases hv : g.validateAllreduce cfg op tensor timeout with
  | error e => simp [hv] at h
  | ok checked =>
      have hrun : (g.runCollective cfg tensor checked.1 checked.2.2 c).1 = some launch := by
        rw [hv] at h
        dsimp only at h
        split at h <;> simp_all
      refine ⟨(validateAllreduce_ok hv).2.2.2.1, ?_⟩
      unfold Group.runCollective at hrun
      dsimp only at hrun
      split at hrun
      · cases hrun
      split at hrun
      · cases hrun
      next hsize =>
        split at hrun
        next gpunetio buffers hg hb =>
          split at hrun
          · cases hrun
          · obtain rfl := Option.some.inj hrun
            exact ⟨hsize, gpunetio, buffers, hg, hb, rfl, rfl, rfl, rfl, rfl⟩
        · cases hrun

/-! ## Used uuids -/

theorem usedUuids_next (g : Group) (call : Call) : g.usedUuids ⊆ (next cfg g call).usedUuids := by
  cases call with
  | reconfigure uuid handles timeout attempt =>
      simp only [ProcessGroup.next, Group.reconfigure]
      cases g.validateReconfigure cfg uuid handles timeout with
      | error e => exact List.Subset.refl _
      | ok r =>
          dsimp only
          obtain ⟨-, hr⟩ | ⟨_, _, _, -, hr⟩ | ⟨-, _, -, hr⟩ := rebuild_cases cfg uuid r.1 r.2 attempt g
          · rw [hr]
            exact List.subset_cons_self ..
          · rw [hr]
            exact List.Subset.refl _
          · rw [hr]
            exact List.subset_cons_self ..
  | allreduceTensor op tensor timeout c =>
      simp only [ProcessGroup.next]
      rcases allreduceTensor_cases cfg op tensor timeout c g with hg | hg
      · rw [hg]
        exact List.Subset.refl _
      · rw [hg]
        exact List.Subset.refl _
  | abort =>
      simp only [ProcessGroup.next, Group.abort]
      split <;> exact List.Subset.refl _
  | close failure =>
      simp only [ProcessGroup.next, Group.close]
      repeat' split
      all_goals exact List.Subset.refl _

theorem usedUuids_reaches {s s' : Session} (h : (machine cfg).Reaches s s') : s.group.usedUuids ⊆ s'.group.usedUuids :=
  h.invariant (I := fun s' => s.group.usedUuids ⊆ s'.group.usedUuids)
    (fun _ e hi _ => List.Subset.trans hi (usedUuids_next _ e)) (List.Subset.refl _)

/-- A `_reconfigure` that succeeds uses its uuid up. -/
theorem mem_usedUuids {attempt : Group.Attempt} {r : Int}
    (h : (g.reconfigure cfg uuid handles timeout attempt).2 = .ok r) :
    uuid ∈ (g.reconfigure cfg uuid handles timeout attempt).1.usedUuids := by
  unfold Group.reconfigure at h ⊢
  cases hv : g.validateReconfigure cfg uuid handles timeout with
  | error e => simp [hv] at h
  | ok rs =>
      rw [hv] at h
      dsimp only at h ⊢
      obtain ⟨-, hr⟩ | ⟨_, _, _, -, hr⟩ | ⟨-, _, -, hr⟩ := rebuild_cases cfg uuid rs.1 rs.2 attempt g
      · rw [hr]
        exact List.mem_cons_self
      · rw [hr] at h
        cases h
      · rw [hr]
        exact List.mem_cons_self

end Rdma4py.ProcessGroup
