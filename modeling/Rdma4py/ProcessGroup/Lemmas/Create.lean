import Rdma4py.ProcessGroup.Create
import Rdma4py.ProcessGroup.Lemmas.Attempt

/-!
# What a failed creation leaves open

The handlers of `create` close the protection domain and the device context, and after the constructor the whole group. They
cannot when the constructor or `_reconfigure` leaves a memory region or a completion queue open.
-/

namespace Rdma4py.ProcessGroup.Create.Env

open Lib Run

variable {env : Env} {cfg : Config} {sites : List Site}

/-- None of the calls raises. -/
def Passes (env : Env) (sites : List Site) : Prop := ∀ site ∈ sites, env.raises site = none

theorem calls_cases (env : Env) (sites : List Site) :
    (Passes env sites ∧ env.calls sites = ⟨.ok (), [], []⟩) ∨
      (¬ Passes env sites ∧ ∃ e, env.calls sites = ⟨.error e, [], []⟩) := by
  have hsilent : (env.calls sites).Silent := silent_forM (fun _ => silent_call _) sites
  have hiff : (env.calls sites).result = .ok () ↔ Passes env sites :=
    forM_ok_iff.trans (forall_congr' fun _ => forall_congr' fun _ => call_ok_iff)
  cases h : (env.calls sites).result with
  | ok u =>
      refine .inl ⟨hiff.mp h, ?_⟩
      rw [hsilent.eq, h]
  | error e =>
      refine .inr ⟨fun hp => ?_, e, ?_⟩
      · rw [hiff.mpr hp] at h
        cases h
      · rw [hsilent.eq, h]

/-! ## The constructor -/

/-- Both buffers are registered. -/
structure Registers (env : Env) : Prop where
  checks : Passes env [.initNightly, .superInit, .checks]
  work : env.raises .registerWork = none
  scratch : env.raises .registerScratch = none

/-- The listener is there, but not bound yet. -/
structure HasSocket (env : Env) : Prop where
  socket : env.raises .socket = none
  setsockopt : Passes env [.setsockopt]

def Binds (env : Env) : Prop := Passes env [.bind, .listen]

/-- The handle is encoded. -/
def Advertises (env : Env) : Prop :=
  Passes env (.getsockname :: (if env.advertiseHost.getD "" = "" then [.getfqdn] else []) ++ [.queryGid, .encodeHandle])

structure Constructs (env : Env) : Prop where
  registers : Registers env
  hasSocket : HasSocket env
  binds : Binds env
  advertises : Advertises env

/-- Both buffers are registered, and what raises is something else than `bind` and `listen`. -/
structure RegionsLeft (env : Env) : Prop where
  registers : Registers env
  raises : ¬ Constructs env
  unbound : HasSocket env → Binds env

/-- A computation that raises and closes everything, without completion queues. -/
structure RaisesCleanly (x : Run Resource Exn Unit) : Prop where
  raised : ∃ e, x.result = .error e
  clean : x.Clean
  noCq : ∀ r ∈ x.opened, r.isCq = false

/-- A computation that raises with the work buffer registered. -/
structure LeavesRegion (x : Run Resource Exn Unit) : Prop where
  raised : ∃ e, x.result = .error e
  opened : .workMr ∈ x.opened
  closed : x.closed = []

theorem construct_cases (env : Env) :
    (Constructs env ∧ env.construct = ⟨.ok (), [.workMr, .scratchMr, .listener], []⟩) ∨
      (¬ Constructs env ∧ ¬ RegionsLeft env ∧ RaisesCleanly env.construct) ∨
      (RegionsLeft env ∧ LeavesRegion env.construct) := by
  rcases calls_cases env [.initNightly, .superInit, .checks] with ⟨hchecks, hrun⟩ | ⟨hno, e, hrun⟩
  swap
  · have hc : env.construct = ⟨.error e, [], []⟩ := by
      rw [construct, bind_of_error (congrArg Run.result hrun), hrun]
    refine .inr (.inl ⟨fun h => hno h.registers.checks, fun h => hno h.registers.checks, ?_⟩)
    rw [hc]
    exact ⟨⟨e, rfl⟩, by simp [Clean], by simp⟩
  cases hwork : env.raises .registerWork with
  | some e =>
      have hc : env.construct = ⟨.error e, [], []⟩ := by
        simp only [construct, hrun, hwork, acquire]
        rfl
      refine .inr (.inl ⟨fun h => ?_, fun h => ?_, ?_⟩)
      · simp [h.registers.work] at hwork
      · simp [h.registers.work] at hwork
      · rw [hc]
        exact ⟨⟨e, rfl⟩, by simp [Clean], by simp⟩
  | none =>
  cases hscratch : env.raises .registerScratch with
  | some e =>
      have hc : env.construct = ⟨.error e, [.workMr], [.workMr]⟩ := by
        simp only [construct, hrun, hwork, hscratch, acquire]
        rfl
      refine .inr (.inl ⟨fun h => ?_, fun h => ?_, ?_⟩)
      · simp [h.registers.scratch] at hscratch
      · simp [h.registers.scratch] at hscratch
      · rw [hc]
        exact ⟨⟨e, rfl⟩, by simp [Clean], by simp [Resource.isCq]⟩
  | none =>
  have hreg : Registers env := ⟨hchecks, hwork, hscratch⟩
  cases hsocket : env.raises .socket with
  | some e =>
      have hc : env.construct = ⟨.error e, [.workMr, .scratchMr], []⟩ := by
        simp only [construct, hrun, hwork, hscratch, hsocket, acquire]
        rfl
      have hno : ¬ HasSocket env := fun h => by simp [h.socket] at hsocket
      refine .inr (.inr ⟨⟨hreg, fun h => hno h.hasSocket, fun h => absurd h hno⟩, ?_⟩)
      rw [hc]
      exact ⟨⟨e, rfl⟩, by simp, rfl⟩
  | none =>
  rcases calls_cases env [.setsockopt] with ⟨hopt, hoptrun⟩ | ⟨hno, e, hoptrun⟩
  swap
  · have hc : env.construct = ⟨.error e, [.workMr, .scratchMr, .listener], []⟩ := by
      simp only [construct, hrun, hwork, hscratch, hsocket, acquire, hoptrun]
      rfl
    refine .inr (.inr ⟨⟨hreg, fun h => hno h.hasSocket.setsockopt, fun h => absurd h.setsockopt hno⟩, ?_⟩)
    rw [hc]
    exact ⟨⟨e, rfl⟩, by simp, rfl⟩
  have hsock : HasSocket env := ⟨hsocket, hopt⟩
  rcases calls_cases env [.bind, .listen] with ⟨hbind, hbindrun⟩ | ⟨hno, e, hbindrun⟩
  swap
  · have hc : env.construct =
        ⟨.error e, [.workMr, .scratchMr, .listener], [.scratchMr, .workMr, .listener]⟩ := by
      simp only [construct, hrun, hwork, hscratch, hsocket, acquire, hoptrun, hbindrun]
      rfl
    refine .inr (.inl ⟨fun h => hno h.binds, fun h => hno (h.unbound hsock), ?_⟩)
    rw [hc]
    exact ⟨⟨e, rfl⟩, by simp [Clean], by simp [Resource.isCq]⟩
  rcases calls_cases env (.getsockname :: (if env.advertiseHost.getD "" = "" then [.getfqdn] else []) ++
    [.queryGid, .encodeHandle]) with ⟨hadv, hadvrun⟩ | ⟨hno, e, hadvrun⟩
  · refine .inl ⟨⟨hreg, hsock, hbind, hadv⟩, ?_⟩
    simp only [construct, hrun, hwork, hscratch, hsocket, acquire, hoptrun, hbindrun, hadvrun]
    rfl
  · have hc : env.construct = ⟨.error e, [.workMr, .scratchMr, .listener], []⟩ := by
      simp only [construct, hrun, hwork, hscratch, hsocket, acquire, hoptrun, hbindrun, hadvrun]
      rfl
    refine .inr (.inr ⟨⟨hreg, fun h => hno h.advertises, fun _ => hbind⟩, ?_⟩)
    rw [hc]
    exact ⟨⟨e, rfl⟩, by simp, rfl⟩

/-! ## The first `try` block -/

/-- The GID index and the buffers are there. -/
def Prepares (env : Env) : Prop :=
  Passes env ((if env.gidIndex = none then [.findGidIndex] else []) ++ [.emptyWork, .emptyScratch])

theorem build_cases (env : Env) :
    (Prepares env ∧ Constructs env ∧ env.build = ⟨.ok (), [.workMr, .scratchMr, .listener], []⟩) ∨
      (¬ (Prepares env ∧ Constructs env) ∧ ¬ (Prepares env ∧ RegionsLeft env) ∧ RaisesCleanly env.build) ∨
      (Prepares env ∧ RegionsLeft env ∧ LeavesRegion env.build) := by
  rcases calls_cases env ((if env.gidIndex = none then [.findGidIndex] else []) ++ [.emptyWork, .emptyScratch]) with
    ⟨hp, hrun⟩ | ⟨hno, e, hrun⟩
  · have hbuild : env.build = env.construct := by
      rw [build, hrun, bind_of_ok rfl]
      rfl
    rw [hbuild]
    rcases construct_cases env with ⟨hc, h⟩ | ⟨hc, hl, h⟩ | ⟨hl, h⟩
    · exact .inl ⟨hp, hc, h⟩
    · exact .inr (.inl ⟨fun h => hc h.2, fun h => hl h.2, h⟩)
    · exact .inr (.inr ⟨hp, hl, h⟩)
  · refine .inr (.inl ⟨fun h => hno h.1, fun h => hno h.1, ?_⟩)
    rw [build, hrun, bind_of_error rfl]
    exact ⟨⟨e, rfl⟩, by simp [Clean], by simp⟩

/-! ## The second `try` block -/

/-- The first attempt to reconfigure drops its lanes. -/
def DropsLanes (env : Env) (cfg : Config) : Prop :=
  ∃ rank size, Group.initial.validateReconfigure cfg 0
    ⟨true, .ok ((List.range env.initialSize).map env.stored)⟩ env.timeout = .ok (rank, size) ∧ 2 ≤ size ∧
    ProcessGroup.Env.LanesDropped env.attempt cfg.qps 0

/-- `create` is to form the ring, the handles are exchanged, and the first attempt to reconfigure drops its lanes. -/
structure LanesLeft (env : Env) (cfg : Config) : Prop where
  initializes : env.initializes = true
  exchanges : Passes env (.storeSet :: (List.range env.initialSize).map .storeGet)
  dropped : DropsLanes env cfg

/-- A computation that raises with a completion queue open, and no lane among those of the group. -/
structure LeavesLane (x : Run Resource Exn Unit) (g : Group) : Prop where
  raised : ∃ e, x.result = .error e
  opened : .attempt (.cq 0) ∈ x.opened
  closed : x.closed = []
  outgoing : g.outgoing = []
  incoming : g.incoming = []

/-- At most an accepted socket is left open. -/
def Closes (x : Run Resource Exn Unit) : Prop := ∀ r ∈ x.opened, r ∈ x.closed ∨ ∃ k, r = .attempt (.accepted k)

theorem reconfigure_cases (env : Env) (cfg : Config) :
    (¬ DropsLanes env cfg ∧ ∃ r, (env.reconfigure cfg).2.result = .ok r) ∨
    (¬ DropsLanes env cfg ∧ (∃ e, (env.reconfigure cfg).2.result = .error e) ∧
      ∀ r ∈ (env.reconfigure cfg).2.opened, r ∈ (env.reconfigure cfg).2.closed ∨ ∃ k, r = .accepted k) ∨
    (DropsLanes env cfg ∧ (∃ e, (env.reconfigure cfg).2.result = .error e) ∧
      .cq 0 ∈ (env.reconfigure cfg).2.opened ∧ (env.reconfigure cfg).2.closed = [] ∧
      (env.reconfigure cfg).1.outgoing = [] ∧ (env.reconfigure cfg).1.incoming = []) := by
  rw [reconfigure, DropsLanes]
  cases hv : Group.initial.validateReconfigure cfg 0
    ⟨true, .ok ((List.range env.initialSize).map env.stored)⟩ env.timeout with
  | error e =>
      refine .inr (.inl ⟨?_, ?_⟩)
      · rintro ⟨_, _, h, _⟩
        cases h
      · simp only [ProcessGroup.Env.reconfigure, Group.reconfigure, hv]
        exact ⟨⟨e, rfl⟩, fun r hr => by cases hr⟩
  | ok rs =>
      obtain ⟨rank, size⟩ := rs
      by_cases hsize : size = 1
      · refine .inl ⟨?_, 0, ?_⟩
        · rintro ⟨_, _, h, htwo, -⟩
          cases h
          omega
        · simp [ProcessGroup.Env.reconfigure, Group.reconfigure, Group.rebuild, hv, hsize]
      · have htwo : 2 ≤ size := by
          have := (validateReconfigure_ok hv).2.2
          omega
        rw [ProcessGroup.Env.reconfigure_of_ok hv htwo]
        by_cases hd : ProcessGroup.Env.LanesDropped env.attempt cfg.qps 0
        · obtain ⟨_, -, -, hopened⟩ := ProcessGroup.Env.createLanes_of_open hd.1
          obtain ⟨e', hattempt⟩ := ProcessGroup.Env.attempt_of_dropped hd
          rcases ProcessGroup.Env.rebuild_outcome env.attempt cfg 0 rank hsize .initial
            (validateReconfigure_ok hv).2.1 with ⟨x, hx, -⟩ | ⟨e, -, herr, hback⟩
          · have hraised := congrArg Run.result hattempt
            rw [show (0 : Nat) = Group.initial.created from rfl, hx] at hraised
            cases hraised
          · refine .inr (.inr ⟨⟨rank, size, rfl, htwo, hd⟩, ⟨e, herr⟩, ?_, ?_, hback.outgoing, hback.incoming⟩)
            · have hcq := hopened 0 (validateReconfigure_qps hv)
              simpa [Group.initial, hattempt] using hcq
            · simp [Group.initial, hattempt]
        · have hno : ¬ ∃ rank' size', (.ok (rank, size) : Except Exn (Nat × Nat)) = .ok (rank', size') ∧ 2 ≤ size' ∧
              ProcessGroup.Env.LanesDropped env.attempt cfg.qps 0 := by
            rintro ⟨_, _, -, -, h⟩
            exact hd h
          rcases ProcessGroup.Env.rebuild_outcome env.attempt cfg 0 rank hsize .initial
            (validateReconfigure_ok hv).2.1 with ⟨x, -, hok⟩ | ⟨e, he, herr, -⟩
          · exact .inl ⟨hno, rank, hok⟩
          · exact .inr (.inl ⟨hno, ⟨e, herr⟩, ProcessGroup.Env.attempt_closes hd he⟩)

theorem start_cases (env : Env) (cfg : Config) :
    (¬ LanesLeft env cfg ∧ (env.start cfg).result = .ok ()) ∨
      (¬ LanesLeft env cfg ∧ (∃ e, (env.start cfg).result = .error e) ∧ Closes (env.start cfg)) ∨
      (LanesLeft env cfg ∧ LeavesLane (env.start cfg) (env.runInitialize cfg).1) := by
  cases hi : env.initializes with
  | false =>
      refine .inl ⟨fun h => ?_, ?_⟩
      · have := h.initializes
        simp [hi] at this
      · simp [start, hi]
  | true =>
  have hstart : env.start cfg = (env.runInitialize cfg).2 := by simp [start, hi]
  rw [hstart]
  rcases calls_cases env (.storeSet :: (List.range env.initialSize).map .storeGet) with ⟨hp, hrun⟩ | ⟨hno, e, hrun⟩
  swap
  · have hex : env.exchange = ⟨.error e, [], []⟩ := hrun
    refine .inr (.inl ⟨fun h => hno h.exchanges, ?_⟩)
    simp only [runInitialize, hex]
    rw [bind_of_error rfl]
    exact ⟨⟨e, rfl⟩, fun r hr => by cases hr⟩
  have hex : env.exchange = ⟨.ok (), [], []⟩ := hrun
  have hinit : (env.runInitialize cfg).2 =
      ((env.reconfigure cfg).2.rename .attempt >>= fun _ => pure () : Run Resource Exn Unit) := by
    simp only [runInitialize, hex]
    rw [bind_of_ok rfl]
    rfl
  have hgroup : (env.runInitialize cfg).1 = (env.reconfigure cfg).1 := by simp only [runInitialize, hex]
  have hiff : LanesLeft env cfg ↔ DropsLanes env cfg := ⟨fun h => h.dropped, fun h => ⟨hi, hp, h⟩⟩
  rw [hinit, hgroup, hiff]
  rcases reconfigure_cases env cfg with ⟨hno, r, hr⟩ | ⟨hno, ⟨e, he⟩, hcloses⟩ | ⟨hyes, ⟨e, he⟩, hopened, hclosed, ho, hic⟩
  · have hren : ((env.reconfigure cfg).2.rename Resource.attempt).result = .ok r := hr
    refine .inl ⟨hno, ?_⟩
    rw [bind_of_ok hren]
    rfl
  · have hren : ((env.reconfigure cfg).2.rename Resource.attempt).result = .error e := he
    refine .inr (.inl ⟨hno, ?_⟩)
    rw [bind_of_error hren]
    refine ⟨⟨e, rfl⟩, fun r hmem => ?_⟩
    obtain ⟨r', hr', rfl⟩ := List.mem_map.mp hmem
    rcases hcloses r' hr' with hc | ⟨k, rfl⟩
    · exact .inl (List.mem_map_of_mem hc)
    · exact .inr ⟨k, rfl⟩
  · have hren : ((env.reconfigure cfg).2.rename Resource.attempt).result = .error e := he
    refine .inr (.inr ⟨hyes, ?_⟩)
    rw [bind_of_error hren]
    exact ⟨⟨e, rfl⟩, List.mem_map_of_mem hopened, by simp [rename, hclosed], ho, hic⟩

/-! ## Closing -/

theorem closePd_of_clean (opened closed : List Resource) (h : ∀ r ∈ opened, r.isMr = true → r ∈ closed) :
    closePd opened closed = ⟨.ok (), [], [.pd]⟩ := by
  rw [closePd, if_neg]
  · rfl
  · rintro ⟨r, hr, hmr, hno⟩
    exact hno (h r hr hmr)

theorem closePd_of_open {opened : List Resource} {r : Resource} (hr : r ∈ opened) (hmr : r.isMr = true)
    {closed : List Resource} (hno : r ∉ closed) : ∃ e, closePd opened closed = ⟨.error e, [], []⟩ := by
  rw [closePd, if_pos ⟨r, hr, hmr, hno⟩]
  exact ⟨_, rfl⟩

theorem closeContext_of_clean (opened closed : List Resource) (h : ∀ r ∈ opened, r.isCq = true → r ∈ closed) :
    closeContext opened closed = ⟨.ok (), [], [.context]⟩ := by
  rw [closeContext, if_neg]
  · rfl
  · rintro ⟨r, hr, hcq, hno⟩
    exact hno (h r hr hcq)

/-- The lanes of the group, as `close` closes them. -/
def groupLanes (g : Group) : List Resource :=
  (g.outgoing ++ g.incoming).reverse.flatMap fun n => [.attempt (.qp n), .attempt (.cq n)]

theorem close_eq (g : Group) (opened closed : List Resource) :
    close g opened closed = (do
      Run.release (groupLanes g ++ [.listener, .scratchMr, .workMr])
      closePd opened (closed ++ groupLanes g)
      closeContext opened (closed ++ groupLanes g)) := rfl

theorem close_of_clean {x : Run Resource Exn Unit} (h : Closes x) (g : Group) :
    close g x.opened x.closed =
      ⟨.ok (), [], groupLanes g ++ [.listener, .scratchMr, .workMr] ++ [.pd] ++ [.context]⟩ := by
  have hpd := closePd_of_clean x.opened (x.closed ++ groupLanes g) fun r hr hmr => by
    rcases h r hr with hc | ⟨k, rfl⟩
    · exact List.mem_append_left _ hc
    · cases hmr
  have hcontext := closeContext_of_clean x.opened (x.closed ++ groupLanes g) fun r hr hcq => by
    rcases h r hr with hc | ⟨k, rfl⟩
    · exact List.mem_append_left _ hc
    · cases hcq
  rw [close_eq, bind_of_ok rfl, hpd, bind_of_ok rfl, hcontext]
  simp [release]

/-- Whether or not it raises, `close` closes no more than what the group holds. -/
theorem close_closed (g : Group) (opened closed : List Resource) :
    ∀ r ∈ (close g opened closed).closed, r ∈ groupLanes g ∨ r ∈ [.listener, .scratchMr, .workMr, .pd, .context] := by
  have hpd : ∀ o c, ∀ r ∈ (closePd o c).closed, r = .pd := by
    intro o c r hr
    rw [closePd] at hr
    split at hr
    · cases hr
    · exact List.mem_singleton.mp hr
  have hcontext : ∀ o c, ∀ r ∈ (closeContext o c).closed, r = .context := by
    intro o c r hr
    rw [closeContext] at hr
    split at hr
    · cases hr
    · exact List.mem_singleton.mp hr
  intro r hr
  rw [close_eq, bind_of_ok rfl] at hr
  rcases List.mem_append.mp hr with hr | hr
  · rcases List.mem_append.mp hr with hr | hr
    · exact .inl hr
    · simp only [List.mem_cons, List.not_mem_nil, or_false] at hr ⊢
      tauto
  · cases hp : (closePd opened (closed ++ groupLanes g)).result with
    | error e =>
        rw [bind_of_error hp] at hr
        have := hpd _ _ r hr
        simp [this]
    | ok u =>
        rw [bind_of_ok hp] at hr
        rcases List.mem_append.mp hr with hr | hr
        · have := hpd _ _ r hr
          simp [this]
        · have := hcontext _ _ r hr
          simp [this]

/-! ## `create` -/

/-- The device is open. -/
structure Opens (env : Env) : Prop where
  calls : Passes env [.nightly, .gpu, .setDevice, .findDevice]
  device : env.raises .openDevice = none

theorem openDevice_cases (env : Env) :
    (Opens env ∧ env.openDevice = ⟨.ok (), [.context], []⟩) ∨
      (¬ Opens env ∧ ∃ e, env.openDevice = ⟨.error e, [], []⟩) := by
  rcases calls_cases env [.nightly, .gpu, .setDevice, .findDevice] with ⟨hp, hrun⟩ | ⟨hno, e, hrun⟩
  · cases hd : env.raises .openDevice with
    | none =>
        refine .inl ⟨⟨hp, hd⟩, ?_⟩
        simp only [openDevice, hrun, hd, acquire]
        rfl
    | some e =>
        refine .inr ⟨fun h => by simp [h.device] at hd, e, ?_⟩
        simp only [openDevice, hrun, hd, acquire]
        rfl
  · refine .inr ⟨fun h => hno h.calls, e, ?_⟩
    rw [openDevice, hrun, bind_of_error rfl]

theorem allocPd_of_none (h : env.raises .allocPd = none) : env.allocPd = ⟨.ok (), [.pd], []⟩ := by
  simp only [allocPd, h, acquire]
  rfl

theorem allocPd_of_some {e : Exn} (h : env.raises .allocPd = some e) : env.allocPd = ⟨.error e, [], []⟩ := by
  simp only [allocPd, h, acquire]
  rfl

/-- What a failed `create` must have closed: everything but the sockets and the exported state of an attempt. -/
def Resource.owned : Resource → Bool
  | .attempt (.qp _) | .attempt (.cq _) => true
  | .attempt _ => false
  | _ => true

/-- A `create` that raises raises the original exception and has closed what it opened. -/
def AllOrNothing (env : Env) (cfg : Config) : Prop :=
  ∀ e, (env.create cfg).result = .error e → (env.unhandled cfg).result = .error e ∧
    ∀ r ∈ (env.create cfg).opened, Resource.owned r = true → r ∈ (env.create cfg).closed

/-- The device is open, and no handler closes what the call that raises leaves behind. -/
def Leaves (env : Env) (cfg : Config) : Prop :=
  Opens env ∧ (env.raises .allocPd ≠ none ∨ Prepares env ∧ (RegionsLeft env ∨ Constructs env ∧ LanesLeft env cfg))

/-- The handler of the first `try` block. -/
def buildHandler (opened closed : List Resource) : Run Resource Exn Unit := do
  closePd opened closed
  closeContext opened closed

theorem create_of_build (cfg : Config) (ho : env.openDevice = ⟨.ok (), [.context], []⟩) (hp : env.allocPd = ⟨.ok (), [.pd], []⟩) :
    env.create cfg =
      ⟨(onError env.build buildHandler >>= fun _ => onError (env.start cfg) (close (env.runInitialize cfg).1)).result,
        [.context, .pd] ++ (onError env.build buildHandler >>= fun _ =>
          onError (env.start cfg) (close (env.runInitialize cfg).1)).opened,
        (onError env.build buildHandler >>= fun _ =>
          onError (env.start cfg) (close (env.runInitialize cfg).1)).closed⟩ := by
  rw [create, ho, bind_of_ok rfl, hp, bind_of_ok rfl]
  rfl

theorem unhandled_of_build (cfg : Config) (ho : env.openDevice = ⟨.ok (), [.context], []⟩) (hp : env.allocPd = ⟨.ok (), [.pd], []⟩) :
    (env.unhandled cfg).result = (env.build >>= fun _ => env.start cfg).result := by
  rw [unhandled, ho, bind_of_ok rfl, hp, bind_of_ok rfl]

/-- The first block raises and cleans up: the handler closes the rest. -/
theorem create_of_raisesCleanly (ho : env.openDevice = ⟨.ok (), [.context], []⟩)
    (hp : env.allocPd = ⟨.ok (), [.pd], []⟩) (h : RaisesCleanly env.build) : AllOrNothing env cfg := by
  obtain ⟨⟨e, he⟩, hclean, hcq⟩ := h
  have hhandler : buildHandler env.build.opened env.build.closed = ⟨.ok (), [], [.pd] ++ [.context]⟩ := by
    rw [buildHandler, closePd_of_clean _ _ fun r hr _ => hclean r hr, bind_of_ok rfl,
      closeContext_of_clean _ _ fun r hr _ => hclean r hr]
    rfl
  have herror := onError_of_error he (congrArg Run.result hhandler)
  intro e' hraised
  rw [create_of_build cfg ho hp, bind_of_error (congrArg Run.result herror), herror, hhandler] at hraised ⊢
  rw [unhandled_of_build cfg ho hp, bind_of_error he]
  refine ⟨hraised, fun r hr _ => ?_⟩
  simp only [List.append_nil, List.mem_append, List.mem_cons, List.not_mem_nil, or_false] at hr ⊢
  rcases hr with (rfl | rfl) | hr
  · exact .inr (.inr rfl)
  · exact .inr (.inl rfl)
  · exact .inl (hclean r hr)

/-- The first block raises with a memory region registered: the handler raises, too. -/
theorem create_of_leavesRegion (ho : env.openDevice = ⟨.ok (), [.context], []⟩)
    (hp : env.allocPd = ⟨.ok (), [.pd], []⟩) (h : LeavesRegion env.build) : ¬ AllOrNothing env cfg := by
  obtain ⟨⟨e, he⟩, hopened, hclosed⟩ := h
  obtain ⟨e', hpd⟩ := closePd_of_open hopened rfl (by simp [hclosed] : .workMr ∉ env.build.closed)
  have hhandler : buildHandler env.build.opened env.build.closed = ⟨.error e', [], []⟩ := by
    rw [buildHandler, hpd, bind_of_error rfl]
  have herror : onError env.build buildHandler = ⟨.error e', env.build.opened, []⟩ := by
    rw [onError, he]
    simp only [hhandler]
    simp [hclosed]
  intro hall
  have hcreate := create_of_build cfg ho hp
  rw [herror, bind_of_error rfl] at hcreate
  obtain ⟨-, hclose⟩ := hall e' (by rw [hcreate])
  rw [hcreate] at hclose
  have hmem := hclose .workMr (List.mem_append_right _ hopened) rfl
  cases hmem

/-- The first block returns: what the second block leaves decides. -/
theorem create_of_constructs (ho : env.openDevice = ⟨.ok (), [.context], []⟩)
    (hp : env.allocPd = ⟨.ok (), [.pd], []⟩) (hb : env.build = ⟨.ok (), [.workMr, .scratchMr, .listener], []⟩) :
    AllOrNothing env cfg ↔ ¬ LanesLeft env cfg := by
  have hcreate := create_of_build cfg ho hp
  rw [onError_of_ok (congrArg Run.result hb), hb, bind_of_ok rfl] at hcreate
  have hunhandled := unhandled_of_build cfg ho hp
  rw [hb, bind_of_ok rfl] at hunhandled
  rcases start_cases env cfg with ⟨hno, hs⟩ | ⟨hno, ⟨e, hs⟩, hcloses⟩ | ⟨hyes, ⟨e, hs⟩, hopened, hclosed, hout, hin⟩
  · refine iff_of_true (fun e h => ?_) hno
    rw [hcreate, onError_of_ok hs, hs] at h
    cases h
  · refine iff_of_true (fun e' h => ?_) hno
    have hclose := close_of_clean hcloses (env.runInitialize cfg).1
    rw [hcreate, onError_of_error hs (congrArg Run.result hclose), hclose] at h ⊢
    rw [hunhandled, hs]
    refine ⟨h, fun r hr howned => ?_⟩
    simp only [List.append_nil, List.nil_append, List.mem_append, List.mem_cons, List.not_mem_nil, or_false] at hr ⊢
    rcases hr with (rfl | rfl) | (rfl | rfl | rfl) | hr
    · simp
    · simp
    · simp
    · simp
    · simp
    · rcases hcloses r hr with hc | ⟨k, rfl⟩
      · exact .inl hc
      · cases howned
  · refine iff_of_false (fun hall => ?_) fun hno => hno hyes
    have hresult : ∃ e', (onError (env.start cfg) (close (env.runInitialize cfg).1)).result = .error e' := by
      rw [onError, hs]
      simp only
      split
      · exact ⟨e, rfl⟩
      next e' _ => exact ⟨e', rfl⟩
    obtain ⟨e', he'⟩ := hresult
    obtain ⟨-, hclose⟩ := hall e' (by rw [hcreate]; exact he')
    have hmem := hclose (.attempt (.cq 0)) ?_ rfl
    · rw [hcreate, onError, hs] at hmem
      simp only [hclosed, List.nil_append] at hmem
      rcases close_closed _ _ _ _ hmem with hlane | hrest
      · simp [groupLanes, hout, hin] at hlane
      · simp at hrest
    · rw [hcreate, onError, hs]
      simp [hopened]

end Rdma4py.ProcessGroup.Create.Env
