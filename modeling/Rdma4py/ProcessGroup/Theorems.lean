import Rdma4py.ProcessGroup.Lemmas.Attempt
import Rdma4py.ProcessGroup.Lemmas.ControlData
import Rdma4py.ProcessGroup.Lemmas.Create
import Rdma4py.ProcessGroup.Lemmas.Group

/-!
# The process group: results

A collective runs only on what the last reconfiguration built, and every call that is refused changes nothing.
-/

namespace Rdma4py.ProcessGroup

open Lib

variable {cfg : Config} {g : Group}

/-- The launch uses what a `_reconfigure` built: it is the newest one that its checks accepted, it succeeded, and no
`abort`, no `close` and no failed collective came after it. -/
structure Current (cfg : Config) (s : Session) (launch : Group.Launch) (uuid : Int) (handles : Handles)
    (attempt : Group.Attempt) (first : Nat) : Prop where
  newest : Newest s.history uuid handles attempt first launch.rank
  builtBy : BuiltBy cfg s.group uuid handles attempt first launch.rank
  outgoing : launch.outgoing = (List.range cfg.qps).map fun i => first + 2 * i
  incoming : launch.incoming = (List.range cfg.qps).map fun i => first + 2 * i + 1
  two_le : 2 ≤ launch.world
  world : ∃ raw, handles.elements = .ok raw ∧ launch.world = raw.length
  remoteBuffers : attempt.connect = .ok launch.remoteBuffers

theorem Live.current {s : Session} (h : Live cfg s) {op : String} {tensor : Tensor} {timeout : Option Duration}
    {c : Group.Collective} {launch : Group.Launch}
    (hl : (s.group.allreduceTensor cfg op tensor timeout c).2.1 = some launch) :
    ∃ uuid handles attempt first, Current cfg s launch uuid handles attempt first := by
  obtain ⟨hf, -, gpunetio, buffers, hg, hb, ho, hi, hr, hw, hrb⟩ := launch_eq hl
  obtain ⟨uuid, handles, attempt, first, rank, hnewest, hbuilt⟩ := h hf (by simp [hg])
  obtain rfl : gpunetio = ⟨s.group.outgoing, s.group.incoming⟩ := Option.some.inj (hg.symm.trans hbuilt.exported)
  obtain ⟨raw, hraw, hsize⟩ := hbuilt.size
  obtain ⟨built, hconnect, hnext⟩ := hbuilt.nextBuffers
  obtain rfl : buffers = built := Option.some.inj (hb.symm.trans hnext)
  obtain rfl : launch.rank = rank := hr.trans hbuilt.rank
  exact ⟨uuid, handles, attempt, first, hnewest, hbuilt, ho.trans hbuilt.outgoing, hi.trans hbuilt.incoming,
    hw ▸ hbuilt.two_le, ⟨raw, hraw, hw.trans hsize⟩, hrb ▸ hconnect⟩

/-- **Generations.** After every sequence of calls: a collective that reaches the launch uses what the last reconfiguration
built, the identity fields agree, a call that its checks refuse changes nothing, and a used uuid is refused for good. -/
theorem generations (cfg : Config) :
    (∀ s, (machine cfg).Reaches .initial s → Identity s.group ∧
      (∀ op tensor timeout c launch, (s.group.allreduceTensor cfg op tensor timeout c).2.1 = some launch →
        ∃ uuid handles attempt first, Current cfg s launch uuid handles attempt first) ∧
      (∀ uuid handles timeout attempt e, s.group.validateReconfigure cfg uuid handles timeout = .error e →
        s.group.reconfigure cfg uuid handles timeout attempt = (s.group, .error e)) ∧
      ∀ op tensor timeout c e, s.group.validateAllreduce cfg op tensor timeout = .error e →
        s.group.allreduceTensor cfg op tensor timeout c = (s.group, none, .error e)) ∧
    ∀ s uuid handles timeout attempt rank s', (machine cfg).Reaches .initial s →
      (s.group.reconfigure cfg uuid handles timeout attempt).2 = .ok rank →
      (machine cfg).Reaches ((machine cfg).next s (.reconfigure uuid handles timeout attempt)) s' →
      ∀ handles' timeout' attempt', ∃ e,
        s'.group.reconfigure cfg uuid handles' timeout' attempt' = (s'.group, .error e) := by
  refine ⟨fun s h => ?_, fun s uuid handles timeout attempt rank s' _ hok h handles' timeout' attempt' => ?_⟩
  · refine ⟨(reaches_inv h).identity, fun _ _ _ _ _ hl => (reaches_live h).current hl, fun _ _ _ _ e he => ?_,
      fun _ _ _ _ e he => ?_⟩
    · rw [Group.reconfigure, he]
    · rw [Group.allreduceTensor, he]
  · have hused := usedUuids_reaches h (mem_usedUuids hok)
    obtain ⟨e, he⟩ := validateReconfigure_used hused cfg handles' timeout'
    exact ⟨e, by rw [Group.reconfigure, he]⟩

/-- Two members with one QP each, as the first one sees it. -/
def twoMembers : Config where
  payload s := some ⟨if s = "a" then 0 else 1, "n", "h", 1, "mlx5_0", 1, 0, "00000000000000000000ffff0a000001", 16, 1, 1⟩
  handle := "ibverbs-allreduce-v1:a"
  qps := 1
  numSms := 1
  maxBytes := 16
  timeout := some 30
  workPtr := 4096

/-- Both members, and what the first one gets to know of them. -/
def bothMembers : Handles := ⟨true, .ok ["ibverbs-allreduce-v1:a", "ibverbs-allreduce-v1:b"]⟩

/-- The first reconfiguration with both members. -/
def forming : Call := .reconfigure 7 bothMembers none ⟨none, none, .ok ⟨1, 2, 3, 4⟩, none⟩

/-- Four elements in another buffer than the work buffer. -/
def fourFloats : Tensor := ⟨true, true, true, some 4, some 4, none, "torch.float32", 8192⟩

/-- The collective that follows the reconfiguration launches with its lanes, and its uuid is refused from then on. -/
theorem generations_two_members :
    ∃ formed, (machine twoMembers).next .initial forming = formed ∧
      (∃ launch uuid handles attempt first,
        (formed.group.allreduceTensor twoMembers "sum" fourFloats none ⟨none, none, .ok [0], none⟩).2.1 = some launch ∧
        Current twoMembers formed launch uuid handles attempt first) ∧
      ∃ e, formed.group.reconfigure twoMembers 7 ⟨true, .ok []⟩ none ⟨none, none, .ok ⟨1, 2, 3, 4⟩, none⟩ =
        (formed.group, .error e) := by
  have hreach : (machine twoMembers).Reaches .initial ((machine twoMembers).next .initial forming) :=
    (Machine.Reaches.refl _).tail trivial
  have hlaunch : (((machine twoMembers).next .initial forming).group.allreduceTensor twoMembers "sum" fourFloats none
      ⟨none, none, .ok [0], none⟩).2.1 = some ⟨[0], [1], 0, 2, ⟨1, 2, 3, 4⟩, 4, 4⟩ := by decide +kernel
  obtain ⟨uuid, handles, attempt, first, hcurrent⟩ := ((generations twoMembers).1 _ hreach).2.1 _ _ _ _ _ hlaunch
  have hok : (Group.initial.reconfigure twoMembers 7 bothMembers none ⟨none, none, .ok ⟨1, 2, 3, 4⟩, none⟩).2 =
      .ok 0 := by decide +kernel
  exact ⟨_, rfl, ⟨_, uuid, handles, attempt, first, hlaunch, hcurrent⟩,
    (generations twoMembers).2 .initial 7 bothMembers none _ 0 _ (Machine.Reaches.refl _) hok (Machine.Reaches.refl _)
      _ _ _⟩

/-! ## Failed attempts -/

namespace Env

/-- Nothing raises but the calls in the list, and no other member is heard of. -/
def failing (sites : List Site) : Env where
  raises site := if site ∈ sites then some (.external "call failed") else none
  connects := []
  connectTimeout := "timed out connecting to reconfigure peer h:1"
  arrivals := []
  nextBuffers := .ok ⟨1, 2, 3, 4⟩

end Env

/-! ## Creation -/

namespace Create

/-- **Creation.** `create` raises the original exception and closes what it opened, unless no handler closes what the call
that raises leaves behind: the device context, the memory regions, or the lanes of the first attempt to reconfigure. -/
theorem create_all_or_nothing_iff (env : Env) (cfg : Config) : env.AllOrNothing cfg ↔ ¬ env.Leaves cfg := by
  rcases Env.openDevice_cases env with ⟨ho, hopen⟩ | ⟨hno, e, hopen⟩
  swap
  · refine iff_of_true (fun e' h => ?_) fun h => hno h.1
    rw [Env.create, hopen, Run.bind_of_error rfl] at h ⊢
    rw [Env.unhandled, hopen, Run.bind_of_error rfl]
    exact ⟨h, fun r hr _ => by cases hr⟩
  cases hp : env.raises .allocPd with
  | some e =>
      refine iff_of_false (fun hall => ?_) fun hno => hno ⟨ho, .inl (by simp [hp])⟩
      have hcreate : env.create cfg = ⟨.error e, [.context], []⟩ := by
        rw [Env.create, hopen, Run.bind_of_ok rfl, Env.allocPd_of_some hp, Run.bind_of_error rfl]
        rfl
      obtain ⟨-, hclose⟩ := hall e (by rw [hcreate])
      rw [hcreate] at hclose
      have hmem := hclose .context List.mem_cons_self rfl
      cases hmem
  | none =>
      have hpd := Env.allocPd_of_none hp
      have hleaves : env.Leaves cfg ↔
          Env.Prepares env ∧ (Env.RegionsLeft env ∨ Env.Constructs env ∧ Env.LanesLeft env cfg) := by
        simp [Env.Leaves, hp, ho]
      rw [hleaves]
      rcases Env.build_cases env with ⟨hprep, hcon, hbuild⟩ | ⟨hcon, hreg, hclean⟩ | ⟨hprep, hreg, hleft⟩
      · rw [Env.create_of_constructs hopen hpd hbuild]
        have hreg : ¬ Env.RegionsLeft env := fun h => h.raises hcon
        simp [hprep, hcon, hreg]
      · refine iff_of_true (Env.create_of_raisesCleanly hopen hpd hclean) ?_
        rintro ⟨hprep, h | ⟨h, -⟩⟩
        · exact hreg ⟨hprep, h⟩
        · exact hcon ⟨hprep, h⟩
      · exact iff_of_false (Env.create_of_leavesRegion hopen hpd hleft) fun hno => hno ⟨hprep, .inl hreg⟩

/-- One call raises, and the ring is not formed. -/
def failing (site : Site) : Env where
  initialSize := 2
  gidIndex := some 0
  advertiseHost := some "h"
  timeout := none
  initializes := false
  raises s := if s = site then some (.external "call failed") else none
  stored := fun _ => ""
  attempt := ProcessGroup.Env.failing []

/-- When `query_gid` fails, the exception is that of the protection domain, whose memory regions are still registered. -/
theorem create_regions_left :
    ((failing .queryGid).create twoMembers).result = .error (.external "ibv_dealloc_pd failed") ∧
    ((failing .queryGid).unhandled twoMembers).result = .error (.external "call failed") ∧
    ¬ (failing .queryGid).AllOrNothing twoMembers := by
  have hcreate : ((failing .queryGid).create twoMembers).result = .error (.external "ibv_dealloc_pd failed") := by
    decide
  have hunhandled : ((failing .queryGid).unhandled twoMembers).result = .error (.external "call failed") := by
    decide
  refine ⟨hcreate, hunhandled, fun hall => ?_⟩
  obtain ⟨horiginal, -⟩ := hall _ hcreate
  rw [hunhandled] at horiginal
  exact absurd horiginal (by decide)

end Create

/-! ## Control data of the peers -/

namespace Control

/-- **Control data.** A handle is decided, by a valid member or by the decoder's exception, exactly when the fields of the
member that it presents are; a QP information is unless an infinite number stands for an integer. -/
theorem control_data_decided_iff (decode : PyStr → Option PyValue) (handle : PyStr) (parse : PyStr → Option Int)
    (value : PyValue) :
    (DecidesHandle decode handle (decodeHandle decode handle) ↔ ∀ m, Presents decode handle m → Decided m) ∧
    (DecidesInfo (qpInfoFromDict parse value) ↔ ¬ Overflows parse value) :=
  ⟨decidesHandle_iff decode handle, decidesInfo_iff parse value⟩

/-- The fields of a handle whose stable rank is a string. -/
def stringRank : List (PyStr × PyValue) :=
  [(pyStr "gid", .str (pyStr "00000000000000000000ffff0a000001")), (pyStr "gid_index", .int 0),
   (pyStr "hca", .str (pyStr "mlx5_0")), (pyStr "host", .str (pyStr "h")), (pyStr "ib_port", .int 1),
   (pyStr "max_bytes", .int 16), (pyStr "nonce", .str (pyStr "n")), (pyStr "num_sms", .int 1), (pyStr "port", .int 1),
   (pyStr "qps", .int 1), (pyStr "stable_rank", .str (pyStr "7"))]

/-- Their encoding. -/
@[irreducible] def encodedRank : String :=
  "eyJnaWQiOiIwMDAwMDAwMDAwMDAwMDAwMDAwMGZmZmYwYTAwMDAwMSIsImdpZF9pbmRleCI6MCwiaGNhIjoibWx4NV8wIiwiaG9z" ++
  "dCI6ImgiLCJpYl9wb3J0IjoxLCJtYXhfYnl0ZXMiOjE2LCJub25jZSI6Im4iLCJudW1fc21zIjoxLCJwb3J0IjoxLCJxcHMiOjEs" ++
  "InN0YWJsZV9yYW5rIjoiNyJ9"

/-- Such a handle raises `TypeError`, and an infinite QP number raises `OverflowError`. -/
theorem control_data_uncaught :
    (¬ ∀ decode handle, DecidesHandle decode handle (decodeHandle decode handle)) ∧
    ¬ ∀ parse value, DecidesInfo (qpInfoFromDict parse value) := by
  constructor
  · intro h
    have hnot : ∀ encoded, ¬ DecidesHandle (fun s => if s = encoded then some (.dict stringRank) else none)
        (pyStr handlePrefix ++ encoded) (decodeHandle (fun s => if s = encoded then some (.dict stringRank) else none)
          (pyStr handlePrefix ++ encoded)) := by
      intro encoded
      have hstart : (pyStr handlePrefix).isPrefixOf (pyStr handlePrefix ++ encoded) = true := by simp
      have hraised : decodeHandle (fun s => if s = encoded then some (.dict stringRank) else none)
          (pyStr handlePrefix ++ encoded) = .error (.uncaught .typeError) := by
        rw [decodeHandle, hstart, if_neg (by simp), List.drop_left, if_pos rfl]
        rfl
      rw [hraised]
      rintro ⟨text, htext⟩
      cases htext
    exact hnot (pyStr encodedRank) (h _ _)
  · intro h
    have hraised : qpInfoFromDict (fun _ => none) (.dict [(pyStr "qp_num", .float (.infinity false))]) =
        .error (.uncaught .overflowError) := rfl
    have hdecided := h (fun _ => none) (.dict [(pyStr "qp_num", .float (.infinity false))])
    rw [hraised] at hdecided
    obtain ⟨text, htext⟩ := hdecided
    cases htext

/-- **The two decoders of a handle.** The one of typed fields, which the group uses, accepts the handles that the one of
JSON values accepts with fields of these types. -/
theorem decodeHandle_iff_typed {payload : String → Option Payload} {decode : PyStr → Option PyValue}
    (h : SameReading payload decode) (handle : String) (m : ProcessGroup.Member) :
    ProcessGroup.decodeHandle payload handle = .ok m ↔ decodeHandle decode (pyStr handle) = .ok (ofTyped m) := by
  rw [decodeHandle_typed_iff, decodeHandle_ok_iff, h.presents_iff, validate_ofTyped_iff, and_assoc, and_assoc]

end Control

end Rdma4py.ProcessGroup
