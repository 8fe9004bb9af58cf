import Rdma4py.Lib.Outcome
import Rdma4py.NvmeController.Connection
import Rdma4py.NvmeQueue.Lemmas.Shutdown

/-!
# What each part of the connection does

A triple for each method: where it leads in the protocol, what it assigns, and what it leaves when it ends early.
-/

namespace Rdma4py.NvmeController.Connection

open Rdma4py.Lib Rdma4py.Lib.Program
open NvmeQueue (Exn Owner Closing)

/-! ## The protocol -/

section Protocol

variable {s : Settings} {data : List UInt8} {issued : List Issued} {p : Phase}

theorem SeenReady.append (h : SeenReady issued) (more : List Issued) : SeenReady (issued ++ more) := by
  obtain ⟨x, hx, hready⟩ := h
  exact ⟨x, List.mem_append_left more hx, hready⟩

/-- What has been seen in each phase. -/
def Phase.Seen (issued : List Issued) : Phase → Prop
  | .polling _ _ csts => ∃ x ∈ issued, StatusRead csts x
  | .identified _ _ | .granted _ _ _ | .established _ _ _ => SeenReady issued
  | _ => True

theorem Leads.seen (h : Leads s data issued p) : p.Seen issued := by
  induction h with
  | start => trivial
  | unanswered _ _ => trivial
  | answered answer _ hsends ih =>
      cases hsends with
      | connect _ => trivial
      | capabilities _ _ => trivial
      | enable _ => trivial
      | status hcommand => exact ⟨_, List.mem_append_right _ (.head _), rfl, hcommand, rfl⟩
      | poll _ _ hcommand => exact ⟨_, List.mem_append_right _ (.head _), rfl, hcommand, rfl⟩
      | identify hfatal hready _ =>
          obtain ⟨x, hx, hstatus⟩ := ih
          exact ⟨x, List.mem_append_left _ hx, _, hstatus, hready, hfatal⟩
      | features _ _ _ _ _ => exact ih.append _
      | connectIo _ => exact ih.append _

theorem Phase.Sends.seen {command : List UInt8} {next : Nat → Phase} (h : p.Sends s data .io command next)
    (hseen : p.Seen issued) : SeenReady issued := by
  cases h with
  | connectIo _ => exact hseen

theorem split_last {α : Type} {xs before after : List α} {x y : α} (h : xs ++ [y] = before ++ x :: after) :
    (y = x ∧ xs = before) ∨ ∃ rest, xs = before ++ x :: rest := by
  rcases List.eq_nil_or_concat after with rfl | ⟨rest, z, rfl⟩
  · obtain ⟨hxs, hy⟩ := List.append_inj' h rfl
    exact .inl ⟨List.head_eq_of_cons_eq hy, hxs⟩
  · refine .inr ⟨rest, ?_⟩
    rw [List.concat_eq_append, ← List.cons_append, ← List.append_assoc] at h
    exact (List.append_inj' h rfl).1

/-- No command goes to the I/O queue before the controller was seen ready. -/
theorem Leads.ready_before_io (h : Leads s data issued p) {before after : List Issued} {x : Issued}
    (hsplit : issued = before ++ x :: after) (hio : x.queue = .io) : SeenReady before := by
  induction h generalizing after with
  | start => simp at hsplit
  | answered answer hleads hsends ih =>
      rcases split_last hsplit with ⟨rfl, rfl⟩ | ⟨rest, hrest⟩
      · cases hio
        exact hsends.seen hleads.seen
      · exact ih hrest
  | unanswered hleads hsends ih =>
      rcases split_last hsplit with ⟨rfl, rfl⟩ | ⟨rest, hrest⟩
      · cases hio
        exact hsends.seen hleads.seen
      · exact ih hrest

end Protocol

/-! ## The queues -/

/-- A queue that was built and is in use. -/
structure Built (w : Owner) (depth : Nat) : Prop where
  sound : w.resources.Sound
  whole : Whole w
  depth : w.world.queue.depth = depth

theorem built_of_construct {depth : Nat} {commands responses : Memory UInt8} {raises : NvmeQueue.Stage → Option Exn}
    {c : Closing} {w : Owner} (h : Owner.construct depth commands responses raises c = (w, none)) : Built w depth := by
  have hsound := Owner.construct_sound depth commands responses raises c
  rw [h] at hsound
  have hw := Owner.construct_eq h
  subst hw
  refine ⟨hsound, ?_, rfl⟩
  intro r
  cases r <;> rfl

theorem givenBack_close {w : Owner} (h : w.resources.Sound) (c : Closing) : GivenBack (w.close c).1 := by
  refine ⟨Owner.sound_step h (.close c), ?_⟩
  intro r hr
  rw [(w.close_resources c).1, Holder.release_held c.raises NvmeQueue.Resource.nodup_order] at hr
  obtain ⟨e, he⟩ := Option.ne_none_iff_exists'.mp (hr.2 (NvmeQueue.Resource.mem_order r))
  refine ⟨e, ?_⟩
  rw [Owner.close_attempts, ← he]
  apply List.mem_append_right
  exact List.mem_map_of_mem (List.mem_filter.mpr ⟨NvmeQueue.Resource.mem_order r, hr.1⟩)

theorem givenBack_of_construct {depth : Nat} {commands responses : Memory UInt8}
    {raises : NvmeQueue.Stage → Option Exn} {c : Closing} {w : Owner} {e : Exn}
    (h : Owner.construct depth commands responses raises c = (w, some e)) : GivenBack w := by
  have hsound : ((Owner.blank depth commands responses).runAll raises NvmeQueue.Stage.order).1.resources.Sound :=
    Owner.runAll_sound Owner.nodup_resources_order .empty (by simp [Owner.blank])
  unfold Owner.construct at h
  split at h
  · cases h
  · next heq =>
      rw [heq] at hsound
      cases h
      exact givenBack_close hsound c

/-! ## Where a method stands -/

/-- The controller without its record of buffers and commands. -/
def Controller.core (c : Controller) : Controller := { c with buffers := 0, openBuffers := [], issued := [] }

/-- The queues are in use, and those that were given up are given back. -/
structure Held (c : Controller) : Prop where
  admin : ∀ w, c.admin = some w → w.resources.Sound
  io : ∀ w, c.io = some w → w.resources.Sound
  dropped : ∀ w ∈ c.dropped, GivenBack w

/-- The controller is `d`, with these open buffers and at this phase. -/
structure At (s : Settings) (env : Surroundings) (d : Controller) (l : List Nat) (p : Phase) (c : Controller) : Prop where
  core : c.core = d
  buffers : c.openBuffers = l
  leads : Leads s env.identified c.issued p

/-- The buffers at an early end: those of the block around, or outside of all blocks those that could not be closed. -/
def Remain (env : Surroundings) (l buffers : List Nat) : Prop :=
  buffers = l ∨ l = [] ∧ ∀ i ∈ buffers, env.deregister i ≠ none

theorem Remain.outside {env : Surroundings} {buffers : List Nat} (h : Remain env [] buffers) :
    ∀ i ∈ buffers, env.deregister i ≠ none := by
  rcases h with rfl | ⟨-, h⟩
  · intro i hi
    cases hi
  · exact h

/-- What holds when a method ends early. It only does not end at all when `W` holds. -/
structure Early (s : Settings) (env : Surroundings) (W : Prop) (l : List Nat) (x : Option Raised) (c : Controller) :
    Prop where
  held : Held c
  buffers : Remain env l c.openBuffers
  leads : ∃ p, Leads s env.identified c.issued p
  waits : x = none → W

section Methods

variable {s : Settings} {env : Surroundings} {W : Prop} {d : Controller} {l : List Nat} {p : Phase} {α : Type}

theorem At.held {c : Controller} (h : At s env d l p c) (hd : Held d) : Held c := by
  have hheld : Held c.core := by rwa [h.core]
  exact ⟨hheld.admin, hheld.io, hheld.dropped⟩

theorem At.early {c : Controller} (h : At s env d l p c) (hd : Held d) (e : Raised) : Early s env W l (some e) c :=
  ⟨h.held hd, .inl h.buffers, ⟨p, h.leads⟩, fun h => absurd h (Option.some_ne_none e)⟩

theorem triple_pass {x : Except Exn α} (hd : Held d) :
    Triple (At s env d l p) (pass x) (fun a c => x = .ok a ∧ At s env d l p c) (Early s env W l) := by
  apply triple_eval
  · intro a hx c hc
    cases x with
    | ok b =>
        cases hx
        exact ⟨rfl, hc⟩
    | error e => cases hx
  · intro e _ c hc
    exact hc.early hd e

theorem triple_check {b : Prop} [Decidable b] {e : Raised} (hd : Held d) :
    Triple (At s env d l p) (refuse b e) (fun _ c => ¬ b ∧ At s env d l p c) (Early s env W l) := by
  apply triple_refuse
  · intro _ c hc
    exact hc.early hd e
  · intro hb c hc
    exact ⟨hb, hc⟩

/-- An assignment to an attribute. -/
theorem triple_assign {E : Option Raised → Controller → Prop} {f : Controller → Controller}
    (hf : ∀ c, (f c).core = f c.core ∧ (f c).openBuffers = c.openBuffers ∧ (f c).issued = c.issued) :
    Triple (At s env d l p) (update f) (fun _ => At s env (f d) l p) E := by
  refine triple_update fun c hc => ?_
  obtain ⟨hcore, hbuffers, hissued⟩ := hf c
  exact ⟨by rw [hcore, hc.core], by rw [hbuffers, hc.buffers], by rw [hissued]; exact hc.leads⟩

theorem triple_execute {queue : QueueName} {command : List UInt8} {next : Nat → Phase} (hd : Held d)
    (hsends : p.Sends s env.identified queue command next) :
    Triple (At s env d l p) (execute env queue command) (fun answer => At s env d l (next answer)) (Early s env W l) := by
  intro c hc
  have hheld := hc.held hd
  unfold execute
  cases env.execute c.issued.length with
  | ok completion => exact ⟨hc.core, hc.buffers, hc.leads.answered completion.result hsends⟩
  | error e =>
      exact ⟨⟨hheld.admin, hheld.io, hheld.dropped⟩, .inl hc.buffers, ⟨.unanswered, hc.leads.unanswered hsends⟩,
        fun h => absurd h (Option.some_ne_none _)⟩

/-- `HostBuffer.close` at the end of a block that returned. -/
theorem triple_closeHostBuffer {i : Nat} (hd : Held d) :
    Triple (At s env d [i] p) (closeHostBuffer env i) (fun _ => At s env d [] p) (Early s env W []) := by
  intro c hc
  have hheld := hc.held hd
  unfold closeHostBuffer
  cases hi : env.deregister i with
  | none => exact ⟨hc.core, by simp [hc.buffers], hc.leads⟩
  | some e =>
      refine ⟨hheld, .inr ⟨rfl, ?_⟩, ⟨p, hc.leads⟩, fun h => absurd h (Option.some_ne_none _)⟩
      simp [hc.buffers, hi]

/-- And at the end of one that raised. -/
theorem triple_closeHostBuffer_raised {i : Nat} {e : Raised} :
    Triple (Early s env False [i] (some e)) (closeHostBuffer env i) (fun _ => Early s env W [] (some e))
      (Early s env W []) := by
  intro c hc
  have hbuffers : c.openBuffers = [i] := hc.buffers.resolve_right fun h => by simp at h
  unfold closeHostBuffer
  cases hi : env.deregister i with
  | none =>
      exact ⟨⟨hc.held.admin, hc.held.io, hc.held.dropped⟩, .inl (by simp [hbuffers]), hc.leads,
        fun h => absurd h (Option.some_ne_none _)⟩
  | some e' =>
      refine ⟨hc.held, .inr ⟨rfl, ?_⟩, hc.leads, fun h => absurd h (Option.some_ne_none _)⟩
      simp [hbuffers, hi]

/-- A `with` block closes its buffer, or that raises. -/
theorem triple_withBuffer {length : Int} {body : Region → Method α} {b : α → Prop} {d' : α → Controller}
    (next : α → Phase) (hd : Held d) (hd' : ∀ a, Held (d' a))
    (hbody : ∀ i buffer, Triple (At s env d [i] p) (body buffer) (fun a c => b a ∧ At s env (d' a) [i] (next a) c)
      (Early s env False [i])) :
    Triple (At s env d [] p) (withBuffer env length body) (fun a c => b a ∧ At s env (d' a) [] (next a) c)
      (Early s env W []) := by
  have hopen : Triple (At s env d [] p) (hostBuffer env length) (fun buffer => At s env d [buffer.1] p)
      (Early s env W []) := by
    intro c hc
    unfold hostBuffer
    cases env.register c.buffers with
    | ok memory => exact ⟨hc.core, congrArg (· ++ [c.buffers]) hc.buffers, hc.leads⟩
    | error e => exact hc.early hd (.exn e)
  refine hopen.bind ?_
  intro buffer
  refine (hbody buffer.1 buffer.2).ensure ?_ (fun e => triple_closeHostBuffer_raised) ?_
  · intro a
    refine triple_of_fact fun ha => ?_
    exact (triple_closeHostBuffer (hd' a)).conseq (fun _ hc => hc) (fun _ _ hc => ⟨ha, hc⟩) fun _ _ hc => hc
  · intro c hc
    exact (hc.waits rfl).elim

theorem depth_of_rdmaCmRequest {qid depth controllerId : Int} {record : List UInt8}
    (h : rdmaCmRequest qid depth controllerId = .ok record) : 2 ≤ depth ∧ depth ≤ 256 := by
  simp only [rdmaCmRequest, throw_eq, bind_eq, error_bind, ite_error_eq_ok, bind_eq_ok] at h
  obtain ⟨_, hdepth, _⟩ := h
  rw [maxQueueDepth] at hdepth
  omega

theorem triple_openQueue {queue : QueueName} {depth controllerId : Int} (hd : Held d) :
    Triple (At s env d [] p) (openQueue env queue depth controllerId)
      (fun _ c => ∃ w, (2 ≤ depth ∧ Built w depth.toNat) ∧ At s env (d.assign w queue) [] p c) (Early s env W []) := by
  refine (triple_pass hd).bind ?_
  intro record
  refine triple_of_fact fun hrecord => ?_
  intro c hc
  have hheld := hc.held hd
  dsimp only
  split
  · next w hw =>
      refine ⟨w, ⟨(depth_of_rdmaCmRequest hrecord).1, built_of_construct hw⟩, ?_, ?_, ?_⟩
      · rw [← hc.core]
        cases queue <;> rfl
      · cases queue <;> exact hc.buffers
      · cases queue <;> exact hc.leads
  · next w e hw =>
      refine ⟨⟨hheld.admin, hheld.io, ?_⟩, .inl hc.buffers, ⟨p, hc.leads⟩, fun h => absurd h (Option.some_ne_none _)⟩
      intro w' hw'
      rcases List.mem_append.mp hw' with hold | hnew
      · exact hheld.dropped w' hold
      · obtain rfl := List.mem_singleton.mp hnew
        exact givenBack_of_construct hw

theorem triple_connectQueue {queue : QueueName} {depth controllerId keepAliveMs : Int} {next : Nat → Phase}
    (hd : Held d)
    (hsends : ∀ data command, fabricsConnect queue.qid depth data keepAliveMs = .ok command →
      p.Sends s env.identified queue command next) :
    Triple (At s env d [] p) (connectQueue s env queue depth controllerId keepAliveMs) (fun a => At s env d [] (next a))
      (Early s env W []) := by
  refine (triple_withBuffer (b := fun _ => True) next hd (fun _ => hd) ?_).conseq (fun _ hc => hc)
    (fun _ _ hc => hc.2) fun _ _ hc => hc
  intro i data
  refine (triple_pass hd).bind ?_
  intro written
  refine triple_of_fact fun _ => ?_
  refine (triple_pass hd).bind ?_
  intro command
  refine triple_of_fact fun hcommand => ?_
  exact (triple_execute hd (hsends data command hcommand)).conseq (fun _ hc => hc) (fun _ _ hc => ⟨trivial, hc⟩)
    fun _ _ hc => hc

theorem triple_getProperty {offset size : Int} {next : Nat → Phase} (hd : Held d)
    (hsends : ∀ command, propertyGet offset size = .ok command → p.Sends s env.identified .admin command next) :
    Triple (At s env d l p) (getProperty env offset size) (fun a => At s env d l (next a)) (Early s env W l) := by
  refine (triple_pass hd).bind ?_
  intro command
  refine triple_of_fact fun hcommand => ?_
  exact triple_execute hd (hsends command hcommand)

theorem triple_setProperty {offset value size : Int} (p' : Phase) (hd : Held d)
    (hsends : ∀ command, propertySet offset value size = .ok command → p.Sends s env.identified .admin command fun _ => p') :
    Triple (At s env d l p) (setProperty env offset value size) (fun _ => At s env d l p') (Early s env W l) := by
  refine (triple_pass hd).bind ?_
  intro command
  refine triple_of_fact fun hcommand => ?_
  refine (triple_execute hd (hsends command hcommand)).bind ?_
  intro _
  exact triple_pure fun c hc => hc

theorem triple_getProperty_length {offset size : Int} {n : Nat} :
    Triple (fun c => c.issued.length = n) (getProperty env offset size) (fun _ c => c.issued.length = n + 1)
      (fun _ _ => True) := by
  refine (triple_eval (Q := fun _ c => c.issued.length = n) (fun _ _ _ hc => hc) (fun _ _ _ _ => trivial)).bind ?_
  intro command c hc
  unfold execute
  cases env.execute c.issued.length with
  | ok completion => simp [Ending.Holds, hc]
  | error e => trivial

/-! ## The parts of `_connect` -/

/-- Each poll issues a command, so that a long wait sees late deadlines. -/
theorem triple_waitReady {answer capabilities b k : Nat} (hd : Held d)
    (hsends : ∀ command, propertyGet regCsts 4 = .ok command →
      p.Sends s env.identified .admin command (.polling answer capabilities)) :
    Triple (fun c => At s env d [] p c ∧ b ≤ c.issued.length + k ∧ (k = 0 → env.expired c.issued.length = false))
      (waitReady env k)
      (fun _ c => ∃ csts, (¬ Fatal csts ∧ Ready csts) ∧ At s env d [] (.polling answer capabilities csts) c)
      (Early s env (∃ n, b ≤ n ∧ env.expired n = false) []) := by
  induction k generalizing p with
  | zero =>
      refine triple_diverge ?_
      rintro c ⟨hc, hbound, hexpired⟩
      exact ⟨hc.held hd, .inl hc.buffers, ⟨p, hc.leads⟩, fun _ => ⟨c.issued.length, hbound, hexpired rfl⟩⟩
  | succ k ih =>
      rw [waitReady]
      have hstatus : Triple (fun c => At s env d [] p c ∧ b ≤ c.issued.length + (k + 1) ∧
            (k + 1 = 0 → env.expired c.issued.length = false)) (getProperty env regCsts 4)
          (fun csts c => At s env d [] (.polling answer capabilities csts) c ∧ b ≤ c.issued.length + k)
          (Early s env (∃ n, b ≤ n ∧ env.expired n = false) []) := by
        intro c hc
        have hlength : Ending.Holds (fun _ c' => c'.issued.length = c.issued.length + 1) (fun _ _ => True)
            (getProperty env regCsts 4 c).1 (getProperty env regCsts 4 c).2 := triple_getProperty_length c rfl
        have hleads : Ending.Holds (fun csts => At s env d [] (.polling answer capabilities csts))
            (Early s env (∃ n, b ≤ n ∧ env.expired n = false) []) (getProperty env regCsts 4 c).1
            (getProperty env regCsts 4 c).2 := triple_getProperty hd hsends c hc.1
        cases hend : (getProperty env regCsts 4 c).1 with
        | returned csts =>
            rw [hend] at hlength hleads
            refine ⟨hleads, ?_⟩
            have hafter : (getProperty env regCsts 4 c).2.issued.length = c.issued.length + 1 := hlength
            omega
        | raised e =>
            rw [hend] at hleads
            exact hleads
        | unfinished =>
            rw [hend] at hleads
            exact hleads
      refine hstatus.bind ?_
      intro csts
      refine (triple_refuse (Q := fun _ c => ¬ Fatal csts ∧ At s env d [] (.polling answer capabilities csts) c ∧
        b ≤ c.issued.length + k) ?_ ?_).bind ?_
      · intro _ c hc
        exact hc.1.early hd _
      · intro hfatal c hc
        exact ⟨hfatal, hc⟩
      intro _
      refine triple_of_fact fun hfatal => ?_
      by_cases hready : Ready csts
      · rw [if_pos hready]
        exact triple_pure fun c hc => ⟨csts, ⟨hfatal, hready⟩, hc.1⟩
      · rw [if_neg hready]
        refine (triple_read (Q := fun n c => n = c.issued.length ∧ At s env d [] (.polling answer capabilities csts) c ∧
          b ≤ c.issued.length + k) fun c hc => ⟨rfl, hc⟩).bind ?_
        intro n
        refine (triple_refuse (Q := fun _ c => At s env d [] (.polling answer capabilities csts) c ∧
          b ≤ c.issued.length + k ∧ (k = 0 → env.expired c.issued.length = false)) ?_ ?_).bind ?_
        · intro _ c hc
          exact hc.2.1.early hd _
        · rintro hexpired c ⟨rfl, hc, hbound⟩
          exact ⟨hc, hbound, fun _ => Bool.not_eq_true _ ▸ hexpired⟩
        · intro _
          exact ih fun command hcommand => .poll hfatal hready hcommand

theorem held_empty : Held {} where
  admin := by
    intro w hw
    cases hw
  io := by
    intro w hw
    cases hw
  dropped := by
    intro w hw
    cases hw

/-- A queue that was built is assigned to an attribute. -/
theorem Held.assign (hd : Held d) {w : Owner} {depth : Nat} (hw : Built w depth) (queue : QueueName) :
    Held (d.assign w queue) := by
  cases queue with
  | admin =>
      refine ⟨?_, hd.io, hd.dropped⟩
      intro w' hw'
      cases hw'
      exact hw.sound
  | io =>
      refine ⟨hd.admin, ?_, hd.dropped⟩
      intro w' hw'
      cases hw'
      exact hw.sound

theorem triple_connectAdmin :
    Triple (At s env {} [] .new) (connectAdmin s env)
      (fun id c => ∃ w answer, (id = answer &&& 0xFFFF ∧ ¬ AuthRequired answer ∧ Built w 32) ∧
        At s env { admin := some w, controllerId := some id } [] (.connected answer) c) (Early s env W []) := by
  unfold connectAdmin
  refine (triple_openQueue held_empty).bind ?_
  intro _
  refine triple_of_exists fun w => ?_
  refine triple_of_fact fun hw => ?_
  have hd := held_empty.assign hw.2 .admin
  refine (triple_connectQueue hd fun data command hcommand => .connect hcommand).bind ?_
  intro answer
  refine (triple_assign (f := fun c => { c with controllerId := some (answer &&& 0xFFFF) })
    fun c => ⟨rfl, rfl, rfl⟩).bind ?_
  intro _
  have hd' : Held { admin := some w, controllerId := some (answer &&& 0xFFFF) } := ⟨hd.admin, hd.io, hd.dropped⟩
  refine (triple_check hd').bind ?_
  intro _
  refine triple_of_fact fun hauth => ?_
  exact triple_pure fun c hc => ⟨w, answer, ⟨rfl, hauth, hw.2⟩, hc⟩

theorem triple_enable {answer k : Nat} (hd : Held d) (hauth : ¬ AuthRequired answer) :
    Triple (At s env d [] (.connected answer)) (enable env (k + 1))
      (fun capabilities c => ∃ csts, (¬ Fatal csts ∧ Ready csts) ∧
        At s env { d with capabilities := some capabilities } [] (.polling answer capabilities csts) c)
      (Early s env (∃ n, k < n ∧ env.expired n = false) []) := by
  unfold enable
  refine (triple_getProperty hd fun command hcommand => .capabilities hauth hcommand).bind ?_
  intro capabilities
  have hd' : Held { d with capabilities := some capabilities } := ⟨hd.admin, hd.io, hd.dropped⟩
  refine (triple_assign (f := fun c => { c with capabilities := some capabilities }) fun c => ⟨rfl, rfl, rfl⟩).bind ?_
  intro _
  -- as a variable: the unifier would try to compute it
  generalize hv : (configuration capabilities : Int) = v
  refine (triple_setProperty (.enabled answer capabilities) hd' ?_).bind ?_
  · intro command hcommand
    rw [← hv] at hcommand
    exact .enable hcommand
  intro _
  have hstatus : ∀ command, propertyGet regCsts 4 = .ok command →
      Phase.Sends s env.identified (.enabled answer capabilities) .admin command (.polling answer capabilities) :=
    fun command hcommand => .status hcommand
  refine ((triple_waitReady (b := k + 1) (k := k + 1) hd' hstatus).conseq ?_ (fun _ _ hc => hc)
    fun _ _ hc => hc).bind ?_
  · intro c hc
    exact ⟨hc, by omega, fun h => absurd h (Nat.succ_ne_zero k)⟩
  intro _
  exact triple_pure fun c hc => hc

theorem triple_identifyController {answer capabilities csts id : Nat} (hd : Held d) (hfatal : ¬ Fatal csts)
    (hready : Ready csts) :
    Triple (At s env d [] (.polling answer capabilities csts)) (identifyController env id)
      (fun info c => (ControllerInfo.fromBytes env.identified = .ok info ∧ info.controllerId = id ∧
          info.sgls &&& 1 <<< 2 ≠ 0 ∧ info.icdoff = 0) ∧
        At s env { d with info := some info } [] (.identified answer capabilities) c) (Early s env W []) := by
  unfold identifyController
  have hd' : ∀ info, Held { d with info := some info } := fun _ => ⟨hd.admin, hd.io, hd.dropped⟩
  refine (triple_withBuffer (b := fun info => ControllerInfo.fromBytes env.identified = .ok info)
    (fun _ => .identified answer capabilities) hd hd' ?_).bind ?_
  · intro i buffer
    refine (triple_pass hd).bind ?_
    intro command
    refine triple_of_fact fun hcommand => ?_
    refine (triple_execute hd (.identify hfatal hready hcommand)).bind ?_
    intro _
    refine (triple_eval (Q := fun info c => ControllerInfo.fromBytes env.identified = .ok info ∧
      At s env d [i] (.identified answer capabilities) c) (fun _ hinfo _ hc => ⟨hinfo, hc⟩)
      fun e _ c hc => hc.early hd e).bind ?_
    intro info
    refine triple_of_fact fun hinfo => ?_
    refine (triple_assign (f := fun c => { c with info := some info }) fun c => ⟨rfl, rfl, rfl⟩).bind ?_
    intro _
    exact triple_pure fun c hc => ⟨hinfo, hc⟩
  intro info
  refine triple_of_fact fun hinfo => ?_
  have hd' := hd' info
  refine (triple_check hd').bind ?_
  intro _
  refine triple_of_fact fun hid => ?_
  refine (triple_check hd').bind ?_
  intro _
  refine triple_of_fact fun hsgls => ?_
  refine (triple_check hd').bind ?_
  intro _
  refine triple_of_fact fun hicdoff => ?_
  exact triple_pure fun c hc => ⟨⟨hinfo, not_not.mp hid, hsgls, not_not.mp hicdoff⟩, hc⟩

theorem triple_connectIo {answer capabilities : Nat} {info : ControllerInfo} {id : Nat} (hd : Held d)
    (hinfo : ControllerInfo.fromBytes env.identified = .ok info) (hid : info.controllerId = answer &&& 0xFFFF)
    (hsgls : info.sgls &&& 1 <<< 2 ≠ 0) (hicdoff : info.icdoff = 0) :
    Triple (At s env d [] (.identified answer capabilities)) (connectIo s env id capabilities info)
      (fun _ c => ∃ w, (2 ≤ ioDepth s.queueDepth capabilities info ∧
          Built w (ioDepth s.queueDepth capabilities info).toNat) ∧
        At s env { d with io := some w, maxTransferBytes := some (transferLimit capabilities info) } []
          (.established answer capabilities info) c) (Early s env W []) := by
  unfold connectIo
  refine (triple_pass hd).bind ?_
  intro command
  refine triple_of_fact fun hcommand => ?_
  refine (triple_execute hd (.features hinfo hid hsgls hicdoff hcommand)).bind ?_
  intro granted
  refine (triple_check hd).bind ?_
  intro _
  refine triple_of_fact fun _ => ?_
  refine (triple_openQueue hd).bind ?_
  intro _
  refine triple_of_exists fun w => ?_
  refine triple_of_fact fun hw => ?_
  refine (triple_connectQueue (hd.assign hw.2 .io) fun data command hcommand => .connectIo hcommand).bind ?_
  intro _
  refine (triple_assign (f := fun c => { c with maxTransferBytes := some (transferLimit capabilities info) })
    fun c => ⟨rfl, rfl, rfl⟩).conseq (fun _ hc => hc) (fun _ c hc => ⟨w, hw, hc⟩) (fun _ _ hc => hc)

/-! ## The limits -/

theorem ioDepth_le_requested (requested : Int) (capabilities : Nat) (info : ControllerInfo) :
    ioDepth requested capabilities info ≤ requested := by
  rw [ioDepth]
  split <;> omega

theorem ioDepth_le_capabilities (requested : Int) (capabilities : Nat) (info : ControllerInfo) :
    ioDepth requested capabilities info ≤ ((capabilities &&& 0xFFFF) + 1 : Nat) := by
  rw [ioDepth]
  split <;> omega

theorem ioDepth_le_maxCommands (requested : Int) (capabilities : Nat) {info : ControllerInfo}
    (h : info.maxCommands ≠ 0) : ioDepth requested capabilities info ≤ info.maxCommands := by
  rw [ioDepth]
  rw [if_pos h]
  omega

/-- A transfer can always have the size of the smallest page. -/
theorem transferLimit_bounds (capabilities : Nat) (info : ControllerInfo) :
    4096 ≤ transferLimit capabilities info ∧ transferLimit capabilities info ≤ maxKeyedSglLength := by
  have hpage : 4096 ≤ pageSize capabilities <<< info.mdts := by
    rw [pageSize, Nat.shiftLeft_eq, Nat.shiftLeft_eq, one_mul, pow_add, mul_assoc]
    exact Nat.le_mul_of_pos_right (2 ^ 12) (Nat.mul_pos (Nat.two_pow_pos _) (Nat.two_pow_pos _))
  have hmax : (4096 : Int) ≤ maxKeyedSglLength := by decide
  rw [transferLimit]
  split <;> omega

/-! ## `close` -/

theorem givenBack_closeQueue {queue : Option Owner} (h : ∀ w, queue = some w → w.resources.Sound) (closing : Closing) :
    ∀ w ∈ (closeQueue queue closing).1.toList ++ (closeQueue queue closing).2, GivenBack w := by
  cases queue with
  | none => exact fun w hw => (List.not_mem_nil hw).elim
  | some w =>
      have hback := givenBack_close (h w rfl) closing
      unfold closeQueue
      dsimp only
      split
      · next heq =>
          rw [heq] at hback
          exact fun w' hw' => List.mem_singleton.mp hw' ▸ hback
      · next heq =>
          rw [heq] at hback
          exact fun w' hw' => List.mem_singleton.mp hw' ▸ hback

theorem givenBack_closed {c : Controller} (h : Held c) : ∀ w ∈ (close env c).queues, GivenBack w := by
  have hio := givenBack_closeQueue h.io (env.closing .io)
  have hadmin := givenBack_closeQueue h.admin (env.closing .admin)
  intro w hw
  simp only [close, Controller.queues, List.mem_append] at hw hio hadmin
  rcases hw with (hw | hw) | (hw | hw) | hw
  · exact hadmin w (.inl hw)
  · exact hio w (.inl hw)
  · exact h.dropped w hw
  · exact hio w (.inr hw)
  · exact hadmin w (.inr hw)

theorem held_closeQueue {queue : Option Owner} (h : ∀ w, queue = some w → w.resources.Sound) (closing : Closing)
    (w : Owner) (hw : (closeQueue queue closing).1 = some w) : w.resources.Sound :=
  (givenBack_closeQueue h closing w (List.mem_append_left _ (by rw [hw]; exact List.mem_singleton_self w))).sound

theorem held_close {c : Controller} (h : Held c) : Held (close env c) := by
  refine ⟨held_closeQueue h.admin _, held_closeQueue h.io _, ?_⟩
  intro w hw
  exact givenBack_closed h w (List.mem_append_right _ hw)

/-- The whole of `_connect`. -/
theorem triple_connect {k : Nat} :
    Triple (At s env {} [] .new) (connect s env (k + 1)) (fun _ c => Connected s env.identified c ∧ c.openBuffers = [])
      (Early s env (∃ n, k < n ∧ env.expired n = false) []) := by
  unfold connect
  refine (triple_check held_empty).bind ?_
  intro _
  refine triple_of_fact fun _ => ?_
  refine triple_connectAdmin.bind ?_
  intro id
  refine triple_of_exists fun w => ?_
  refine triple_of_exists fun answer => ?_
  refine triple_of_fact fun hadmin => ?_
  obtain ⟨rfl, hauth, hw⟩ := hadmin
  have hd := held_empty.assign hw .admin
  have hd₁ : Held { admin := some w, controllerId := some (answer &&& 0xFFFF) } := ⟨hd.admin, hd.io, hd.dropped⟩
  refine (triple_enable hd₁ hauth).bind ?_
  intro capabilities
  refine triple_of_exists fun csts => ?_
  refine triple_of_fact fun hstatus => ?_
  have hd₂ : Held
      { admin := some w, controllerId := some (answer &&& 0xFFFF), capabilities := some capabilities } :=
    ⟨hd.admin, hd.io, hd.dropped⟩
  refine (triple_identifyController hd₂ hstatus.1 hstatus.2).bind ?_
  intro info
  refine triple_of_fact fun hinfo => ?_
  have hd₃ : Held
      { admin := some w, controllerId := some (answer &&& 0xFFFF), capabilities := some capabilities,
        info := some info } := ⟨hd.admin, hd.io, hd.dropped⟩
  refine (triple_connectIo hd₃ hinfo.1 hinfo.2.1 hinfo.2.2.1 hinfo.2.2.2).conseq (fun _ hc => hc) ?_
    (fun _ _ hc => hc)
  rintro _ c ⟨w', ⟨htwo, hw'⟩, hc⟩
  have hrequested := ioDepth_le_requested s.queueDepth capabilities info
  have hcapabilities := ioDepth_le_capabilities s.queueDepth capabilities info
  refine ⟨⟨⟨w, congrArg Controller.admin hc.core, hw.whole, hw.depth⟩,
    ⟨w', congrArg Controller.io hc.core, hw'.whole, ?_, ?_, ?_⟩,
    ⟨_, congrArg Controller.maxTransferBytes hc.core, transferLimit_bounds capabilities info⟩,
    ⟨answer, capabilities, info, hc.leads, congrArg Controller.controllerId hc.core,
      congrArg Controller.capabilities hc.core, congrArg Controller.info hc.core⟩⟩, hc.buffers⟩
  · rw [hw'.depth]
    omega
  · rw [hw'.depth]
    omega
  · intro capabilities' info' hcapabilities' hinfo'
    have hsame := congrArg Controller.capabilities hc.core
    have hsame' := congrArg Controller.info hc.core
    obtain rfl : capabilities = capabilities' := Option.some.inj (hsame.symm.trans hcapabilities')
    obtain rfl : info = info' := Option.some.inj (hsame'.symm.trans hinfo')
    rw [hw'.depth]
    refine ⟨by omega, ?_⟩
    intro hmax
    have := ioDepth_le_maxCommands s.queueDepth capabilities hmax
    omega

/-- The constructor: an exception of `_connect` is raised again once the queues were closed. -/
theorem init_ends (s : Settings) (env : Surroundings) (k : Nat) :
    Ending.Holds (fun _ c => Connected s env.identified c ∧ c.openBuffers = [])
      (fun x c => (x ≠ none → ∀ w ∈ c.queues, GivenBack w) ∧ Early s env (∃ n, k < n ∧ env.expired n = false) [] x c)
      (init s env (k + 1)).1 (init s env (k + 1)).2 := by
  have hinit : Triple (At s env {} [] .new)
      (do
        Program.refuse (s.keepAliveMs ≠ 0)
          (.notImplemented "non-zero keep-alive requires a background command worker")
        Program.onError (connect s env (k + 1)) (close env) : Method Unit)
      (fun _ c => Connected s env.identified c ∧ c.openBuffers = [])
      (fun x c => (x ≠ none → ∀ w ∈ c.queues, GivenBack w) ∧ Early s env (∃ n, k < n ∧ env.expired n = false) [] x c) := by
    refine (triple_refuse (Q := fun _ => At s env {} [] .new) ?_ fun _ _ hc => hc).bind ?_
    · intro _ c hc
      have hnone : c.queues = [] := congrArg Controller.queues hc.core
      refine ⟨fun _ w hw => ?_, hc.early held_empty _⟩
      rw [hnone] at hw
      cases hw
    intro _
    refine triple_connect.onError ?_ ?_
    · intro e c hc
      exact ⟨fun _ => givenBack_closed hc.held,
        ⟨held_close hc.held, hc.buffers, hc.leads, fun h => absurd h (Option.some_ne_none e)⟩⟩
    · intro c hc
      exact ⟨fun h => absurd rfl h, hc⟩
  exact hinit {} ⟨rfl, rfl, .start⟩

end Methods

end Rdma4py.NvmeController.Connection
