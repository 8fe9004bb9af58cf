import Rdma4py.NvmeController.Controller
import Rdma4py.NvmeController.Lemmas.Encoding
import Rdma4py.NvmeQueue.Lemmas.Handed

/-!
# Buffers and the commands that point at them

While every `execute` of `identify_namespace` ends with its request done, each pending command of the admin queue points
at a buffer of its own that is open.
-/

namespace Rdma4py.NvmeController

open Rdma4py.Lib
open NvmeQueue (Exn World RequestId Turn Sheds Taken Both executeTurn)

variable {c c' : Controller} {w w' : World} {e : Event} {r : RequestId} {i : Nat}

/-- The keyed SGL of a capsule is the buffer. -/
structure Points (capsule : List UInt8) (region : Region) : Prop where
  addr : (leNat (slice capsule 24 8) : Int) = region.addr
  length : (leNat (slice capsule 32 3) : Int) = region.length
  rkey : (leNat (slice capsule 35 4) : Int) = region.rkey

/-- An iteration of `identify_namespace` gives its command up and deregisters the buffer: the request was not done, what
the poll takes up to the first completion that it rejects does not complete it, and either there is such a completion or
the deadline has passed. -/
def Abandons (c : Controller) (e : Event) : Prop :=
  ∃ turn data x raised t, e = .iterate turn none data ∧ c.admin.executing = some x ∧
    (c.admin.requests x.request).done = false ∧
    Taken c.admin.queue.depth ⟨c.admin.queue.responses.length, turn.responses⟩ c.admin.tables turn.handed raised t ∧
    ¬ t.Complete x.request ∧ (raised = true ∨ x.deadline ≤ turn.now)

/-! ## The invariant -/

/-- The buffer of a request is open, and its command points at it. -/
structure Backed (c : Controller) (r : RequestId) (i : Nat) : Prop where
  owner : (c.admin.requests r).dataOwner = some i
  buffer : ∃ b, c.buffers[i]? = some b ∧ Points (c.admin.record.capsule r) b.region ∧ b.closed = false

/-- The request is being executed, and the buffer is its own. -/
structure Underway (c : Controller) (r : RequestId) (i : Nat) : Prop where
  backed : Backed c r i
  both : Both r c.admin
  only : ∀ cid r', c.admin.queue.pending.lookup cid = some r' → (c.admin.requests r').dataOwner = some i → r' = r
  kept : c.admin.queue.pending.lookup (c.admin.requests r).commandId = some r ∨ (c.admin.requests r).done = true

/-- Each pending command has a buffer. -/
structure Held (c : Controller) : Prop where
  opened : c.admin.queue.closed = false
  waiting : c.admin.tables.Waiting
  pending : ∀ cid r, c.admin.queue.pending.lookup cid = some r → r < c.admin.nextRequest ∧ ∃ i, Backed c r i
  idle : c.identifying = none → c.admin.executing = none
  busy : ∀ x, c.identifying = some x → ∃ y, c.admin.executing = some y ∧ Underway c y.request x.buffer

theorem Held.keys (h : Held c) : NvmeQueue.Keys c.admin := fun cid r hl => (h.waiting cid r hl).1

theorem Backed.lt (h : Backed c r i) : i < c.buffers.length := by
  obtain ⟨b, hb, -⟩ := h.buffer
  exact (List.getElem?_eq_some_iff.mp hb).1

/-- A request keeps its buffer when neither changes. -/
theorem Backed.same (h : Backed c r i) (ho : (c'.admin.requests r).dataOwner = (c.admin.requests r).dataOwner)
    (hc : c'.admin.record.capsule r = c.admin.record.capsule r) (hb : c'.buffers[i]? = c.buffers[i]?) :
    Backed c' r i := by
  obtain ⟨howner, b, hbuffer, hpoints, hopen⟩ := h
  exact ⟨ho.trans howner, b, hb.trans hbuffer, by rwa [hc], hopen⟩

/-! ## Polls -/

/-- The queue has been polled. -/
structure Shed (w w' : World) : Prop where
  sheds : Sheds w w'
  opened : w'.queue.closed = false
  waiting : w'.tables.Waiting
  nextRequest : w'.nextRequest = w.nextRequest

theorem Held.shed (h : Held c) (hw : Shed c.admin w)
    (hboth : ∀ x y, c.identifying = some x → c.admin.executing = some y → Both y.request w) :
    Held { c with admin := w } := by
  have hbacked : ∀ {r i}, Backed c r i → Backed { c with admin := w } r i := fun hb =>
    hb.same (hw.sheds.owner _) (congrFun hw.sheds.capsule _) rfl
  refine ⟨hw.opened, hw.waiting, fun cid r hl => ?_, fun hx => hw.sheds.executing.trans (h.idle hx), fun x hx => ?_⟩
  · obtain ⟨hlt, i, hb⟩ := h.pending cid r (hw.sheds.pending cid r hl)
    exact ⟨hw.nextRequest ▸ hlt, i, hbacked hb⟩
  · obtain ⟨y, hy, hunder⟩ := h.busy x hx
    refine ⟨y, hw.sheds.executing.trans hy, hbacked hunder.backed, hboth x y hx hy, fun cid r hl ho => ?_, ?_⟩
    · exact hunder.only cid r (hw.sheds.pending cid r hl) ((hw.sheds.owner r).symm.trans ho)
    · rcases hunder.kept with hl | hd
      · have hl' := hw.sheds.kept _ _ hl
        rwa [← hw.sheds.commandId y.request] at hl'
      · exact .inr (hw.sheds.done _ hd)

theorem Held.poll (h : Held c) (hx : c.identifying = none) (responses : Memory UInt8) (handed : List NvmeQueue.Handed) :
    Held { c with admin := (c.admin.carry (.poll responses handed)).1 } := by
  have harrive : Sheds c.admin (c.admin.arrive responses) := .of_eq rfl rfl rfl rfl
  have hsheds := harrive.trans (NvmeQueue.pollHanded_sheds (h.keys.sheds harrive) handed)
  obtain ⟨_, htaken, -, hsame⟩ := NvmeQueue.pollHanded_taken (w := c.admin.arrive responses) h.opened handed
  have hcarry : (c.admin.carry (.poll responses handed)).1 =
      (NvmeQueue.pollHanded (c.admin.arrive responses) handed).1 := by
    rw [World.carry]
    rcases NvmeQueue.pollHanded (c.admin.arrive responses) handed with ⟨w, e | rs⟩ <;> rfl
  rw [hcarry]
  exact h.shed ⟨hsheds, hsame.closed.trans h.opened, htaken.waiting h.waiting, hsame.nextRequest⟩
    fun x _ hx' => by rw [hx] at hx'; cases hx'

/-! ## The `with` block -/

/-- A buffer may be closed that no pending command points at. -/
theorem Held.exit (h : Held c) (hx : c.identifying = none) (dereg : Option Exn) (o : Result)
    (hfree : dereg = none → ∀ cid r, c.admin.queue.pending.lookup cid = some r →
      (c.admin.requests r).dataOwner ≠ some i) : Held (exitBuffer c i dereg o).1 := by
  cases dereg with
  | some e => exact h
  | none =>
      refine ⟨h.opened, h.waiting, fun cid r hl => ?_, h.idle, fun x hx' => ?_⟩
      · obtain ⟨hlt, i', hb⟩ := h.pending cid r hl
        have hne : i ≠ i' := by
          rintro rfl
          exact hfree rfl cid r hl hb.owner
        exact ⟨hlt, i', hb.same rfl rfl (List.getElem?_modify_ne _ _ hne)⟩
      · have hx'' : c.identifying = some x := hx'
        rw [hx] at hx''
        cases hx''

theorem Held.append (h : Held c) (hx : c.identifying = none) (b : HostMemory) :
    Held { c with buffers := c.buffers ++ [b] } := by
  refine ⟨h.opened, h.waiting, fun cid r hl => ?_, h.idle, fun x hx' => ?_⟩
  · obtain ⟨hlt, i, hb⟩ := h.pending cid r hl
    exact ⟨hlt, i, hb.same rfl rfl (List.getElem?_append_left hb.lt)⟩
  · have hx'' : c.identifying = some x := hx'
    rw [hx] at hx''
    cases hx''

theorem Held.refused (h : Held c) (hx : c.identifying = none) (hw : NvmeQueue.Refused c.admin w) :
    Held { c with admin := w } := by
  refine ⟨hw.closed.trans h.opened, fun cid r hl => ?_, fun cid r hl => ?_, fun _ => hw.executing.trans (h.idle hx),
    fun x hx' => ?_⟩
  · have hl' := hw.pending cid r hl
    have hreq : w.tables.requests r = _ := hw.requests r (h.pending cid r hl').1
    rw [hreq]
    exact h.waiting cid r hl'
  · have hl' := hw.pending cid r hl
    obtain ⟨hlt, i, hb⟩ := h.pending cid r hl'
    exact ⟨hlt.trans_le hw.nextRequest, i, hb.same (congrArg _ (hw.requests r hlt)) (hw.capsule r hlt) rfl⟩
  · have hx'' : c.identifying = some x := hx'
    rw [hx] at hx''
    cases hx''

/-- The command has been submitted, and its buffer is the last one. -/
def Controller.submitted (c : Controller) (capsule : List UInt8) (region : Region) (cid : Nat) (free : List Nat)
    (nsid deadline : Int) : Controller :=
  { c with
    admin := { (c.admin.draft cid capsule { commandId := cid, dataOwner := some c.buffers.length }).post cid free
        c.admin.nextRequest with
      executing := some ⟨c.admin.nextRequest, deadline⟩ }
    buffers := c.buffers ++ [⟨region, false⟩]
    identifying := some ⟨c.buffers.length, nsid⟩ }

theorem Held.submitted {capsule : List UInt8} {region : Region} {cid : Nat} {free : List Nat} {nsid deadline : Int}
    (h : Held c) (hp : Points capsule region) : Held (c.submitted capsule region cid free nsid deadline) := by
  have hcases : ∀ {cid' r}, (c.admin.queue.pending.insert cid c.admin.nextRequest).lookup cid' = some r →
      cid' = cid ∧ r = c.admin.nextRequest ∨ c.admin.queue.pending.lookup cid' = some r := by
    intro cid' r hl
    by_cases hcid : cid' = cid
    · subst hcid
      rw [AList.lookup_insert] at hl
      exact .inl ⟨rfl, (Option.some.inj hl).symm⟩
    · rw [AList.lookup_insert_ne hcid] at hl
      exact .inr hl
  have hself : (c.submitted capsule region cid free nsid deadline).admin.requests c.admin.nextRequest =
      { commandId := cid, dataOwner := some c.buffers.length } := Function.update_self ..
  have hcapsule : (c.submitted capsule region cid free nsid deadline).admin.record.capsule c.admin.nextRequest =
      capsule := Function.update_self ..
  have hnew : Backed (c.submitted capsule region cid free nsid deadline) c.admin.nextRequest c.buffers.length :=
    ⟨by rw [hself], ⟨region, false⟩, by simp [Controller.submitted], by rwa [hcapsule], rfl⟩
  have hsame : ∀ {cid' r}, c.admin.queue.pending.lookup cid' = some r →
      (c.submitted capsule region cid free nsid deadline).admin.requests r = c.admin.requests r := fun hl =>
    Function.update_of_ne (Nat.ne_of_lt (h.pending _ _ hl).1) ..
  refine ⟨h.opened, fun cid' r hl => ?_, fun cid' r hl => ?_, fun hx => (by cases hx), fun x hx => ?_⟩
  · show ((c.submitted capsule region cid free nsid deadline).admin.requests r).commandId = cid' ∧
      ((c.submitted capsule region cid free nsid deadline).admin.requests r).done = false
    rcases hcases hl with ⟨rfl, rfl⟩ | hl
    · rw [hself]
      exact ⟨rfl, rfl⟩
    · rw [hsame hl]
      exact h.waiting cid' r hl
  · rcases hcases hl with ⟨rfl, rfl⟩ | hl
    · exact ⟨Nat.lt_succ_self _, _, hnew⟩
    · obtain ⟨hlt, i, hb⟩ := h.pending cid' r hl
      exact ⟨Nat.lt_succ_of_lt hlt, i, hb.same (congrArg _ (hsame hl)) (Function.update_of_ne (Nat.ne_of_lt hlt) ..)
        (List.getElem?_append_left hb.lt)⟩
  · cases hx
    refine ⟨_, rfl, hnew, ?_, fun cid' r hl ho => ?_, .inl ?_⟩
    · rw [Both, hself]
      simp
    · rcases hcases hl with ⟨-, rfl⟩ | hl
      · rfl
      · obtain ⟨-, i, hb⟩ := h.pending cid' r hl
        rw [hsame hl, hb.owner] at ho
        cases ho
        exact absurd hb.lt (Nat.lt_irrefl _)
    · rw [hself]
      exact AList.lookup_insert _

/-! ## The calls -/

/-- An Identify command points at its buffer, whichever ID it gets. -/
theorem identify_points {buffer : Region} {nsid : Int} {controller : Bool} {command : List UInt8}
    (h : identify buffer nsid controller = .ok command) (hl : buffer.length = 4096) (cid : Nat) :
    Points (NvmeQueue.packCommandId command cid) buffer := by
  obtain ⟨_, henc⟩ := identify_encodes h
  have hlength := henc.reads.length
  have hread := henc.reads.read
  refine ⟨?_, ?_, ?_⟩
  · rw [slice_stamped hlength cid (by omega)]
    exact hread (24, 8, buffer.addr) (by simp)
  · rw [slice_stamped hlength cid (by omega), hl]
    exact hread (32, 3, 4096) (by simp)
  · rw [slice_stamped hlength cid (by omega)]
    exact hread (35, 4, buffer.rkey) (by simp)

theorem Held.identify (h : Held c) (hx : c.identifying = none) (nsid : Int) (memory : Except Exn (Int × Int)) (now : Int)
    (post dereg : Option Exn) : Held (identifyNamespace c nsid memory now post dereg).1 := by
  unfold identifyNamespace
  split
  · exact h
  rcases memory with e | ⟨addr, rkey⟩
  · exact h
  dsimp only
  have hnew := h.append hx ⟨⟨addr, 4096, rkey⟩, false⟩
  -- No older command points at the new buffer.
  have hfree : ∀ cid r, c.admin.queue.pending.lookup cid = some r →
      (c.admin.requests r).dataOwner ≠ some c.buffers.length := by
    intro cid r hl ho
    obtain ⟨-, i, hb⟩ := h.pending cid r hl
    obtain rfl : i = c.buffers.length := Option.some.inj (hb.owner.symm.trans ho)
    exact Nat.lt_irrefl _ hb.lt
  cases hc : NvmeController.identify ⟨addr, 4096, rkey⟩ nsid false with
  | error e => exact hnew.exit hx dereg _ fun _ => hfree
  | ok command =>
      dsimp only
      rw [NvmeQueue.executeStart]
      rcases NvmeQueue.submit_cases c.admin command (some c.buffers.length) post with
        ⟨w, e, hsub, hrefused⟩ | ⟨-, -, cid, free, hsub⟩
      · rw [hsub]
        refine (hnew.refused hx hrefused).exit hx dereg _ fun _ cid r hl ho => ?_
        have hl' := hrefused.pending cid r hl
        have ho' : (w.requests r).dataOwner = some c.buffers.length := ho
        rw [hrefused.requests r (h.pending cid r hl').1] at ho'
        exact hfree cid r hl' ho'
      · rw [hsub]
        exact h.submitted (identify_points hc rfl cid)

theorem Held.ended {x : Identifying} {y : NvmeQueue.Execution} (h : Held c) (hx : c.identifying = some x)
    (hy : c.admin.executing = some y) (dereg : Option Exn) (o : Result)
    (hdone : dereg = none → (c.admin.requests y.request).done = true) :
    Held (exitBuffer { c with admin := { c.admin with executing := none }, identifying := none } x.buffer dereg o).1 := by
  obtain ⟨y', hy', hunder⟩ := h.busy x hx
  obtain rfl : y' = y := Option.some.inj (hy'.symm.trans hy)
  have hidle : Held { c with admin := { c.admin with executing := none }, identifying := none } :=
    ⟨h.opened, h.waiting, fun cid r hl => (h.pending cid r hl).imp id fun ⟨i, hb⟩ => ⟨i, hb.same rfl rfl rfl⟩,
      fun _ => rfl, fun _ hx' => by cases hx'⟩
  refine hidle.exit rfl dereg o fun hnone cid r hl ho => ?_
  obtain rfl := hunder.only cid r hl ho
  have hopen : (c.admin.requests y'.request).done = false := (h.waiting cid _ hl).2
  rw [hdone hnone] at hopen
  cases hopen

theorem abandons_iff {y : NvmeQueue.Execution} {turn : Turn} {raised : Bool} {t : NvmeQueue.Tables}
    (hy : c.admin.executing = some y) (hd : (c.admin.requests y.request).done = false)
    (ht : Taken c.admin.queue.depth ⟨c.admin.queue.responses.length, turn.responses⟩ c.admin.tables turn.handed raised t)
    (data : List UInt8) : Abandons c (.iterate turn none data) ↔
      ¬ t.Complete y.request ∧ (raised = true ∨ y.deadline ≤ turn.now) := by
  constructor
  · rintro ⟨turn', data', y', raised', t', he, hy', -, ht', hmissing, hends⟩
    cases he
    obtain rfl : y' = y := Option.some.inj (hy'.symm.trans hy)
    obtain ⟨rfl, rfl⟩ := ht.unique ht'
    exact ⟨hmissing, hends⟩
  · rintro ⟨hmissing, hends⟩
    exact ⟨turn, data, y, raised, t, rfl, hy, hd, ht, hmissing, hends⟩

/-- What an iteration does: the call goes on, or it ends, and then the request is done or it would be abandoned. -/
theorem Held.iteration {x : Identifying} {y : NvmeQueue.Execution} (h : Held c) (hx : c.identifying = some x)
    (hy : c.admin.executing = some y) (turn : Turn) (dereg : Option Exn) (data : List UInt8) :
    ∃ w, Held { c with admin := w } ∧ w.executing = some y ∧
      ((identifyIteration c x y turn dereg data).1 = { c with admin := w } ∧ ¬ Abandons c (.iterate turn none data) ∨
        (∃ o, (identifyIteration c x y turn dereg data).1 =
          (exitBuffer { c with admin := { w with executing := none }, identifying := none } x.buffer dereg o).1) ∧
        (Abandons c (.iterate turn none data) ↔ (w.requests y.request).done = false)) := by
  obtain ⟨y', hy', hunder⟩ := h.busy x hx
  obtain rfl : y' = y := Option.some.inj (hy'.symm.trans hy)
  rw [identifyIteration]
  rcases NvmeQueue.executeTurn_cases h.keys h.opened hunder.both turn with
    ⟨hd, heq⟩ | ⟨hd, raised, w, hturned, hsheds, hnext, hends⟩
  · refine ⟨c.admin, h, hy, .inr ⟨?_, iff_of_false ?_ (by simp [hd])⟩⟩
    · rw [heq]
      rcases NvmeQueue.executeResult_cases (c.admin.requests y'.request) with ⟨e, hr⟩ | ⟨response, hr⟩ <;> rw [hr] <;>
        exact ⟨_, rfl⟩
    · rintro ⟨_, _, y, _, _, _, hy, hopen, -⟩
      obtain rfl : y = y' := Option.some.inj (hy.symm.trans hy')
      rw [hd] at hopen
      cases hopen
  · have hw : Held { c with admin := w } :=
      h.shed ⟨hsheds, hturned.opened, hturned.taken.waiting h.waiting, hnext⟩ fun _ y hx' hy => by
        obtain rfl : y = y' := Option.some.inj (hy.symm.trans hy')
        exact hturned.both
    have hiff := abandons_iff hy hd hturned.taken data
    refine ⟨w, hw, hsheds.executing.trans hy, ?_⟩
    rcases hends with ⟨hends, e, heq⟩ | ⟨hgoes, heq⟩
    · rw [heq]
      refine .inr ⟨⟨_, rfl⟩, ?_⟩
      rw [hiff, hturned.both.complete_iff]
      simp [hends]
    · rw [heq]
      exact .inl ⟨rfl, fun hab => hgoes (hiff.mp hab).2⟩

theorem Held.iterate {x : Identifying} {y : NvmeQueue.Execution} (h : Held c) (hx : c.identifying = some x)
    (hy : c.admin.executing = some y) {turn : Turn} {dereg : Option Exn} {data : List UInt8}
    (hn : ¬ Abandons c (.iterate turn dereg data)) : Held (identifyIteration c x y turn dereg data).1 := by
  obtain ⟨w, hw, hexec, ⟨heq, -⟩ | ⟨⟨o, heq⟩, hiff⟩⟩ := h.iteration hx hy turn dereg data
  · rw [heq]
    exact hw
  · rw [heq]
    refine hw.ended hx hexec dereg o fun hnone => ?_
    subst hnone
    by_contra hopen
    exact hn (hiff.mpr (Bool.not_eq_true _ ▸ hopen))

/-! ## Runs -/

theorem Held.step (h : Held c) (hen : c.Enabled e) (hn : ¬ Abandons c e) : Held (c.step e).1 := by
  cases e with
  | identifyNamespace nsid memory now post dereg =>
      exact h.identify (Option.isNone_iff_eq_none.mp hen.1) nsid memory now post dereg
  | iterate turn dereg data =>
      obtain ⟨x, hx⟩ := Option.isSome_iff_exists.mp hen.1
      obtain ⟨y, hy⟩ := Option.isSome_iff_exists.mp hen.2
      simp only [Controller.step, hx, hy]
      exact h.iterate hx hy hn
  | poll responses handed => exact h.poll (Option.isNone_iff_eq_none.mp hen.1) responses handed
  | io e =>
      exact ⟨h.opened, h.waiting, fun cid r hl => (h.pending cid r hl).imp id fun ⟨i, hb⟩ => ⟨i, hb.same rfl rfl rfl⟩,
        h.idle, fun x hx => (h.busy x hx).imp fun y ⟨hy, hunder⟩ =>
          ⟨hy, hunder.backed.same rfl rfl rfl, hunder.both, hunder.only, hunder.kept⟩⟩

theorem Held.run (hi : c.Initial) (hr : (process.when fun c e => ¬ Abandons c e).Reaches c c') : Held c' := by
  refine hr.invariant (fun c e h hen => h.step hen.1 hen.2) ?_
  exact ⟨hi.opened, fun cid r hl => absurd hl (hi.pending cid r), fun cid r hl => absurd hl (hi.pending cid r),
    fun _ => hi.executing, fun x hx => by rw [hi.identifying] at hx; cases hx⟩

end Rdma4py.NvmeController
