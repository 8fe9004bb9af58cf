import Rdma4py.Bindings.Lemmas.ObjectEvents

/-!
# Every native object has its wrapper

Where the provider destroys what is not in use, an event creates a native object with its wrapper or destroys it with what
its wrapper held. A wrapper that goes holds nothing by then.
-/

namespace Rdma4py.Bindings.Objects

open Lib

variable {b : Binding} {w w' : World} {e : Event} {i j k p q : Nat} {o o' rest : Object} {n m : Native Kind} {rc errno : Int}

/-- The provider destroys what is not in use. -/
def Honest (w : World) : Event → Prop
  | .close i rc _ | .drop i rc => rc ≠ 0 → w.Refused i
  | .createQp _ _ _ _ _ ex rc _ => ex = false → rc = 0
  | _ => True

/-- Every native object has its wrapper, except for the devices of librdmacm. -/
structure Whole (b : Binding) (w : World) : Prop where
  good : Good b w
  covered : w.handles.Covered

/-- What an event does to the wrappers, unless an endpoint comes or goes. -/
inductive Move (w : World) : Handles Kind → Prop
  | same : Move w w.handles
  | new (o : Object) (n : Native Kind) (hp : o.wrapper.ptr = some n.ptr) :
      Move w (w.handles.make w.fresh o.wrapper n)
  | shut (i p : Nat) (rest : Option Object) (hp : w.handles.ptr? i = some p) :
      Move w (w.handles.free i (rest.map Object.wrapper) p)
  | gone (i : Nat) (hp : ∀ p, w.handles.ptr? i = some p → p ∈ w.cmDevices) : Move w (w.handles.set i none)

theorem Whole.move (hw : Whole b w) (hm : Move w w'.handles) : w'.handles.Covered := by
  generalize w'.handles = h at hm
  cases hm with
  | same => exact hw.covered
  | new o n hp =>
      refine hw.covered.make ?_ hp
      rw [handles_wrappers, hw.good.objects_fresh]
      rfl
  | shut i p rest hp => exact hw.covered.free hp
  | gone i hp => exact hw.covered.set hp

/-! ## Creation -/

theorem Move.created {op : String} {result : Option Nat} {kind : Kind} {needs : List Nat} {o : Nat → Object}
    (hp : ∀ p, (o p).wrapper.ptr = some p) : Move w (w.created b op result errno kind needs o).1.handles := by
  cases result with
  | none => exact .same
  | some p =>
      have hmove := Move.new (w := w) (o p) ⟨p, kind, needs, (o p).bases⟩ (hp p)
      rw [← handles_wrap] at hmove
      simpa only [World.created, World.addChild, handles_onChildren] using hmove

theorem Move.use {args : List (Option Nat)} {h : Handles Kind} (hm : Move (w.use args) h) : Move w h := by
  cases hm with
  | same => exact .same
  | new o n hp => exact .new o n hp
  | shut i p rest hp => exact .shut i p rest hp
  | gone i hp => exact .gone i hp

/-! ## Release -/

theorem Move.shut_put (hi : w.objects i = some o) (hp : o.wrapper.ptr = some p) {rest : Option Object} :
    Move w ((w.destroyed p).put i rest).handles := by
  rw [handles_free]
  exact .shut i p rest ((ptr?_of_object hi).trans hp)

theorem Move.closed {op : String} (hi : w.objects i = some o) (hp : o.wrapper.ptr = some p) :
    Move w (w.closed b op rc errno i p rest).1.handles := by
  simp only [World.closed]
  by_cases hrc : rc = 0
  · rw [if_neg (by simp [hrc])]
    simp only [World.releaseChild, handles_onChildren]
    have huse : (w.use [some p]).objects i = some o := hi
    exact (Move.shut_put huse hp).use
  · rw [if_pos hrc]
    exact .same

/-- A wrapper that goes where the provider is honest. -/
theorem Move.dealloced (hw : Whole b w) (hi : w.objects i = some o) (hlent : ∀ p, o.wrapper.ptr = some p → p ∉ w.cmDevices)
    (hh : rc ≠ 0 → w.Refused i) (href : ¬ w.handles.Referenced i) {parent : Option Nat} :
    Move w (w.dealloced rc i o.wrapper.ptr parent).handles := by
  cases hp : o.wrapper.ptr with
  | none =>
      simp only [World.dealloced, handles_put]
      refine .gone i ?_
      intro p hip
      rw [ptr?_of_object hi, hp] at hip
      cases hip
  | some p =>
      have hptr : w.handles.ptr? i = some p := (ptr?_of_object hi).trans hp
      have hrc : rc = 0 := by
        by_contra hrc
        obtain ⟨x, q, hx, hq, -, -, huse⟩ := hh hrc
        rw [handles_wrappers, hi] at hx
        cases hx
        rw [hp, Option.some.injEq] at hq
        rw [← hq] at huse
        exact hw.covered.not_inUse hw.good.sound hptr (hlent p hp) href huse
      simp only [World.dealloced, if_pos hrc, World.releaseChild, handles_onChildren]
      exact (Move.shut_put (w := w.use [some p]) hi hp).use

/-! ## Endpoints -/

theorem Whole.freeEndpoint (hw : Whole b w) {x : CMID} (hi : w.objects i = some (.cmId x)) (hp : x.id = some p)
    {rest : Option Object} : ((w.cmDestroyEp p x.context).put i rest).handles.Covered := by
  have hview : w.view i = some (.cmId (some p) x.context) := by
    rw [view_of_object hi, Object.view, hp]
  obtain ⟨ctx, hctx⟩ := hw.good.linked.resolved i _ _ hview
  obtain ⟨c, hc, -, hcq⟩ := view_eq_context hctx
  have hne : x.context ≠ i := by
    intro h
    rw [h, hi] at hc
    cases hc
  rw [cmDestroyEp_put hc hne, handles_put, handles_free]
  refine Handles.Covered.set (Handles.Covered.free hw.covered ((ptr?_of_object hi).trans hp)) ?_
  intro q hq
  rw [Handles.ptr?_free_of_ne hne] at hq
  have hq' : c.ctx = some q := (ptr?_of_object hc).symm.trans hq
  rw [hcq] at hq'
  exact (hw.good.lends x.context false q (hq' ▸ hctx)).mpr rfl

theorem cmOpen_covered (hc : w.handles.Covered) : (w.cmOpen p).handles.Covered := by
  rw [World.cmOpen]
  split
  · exact hc
  · exact Handles.Covered.lend (n := ⟨p, .context, [], []⟩) hc

theorem Whole.resolve (hw : Whole b w) {result : Except Int (Option (Nat × Nat))} :
    (CMID.resolve b result errno w).1.handles.Covered := by
  match result with
  | .error rc => exact hw.covered
  | .ok none => exact hw.covered
  | .ok (some (id, ctx)) =>
      let x : Object := .context ⟨some ctx, false, 0⟩
      let y : Object := .cmId ⟨some id, w.fresh, false⟩
      have hfresh : (w.cmOpen ctx).handles.ptr? (w.cmOpen ctx).fresh = none := by
        rw [Handles.ptr?, handles_wrappers, cmOpen_objects, cmOpen_fresh, hw.good.objects_fresh]
        rfl
      have hborrow : ((w.cmOpen ctx).wrapBorrowed x).handles.Covered := by
        rw [handles_wrapBorrowed]
        refine (cmOpen_covered hw.covered).set ?_
        intro p hp
        rw [hfresh] at hp
        cases hp
      show (((w.cmOpen ctx).wrapBorrowed x).wrap y ⟨id, .cmId, [], []⟩).handles.Covered
      rw [handles_wrap]
      refine hborrow.make ?_ rfl
      have hnone : w.objects (w.fresh + 1) = none := hw.good.fresh _ (Nat.le_succ _)
      simp only [handles_wrappers, World.wrapBorrowed, cmOpen_objects, cmOpen_fresh,
        Function.update_of_ne (Nat.succ_ne_self w.fresh), hnone, Option.map_none]

/-! ## Events -/

theorem Move.put_same (hi : w.objects i = some o) (hwr : o'.wrapper = o.wrapper) : Move w (w.put i (some o')).handles := by
  rw [handles_put_same hi hwr]
  exact .same

theorem Move.onCq {f : CQ → Bindings.CQ} (hf : ∀ x, (f x).isOpen = x.events.isOpen) :
    Move w (w.onCq i f).handles := by
  rw [World.onCq]
  cases hx : w.cq? i with
  | none => exact .same
  | some x =>
      have hi := objects_of_cq? hx
      have hwr : (Object.cq { x with events := f x }).wrapper = (Object.cq x).wrapper := by
        simp [Object.wrapper, Object.bases, CQ.ptr, hf]
      simp only
      split
      · exact (Move.put_same (w := w.use [some x.handle]) hi hwr).use
      · exact .put_same hi hwr

theorem Move.setUsers {x : Int} : Move w (w.setUsers i x).handles := by
  rw [World.setUsers]
  split
  · next y hy => exact .put_same hy rfl
  · next y hy => exact .put_same hy rfl
  · exact .same

/-- `close` of an object that is no endpoint. -/
theorem Move.close (hw : Whole b w) (hi : w.objects i = some o) (hcm : ∀ x, o ≠ .cmId x) :
    Move w (o.close b i rc errno w).1.handles := by
  cases o with
  | context x =>
      simp only [Object.close, Context.close]
      split
      · exact .same
      · next p hp =>
          split
          · exact .same
          · split
            · exact .same
            · split
              · exact .same
              · exact (Move.shut_put (w := w.use [some p]) hi hp).use
  | pd x =>
      simp only [Object.close, PD.close]
      split
      · exact .same
      · next p hp => exact .closed hi hp
  | mr x =>
      simp only [Object.close, MR.close]
      split
      · exact .same
      · next p hp => exact .closed hi hp
  | compChannel x =>
      simp only [Object.close, CompChannel.close]
      split
      · exact .same
      · next p hp => exact .closed hi hp
  | ah x =>
      simp only [Object.close, AH.close]
      split
      · exact .same
      · next p hp => exact .closed hi hp
  | srq x =>
      simp only [Object.close, SRQ.close]
      split
      · exact .same
      · next p hp => exact .closed hi hp
  | cq x =>
      simp only [Object.close, CQ.close]
      cases hopen : x.events.isOpen with
      | false => exact .same
      | true =>
          cases hbusy : b.cqClass.externalDatapath && x.events.externalUsers != 0 with
          | true => exact .same
          | false =>
              have hp : (Object.cq x).wrapper.ptr = some x.handle := by simp [Object.wrapper, CQ.ptr, hopen]
              have hafter : (x.events.close b.cqClass rc errno).1.isOpen = decide (rc ≠ 0) := close_isOpen hopen hbusy
              simp only [Bool.not_true, Bool.false_eq_true, if_false]
              split
              · next hrc =>
                  have hwr : (Object.cq { x with events := (x.events.close b.cqClass rc errno).1 }).wrapper =
                      (Object.cq x).wrapper := by
                    simp [Object.wrapper, Object.bases, CQ.ptr, hafter, hopen, hrc]
                  exact (Move.put_same (w := w.use [some x.handle]) hi hwr).use
              · simp only [World.releaseChild, handles_onChildren]
                exact (Move.shut_put (w := w.use [some x.handle]) hi hp).use
  | qp x =>
      simp only [Object.close, QP.close]
      split
      · exact .same
      · next p hp =>
          split
          · exact .same
          · split
            · next k hk =>
                obtain ⟨-, heq⟩ := hw.good.cmDestroyQp_eq hi hp hk
                rw [heq]
                have huse : (w.use [some k, some p]).objects i = some (.qp x) := hi
                exact (Move.shut_put huse hp).use
            · exact .closed hi hp
  | cmId x => exact absurd rfl (hcm x)

/-- A context that nothing refers to is borrowed, or counts nothing. -/
theorem Move.deallocContext (hw : Whole b w) {x : Context} (hi : w.objects i = some (.context x))
    (hh : rc ≠ 0 → w.Refused i) (href : ¬ w.handles.Referenced i) : Move w (x.dealloc i rc w).handles := by
  rw [Context.dealloc]
  cases howned : x.owned with
  | false =>
      rw [if_neg (by simp), handles_put]
      refine .gone i ?_
      intro p hp
      rw [ptr?_of_object hi] at hp
      have hview : w.view i = some (.context false (some p)) := by
        rw [view_of_object hi, Object.view, howned, show x.ctx = some p from hp]
      exact (hw.good.lends i false p hview).mpr rfl
  | true =>
      have hchildren : x.children = 0 := by
        rw [hw.good.children i x hi, Handles.users, List.countP_eq_zero]
        intro n hn hcount
        rw [Bool.and_eq_true, decide_eq_true_iff] at hcount
        have hlent : n.ptr ∉ w.cmDevices := by
          intro hmem
          rw [Handles.eq_of_ptr hw.good.sound.distinct hn (hw.good.devices n.ptr hmem) rfl] at hcount
          cases hcount.1
        exact hw.covered.not_through hw.good.sound hn hlent href hcount.2
      rw [if_pos ⟨rfl, hchildren⟩]
      exact .dealloced (o := .context x) hw hi (fun p hp => hw.good.not_lent_context hi hp howned) hh href

/-- `__dealloc__` of an object that is no endpoint. -/
theorem Move.dealloc (hw : Whole b w) (hi : w.objects i = some o) (hcm : ∀ x, o ≠ .cmId x) (hh : rc ≠ 0 → w.Refused i)
    (href : ¬ w.handles.Referenced i) : Move w (o.dealloc i rc w).handles := by
  have hlent : o.wrapper.kind ≠ .context → ∀ p, o.wrapper.ptr = some p → p ∉ w.cmDevices :=
    fun hkind p hp => hw.good.not_lent hi hp hkind
  cases o with
  | context x => exact .deallocContext hw hi hh href
  | qp x =>
      have hplain : Move w (w.dealloced rc i (Object.qp x).wrapper.ptr none).handles :=
        .dealloced hw hi (hlent fun h => by cases h) hh href
      simp only [Object.dealloc, QP.dealloc]
      cases hp : x.qp with
      | none =>
          rw [show (Object.qp x).wrapper.ptr = none from hp] at hplain
          exact hplain
      | some p =>
          cases hk : x.cmId with
          | some k =>
              obtain ⟨-, heq⟩ := hw.good.cmDestroyQp_eq hi hp hk
              simp only
              rw [heq]
              have huse : (w.use [some k, some p]).objects i = some (.qp x) := hi
              exact (Move.shut_put huse hp).use
          | none =>
              rw [show (Object.qp x).wrapper.ptr = some p from hp] at hplain
              exact hplain
  | cmId x => exact absurd rfl (hcm x)
  | _ => exact .dealloced hw hi (hlent fun h => by cases h) hh href

theorem Whole.close (hw : Whole b w) (hi : w.objects i = some o) : (o.close b i rc errno w).1.handles.Covered := by
  by_cases hcm : ∃ x, o = .cmId x
  · obtain ⟨x, rfl⟩ := hcm
    simp only [Object.close, CMID.close]
    split
    · exact hw.covered
    · next p hp =>
        split
        · exact hw.covered
        · split
          · exact hw.covered
          · have hguse : Good b (w.use [some p]) := hw.good.use (by simpa using hw.good.live hi hp)
            exact Whole.freeEndpoint ⟨hguse, hw.covered⟩ hi hp
  · exact hw.move (Move.close hw hi fun x hx => hcm ⟨x, hx⟩)

theorem Whole.dealloc (hw : Whole b w) (hi : w.objects i = some o) (hh : rc ≠ 0 → w.Refused i)
    (href : ¬ w.handles.Referenced i) : (o.dealloc i rc w).handles.Covered := by
  by_cases hcm : ∃ x, o = .cmId x
  · obtain ⟨x, rfl⟩ := hcm
    simp only [Object.dealloc, CMID.dealloc]
    split
    · next hp =>
        rw [handles_put]
        refine hw.covered.set ?_
        intro p hip
        rw [ptr?_of_object hi, show (Object.cmId x).wrapper.ptr = none from hp] at hip
        cases hip
    · next p hp =>
        have hguse : Good b (w.use [some p]) := hw.good.use (by simpa using hw.good.live hi hp)
        rw [use_endpointQp, hw.good.endpointQp_of_unreferenced hi hp href]
        exact Whole.freeEndpoint ⟨hguse, hw.covered⟩ hi hp
  · exact hw.move (Move.dealloc hw hi (fun x hx => hcm ⟨x, hx⟩) hh href)

/-- The creation of a QP where the provider is honest. -/
theorem Move.createQp {x : PD} {args : QueueArgs} {result : Option Nat} {ex : Bool} (hrc : ex = false → rc = 0) :
    Move w (x.createQp b i args result ex rc errno w).1.handles := by
  rw [PD.createQp]
  split
  · exact .same
  · next pd hpd =>
      split
      · exact .same
      · next queues hqueues =>
          split
          · exact (Move.created fun _ => rfl).use
          · cases ex with
            | true => exact (Move.created fun _ => rfl).use
            | false =>
                cases result with
                | none => exact (Move.created fun _ => rfl).use
                | some p =>
                    simp only [if_pos (hrc rfl)]
                    exact .same

theorem Move.cmCreateQp {x : CMID} {y : PD} {args : QueueArgs} {rc : Bool} {result : Except Int Nat} :
    Move w (x.createQp b i j y args rc result errno w).1.handles := by
  rw [CMID.createQp]
  split
  · exact .same
  · next id hid =>
      split
      · exact .same
      · next pd hpd =>
          simp only
          split
          · exact .same
          · split
            · exact .same
            · split
              · exact .same
              · next queues hqueues =>
                  split
                  · exact .same
                  · split
                    · exact .same
                    · next p =>
                        let o := args.qp j (some id) (some i) p
                        have hmove := Move.new (w := w) o ⟨p, .qp, (pd :: queues) ++ [id], o.bases⟩ rfl
                        rw [← handles_wrap] at hmove
                        exact hmove

theorem Move.createCq {op : String} {x : Context} {cqe : Int} {ch : Option (Nat × CompChannel)}
    {compVector numCompVectors : Int} {result : Option Nat} :
    Move w (x.createCq b op i cqe ch compVector numCompVectors result errno w).1.handles := by
  rw [Context.createCq]
  split
  · exact .same
  · next ctx hctx =>
      split
      · exact .same
      · split
        · exact .same
        · split
          · exact .same
          · exact (Move.created fun _ => rfl).use

theorem Move.regMr {x : PD} {addr length : Int} {result : Option Nat} :
    Move w (x.regMr b i addr length result errno w).1.handles := by
  rw [PD.regMr]
  split
  · exact .same
  · next pd hpd =>
      split
      · exact .same
      · split
        · exact .same
        · split
          · exact .same
          · exact (Move.created fun _ => rfl).use

theorem Move.connect {x : CMID} (hi : w.objects i = some (.cmId x)) :
    Move w (x.connect b i rc errno w).1.handles := by
  rw [CMID.connect]
  split
  · exact .same
  · next id hid =>
      simp only
      split
      · exact .same
      · split
        · exact .same
        · have hwr : (Object.cmId { x with connected := true }).wrapper = (Object.cmId x).wrapper := rfl
          exact (Move.put_same (w := w.use [some id]) hi hwr).use

theorem Move.disconnect {x : CMID} (hi : w.objects i = some (.cmId x)) :
    Move w (x.disconnect b i rc errno w).1.handles := by
  rw [CMID.disconnect]
  split
  · exact .same
  · next id hid =>
      simp only
      split
      · exact .same
      · split
        · exact .same
        · have hwr : (Object.cmId { x with connected := false }).wrapper = (Object.cmId x).wrapper := rfl
          exact (Move.put_same (w := w.use [some id]) hi hwr).use

theorem Move.openDevice {name : String} {listed : Bool} {result : Option Nat} :
    Move w (Device.open b name listed result errno w).1.handles := by
  cases listed with
  | false => exact .same
  | true =>
      cases result with
      | none => exact .same
      | some p =>
          have hmove := Move.new (w := w) (.context ⟨some p, true, 0⟩) ⟨p, .context, [], []⟩ rfl
          rw [← handles_wrap] at hmove
          exact hmove

/-- What one event preserves where the provider is honest. -/
theorem Whole.step (hw : Whole b w) (he : Enabled b w e) (hk : w.Room) (hh : Honest w e) : Whole b (next b w e) := by
  suffices h : (next b w e).handles.Covered from ⟨hw.good.step he hk, h⟩
  cases e with
  | openDevice name listed result errno => exact hw.move .openDevice
  | allocPd i result errno =>
      rw [next]
      cases w.context? i with
      | none => exact hw.covered
      | some x =>
          rw [Option.elim_some, Context.allocPd]
          split
          · exact hw.covered
          · exact hw.move (Move.created fun _ => rfl).use
  | createCompChannel i result errno =>
      rw [next]
      cases w.context? i with
      | none => exact hw.covered
      | some x =>
          rw [Option.elim_some, Context.createCompChannel]
          split
          · exact hw.covered
          · exact hw.move (Move.created fun _ => rfl).use
  | createCq op i cqe channel compVector numCompVectors result errno =>
      rw [next]
      cases w.context? i with
      | none => exact hw.covered
      | some x =>
          cases World.optional w.compChannel? channel with
          | none => exact hw.covered
          | some ch => exact hw.move .createCq
  | regMr i addr length result errno =>
      rw [next]
      cases w.pd? i with
      | none => exact hw.covered
      | some x => exact hw.move .regMr
  | createAh i result errno =>
      rw [next]
      cases w.pd? i with
      | none => exact hw.covered
      | some x =>
          rw [Option.elim_some, PD.createAh]
          split
          · exact hw.covered
          · exact hw.move (Move.created fun _ => rfl).use
  | createSrq i result errno =>
      rw [next]
      cases w.pd? i with
      | none => exact hw.covered
      | some x =>
          rw [Option.elim_some, PD.createSrq]
          split
          · exact hw.covered
          · exact hw.move (Move.created fun _ => rfl).use
  | createQp i sendCq recvCq srq result ex rc errno =>
      rw [next]
      cases w.pd? i with
      | none => exact hw.covered
      | some x =>
          cases w.queueArgs sendCq recvCq srq with
          | none => exact hw.covered
          | some args => exact hw.move (.createQp hh)
  | resolve result errno => exact hw.resolve
  | cmCreateQp i pd sendCq recvCq srq rc result errno =>
      rw [next]
      cases w.cmId? i with
      | none => exact hw.covered
      | some x =>
          cases w.pd? pd with
          | none => exact hw.covered
          | some y =>
              cases w.queueArgs sendCq recvCq srq with
              | none => exact hw.covered
              | some args => exact hw.move .cmCreateQp
  | connect i rc errno =>
      rw [next]
      cases hx : w.cmId? i with
      | none => exact hw.covered
      | some x => exact hw.move (.connect (objects_of_cmId? hx))
  | disconnect i rc errno =>
      rw [next]
      cases hx : w.cmId? i with
      | none => exact hw.covered
      | some x => exact hw.move (.disconnect (objects_of_cmId? hx))
  | getCqEvent i => exact hw.move (.onCq fun _ => rfl)
  | ackEvents i nevents => exact hw.move (.onCq fun x => ackEvents_isOpen b.cqClass nevents x.events)
  | users i n => exact hw.move .setUsers
  | method i =>
      rw [next, World.method]
      split
      · exact hw.covered
      · exact hw.covered
  | bridgeInfo i =>
      rw [next, World.bridgeInfo]
      split
      · exact hw.covered
      · exact hw.covered
  | close i rc errno =>
      rw [next]
      cases ho : w.objects i with
      | none => exact hw.covered
      | some o => exact hw.close ho
  | drop i rc =>
      rw [next]
      cases ho : w.objects i with
      | none => exact hw.covered
      | some o => exact hw.dealloc ho hh he.2.2.2

end Rdma4py.Bindings.Objects
