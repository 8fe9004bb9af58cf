import Rdma4py.Bindings.Lemmas.ObjectCreation

/-!
# Closing and collecting keep the invariant

A native object is destroyed only when nothing was made from it: the kernel refuses otherwise, or the class has nothing
made from it, or the counts say so.
-/

namespace Rdma4py.Bindings.Objects

open Lib

variable {b : Binding} {w w' : World} {i j k p q : Nat} {o o' rest : Object} {n m : Native Kind} {rc errno : Int}

/-! ## What is not in use -/

theorem Good.not_inUse_leaf (hg : Good b w) (hi : w.objects i = some o) (hp : o.wrapper.ptr = some p)
    (hleaf : ∀ κ, ¬ Kind.On κ o.wrapper.kind) : ¬ w.handles.InUse p := by
  rintro ⟨n, hn, hpn⟩
  obtain ⟨m, hm, hmp, hon⟩ := hg.sound.grounded n hn p hpn
  obtain ⟨m', hm', hmp', hmk, -⟩ := hg.native hi hp
  rw [Handles.eq_of_ptr hg.sound.distinct hm hm' (hmp.trans hmp'.symm), hmk] at hon
  exact hleaf _ hon

theorem Good.not_inUse_context (hg : Good b w) {c : Context} (hi : w.objects i = some (.context c)) (hp : c.ctx = some p)
    (howned : c.owned = true) (hc : c.children = 0) : ¬ w.handles.InUse p := by
  obtain ⟨n, hn, hnp, hnk, -⟩ := hg.native hi hp
  have hu : w.handles.users Kind.child i = 0 := by
    rw [← hg.children i c hi, hc]
  refine Handles.not_inUse_of_users hg.sound ((ptr?_of_object hi).trans hp) (hg.not_lent_context hi hp howned) hn hnp ?_ hu
  intro κ hon
  rw [hnk] at hon
  exact hon.child

theorem Good.not_inUse_endpoint (hg : Good b w) {x : CMID} (hi : w.objects i = some (.cmId x)) (hp : x.id = some p)
    (hqp : w.endpointQp p = none) : ¬ w.handles.InUse p := by
  rintro ⟨n, hn, hpn⟩
  obtain ⟨m, hm, hmp, hmk, -⟩ := hg.native hi hp
  have hend := hg.endpoint n hn m hm hmk (by rw [hmp]; exact hpn)
  rw [hmp, hqp] at hend
  cases hend

/-- What the kernel does not refuse. -/
theorem not_inUse_of_refused (hi : w.objects i = some o) (hp : o.wrapper.ptr = some p) (hr : ¬ w.Refused i)
    (hctx : o.wrapper.kind ≠ .context) (hcm : o.wrapper.kind ≠ .cmId) : ¬ w.handles.InUse p :=
  fun huse => hr ⟨o.wrapper, p, by rw [handles_wrappers, hi]; rfl, hp, hctx, hcm, huse⟩

/-! ## One object -/

/-- An object that is closed: it refers to no more than before. -/
structure Shut (o rest : Object) : Prop where
  ptr : rest.wrapper.ptr = none
  bases : rest.wrapper.bases ⊆ rest.wrapper.refs
  refs : rest.wrapper.refs ⊆ o.wrapper.refs
  parent : rest.parent = o.parent

theorem Shut.left (h : Shut o rest) (hi : w.objects i = some o) :
    w.handles.Left i ((some rest).map Object.wrapper) :=
  ⟨h.ptr, h.bases, o.wrapper, by rw [handles_wrappers, hi]; rfl, h.refs⟩

theorem view_of_object (hi : w.objects i = some o) : w.view i = some o.view := by
  rw [World.view, hi]
  rfl

theorem Good.endpoint_of_ne (hg : Good b w) : ∀ n ∈ w.natives, n.ptr ≠ p → ∀ m ∈ w.natives, m.kind = .cmId →
    m.ptr ∈ n.needs → w.endpointQp m.ptr = some n.ptr :=
  fun n hn _ m hm hk hmem => hg.endpoint n hn m hm hk hmem

/-- An object is closed that looks as before to those that it belongs with. -/
theorem Good.shut (hg : Good b w) (hi : w.objects i = some o) (hp : o.wrapper.ptr = some p) (huse : ¬ w.handles.InUse p)
    (hs : Shut o rest) (hview : rest.view = o.view) (hqp : ∀ z, o.view ≠ .qp z) (hctx : o.wrapper.kind ≠ .context) :
    Good b (((w.destroyed p).put i (some rest)).releaseChild rest.parent) := by
  have hsame : Function.update w.view i ((some rest).map Object.view) = w.view := by
    rw [Option.map_some, hview, ← view_of_object hi, Function.update_eq_self]
  have hrest : SameChildren o (some rest) := by
    intro c hc
    cases hc
    cases o with
    | context c' => exact absurd rfl hctx
    | _ => cases hview
  rw [hs.parent]
  refine hg.free hi hp (hg.not_lent hi hp hctx) huse (hs.left hi) hrest (by rw [hsame]; exact hg.linked)
    hg.endpoint_of_ne ?_
  rw [hsame]
  intro j id c q hj hq
  obtain ⟨k, hk, hkq⟩ := hg.attached j id c q hj hq
  refine ⟨k, hk, ?_⟩
  rw [Handles.ptr?_free_of_ne]
  · exact hkq
  · intro hki
    rw [hki, view_of_object hi, Option.some.injEq] at hk
    exact hqp _ hk

theorem Good.closed (hg : Good b w) {op : String} (hi : w.objects i = some o) (hp : o.wrapper.ptr = some p)
    (huse : rc = 0 → ¬ w.handles.InUse p) (hs : Shut o rest) (hview : rest.view = o.view)
    (hqp : ∀ z, o.view ≠ .qp z) (hctx : o.wrapper.kind ≠ .context) : Good b (w.closed b op rc errno i p rest).1 := by
  have hguse : Good b (w.use [some p]) := hg.use (by simpa using hg.live hi hp)
  rw [World.closed]
  by_cases hrc : rc = 0
  · simp only [hrc, ne_eq, not_true_eq_false, if_false]
    exact hguse.shut hi hp (huse hrc) hs hview hqp hctx
  · simp only [ne_eq, hrc, not_false_eq_true, if_true]
    exact hguse

/-- What nothing refers to, no object needs. -/
theorem Good.linked_gone (hg : Good b w) (href : ¬ w.handles.Referenced i) : Linked (Function.update w.view i none) := by
  have hnot : ∀ {j o}, w.objects j = some o → i ∉ o.wrapper.refs := by
    intro j o hj hmem
    exact href ⟨j, o.wrapper, by rw [handles_wrappers, hj]; rfl, hmem⟩
  refine hg.linked.change .gone ?_ ?_ ?_
  · intro j id _ hj
    obtain ⟨x, hx, -, hc⟩ := view_eq_cmId hj
    exact absurd (by rw [← hc]; exact List.mem_singleton.mpr rfl) (hnot hx)
  · intro j id _ hj
    obtain ⟨y, -, hy, -, -, howner⟩ := view_eq_qp hj
    exact hnot hy (by simp [Object.wrapper, Object.bases, howner])
  · intro j _ hj
    obtain ⟨o, ho, hv⟩ := Option.map_eq_some_iff.mp hj
    cases o with
    | cq x =>
        simp only [Object.view, View.cq.injEq] at hv
        exact hnot ho (by simp [Object.wrapper, Object.bases, hv])
    | _ => cases hv

theorem Good.gone (hg : Good b w) (hi : w.objects i = some o) (hp : o.wrapper.ptr = some p) (hlent : p ∉ w.cmDevices)
    (huse : ¬ w.handles.InUse p) (href : ¬ w.handles.Referenced i) (hqp : ∀ z, o.view ≠ .qp (some z)) :
    Good b (((w.destroyed p).put i none).releaseChild o.parent) := by
  have hleft : w.handles.Left i ((none : Option Object).map Object.wrapper) := href
  refine hg.free hi hp hlent huse hleft (fun c h => by cases h) (hg.linked_gone href) hg.endpoint_of_ne ?_
  refine hg.attached.change (fun j hj => Handles.ptr?_free_of_ne hj) ?_ .gone
  intro id k q hv
  rw [view_of_object hi, Option.some.injEq] at hv
  exact absurd hv (hqp _)

theorem Good.dealloced (hg : Good b w) (hi : w.objects i = some o) (huse : ∀ p, rc = 0 → o.wrapper.ptr = some p →
      p ∉ w.cmDevices ∧ ¬ w.handles.InUse p) (href : ¬ w.handles.Referenced i) (hqp : ∀ z, o.view ≠ .qp (some z)) :
    Good b (w.dealloced rc i o.wrapper.ptr o.parent) := by
  cases hp : o.wrapper.ptr with
  | none => exact hg.drop hi href (hg.linked_gone href) hqp
  | some p =>
      simp only [World.dealloced]
      have hguse : Good b (w.use [some p]) := hg.use (by simpa using hg.live hi hp)
      by_cases hrc : rc = 0
      · simp only [hrc, if_true]
        exact hguse.gone hi hp (huse p hrc hp).1 (huse p hrc hp).2 href hqp
      · simp only [hrc, if_false]
        exact hguse.drop hi href (hg.linked_gone href) hqp

/-! ## The classes -/

theorem Good.closePd (hg : Good b w) {x : PD} (hi : w.objects i = some (.pd x)) (hr : rc = 0 → ¬ w.Refused i) :
    Good b (x.close b i rc errno w).1 := by
  rw [PD.close]
  cases hp : x.pd with
  | none => exact hg
  | some p =>
      exact hg.closed hi hp (fun h => not_inUse_of_refused hi hp (hr h) (fun h => by cases h) (fun h => by cases h))
        ⟨rfl, List.Subset.refl _, List.Subset.refl _, rfl⟩ rfl (fun _ h => by cases h) (fun h => by cases h)

theorem Good.closeMr (hg : Good b w) {x : MR} (hi : w.objects i = some (.mr x)) (hr : rc = 0 → ¬ w.Refused i) :
    Good b (x.close b i rc errno w).1 := by
  rw [MR.close]
  cases hp : x.mr with
  | none => exact hg
  | some p =>
      exact hg.closed hi hp (fun h => not_inUse_of_refused hi hp (hr h) (fun h => by cases h) (fun h => by cases h))
        ⟨rfl, List.Subset.refl _, List.Subset.refl _, rfl⟩ rfl (fun _ h => by cases h) (fun h => by cases h)

theorem Good.closeCompChannel (hg : Good b w) {x : CompChannel} (hi : w.objects i = some (.compChannel x))
    (hr : rc = 0 → ¬ w.Refused i) : Good b (x.close b i rc errno w).1 := by
  rw [CompChannel.close]
  cases hp : x.chan with
  | none => exact hg
  | some p =>
      exact hg.closed hi hp (fun h => not_inUse_of_refused hi hp (hr h) (fun h => by cases h) (fun h => by cases h))
        ⟨rfl, List.Subset.refl _, List.Subset.refl _, rfl⟩ rfl (fun _ h => by cases h) (fun h => by cases h)

theorem Good.closeAh (hg : Good b w) {x : AH} (hi : w.objects i = some (.ah x)) (hr : rc = 0 → ¬ w.Refused i) :
    Good b (x.close b i rc errno w).1 := by
  rw [AH.close]
  cases hp : x.ah with
  | none => exact hg
  | some p =>
      exact hg.closed hi hp (fun h => not_inUse_of_refused hi hp (hr h) (fun h => by cases h) (fun h => by cases h))
        ⟨rfl, List.Subset.refl _, List.Subset.refl _, rfl⟩ rfl (fun _ h => by cases h) (fun h => by cases h)

theorem Good.closeSrq (hg : Good b w) {x : SRQ} (hi : w.objects i = some (.srq x)) (hr : rc = 0 → ¬ w.Refused i) :
    Good b (x.close b i rc errno w).1 := by
  rw [SRQ.close]
  cases hp : x.srq with
  | none => exact hg
  | some p =>
      exact hg.closed hi hp (fun h => not_inUse_of_refused hi hp (hr h) (fun h => by cases h) (fun h => by cases h))
        ⟨rfl, List.Subset.refl _, List.Subset.refl _, rfl⟩ rfl (fun _ h => by cases h) (fun h => by cases h)

/-- `CQ.close` as the events see it. -/
theorem close_isOpen {cls : CQClass} {cq : Bindings.CQ} (hopen : cq.isOpen = true)
    (hbusy : (cls.externalDatapath && cq.externalUsers != 0) = false) :
    (cq.close cls rc errno).1.isOpen = decide (rc ≠ 0) := by
  rw [Bindings.CQ.close, hopen, hbusy]
  by_cases hun : 0 < cq.unacked
  · by_cases hrc : rc = 0
    · simp [hun, hrc]
    · simp [hun, hrc, Bindings.CQ.ackRest, hopen]
  · by_cases hrc : rc = 0
    · simp [hun, hrc]
    · simp [hun, hrc, hopen]

theorem Good.closeCq (hg : Good b w) {x : CQ} (hi : w.objects i = some (.cq x)) (hr : rc = 0 → ¬ w.Refused i) :
    Good b (x.close b i rc errno w).1 := by
  rw [CQ.close]
  cases hopen : x.events.isOpen with
  | false => exact hg
  | true =>
      cases hbusy : b.cqClass.externalDatapath && x.events.externalUsers != 0 with
      | true => exact hg
      | false =>
          have hp : (Object.cq x).wrapper.ptr = some x.handle := by simp [Object.wrapper, CQ.ptr, hopen]
          have hguse : Good b (w.use [some x.handle]) := hg.use (by simpa using hg.live hi hp)
          have hafter : (x.events.close b.cqClass rc errno).1.isOpen = decide (rc ≠ 0) := close_isOpen hopen hbusy
          by_cases hrc : rc = 0
          · simp only [hrc, Bool.not_true, Bool.false_eq_true, if_false, ne_eq, not_true_eq_false]
            subst hrc
            exact hguse.shut hi hp
              (not_inUse_of_refused hi hp (hr rfl) (fun h => by cases h) (fun h => by cases h))
              ⟨by simp [Object.wrapper, CQ.ptr, hafter], List.Subset.refl _, List.Subset.refl _, rfl⟩ rfl
              (fun _ h => by cases h) (fun h => by cases h)
          · simp only [Bool.not_true, Bool.false_eq_true, if_false, ne_eq, hrc, not_false_eq_true, if_true]
            refine hguse.put_same hi ?_ rfl (fun _ h => by cases h)
            simp [Object.wrapper, Object.bases, CQ.ptr, hafter, hopen, hrc]

/-! ### Contexts -/

/-- A device is closed. An owned context belongs to no endpoint. -/
theorem Good.shutContext (hg : Good b w) {x : Context} (hi : w.objects i = some (.context x)) (hp : x.ctx = some p)
    (howned : x.owned = true) (hc : x.children = 0) :
    Good b ((w.destroyed p).put i (some (.context { x with ctx := none }))) := by
  have hview : w.view i = some (.context true (some p)) := by
    rw [view_of_object hi, Object.view, howned, hp]
  have hlinked : Linked (Function.update w.view i (some (.context x.owned none))) := by
    refine hg.linked.change (.context x.owned) ?_ ?_ ?_
    · intro j id _ hj
      obtain ⟨q, hq⟩ := hg.linked.resolved j id i hj
      rw [hview] at hq
      cases hq
    · intro j id _ hj
      obtain ⟨k, c, hk, hv⟩ := hg.linked.managed j id _ hj
      cases hk
      rw [hview] at hv
      cases hv
    · intro j _ hj
      have hchannel := hg.linked.channel j i hj
      rw [hview] at hchannel
      cases hchannel
  have hrest : SameChildren (.context x) (some (.context { x with ctx := none })) := by
    intro c hc
    cases hc
    exact ⟨x, rfl, rfl⟩
  have hshut : Shut (.context x) (.context { x with ctx := none }) :=
    ⟨rfl, List.Subset.refl _, List.Subset.refl _, rfl⟩
  have hfree := hg.free hi hp (hg.not_lent_context hi hp howned) (hg.not_inUse_context hi hp howned hc) (hshut.left hi)
    hrest hlinked hg.endpoint_of_ne (hg.attached.change (fun j hj => Handles.ptr?_free_of_ne hj) (fun id k q hv => by
      rw [hview] at hv
      cases hv) (.context x.owned))
  simp only [World.releaseChild, Object.parent, onChildren_none] at hfree
  exact hfree

theorem Good.closeContext (hg : Good b w) {x : Context} (hi : w.objects i = some (.context x)) :
    Good b (x.close b i rc errno w).1 := by
  rw [Context.close]
  cases hp : x.ctx with
  | none => exact hg
  | some p =>
      have hguse : Good b (w.use [some p]) := hg.use (by simpa using hg.live hi hp)
      by_cases howned : x.owned = true
      · simp only
        rw [if_neg (by simp [howned])]
        by_cases hc : x.children = 0
        · rw [if_neg (by simp [hc])]
          by_cases hrc : rc = 0
          · rw [if_neg (by simp [hrc])]
            exact hguse.shutContext hi hp howned hc
          · rw [if_pos hrc]
            exact hguse
        · rw [if_pos hc]
          exact hg
      · simp only
        rw [if_pos (by simp [howned])]
        exact hg

theorem Good.deallocContext (hg : Good b w) {x : Context} (hi : w.objects i = some (.context x))
    (href : ¬ w.handles.Referenced i) : Good b (x.dealloc i rc w) := by
  rw [Context.dealloc]
  by_cases hc : x.owned = true ∧ x.children = 0
  · rw [if_pos hc]
    exact hg.dealloced hi (fun p _ hp => ⟨hg.not_lent_context hi hp hc.1, hg.not_inUse_context hi hp hc.1 hc.2⟩) href
      (fun _ h => by cases h)
  · rw [if_neg hc]
    exact hg.drop hi href (hg.linked_gone href) (fun _ h => by cases h)

/-! ### Queue pairs -/

theorem not_on_qp (κ : Kind) : ¬ Kind.On κ .qp := by
  intro h
  cases h

/-- The endpoint of a QP that is open: librdmacm has that QP for it. -/
theorem Good.managed_qp (hg : Good b w) {x : QP} (hi : w.objects i = some (.qp x)) (hp : x.qp = some p)
    (hk : x.cmId = some k) : w.isLive (some k) = true ∧ w.endpointQp k = some p := by
  have hview : w.view i = some (.qp (some (k, x.cmOwner))) := by
    rw [view_of_object hi, Object.view, hp, hk]
    rfl
  obtain ⟨l, c, hl, hv⟩ := hg.linked.managed i k _ hview
  obtain ⟨y, hy, hyk, -⟩ := view_eq_cmId hv
  obtain ⟨m, hm, hmk, hmkind, -⟩ := hg.native hy hyk
  obtain ⟨y', q, n, hy', hq, -, hn, hnp, hmem⟩ := hg.base (j := l) hi hp (by simp [Object.bases, hl]) fun _ h => by cases h
  rw [hy, Option.some.injEq] at hy'
  rw [← hy', show (Object.cmId y).wrapper.ptr = some k from hyk, Option.some.injEq] at hq
  rw [← hq] at hmem
  have hend := hg.endpoint n hn m hm hmkind (by rw [hmk]; exact hmem)
  rw [hmk, hnp] at hend
  exact ⟨hg.live hy hyk, hend⟩

theorem Good.freeQp (hg : Good b w) {x : QP} (hi : w.objects i = some (.qp x)) (hp : x.qp = some p)
    {rest : Option Object} (hleft : w.handles.Left i (rest.map Object.wrapper)) {f : Nat → Option Nat}
    (hx : Spent w.view i (rest.map Object.view)) (hrest : SameChildren (.qp x) rest)
    (hf : (x.cmId = none ∧ f = w.endpointQp) ∨ ∃ k, x.cmId = some k ∧ f = Function.update w.endpointQp k none) :
    Good b { (w.destroyed p).put i rest with endpointQp := f } := by
  have hother : ∀ id q, f id = some q → w.endpointQp id = some q ∧ ∀ k, x.cmId = some k → id ≠ k := by
    intro id q hq
    rcases hf with ⟨hnone, rfl⟩ | ⟨k, hk, rfl⟩
    · refine ⟨hq, fun k hk => ?_⟩
      rw [hnone] at hk
      cases hk
    · by_cases hid : id = k
      · rw [hid, Function.update_self] at hq
        cases hq
      · rw [Function.update_of_ne hid] at hq
        refine ⟨hq, fun k' hk' => ?_⟩
        rw [hk, Option.some.injEq] at hk'
        rw [← hk']
        exact hid
  have hview : w.view i = some (.qp (x.cmId.map fun id => (id, x.cmOwner))) := by
    rw [view_of_object hi, Object.view, hp]
    rfl
  have hlinked : Linked (Function.update w.view i (rest.map Object.view)) := by
    refine hg.linked.change hx ?_ ?_ ?_
    · intro j id _ hj
      obtain ⟨q, hq⟩ := hg.linked.resolved j id i hj
      rw [hview] at hq
      cases hq
    · intro j id _ hj
      obtain ⟨k, c, hk, hv⟩ := hg.linked.managed j id _ hj
      cases hk
      rw [hview] at hv
      cases hv
    · intro j _ hj
      have hchannel := hg.linked.channel j i hj
      rw [hview] at hchannel
      cases hchannel
  have hlent : p ∉ w.cmDevices := hg.not_lent hi hp fun h => by cases h
  have hfree := hg.free hi hp hlent (hg.not_inUse_leaf hi hp not_on_qp) hleft hrest hlinked (f := f) ?_ ?_
  · simp only [World.releaseChild, Object.parent, onChildren_none] at hfree
    exact hfree
  · intro n hn hnp m hm hk hmem
    have hold := hg.endpoint n hn m hm hk hmem
    rcases hf with ⟨-, rfl⟩ | ⟨k, hk', rfl⟩
    · exact hold
    · rw [Function.update_of_ne, hold]
      intro hmk
      rw [hmk, (hg.managed_qp hi hp hk').2] at hold
      exact hnp (Option.some.inj hold).symm
  · have hatt : Attached w.view w.handles.ptr? f := fun j id c q hj hq => hg.attached j id c q hj (hother id q hq).1
    refine hatt.change (fun j hj => Handles.ptr?_free_of_ne hj) ?_ hx
    intro id k q hv hq
    rw [hview] at hv
    simp only [Option.some.injEq, View.qp.injEq, Option.map_eq_some_iff, Prod.mk.injEq] at hv
    obtain ⟨k', hk', rfl, -⟩ := hv
    exact (hother k' q hq).2 k' hk' rfl

theorem Good.cmDestroyQp_eq (hg : Good b w) {x : QP} (hi : w.objects i = some (.qp x)) (hp : x.qp = some p)
    (hk : x.cmId = some k) : Good b (w.use [some k, some p]) ∧ w.cmDestroyQp k =
      { (w.use [some k, some p]).destroyed p with endpointQp := Function.update w.endpointQp k none } := by
  obtain ⟨hlive, hqp⟩ := hg.managed_qp hi hp hk
  have hlive' : w.isLive (some p) = true := hg.live hi hp
  refine ⟨hg.use ?_, ?_⟩
  · intro a ha
    rcases List.mem_cons.mp ha with rfl | ha
    · exact hlive
    · rw [List.mem_singleton.mp ha]
      exact hlive'
  · simp only [World.cmDestroyQp, hqp, use_endpointQp]

theorem Good.closeQp (hg : Good b w) {x : QP} (hi : w.objects i = some (.qp x)) : Good b (x.close b i rc errno w).1 := by
  rw [QP.close]
  cases hp : x.qp with
  | none => exact hg
  | some p =>
      simp only
      by_cases hbusy : (b.cqClass.externalDatapath && x.externalUsers != 0) = true
      · rw [if_pos hbusy]
        exact hg
      · rw [if_neg hbusy]
        cases hk : x.cmId with
        | none =>
            have hrest : Shut (.qp x) (.qp { x with qp := none }) :=
              ⟨rfl, List.Subset.refl _, List.Subset.refl _, rfl⟩
            have hguse : Good b (w.use [some p]) := hg.use (by simpa using hg.live hi hp)
            simp only [World.closed]
            by_cases hrc : rc = 0
            · rw [if_neg (by simp [hrc])]
              have hfree := hguse.freeQp hi hp (hrest.left hi) (f := w.endpointQp) .qp (fun _ h => by cases h)
                (.inl ⟨hk, rfl⟩)
              simp only [World.releaseChild, Object.parent, onChildren_none]
              rw [hk] at hfree
              exact hfree
            · rw [if_pos hrc]
              exact hguse
        | some k =>
            obtain ⟨hguse, heq⟩ := hg.cmDestroyQp_eq hi hp hk
            have hrest : Shut (.qp x) (.qp { x with qp := none, cmId := none, cmOwner := none }) := by
              refine ⟨rfl, List.Subset.refl _, ?_, rfl⟩
              intro j hj
              simp only [Object.wrapper, Object.bases, List.mem_append, Option.toList_none, List.not_mem_nil,
                or_false] at hj ⊢
              tauto
            simp only
            rw [heq]
            exact hguse.freeQp hi hp (hrest.left hi) .qp (fun _ h => by cases h) (.inr ⟨k, hk, rfl⟩)

theorem Good.deallocQp (hg : Good b w) {x : QP} (hi : w.objects i = some (.qp x)) (href : ¬ w.handles.Referenced i) :
    Good b (x.dealloc i rc w) := by
  have hleft : w.handles.Left i ((none : Option Object).map Object.wrapper) := href
  rw [QP.dealloc]
  cases hp : x.qp with
  | none =>
      refine hg.drop hi href (hg.linked_gone href) ?_
      intro z hz
      simp [Object.view, hp] at hz
  | some p =>
      cases hk : x.cmId with
      | some k =>
          obtain ⟨hguse, heq⟩ := hg.cmDestroyQp_eq hi hp hk
          simp only
          rw [heq]
          exact hguse.freeQp hi hp hleft .gone (fun _ h => by cases h) (.inr ⟨k, hk, rfl⟩)
      | none =>
          have hguse : Good b (w.use [some p]) := hg.use (by simpa using hg.live hi hp)
          simp only [World.dealloced]
          by_cases hrc : rc = 0
          · rw [if_pos hrc]
            simp only [World.releaseChild, onChildren_none]
            exact hguse.freeQp hi hp hleft (f := w.endpointQp) .gone (fun _ h => by cases h) (.inl ⟨hk, rfl⟩)
          · rw [if_neg hrc]
            refine hguse.drop hi href (hg.linked_gone href) ?_
            intro z hz
            simp [Object.view, hk] at hz

/-! ### Endpoints -/

/-- The endpoint is destroyed first, and then its context forgets the device. -/
theorem cmDestroyEp_put {c : Context} {rest : Option Object} (hk : w.objects k = some (.context c)) (hne : k ≠ i) :
    (w.cmDestroyEp p k).put i rest =
      (((w.use [some p]).destroyed p).put i rest).put k (some (.context { c with ctx := none })) := by
  simp only [World.cmDestroyEp, use_objects, hk, World.put, World.destroyed, use_natives]
  congr 1
  exact Function.update_comm hne _ _ _

theorem Good.forget (hg : Good b w) {c : Context} (hi : w.objects i = some (.context c)) (howned : c.owned = false) :
    Good b (w.put i (some (.context { c with ctx := none }))) := by
  have hview : w.view i = some (.context false c.ctx) := by
    rw [view_of_object hi, Object.view, howned]
  have hspent : Spent w.view i (some (.context c.owned none)) := .context c.owned
  have hshut : Shut (.context c) (.context { c with ctx := none }) :=
    ⟨rfl, List.Subset.refl _, List.Subset.refl _, rfl⟩
  refine ⟨?_, ?_, ?_, hg.older, ?_, hg.devices, hg.extended, hg.endpoint, ?_, fun x hx => hg.freshened hi hx, hg.faults⟩
  · rw [handles_put]
    refine hg.sound.set (hshut.left hi) ?_
    intro p hp hnot
    rw [ptr?_of_object hi] at hp
    have hlent : p ∈ w.cmDevices := (hg.lends i false p (by rw [hview, show c.ctx = some p from hp])).mpr rfl
    exact absurd hlent hnot
  · rw [view_put]
    refine hg.linked.change hspent ?_ ?_ ?_
    · intro j id _ _
      exact ⟨none, by rw [Option.map_some, Object.view, howned]⟩
    · intro j id _ hj
      obtain ⟨k, c', hk, hv⟩ := hg.linked.managed j id _ hj
      cases hk
      rw [hview] at hv
      cases hv
    · intro j _ hj
      have hchannel := hg.linked.channel j i hj
      rw [hview] at hchannel
      cases hchannel
  · intro j c' hj
    rw [handles_put]
    by_cases hji : j = i
    · simp only [hji, World.put, Function.update_self, Option.some.injEq, Object.context.injEq] at hj
      rw [← hj, hji]
      exact hg.children i c hi
    · simp only [World.put, Function.update_of_ne hji] at hj
      exact hg.children j c' hj
  · rw [view_put]
    exact hg.lends.change fun owned p h => by simp [Object.view] at h
  · rw [view_put, handles_put]
    refine hg.attached.change (fun j hj => Handles.ptr?_set_of_ne hj) ?_ hspent
    intro id k q hv
    rw [hview] at hv
    cases hv

/-- An endpoint without a QP goes, and its context forgets the device. -/
theorem Good.freeEndpoint (hg : Good b w) {x : CMID} (hi : w.objects i = some (.cmId x)) (hp : x.id = some p)
    (hqp : w.endpointQp p = none) {rest : Option Object} (hleft : w.handles.Left i (rest.map Object.wrapper))
    (hx : Spent w.view i (rest.map Object.view)) (hrest : SameChildren (.cmId x) rest) :
    Good b ((w.cmDestroyEp p x.context).put i rest) := by
  have hview : w.view i = some (.cmId (some p) x.context) := by
    rw [view_of_object hi, Object.view, hp]
  obtain ⟨q, hq⟩ := hg.linked.resolved i _ _ hview
  obtain ⟨c, hc, howned, -⟩ := view_eq_context hq
  have hne : x.context ≠ i := by
    intro h
    rw [h, hi] at hc
    cases hc
  have huse : ¬ w.handles.InUse p := hg.not_inUse_endpoint hi hp hqp
  have hguse : Good b (w.use [some p]) := hg.use (by simpa using hg.live hi hp)
  have hlinked : Linked (Function.update w.view i (rest.map Object.view)) := by
    refine hg.linked.change hx ?_ ?_ ?_
    · intro j id _ hj
      obtain ⟨q', hq'⟩ := hg.linked.resolved j id i hj
      rw [hview] at hq'
      cases hq'
    · intro j id _ hj
      obtain ⟨k, c', hk, hv⟩ := hg.linked.managed j id _ hj
      cases hk
      rw [hview] at hv
      cases hv
      -- The QP was made from the endpoint.
      obtain ⟨y, r, hy, hr, -, howner⟩ := view_eq_qp hj
      obtain ⟨z, r', n, hz, hzr, -, hn, -, hmem⟩ := hg.base (j := i) hy hr (by simp [Object.bases, howner])
        fun _ h => by cases h
      rw [hi] at hz
      cases hz
      rw [show (Object.cmId x).wrapper.ptr = some p from hp, Option.some.injEq] at hzr
      rw [← hzr] at hmem
      exact huse ⟨n, hn, hmem⟩
    · intro j _ hj
      have hchannel := hg.linked.channel j i hj
      rw [hview] at hchannel
      cases hchannel
  have hlent : p ∉ w.cmDevices := hg.not_lent hi hp fun h => by cases h
  have hfree := hguse.free hi hp hlent huse hleft hrest hlinked (f := w.endpointQp) hg.endpoint_of_ne
    (hg.attached.change (fun j hj => Handles.ptr?_free_of_ne hj) (fun id k q' hv => by
      rw [hview] at hv
      cases hv) hx)
  simp only [World.releaseChild, Object.parent, onChildren_none] at hfree
  have hgood : Good b (((w.use [some p]).destroyed p).put i rest) := hfree
  rw [cmDestroyEp_put hc hne]
  refine hgood.forget ?_ howned
  show Function.update w.objects i rest x.context = _
  rw [Function.update_of_ne hne, hc]

theorem Good.closeCmId (hg : Good b w) {x : CMID} (hi : w.objects i = some (.cmId x)) : Good b (x.close b i w).1 := by
  rw [CMID.close]
  cases hp : x.id with
  | none => exact hg
  | some p =>
      have hguse : Good b (w.use [some p]) := hg.use (by simpa using hg.live hi hp)
      have hrest : Shut (.cmId x) (.cmId { x with id := none, connected := false }) :=
        ⟨rfl, List.nil_subset _, List.Subset.refl _, rfl⟩
      simp only
      cases hqp : (w.use [some p]).endpointQp p with
      | some r => simpa only [Option.isSome_some, if_true] using hguse
      | none =>
          simp only [Option.isSome_none, Bool.false_eq_true, if_false]
          by_cases hc : (w.use [some p]).childrenOf x.context = 0
          · rw [if_neg (by simp [hc])]
            exact hguse.freeEndpoint hi hp hqp (hrest.left hi) (.endpoint (view_of_object hi)) (fun _ h => by cases h)
          · rw [if_pos hc]
            exact hguse

/-- The object of its QP would keep the endpoint. -/
theorem Good.endpointQp_of_unreferenced (hg : Good b w) {x : CMID} (hi : w.objects i = some (.cmId x))
    (hp : x.id = some p) (href : ¬ w.handles.Referenced i) : w.endpointQp p = none := by
  cases hqp : w.endpointQp p with
  | none => rfl
  | some q =>
      have hview : w.view i = some (.cmId (some p) x.context) := by
        rw [view_of_object hi, Object.view, hp]
      obtain ⟨j, hj, -⟩ := hg.attached i p _ q hview hqp
      obtain ⟨y, -, hy, -, -, howner⟩ := view_eq_qp hj
      refine absurd ⟨j, Object.wrapper (.qp y), ?_, ?_⟩ href
      · rw [handles_wrappers, hy]
        rfl
      · simp [Object.wrapper, Object.bases, howner]

theorem Good.deallocCmId (hg : Good b w) {x : CMID} (hi : w.objects i = some (.cmId x))
    (href : ¬ w.handles.Referenced i) : Good b (x.dealloc i w) := by
  have hleft : w.handles.Left i ((none : Option Object).map Object.wrapper) := href
  rw [CMID.dealloc]
  cases hp : x.id with
  | none => exact hg.drop hi href (hg.linked_gone href) (fun _ h => by cases h)
  | some p =>
      have hguse : Good b (w.use [some p]) := hg.use (by simpa using hg.live hi hp)
      have hqp := hg.endpointQp_of_unreferenced hi hp href
      simp only [use_endpointQp, hqp, Option.isSome_none, Bool.false_eq_true, if_false]
      exact hguse.freeEndpoint hi hp hqp hleft .gone (fun _ h => by cases h)

end Rdma4py.Bindings.Objects