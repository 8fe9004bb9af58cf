import Rdma4py.Bindings.Lemmas.Objects

/-!
# What one event does to the objects

Every event creates an object, closes or drops one, or changes what the invariant does not speak of.
-/

namespace Rdma4py.Bindings.Objects

open Lib

variable {b : Binding} {w w' : World} {i j k p q : Nat} {o o' : Object} {n m : Native Kind} {c : Context}

/-! ## Calls -/

theorem Good.live (hg : Good b w) (h : w.objects i = some o) (hp : o.wrapper.ptr = some p) : w.isLive (some p) = true :=
  isLive_of_ptr hg.sound ((ptr?_of_object h).trans hp)

/-- A native function is given live pointers. -/
theorem Good.use (hg : Good b w) {args : List (Option Nat)} (hlive : ∀ a ∈ args, w.isLive a = true) : Good b (w.use args) := by
  refine ⟨hg.sound, hg.linked, hg.children, hg.older, hg.lends, hg.devices, hg.extended, hg.endpoint, hg.attached, hg.fresh,
    ?_⟩
  show w.faults ++ args.filter (fun p => !w.isLive p) = []
  rw [hg.faults, List.nil_append, List.filter_eq_nil_iff]
  intro a ha
  simp [hlive a ha]

theorem handles_put_same (hi : w.objects i = some o) (hw : o'.wrapper = o.wrapper) :
    (w.put i (some o')).handles = w.handles := by
  rw [handles_put, Handles.set, Option.map_some, hw, ← Option.map_some, ← hi, ← handles_wrappers,
    Function.update_eq_self]

theorem view_put_same (hi : w.objects i = some o) (hv : o'.view = o.view) : (w.put i (some o')).view = w.view := by
  rw [view_put, Option.map_some, hv, ← Option.map_some, ← hi]
  exact Function.update_eq_self i w.view

/-- The fields change that the invariant does not speak of. -/
theorem Good.put_same (hg : Good b w) (hi : w.objects i = some o) (hw : o'.wrapper = o.wrapper) (hv : o'.view = o.view)
    (hc : ∀ c, o' ≠ .context c) : Good b (w.put i (some o')) := by
  have hhandles := handles_put_same hi hw
  have hview := view_put_same hi hv
  refine ⟨?_, ?_, ?_, hg.older, ?_, hg.devices, hg.extended, hg.endpoint, ?_, ?_, hg.faults⟩
  · rw [hhandles]
    exact hg.sound
  · rw [hview]
    exact hg.linked
  · intro j c hj
    rw [hhandles]
    by_cases hji : j = i
    · simp only [hji, World.put, Function.update_self, Option.some.injEq] at hj
      exact absurd hj (hc c)
    · simp only [World.put, Function.update_of_ne hji] at hj
      exact hg.children j c hj
  · rw [hview]
    exact hg.lends
  · rw [hhandles, hview]
    exact hg.attached
  · intro j hj
    have hji : j ≠ i := by
      intro hji
      rw [hji] at hj
      rw [hg.fresh i hj] at hi
      cases hi
    show Function.update w.objects i (some o') j = none
    rw [Function.update_of_ne hji]
    exact hg.fresh j hj

/-! ## Counting children -/

/-- A context counts an object of a counted class that was made from it. -/
theorem parent_iff (hchannel : ∀ x k, o = .cq x → x.channel = some k → ∃ y, w.objects k = some (.compChannel y))
    (hj : w.objects j = some (.context c)) :
    (o.wrapper.kind.child = true ∧ j ∈ o.bases) ↔ o.parent = some j := by
  cases o with
  | cq x =>
      have hne : x.channel ≠ some j := by
        intro hx
        obtain ⟨y, hy⟩ := hchannel x j rfl hx
        rw [hj] at hy
        cases hy
      have hmem : j ∉ x.channel.toList := by
        intro hmem
        exact hne (Option.mem_toList.mp hmem)
      simp only [Object.wrapper, Kind.child, Object.bases, Object.parent, List.mem_cons, hmem, or_false, true_and,
        Option.some.injEq]
      exact eq_comm
  | pd x => simp [Object.wrapper, Kind.child, Object.bases, Object.parent, eq_comm]
  | compChannel x => simp [Object.wrapper, Kind.child, Object.bases, Object.parent, eq_comm]
  | _ => simp [Object.wrapper, Kind.child, Object.parent]

theorem counted_iff (hkind : n.kind = o.wrapper.kind) (hthrough : n.through = o.bases)
    (hchannel : ∀ x k, o = .cq x → x.channel = some k → ∃ y, w.objects k = some (.compChannel y))
    (hj : w.objects j = some (.context c)) :
    (n.kind.child && decide (j ∈ n.through)) = true ↔ o.parent = some j := by
  rw [Bool.and_eq_true, decide_eq_true_iff, hthrough, hkind, parent_iff hchannel hj]

theorem onChildren_context {f : Nat → Nat} {parent : Option Nat} (h : (w.onChildren f parent).objects j = some (.context c)) :
    ∃ c', w.objects j = some (.context c') ∧
      c.children = if parent = some j then f c'.children else c'.children := by
  simp only [World.onChildren] at h
  by_cases hj : parent = some j
  · rw [if_pos hj] at h
    obtain ⟨o, ho, hoc⟩ := Option.map_eq_some_iff.mp h
    cases o with
    | context c' =>
        simp only [Object.onChildren, Object.context.injEq] at hoc
        exact ⟨c', ho, by rw [if_pos hj, ← hoc]⟩
    | _ => cases hoc
  · rw [if_neg hj] at h
    exact ⟨c, h, by rw [if_neg hj]⟩

theorem onChildren_objects_eq_none {f : Nat → Nat} {parent : Option Nat} (h : w.objects j = none) :
    (w.onChildren f parent).objects j = none := by
  simp [World.onChildren, h]

/-! ## Creation -/

theorem Good.objects_fresh (hg : Good b w) : w.objects w.fresh = none := hg.fresh _ (Nat.le_refl _)

theorem Good.lt_fresh (hg : Good b w) (h : w.objects i = some o) : i < w.fresh := by
  by_contra hi
  rw [hg.fresh i (Nat.le_of_not_lt hi)] at h
  cases h

theorem users_le (w : World) (i : Nat) : w.handles.users Kind.child i ≤ w.natives.length := List.countP_le_length

/-- What is new has the right parts, the addresses that it is made from belong to its bases, and there is room in the
counts. -/
structure New (w : World) (o : Object) (n : Native Kind) : Prop where
  fits : w.handles.Fits Kind.On o.wrapper n
  linked : Linked (Function.update w.view w.fresh (some o.view))
  channel : ∀ x k, o = .cq x → x.channel = some k → ∃ y, w.objects k = some (.compChannel y)
  opened : ∀ c, o = .context c → c.children = 0 ∧ c.owned = true
  room : w.natives.length + 1 < 2 ^ 32

theorem Good.not_needed (hg : Good b w) (hn : ¬ w.handles.Live n.ptr) (hm : m ∈ w.natives) : n.ptr ∉ m.needs := by
  intro hmem
  obtain ⟨m', hm', hp, -⟩ := hg.sound.grounded m hm n.ptr hmem
  exact hn ⟨m', hm', hp⟩

theorem bases_of_wrapper (o : Object) : o.wrapper.bases = o.bases := by
  cases o <;> rfl

theorem Good.users_fresh (hg : Good b w) : w.handles.users Kind.child w.fresh = 0 := by
  rw [Handles.users, List.countP_eq_zero]
  intro m hm hcount
  rw [Bool.and_eq_true, decide_eq_true_iff] at hcount
  exact absurd (hg.older m hm w.fresh hcount.2) (Nat.lt_irrefl _)

theorem Good.children_wrap (hg : Good b w) (hnew : New w o n)
    (hj : ((w.wrap o n).addChild o.parent).objects j = some (.context c)) :
    c.children = (w.handles.make w.fresh o.wrapper n).users Kind.child j := by
  obtain ⟨c', hc', hchildren⟩ := onChildren_context hj
  have hthrough : n.through = o.bases := hnew.fits.through.trans (bases_of_wrapper o)
  rw [Handles.users_make]
  by_cases hjf : j = w.fresh
  · simp only [hjf, World.wrap, Function.update_self, Option.some.injEq] at hc'
    subst hc'
    rw [hchildren, if_neg (by simp [Object.parent]), (hnew.opened c' rfl).1, hjf, hg.users_fresh, hthrough]
    simp [Object.bases]
  · simp only [World.wrap, Function.update_of_ne hjf] at hc'
    have hold := hg.children j c' hc'
    have hiff := counted_iff hnew.fits.kind hthrough hnew.channel hc'
    rw [hchildren]
    have hroom : w.handles.users Kind.child j + 1 < 2 ^ 32 := by
      have := users_le w j
      have := hnew.room
      omega
    by_cases hparent : o.parent = some j
    · rw [if_pos hparent, if_pos (hiff.mpr hparent), hold]
      exact Nat.mod_eq_of_lt hroom
    · rw [if_neg hparent, if_neg (fun h => hparent (hiff.mp h)), hold, Nat.add_zero]

theorem Good.view_fresh (hg : Good b w) : w.view w.fresh = none := by
  rw [World.view, hg.objects_fresh]
  rfl

/-- What is new leaves the QPs of the endpoints with their objects. -/
theorem Good.attached_wrap (hg : Good b w) {x : View} {f : Nat → Option Nat}
    (hold : ∀ i id c q, w.view i = some (.cmId (some id) c) → f id = some q → w.endpointQp id = some q ∨
      x = .qp (some (id, some i)) ∧ o.wrapper.ptr = some q)
    (hnew : ∀ id c, x = .cmId (some id) c → f id = none) :
    Attached (Function.update w.view w.fresh (some x)) (w.handles.make w.fresh o.wrapper n).ptr? f := by
  intro i id c q hi hf
  by_cases hif : i = w.fresh
  · rw [hif, Function.update_self, Option.some.injEq] at hi
    rw [hnew id c hi] at hf
    cases hf
  · rw [Function.update_of_ne hif] at hi
    rcases hold i id c q hi hf with hq | ⟨hx, hp⟩
    · obtain ⟨j, hj, hjq⟩ := hg.attached i id c q hi hq
      have hjf : j ≠ w.fresh := by
        intro hjf
        rw [hjf, hg.view_fresh] at hj
        cases hj
      exact ⟨j, by rw [Function.update_of_ne hjf, hj], by rw [Handles.ptr?_make_of_ne hjf, hjq]⟩
    · exact ⟨w.fresh, by rw [Function.update_self, hx], by rw [Handles.ptr?_make_self, hp]⟩

theorem Good.lends_wrap (hg : Good b w) (hnew : New w o n) :
    Lends (Function.update w.view w.fresh (some o.view)) w.cmDevices := by
  refine hg.lends.new ?_
  intro owned p hx
  cases o with
  | context c =>
      simp only [Object.view, View.context.injEq] at hx
      have hp : some n.ptr = some p := hnew.fits.ptr.symm.trans hx.2
      have hnot : n.ptr ∉ w.cmDevices := hg.sound.not_lent hnew.fits.address
      rw [Option.some.inj hp] at hnot
      simp [hnot, ← hx.1, (hnew.opened c rfl).2]
  | _ => cases hx

theorem Good.wrap (hg : Good b w) (hnew : New w o n) {f : Nat → Option Nat}
    (hatt : Attached (Function.update w.view w.fresh (some o.view)) (w.handles.make w.fresh o.wrapper n).ptr? f)
    (hold : ∀ m ∈ w.natives, ∀ m' ∈ w.natives, m'.kind = .cmId → m'.ptr ∈ m.needs → f m'.ptr = some m.ptr)
    (hend : ∀ m ∈ w.natives, m.kind = .cmId → m.ptr ∈ n.needs → f m.ptr = some n.ptr) :
    Good b { (w.wrap o n).addChild o.parent with endpointQp := f } := by
  have hnone : w.handles.wrappers w.fresh = none := by
    rw [handles_wrappers, hg.objects_fresh]
    rfl
  refine ⟨?_, ?_, ?_, ?_, ?_, ?_, hg.extended, ?_, ?_, ?_, hg.faults⟩
  · show ((w.wrap o n).addChild o.parent).handles.Sound Kind.On
    rw [World.addChild, handles_onChildren, handles_wrap]
    exact hg.sound.make hnone hnew.fits
  · show Linked ((w.wrap o n).addChild o.parent).view
    rw [World.addChild, view_onChildren, view_wrap]
    exact hnew.linked
  · intro j c hj
    show c.children = ((w.wrap o n).addChild o.parent).handles.users Kind.child j
    rw [World.addChild, handles_onChildren, handles_wrap]
    exact hg.children_wrap hnew hj
  · intro m hm j hj
    show j < w.fresh + 1
    rcases List.mem_cons.mp hm with rfl | hm
    · rw [hnew.fits.through] at hj
      obtain ⟨y, hy, -⟩ := hnew.fits.on j hj
      obtain ⟨o', ho', -⟩ := Option.map_eq_some_iff.mp hy
      exact Nat.lt_succ_of_lt (hg.lt_fresh ho')
    · exact Nat.lt_succ_of_lt (hg.older m hm j hj)
  · show Lends ((w.wrap o n).addChild o.parent).view w.cmDevices
    rw [World.addChild, view_onChildren, view_wrap]
    exact hg.lends_wrap hnew
  · exact fun p hp => List.mem_cons_of_mem _ (hg.devices p hp)
  · have hself : n.ptr ∉ n.needs := by
      intro hmem
      obtain ⟨m, hm, hp, -⟩ := hnew.fits.need hg.sound hmem
      exact hnew.fits.address ⟨m, hm, hp⟩
    intro m hm m' hm' hkind hmem
    rcases List.mem_cons.mp hm with heq | hm
    · rw [heq] at hmem ⊢
      rcases List.mem_cons.mp hm' with heq' | hm'
      · rw [heq'] at hmem
        exact absurd hmem hself
      · exact hend m' hm' hkind hmem
    · rcases List.mem_cons.mp hm' with heq' | hm'
      · rw [heq'] at hmem
        exact absurd hmem (hg.not_needed hnew.fits.address hm)
      · exact hold m hm m' hm' hkind hmem
  · show Attached ((w.wrap o n).addChild o.parent).view ((w.wrap o n).addChild o.parent).handles.ptr? f
    rw [World.addChild, view_onChildren, handles_onChildren, view_wrap, handles_wrap]
    exact hatt
  · intro j hj
    have hlt : w.fresh < j := hj
    apply onChildren_objects_eq_none
    show Function.update w.objects w.fresh (some o) j = none
    rw [Function.update_of_ne (by omega)]
    exact hg.fresh j (by omega)

/-- A new object that is no endpoint and has none. -/
theorem Good.wrap_plain (hg : Good b w) (hnew : New w o n) (hview : ∀ id c, o.view ≠ .cmId id c)
    (hend : ∀ m ∈ w.natives, m.kind = .cmId → m.ptr ∉ n.needs) : Good b ((w.wrap o n).addChild o.parent) :=
  hg.wrap hnew (hg.attached_wrap (fun _ _ _ _ _ h => .inl h) fun _ c h => absurd h (hview _ c)) hg.endpoint
    fun m hm hk hmem => absurd hmem (hend m hm hk)

/-! ## Release -/

theorem Good.channel (hg : Good b w) (hi : w.objects i = some o) :
    ∀ x k, o = .cq x → x.channel = some k → ∃ y, w.objects k = some (.compChannel y) := by
  intro x k hx hk
  apply view_eq_compChannel
  apply hg.linked.channel i k
  rw [World.view, hi, hx, Option.map_some, Object.view, hk]

theorem Good.native (hg : Good b w) (hi : w.objects i = some o) (hp : o.wrapper.ptr = some p) :
    ∃ n ∈ w.natives, n.ptr = p ∧ n.kind = o.wrapper.kind ∧ n.through = o.bases ∧
      List.Forall₂ w.handles.Gave n.needs o.bases := by
  obtain ⟨n, hn, hnp, hnk, hthrough, hgave⟩ := hg.sound.backed i o.wrapper p (by rw [handles_wrappers, hi]; rfl) hp
  rw [bases_of_wrapper] at hthrough hgave
  exact ⟨n, hn, hnp, hnk, hthrough, hgave⟩

/-- Only a context holds a device of librdmacm. -/
theorem Good.not_lent (hg : Good b w) (hi : w.objects i = some o) (hp : o.wrapper.ptr = some p)
    (hkind : o.wrapper.kind ≠ .context) : p ∉ w.cmDevices := by
  intro hmem
  obtain ⟨n, hn, hnp, hnk, -⟩ := hg.native hi hp
  rw [Handles.eq_of_ptr hg.sound.distinct hn (hg.devices p hmem) hnp] at hnk
  exact hkind hnk.symm

theorem Good.not_lent_context (hg : Good b w) (hi : w.objects i = some (.context c)) (hp : c.ctx = some p)
    (howned : c.owned = true) : p ∉ w.cmDevices := by
  intro hmem
  have hview : w.view i = some (.context true (some p)) := by
    rw [World.view, hi, Option.map_some, Object.view, hp, howned]
  exact absurd ((hg.lends i true p hview).mp hmem) Bool.noConfusion

/-- The bases of an open object are open, unless a device of librdmacm is among them. -/
theorem Good.base (hg : Good b w) (hi : w.objects i = some o) (hp : o.wrapper.ptr = some p) (hj : j ∈ o.bases)
    (hlent : w.cmDevices ≠ [] → ¬ Kind.On o.wrapper.kind .context) :
    ∃ y q n, w.objects j = some y ∧ y.wrapper.ptr = some q ∧ Kind.On o.wrapper.kind y.wrapper.kind ∧
      n ∈ w.natives ∧ n.ptr = p ∧ q ∈ n.needs := by
  obtain ⟨n, hn, hnp, hnk, -, hgave⟩ := hg.native hi hp
  obtain ⟨q, hq, hqj⟩ := Handles.exists_given hgave hj
  obtain ⟨m, hm, hmq, hon⟩ := hg.sound.grounded n hn q hq
  rcases hqj with hqj | hqj
  · rw [Handles.eq_of_ptr hg.sound.distinct hm (hg.devices q hqj) hmq, hnk] at hon
    exact absurd hon (hlent (List.ne_nil_of_mem hqj))
  · obtain ⟨x, hx, hxq⟩ := Handles.ptr?_eq_some.mp hqj
    obtain ⟨y, hy, rfl⟩ := Option.map_eq_some_iff.mp hx
    obtain ⟨m', hm', hmq', hmk, -⟩ := hg.native hy hxq
    rw [Handles.eq_of_ptr hg.sound.distinct hm hm' (hmq.trans hmq'.symm), hmk, hnk] at hon
    exact ⟨y, q, n, hy, hxq, hon, hn, hnp, hq⟩

theorem Good.freshened (hg : Good b w) (hi : w.objects i = some o) {rest : Option Object} {x : Nat}
    (hx : w.fresh ≤ x) : Function.update w.objects i rest x = none := by
  have hxi : x ≠ i := by
    intro hxi
    rw [hxi] at hx
    rw [hg.fresh i hx] at hi
    cases hi
  rw [Function.update_of_ne hxi]
  exact hg.fresh x hx

/-- The QPs of the endpoints stay with their objects when another object changes. -/
theorem Attached.change {v : Nat → Option View} {ptr? ptr?' : Nat → Option Nat} {f : Nat → Option Nat} {x : Option View}
    (ha : Attached v ptr? f) (hptr : ∀ j ≠ i, ptr?' j = ptr? j) (hi : ∀ id k q, v i = some (.qp (some (id, some k))) →
      f id ≠ some q) (hx : Spent v i x) : Attached (Function.update v i x) ptr?' f := by
  intro j id c q hj hf
  have hji : j ≠ i := by
    intro hji
    rw [hji, Function.update_self] at hj
    rw [hj] at hx
    cases hx.cmId.1
  rw [Function.update_of_ne hji] at hj
  obtain ⟨k, hk, hkq⟩ := ha j id c q hj hf
  have hki : k ≠ i := by
    intro hki
    rw [hki] at hk
    exact hi id j q hk hf
  exact ⟨k, by rw [Function.update_of_ne hki, hk], by rw [hptr k hki, hkq]⟩

/-- A context that stays counts what it did. -/
def SameChildren (o : Object) (rest : Option Object) : Prop :=
  ∀ c, rest = some (.context c) → ∃ c', o = .context c' ∧ c.children = c'.children

theorem Good.children_free (hg : Good b w) {rest : Option Object} (hi : w.objects i = some o) (hn : n ∈ w.natives)
    (hnk : n.kind = o.wrapper.kind) (hthrough : n.through = o.bases) (hrest : SameChildren o rest)
    (hj : (((w.destroyed n.ptr).put i rest).releaseChild o.parent).objects j = some (.context c)) :
    c.children = (w.handles.free i (rest.map Object.wrapper) n.ptr).users Kind.child j := by
  obtain ⟨c', hc', hchildren⟩ := onChildren_context hj
  have hcount := Handles.users_free (i := i) (x := rest.map Object.wrapper) (j := j) hg.sound Kind.child hn
  by_cases hji : j = i
  · -- A context that is closed is no child.
    simp only [hji, World.put, Function.update_self] at hc'
    obtain ⟨c₀, rfl, hsame⟩ := hrest c' hc'
    rw [hnk, hji] at hcount
    have hcounted : (Object.context c₀).wrapper.kind.child = false := rfl
    rw [hchildren, if_neg (by simp [Object.parent]), hsame, hg.children i c₀ hi, hcount, hji, hcounted]
    simp
  · simp only [World.put, Function.update_of_ne hji] at hc'
    have hold := hg.children j c' hc'
    have hiff := counted_iff hnk hthrough (hg.channel hi) hc'
    rw [hchildren]
    by_cases hparent : o.parent = some j
    · rw [if_pos (hiff.mpr hparent)] at hcount
      rw [if_pos hparent, hold, hcount, if_pos (by omega)]
      omega
    · rw [if_neg (fun h => hparent (hiff.mp h))] at hcount
      rw [if_neg hparent, hold, hcount, Nat.add_zero]

/-- An object is closed or goes, and its native object, which is not in use, is destroyed. -/
theorem Good.free (hg : Good b w) {rest : Option Object} (hi : w.objects i = some o) (hp : o.wrapper.ptr = some p)
    (hlent : p ∉ w.cmDevices) (huse : ¬ w.handles.InUse p) (hleft : w.handles.Left i (rest.map Object.wrapper))
    (hrest : SameChildren o rest)
    (hlinked : Linked (Function.update w.view i (rest.map Object.view))) {f : Nat → Option Nat}
    (hf : ∀ n ∈ w.natives, n.ptr ≠ p → ∀ m ∈ w.natives, m.kind = .cmId → m.ptr ∈ n.needs → f m.ptr = some n.ptr)
    (hatt : Attached (Function.update w.view i (rest.map Object.view))
      (w.handles.free i (rest.map Object.wrapper) p).ptr? f) :
    Good b { ((w.destroyed p).put i rest).releaseChild o.parent with endpointQp := f } := by
  obtain ⟨n, hn, rfl, hnk, hthrough, -⟩ := hg.native hi hp
  have hptr : w.handles.ptr? i = some n.ptr := (ptr?_of_object hi).trans hp
  have hhandles : (((w.destroyed n.ptr).put i rest).releaseChild o.parent).handles =
      w.handles.free i (rest.map Object.wrapper) n.ptr := by
    rw [World.releaseChild, handles_onChildren, handles_free]
  have hview : (((w.destroyed n.ptr).put i rest).releaseChild o.parent).view =
      Function.update w.view i (rest.map Object.view) := by
    rw [World.releaseChild, view_onChildren, view_put]
    rfl
  refine ⟨?_, ?_, ?_, ?_, ?_, ?_, hg.extended, ?_, ?_, ?_, hg.faults⟩
  · show (((w.destroyed n.ptr).put i rest).releaseChild o.parent).handles.Sound Kind.On
    rw [hhandles]
    exact hg.sound.free hptr hlent huse hleft
  · show Linked (((w.destroyed n.ptr).put i rest).releaseChild o.parent).view
    rw [hview]
    exact hlinked
  · intro j c hj
    show c.children = (((w.destroyed n.ptr).put i rest).releaseChild o.parent).handles.users Kind.child j
    rw [hhandles]
    exact hg.children_free hi hn hnk hthrough hrest hj
  · exact fun m hm => hg.older m (List.mem_filter.mp hm).1
  · show Lends (((w.destroyed n.ptr).put i rest).releaseChild o.parent).view w.cmDevices
    rw [hview]
    refine hg.lends.change ?_
    intro owned q hq
    obtain ⟨o', ho', hv⟩ := Option.map_eq_some_iff.mp hq
    cases o' with
    | context c =>
        simp only [Object.view, View.context.injEq] at hv
        have hclosed := hleft.ptr
        rw [ho'] at hclosed
        simp only [Option.map_some, Option.bind_some, Object.wrapper] at hclosed
        rw [hv.2] at hclosed
        cases hclosed
    | _ => cases hv
  · intro q hq
    refine List.mem_filter.mpr ⟨hg.devices q hq, ?_⟩
    rw [decide_eq_true_iff]
    rintro rfl
    exact hlent hq
  · intro m hm m' hm' hkind hmem
    obtain ⟨hm, hne⟩ := List.mem_filter.mp hm
    exact hf m hm (by simpa using hne) m' (List.mem_filter.mp hm').1 hkind hmem
  · show Attached (((w.destroyed n.ptr).put i rest).releaseChild o.parent).view
      (((w.destroyed n.ptr).put i rest).releaseChild o.parent).handles.ptr? f
    rw [hview, hhandles]
    exact hatt
  · intro x hx
    exact onChildren_objects_eq_none (hg.freshened hi hx)

theorem Good.drop (hg : Good b w) (hi : w.objects i = some o) (href : ¬ w.handles.Referenced i)
    (hlinked : Linked (Function.update w.view i none)) (hqp : ∀ z, o.view ≠ .qp (some z)) : Good b (w.put i none) := by
  refine ⟨?_, ?_, ?_, hg.older, ?_, hg.devices, hg.extended, hg.endpoint, ?_, fun x hx => hg.freshened hi hx, hg.faults⟩
  · rw [handles_put]
    exact hg.sound.drop href
  · rw [view_put]
    exact hlinked
  · intro j c hj
    have hji : j ≠ i := by
      intro hji
      simp [hji, World.put] at hj
    simp only [World.put, Function.update_of_ne hji] at hj
    exact hg.children j c hj
  · rw [view_put]
    exact hg.lends.change fun _ _ h => by cases h
  · rw [view_put, handles_put]
    refine hg.attached.change (fun j hj => Handles.ptr?_set_of_ne hj) ?_ .gone
    intro id k q hv
    rw [World.view, hi, Option.map_some, Option.some.injEq] at hv
    exact absurd hv (hqp _)

end Rdma4py.Bindings.Objects
