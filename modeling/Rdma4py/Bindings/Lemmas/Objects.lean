import Rdma4py.Bindings.Objects

/-!
# The invariant of the objects of the bindings

Beside what holds of any wrappers: a context counts its children, and the objects of librdmacm belong together.
-/

namespace Rdma4py.Bindings.Objects

open Lib

variable {b : Binding} {w w' : World} {i j k p q : Nat} {o o' : Object} {n m : Native Kind} {c : Context}

theorem Kind.On.child {κ : Kind} (h : Kind.On κ .context) : κ.child = true := by
  cases h <;> rfl

/-! ## The wrappers of a world -/

@[simp] theorem handles_wrappers (w : World) (i : Nat) : w.handles.wrappers i = (w.objects i).map Object.wrapper := rfl

@[simp] theorem handles_use (w : World) (args : List (Option Nat)) : (w.use args).handles = w.handles := rfl

@[simp] theorem use_objects (w : World) (args : List (Option Nat)) : (w.use args).objects = w.objects := rfl

@[simp] theorem use_natives (w : World) (args : List (Option Nat)) : (w.use args).natives = w.natives := rfl

@[simp] theorem use_endpointQp (w : World) (args : List (Option Nat)) : (w.use args).endpointQp = w.endpointQp := rfl

theorem map_update (f : Nat → Option Object) (i : Nat) (o : Option Object) :
    (fun j => (Function.update f i o j).map Object.wrapper) =
      Function.update (fun j => (f j).map Object.wrapper) i (o.map Object.wrapper) := by
  funext j
  by_cases hj : j = i
  · simp [hj]
  · simp [Function.update_of_ne hj]

theorem handles_put (w : World) (i : Nat) (o : Option Object) :
    (w.put i o).handles = w.handles.set i (o.map Object.wrapper) := by
  simp only [World.handles, World.put, Handles.set, map_update]

theorem handles_free (w : World) (i p : Nat) (o : Option Object) :
    ((w.destroyed p).put i o).handles = w.handles.free i (o.map Object.wrapper) p := by
  simp only [World.handles, World.put, World.destroyed, Handles.free, map_update]

theorem handles_wrap (w : World) (o : Object) (n : Native Kind) :
    (w.wrap o n).handles = w.handles.make w.fresh o.wrapper n := by
  simp only [World.handles, World.wrap, Handles.make, map_update, Option.map_some]

theorem Object.wrapper_onChildren (f : Nat → Nat) (o : Object) : (o.onChildren f).wrapper = o.wrapper := by
  cases o <;> rfl

@[simp] theorem handles_onChildren (w : World) (f : Nat → Nat) (parent : Option Nat) :
    (w.onChildren f parent).handles = w.handles := by
  simp only [World.handles, World.onChildren, Handles.mk.injEq, and_true]
  funext j
  by_cases hj : parent = some j
  · simp only [if_pos hj, Option.map_map]
    congr 1
    funext o
    exact o.wrapper_onChildren f
  · rw [if_neg hj]

theorem ptr?_of_object (h : w.objects i = some o) : w.handles.ptr? i = o.wrapper.ptr := by
  rw [Handles.ptr?, handles_wrappers, h]
  rfl

theorem isLive_of_ptr (hs : w.handles.Sound Kind.On) (h : w.handles.ptr? i = some p) : w.isLive (some p) = true := by
  obtain ⟨n, hn, hp⟩ := hs.native h
  exact List.any_eq_true.mpr ⟨n, hn, by simpa using hp⟩

theorem handles_wrapBorrowed (w : World) (o : Object) :
    (w.wrapBorrowed o).handles = w.handles.set w.fresh (some o.wrapper) := by
  simp only [World.handles, World.wrapBorrowed, Handles.set, map_update, Option.map_some]

@[simp] theorem cmOpen_objects (w : World) (p : Nat) : (w.cmOpen p).objects = w.objects := by
  rw [World.cmOpen]
  split <;> rfl

@[simp] theorem cmOpen_fresh (w : World) (p : Nat) : (w.cmOpen p).fresh = w.fresh := by
  rw [World.cmOpen]
  split <;> rfl

theorem mem_cmOpen (w : World) (p : Nat) : p ∈ (w.cmOpen p).cmDevices := by
  rw [World.cmOpen]
  split
  · next h => exact h
  · exact List.mem_cons_self

/-! ## The classes of the objects -/

/-- What matters of an object beside its native object. -/
inductive View
  | context (owned : Bool) (ctx : Option Nat)
  | compChannel
  | cq (channel : Option Nat)
  | qp (managed : Option (Nat × Option Nat))
  | cmId (id : Option Nat) (context : Nat)
  | other

def Object.view : Object → View
  | .context x => .context x.owned x.ctx
  | .compChannel _ => .compChannel
  | .cq x => .cq x.channel
  | .qp x => .qp (if x.qp.isSome then x.cmId.map fun id => (id, x.cmOwner) else none)
  | .cmId x => .cmId x.id x.context
  | _ => .other

def World.view (w : World) (i : Nat) : Option View := (w.objects i).map Object.view

/-- The objects that belong together. An endpoint has a borrowed context; a QP of an endpoint keeps it; the channel of a CQ
is one. -/
structure Linked (v : Nat → Option View) : Prop where
  resolved : ∀ i id c, v i = some (.cmId id c) → ∃ ctx, v c = some (.context false ctx)
  managed : ∀ i id owner, v i = some (.qp (some (id, owner))) →
    ∃ k c, owner = some k ∧ v k = some (.cmId (some id) c)
  channel : ∀ i k, v i = some (.cq (some k)) → v k = some .compChannel

/-- The QP that librdmacm has for an open endpoint is wrapped by an object that keeps the endpoint. -/
def Attached (v : Nat → Option View) (ptr? : Nat → Option Nat) (f : Nat → Option Nat) : Prop :=
  ∀ i id c q, v i = some (.cmId (some id) c) → f id = some q →
    ∃ j, v j = some (.qp (some (id, some i))) ∧ ptr? j = some q

/-- The devices of librdmacm are those of the borrowed contexts. -/
def Lends (v : Nat → Option View) (devices : List Nat) : Prop :=
  ∀ i owned p, v i = some (.context owned (some p)) → (p ∈ devices ↔ owned = false)

/-- The invariant of a process. -/
structure Good (b : Binding) (w : World) : Prop where
  sound : w.handles.Sound Kind.On
  linked : Linked w.view
  children : ∀ i c, w.objects i = some (.context c) → c.children = w.handles.users Kind.child i
  older : ∀ n ∈ w.natives, ∀ j ∈ n.through, j < w.fresh
  lends : Lends w.view w.cmDevices
  devices : ∀ p ∈ w.cmDevices, ⟨p, .context, [], []⟩ ∈ w.natives
  extended : b.extended = true → w.cmDevices = []
  endpoint : ∀ n ∈ w.natives, ∀ m ∈ w.natives, m.kind = .cmId → m.ptr ∈ n.needs → w.endpointQp m.ptr = some n.ptr
  attached : Attached w.view w.handles.ptr? w.endpointQp
  fresh : ∀ i, w.fresh ≤ i → w.objects i = none
  faults : w.faults = []

theorem Object.view_onChildren (f : Nat → Nat) (o : Object) : (o.onChildren f).view = o.view := by
  cases o <;> rfl

@[simp] theorem view_onChildren (w : World) (f : Nat → Nat) (parent : Option Nat) :
    (w.onChildren f parent).view = w.view := by
  funext j
  simp only [World.view, World.onChildren]
  by_cases hj : parent = some j
  · simp only [if_pos hj, Option.map_map]
    congr 1
    funext o
    exact o.view_onChildren f
  · rw [if_neg hj]

theorem view_put (w : World) (i : Nat) (o : Option Object) :
    (w.put i o).view = Function.update w.view i (o.map Object.view) := by
  funext j
  by_cases hj : j = i
  · simp [World.view, World.put, hj]
  · simp [World.view, World.put, Function.update_of_ne hj]

theorem view_wrap (w : World) (o : Object) (n : Native Kind) :
    (w.wrap o n).view = Function.update w.view w.fresh (some o.view) :=
  view_put w w.fresh (some o)

theorem view_eq_context {owned : Bool} {ctx : Option Nat} (h : w.view i = some (.context owned ctx)) :
    ∃ c, w.objects i = some (.context c) ∧ c.owned = owned ∧ c.ctx = ctx := by
  obtain ⟨o, ho, hv⟩ := Option.map_eq_some_iff.mp h
  cases o <;> simp [Object.view] at hv
  exact ⟨_, ho, hv.1, hv.2⟩

theorem view_eq_cmId {id : Option Nat} (h : w.view i = some (.cmId id k)) :
    ∃ x : CMID, w.objects i = some (.cmId x) ∧ x.id = id ∧ x.context = k := by
  obtain ⟨o, ho, hv⟩ := Option.map_eq_some_iff.mp h
  cases o <;> simp [Object.view] at hv
  exact ⟨_, ho, hv.1, hv.2⟩

theorem view_eq_qp {id : Nat} {owner : Option Nat} (h : w.view i = some (.qp (some (id, owner)))) :
    ∃ x p, w.objects i = some (.qp x) ∧ x.qp = some p ∧ x.cmId = some id ∧ x.cmOwner = owner := by
  obtain ⟨o, ho, hv⟩ := Option.map_eq_some_iff.mp h
  cases o with
  | qp x =>
      simp only [Object.view, View.qp.injEq] at hv
      split at hv
      · next hsome =>
          obtain ⟨p, hp⟩ := Option.isSome_iff_exists.mp hsome
          obtain ⟨id', hid, hprod⟩ := Option.map_eq_some_iff.mp hv
          simp only [Prod.mk.injEq] at hprod
          exact ⟨x, p, ho, hp, by rw [hid, hprod.1], hprod.2⟩
      · cases hv
  | _ => cases hv

theorem view_eq_compChannel (h : w.view i = some .compChannel) : ∃ x, w.objects i = some (.compChannel x) := by
  obtain ⟨o, ho, hv⟩ := Option.map_eq_some_iff.mp h
  cases o <;> simp [Object.view] at hv
  exact ⟨_, ho⟩

/-- A new object. -/
theorem Linked.new {v : Nat → Option View} {x : View} (hl : Linked v) (hi : v i = none)
    (hcm : ∀ id c, x = .cmId id c → ∃ ctx, v c = some (.context false ctx))
    (hqp : ∀ id owner, x = .qp (some (id, owner)) → ∃ k c, owner = some k ∧ v k = some (.cmId (some id) c))
    (hcq : ∀ k, x = .cq (some k) → v k = some .compChannel) : Linked (Function.update v i (some x)) := by
  have hne : ∀ {j y}, v j = some y → j ≠ i := by
    intro j y hy hj
    rw [hj, hi] at hy
    cases hy
  have hold : ∀ {j y}, v j = some y → Function.update v i (some x) j = some y := by
    intro j y hy
    rw [Function.update_of_ne (hne hy), hy]
  refine ⟨?_, ?_, ?_⟩
  · intro j id c hj
    by_cases hji : j = i
    · rw [hji, Function.update_self, Option.some.injEq] at hj
      obtain ⟨q, hq⟩ := hcm _ _ hj
      exact ⟨q, hold hq⟩
    · rw [Function.update_of_ne hji] at hj
      obtain ⟨q, hq⟩ := hl.resolved j id c hj
      exact ⟨q, hold hq⟩
  · intro j id owner hj
    by_cases hji : j = i
    · rw [hji, Function.update_self, Option.some.injEq] at hj
      obtain ⟨k, c, hk, hv⟩ := hqp id owner hj
      exact ⟨k, c, hk, hold hv⟩
    · rw [Function.update_of_ne hji] at hj
      obtain ⟨k, c, hk, hv⟩ := hl.managed j id owner hj
      exact ⟨k, c, hk, hold hv⟩
  · intro j k hj
    by_cases hji : j = i
    · rw [hji, Function.update_self, Option.some.injEq] at hj
      exact hold (hcq k hj)
    · rw [Function.update_of_ne hji] at hj
      exact hold (hl.channel j k hj)

/-- What an object becomes that is closed or goes. -/
inductive Spent (v : Nat → Option View) (i : Nat) : Option View → Prop
  | gone : Spent v i none
  | endpoint {id : Option Nat} {c : Nat} (h : v i = some (.cmId id c)) : Spent v i (some (.cmId none c))
  | qp : Spent v i (some (.qp none))
  | context (owned : Bool) : Spent v i (some (.context owned none))

theorem Spent.cmId {v : Nat → Option View} {id : Option Nat} (h : Spent v i (some (.cmId id k))) :
    id = none ∧ ∃ id', v i = some (.cmId id' k) := by
  cases h with
  | endpoint h => exact ⟨rfl, _, h⟩

theorem Spent.ne_qp {v : Nat → Option View} {z : Nat × Option Nat} : ¬ Spent v i (some (.qp (some z))) := by
  intro h
  cases h

theorem Spent.ne_cq {v : Nat → Option View} {z : Option Nat} : ¬ Spent v i (some (.cq z)) := by
  intro h
  cases h

theorem Lends.new {v : Nat → Option View} {x : View} {devices : List Nat} (hl : Lends v devices)
    (hx : ∀ owned p, x = .context owned (some p) → (p ∈ devices ↔ owned = false)) :
    Lends (Function.update v i (some x)) devices := by
  intro j owned p hj
  by_cases hji : j = i
  · rw [hji, Function.update_self, Option.some.injEq] at hj
    exact hx owned p hj
  · rw [Function.update_of_ne hji] at hj
    exact hl j owned p hj

theorem Lends.change {v : Nat → Option View} {x : Option View} {devices : List Nat} (hl : Lends v devices)
    (hx : ∀ owned p, x ≠ some (.context owned (some p))) : Lends (Function.update v i x) devices := by
  intro j owned p hj
  by_cases hji : j = i
  · rw [hji, Function.update_self] at hj
    exact absurd hj (hx owned p)
  · rw [Function.update_of_ne hji] at hj
    exact hl j owned p hj

/-- An object is closed or goes that the others do not need as it was. -/
theorem Linked.change {v : Nat → Option View} {x : Option View} (hl : Linked v) (hx : Spent v i x)
    (hresolved : ∀ j id, j ≠ i → v j = some (.cmId id i) → ∃ ctx, x = some (.context false ctx))
    (hmanaged : ∀ j id, j ≠ i → v j ≠ some (.qp (some (id, some i))))
    (hchannel : ∀ j, j ≠ i → v j ≠ some (.cq (some i))) : Linked (Function.update v i x) := by
  refine ⟨?_, ?_, ?_⟩
  · intro j id c hj
    by_cases hji : j = i
    · rw [hji, Function.update_self] at hj
      rw [hj] at hx
      obtain ⟨id', hi⟩ := hx.cmId.2
      obtain ⟨q, hq⟩ := hl.resolved i id' c hi
      refine ⟨q, ?_⟩
      rw [Function.update_of_ne, hq]
      intro hci
      rw [hci, hi] at hq
      cases hq
    · rw [Function.update_of_ne hji] at hj
      obtain ⟨q, hq⟩ := hl.resolved j id c hj
      by_cases hci : c = i
      · rw [hci] at hj ⊢
        rw [Function.update_self]
        exact hresolved j id hji hj
      · exact ⟨q, by rw [Function.update_of_ne hci, hq]⟩
  · intro j id owner hj
    by_cases hji : j = i
    · rw [hji, Function.update_self] at hj
      rw [hj] at hx
      exact absurd hx Spent.ne_qp
    · rw [Function.update_of_ne hji] at hj
      obtain ⟨k, c, hk, hv⟩ := hl.managed j id owner hj
      refine ⟨k, c, hk, ?_⟩
      rw [Function.update_of_ne, hv]
      intro hki
      rw [hk, hki] at hj
      exact hmanaged j id hji hj
  · intro j k hj
    by_cases hji : j = i
    · rw [hji, Function.update_self] at hj
      rw [hj] at hx
      exact absurd hx Spent.ne_cq
    · rw [Function.update_of_ne hji] at hj
      rw [Function.update_of_ne, hl.channel j k hj]
      intro hki
      rw [hki] at hj
      exact hchannel j hji hj

end Rdma4py.Bindings.Objects
