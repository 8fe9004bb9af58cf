import Mathlib.Data.List.Forall2
import Mathlib.Data.List.Nodup
import Mathlib.Logic.Function.Basic

/-!
# Objects that wrap native objects

A native library keeps objects of its own, some made from others. A wrapper holds the address of one of them until it is
released, and keeps other wrappers alive. Some objects the library keeps for itself and lends: several wrappers may hold
one, and none releases it. What follows is about any library and any classes of objects; `On κ κ'` says that objects of
class `κ` may be made from objects of class `κ'`.
-/

namespace Rdma4py.Lib

/-- A native object: its address, its class, the addresses of those it was made from, and the wrappers that gave them. -/
structure Native (κ : Type) where
  ptr : Nat
  kind : κ
  needs : List Nat
  through : List Nat
  deriving DecidableEq

/-- A wrapper. Its native object was made from those of `bases`, and it keeps the wrappers `refs` alive. -/
structure Wrapper (κ : Type) where
  kind : κ
  ptr : Option Nat
  bases : List Nat
  refs : List Nat

/-- The wrappers of a process, the objects of the library, and the addresses of those that it lends. -/
structure Handles (κ : Type) where
  wrappers : Nat → Option (Wrapper κ)
  natives : List (Native κ)
  lent : List Nat

namespace Handles

variable {κ : Type} {On : κ → κ → Prop} {h : Handles κ} {i j p q : Nat} {x y : Wrapper κ} {n m : Native κ}

/-- The library has an object at the address. -/
def Live (h : Handles κ) (p : Nat) : Prop := ∃ n ∈ h.natives, n.ptr = p

/-- An object of the library was made from the one at the address. -/
def InUse (h : Handles κ) (p : Nat) : Prop := ∃ n ∈ h.natives, p ∈ n.needs

/-- What a wrapper holds. -/
def ptr? (h : Handles κ) (i : Nat) : Option Nat := (h.wrappers i).bind Wrapper.ptr

/-- Some wrapper keeps this one alive. -/
def Referenced (h : Handles κ) (i : Nat) : Prop := ∃ j x, h.wrappers j = some x ∧ i ∈ x.refs

/-- The wrapper gave the address, and holds it still unless the object is lent. -/
def Gave (h : Handles κ) (p i : Nat) : Prop := p ∈ h.lent ∨ h.ptr? i = some p

/-- No address is stale: an open wrapper holds a live object of its class, which was made from those of its bases, and a
live object was made from live ones. -/
structure Sound (On : κ → κ → Prop) (h : Handles κ) : Prop where
  distinct : (h.natives.map Native.ptr).Nodup
  grounded : ∀ n ∈ h.natives, ∀ p ∈ n.needs, ∃ m ∈ h.natives, m.ptr = p ∧ On n.kind m.kind
  backed : ∀ i x p, h.wrappers i = some x → x.ptr = some p →
    ∃ n ∈ h.natives, n.ptr = p ∧ n.kind = x.kind ∧ n.through = x.bases ∧ List.Forall₂ h.Gave n.needs x.bases
  unique : ∀ i j p, p ∉ h.lent → h.ptr? i = some p → h.ptr? j = some p → i = j
  kept : ∀ i x, h.wrappers i = some x → x.bases ⊆ x.refs ∧ ∀ j ∈ x.refs, ∃ y, h.wrappers j = some y
  given : ∀ n ∈ h.natives, ∀ p ∈ n.needs, p ∉ h.lent → ∀ i, h.ptr? i = some p → i ∈ n.through
  lent : ∀ p ∈ h.lent, ∃ n ∈ h.natives, n.ptr = p ∧ n.needs = []

/-- Every object of the library that is not lent has its wrapper. -/
def Covered (h : Handles κ) : Prop := ∀ n ∈ h.natives, n.ptr ∈ h.lent ∨ ∃ i, h.ptr? i = some n.ptr

/-! ## Addresses -/

theorem ptr?_eq_some : h.ptr? i = some p ↔ ∃ x, h.wrappers i = some x ∧ x.ptr = some p :=
  Option.bind_eq_some_iff

theorem Sound.native (hs : Sound On h) (hp : h.ptr? i = some p) : ∃ n ∈ h.natives, n.ptr = p := by
  obtain ⟨x, hx, hxp⟩ := ptr?_eq_some.mp hp
  obtain ⟨n, hn, hnp, _⟩ := hs.backed i x p hx hxp
  exact ⟨n, hn, hnp⟩

theorem eq_of_ptr (hd : (h.natives.map Native.ptr).Nodup) (hn : n ∈ h.natives) (hm : m ∈ h.natives)
    (he : n.ptr = m.ptr) : n = m :=
  List.inj_on_of_nodup_map hd hn hm he

theorem exists_gave {ps is : List Nat} (hg : List.Forall₂ h.Gave ps is) (hp : p ∈ ps) : ∃ i ∈ is, h.Gave p i := by
  induction hg with
  | nil => cases hp
  | cons hpi _ ih =>
      rcases List.mem_cons.mp hp with rfl | hp
      · exact ⟨_, List.mem_cons_self, hpi⟩
      · obtain ⟨i, hi, hg⟩ := ih hp
        exact ⟨i, List.mem_cons_of_mem _ hi, hg⟩

theorem exists_given {ps is : List Nat} (hg : List.Forall₂ h.Gave ps is) (hi : i ∈ is) : ∃ p ∈ ps, h.Gave p i := by
  induction hg with
  | nil => cases hi
  | cons hpi _ ih =>
      rcases List.mem_cons.mp hi with rfl | hi
      · exact ⟨_, List.mem_cons_self, hpi⟩
      · obtain ⟨p, hp, hg⟩ := ih hi
        exact ⟨p, List.mem_cons_of_mem _ hp, hg⟩

/-- The pairs of a list of addresses and wrappers that still give when the handles change. -/
theorem gave_mono {h' : Handles κ} {ps is : List Nat} (hg : List.Forall₂ h.Gave ps is)
    (hmono : ∀ p ∈ ps, ∀ i ∈ is, h.Gave p i → h'.Gave p i) : List.Forall₂ h'.Gave ps is := by
  rw [List.forall₂_iff_zip] at hg ⊢
  refine ⟨hg.1, ?_⟩
  intro p i hmem
  exact hmono p (List.of_mem_zip hmem).1 i (List.of_mem_zip hmem).2 (hg.2 hmem)

/-! ## Creation -/

/-- A new object of the library, in a new wrapper. -/
def make (h : Handles κ) (i : Nat) (x : Wrapper κ) (n : Native κ) : Handles κ :=
  ⟨Function.update h.wrappers i (some x), n :: h.natives, h.lent⟩

theorem ptr?_update_of_ne (f : Nat → Option (Wrapper κ)) (ns ms : List (Native κ)) (l : List Nat) (x : Option (Wrapper κ))
    (hj : j ≠ i) : ptr? ⟨Function.update f i x, ns, l⟩ j = ptr? ⟨f, ms, l⟩ j := by
  simp only [ptr?, Function.update_of_ne hj]

theorem ptr?_make_self : (h.make i x n).ptr? i = x.ptr := by
  simp [ptr?, make]

theorem ptr?_make_of_ne (hj : j ≠ i) : (h.make i x n).ptr? j = h.ptr? j :=
  ptr?_update_of_ne h.wrappers (n :: h.natives) h.natives h.lent (some x) hj

/-- What is created may be made from what open wrappers hold. -/
structure Fits (On : κ → κ → Prop) (h : Handles κ) (x : Wrapper κ) (n : Native κ) : Prop where
  address : ¬ h.Live n.ptr
  ptr : x.ptr = some n.ptr
  kind : n.kind = x.kind
  through : n.through = x.bases
  bases : n.needs.map some = x.bases.map h.ptr?
  on : ∀ j ∈ x.bases, ∃ y, h.wrappers j = some y ∧ On x.kind y.kind
  kept : x.bases ⊆ x.refs ∧ ∀ j ∈ x.refs, ∃ y, h.wrappers j = some y

theorem Fits.need (hf : Fits On h x n) (hs : Sound On h) (hp : p ∈ n.needs) :
    ∃ m ∈ h.natives, m.ptr = p ∧ On n.kind m.kind := by
  have hmem : some p ∈ x.bases.map h.ptr? := hf.bases ▸ List.mem_map_of_mem hp
  obtain ⟨j, hj, hjp⟩ := List.mem_map.mp hmem
  obtain ⟨y, hy, hyp⟩ := ptr?_eq_some.mp hjp
  obtain ⟨m, hm, hmp, hmk, -⟩ := hs.backed j y p hy hyp
  obtain ⟨y', hy', hon⟩ := hf.on j hj
  rw [hy] at hy'
  cases hy'
  exact ⟨m, hm, hmp, by rw [hf.kind, hmk]; exact hon⟩

theorem Fits.gave (hf : Fits On h x n) : List.Forall₂ h.Gave n.needs x.bases := by
  have heq : List.Forall₂ (fun p i => some p = h.ptr? i) n.needs x.bases := by
    rw [← List.forall₂_map_right_iff (f := h.ptr?), ← List.forall₂_map_left_iff (f := some), List.forall₂_eq_eq_eq]
    exact hf.bases
  exact heq.imp fun p i h => .inr h.symm

theorem Sound.not_lent (hs : Sound On h) (hn : ¬ h.Live p) : p ∉ h.lent := by
  intro hp
  obtain ⟨m, hm, hmp, -⟩ := hs.lent p hp
  exact hn ⟨m, hm, hmp⟩

theorem nodup_cons_ptr (hs : Sound On h) (hn : ¬ h.Live n.ptr) : ((n :: h.natives).map Native.ptr).Nodup := by
  rw [List.map_cons, List.nodup_cons]
  refine ⟨fun hmem => ?_, hs.distinct⟩
  obtain ⟨m, hm, hmp⟩ := List.mem_map.mp hmem
  exact hn ⟨m, hm, hmp⟩

theorem Sound.make (hs : Sound On h) (hi : h.wrappers i = none) (hf : Fits On h x n) : Sound On (h.make i x n) := by
  have hne : ∀ {j y}, h.wrappers j = some y → j ≠ i := by
    intro j y hy hji
    rw [hji, hi] at hy
    cases hy
  have hsome : ∀ {j y}, h.wrappers j = some y → ∃ y, (h.make i x n).wrappers j = some y := by
    intro j y hy
    exact ⟨y, by simpa only [Handles.make, Function.update_of_ne (hne hy)] using hy⟩
  have hgave : ∀ {p j}, h.Gave p j → (h.make i x n).Gave p j := by
    rintro p j (hp | hp)
    · exact .inl hp
    · obtain ⟨y, hy, -⟩ := ptr?_eq_some.mp hp
      exact .inr ((ptr?_make_of_ne (hne hy)).trans hp)
  have hold : ∀ {j q}, h.ptr? j = some q → q ≠ n.ptr := by
    intro j q hq hqn
    obtain ⟨m, hm, hmq⟩ := hs.native hq
    exact hf.address ⟨m, hm, hmq.trans hqn⟩
  have hneeded : ∀ {m q}, m ∈ n :: h.natives → q ∈ m.needs → q ≠ n.ptr := by
    intro m q hm hq hqn
    rcases List.mem_cons.mp hm with rfl | hm
    · obtain ⟨m', hm', hmq, -⟩ := hf.need hs hq
      exact hf.address ⟨m', hm', hmq.trans hqn⟩
    · obtain ⟨m', hm', hmq, -⟩ := hs.grounded m hm q hq
      exact hf.address ⟨m', hm', hmq.trans hqn⟩
  refine ⟨nodup_cons_ptr hs hf.address, ?_, ?_, ?_, ?_, ?_, ?_⟩
  · intro m hm q hq
    rcases List.mem_cons.mp hm with rfl | hm
    · obtain ⟨m', hm', hon⟩ := hf.need hs hq
      exact ⟨m', List.mem_cons_of_mem _ hm', hon⟩
    · obtain ⟨m', hm', hon⟩ := hs.grounded m hm q hq
      exact ⟨m', List.mem_cons_of_mem _ hm', hon⟩
  · intro j y q hy hq
    by_cases hji : j = i
    · subst hji
      simp only [Handles.make, Function.update_self, Option.some.injEq] at hy
      subst hy
      refine ⟨n, List.mem_cons_self, ?_, hf.kind, hf.through, gave_mono hf.gave fun p _ k _ h => hgave h⟩
      rw [hf.ptr] at hq
      exact Option.some.inj hq
    · simp only [Handles.make, Function.update_of_ne hji] at hy
      obtain ⟨m, hm, hmp, hmk, hthrough, hg⟩ := hs.backed j y q hy hq
      exact ⟨m, List.mem_cons_of_mem _ hm, hmp, hmk, hthrough, gave_mono hg fun p _ k _ h => hgave h⟩
  · intro j k q hq hj hk
    by_cases hji : j = i
    · by_cases hki : k = i
      · rw [hji, hki]
      · rw [hji, ptr?_make_self, hf.ptr] at hj
        rw [ptr?_make_of_ne hki] at hk
        exact absurd (Option.some.inj hj).symm (hold hk)
    · rw [ptr?_make_of_ne hji] at hj
      by_cases hki : k = i
      · rw [hki, ptr?_make_self, hf.ptr] at hk
        exact absurd (Option.some.inj hk).symm (hold hj)
      · rw [ptr?_make_of_ne hki] at hk
        exact hs.unique j k q hq hj hk
  · intro j y hy
    by_cases hji : j = i
    · subst hji
      simp only [Handles.make, Function.update_self, Option.some.injEq] at hy
      subst hy
      refine ⟨hf.kept.1, fun k hk => ?_⟩
      obtain ⟨y, hy⟩ := hf.kept.2 k hk
      exact hsome hy
    · simp only [Handles.make, Function.update_of_ne hji] at hy
      obtain ⟨hsub, hrefs⟩ := hs.kept j y hy
      refine ⟨hsub, fun k hk => ?_⟩
      obtain ⟨y, hy⟩ := hrefs k hk
      exact hsome hy
  · intro m hm q hq hlent j hj
    have hji : j ≠ i := by
      intro hji
      rw [hji, ptr?_make_self, hf.ptr] at hj
      exact hneeded hm hq (Option.some.inj hj).symm
    rw [ptr?_make_of_ne hji] at hj
    rcases List.mem_cons.mp hm with rfl | hm
    · obtain ⟨k, hk, hgk⟩ := exists_gave hf.gave hq
      rcases hgk with hgk | hgk
      · exact absurd hgk hlent
      · rw [hf.through, hs.unique j k q hlent hj hgk]
        exact hk
    · exact hs.given m hm q hq hlent j hj
  · intro q hq
    obtain ⟨m, hm, hrest⟩ := hs.lent q hq
    exact ⟨m, List.mem_cons_of_mem _ hm, hrest⟩

theorem Covered.make (hc : Covered h) (hi : h.wrappers i = none) (hx : x.ptr = some n.ptr) :
    Covered (h.make i x n) := by
  intro m hm
  rcases List.mem_cons.mp hm with rfl | hm
  · exact .inr ⟨i, by rw [ptr?_make_self, hx]⟩
  · rcases hc m hm with hlent | ⟨j, hj⟩
    · exact .inl hlent
    · refine .inr ⟨j, ?_⟩
      rw [ptr?_make_of_ne]
      · exact hj
      · intro hji
        rw [hji, ptr?, hi] at hj
        cases hj

/-! ## What has no wrapper -/

/-- A new object of the library, which it keeps for itself or which is lost. -/
def add (h : Handles κ) (n : Native κ) (lent : List Nat) : Handles κ := ⟨h.wrappers, n :: h.natives, lent⟩

theorem Sound.add (hs : Sound On h) {l : List Nat} (hn : ¬ h.Live n.ptr)
    (hneeds : ∀ p ∈ n.needs, ∃ m ∈ h.natives, m.ptr = p ∧ On n.kind m.kind)
    (hgiven : ∀ p ∈ n.needs, p ∉ h.lent → ∀ i, h.ptr? i = some p → i ∈ n.through)
    (hl : l = h.lent ∨ l = n.ptr :: h.lent ∧ n.needs = []) : Sound On (h.add n l) := by
  have hsub : h.lent ⊆ l := by
    rcases hl with rfl | ⟨rfl, -⟩
    · exact List.Subset.refl _
    · exact List.subset_cons_self _ _
  refine ⟨nodup_cons_ptr hs hn, ?_, ?_, ?_, hs.kept, ?_, ?_⟩
  · intro m hm q hq
    rcases List.mem_cons.mp hm with rfl | hm
    · obtain ⟨m', hm', hon⟩ := hneeds q hq
      exact ⟨m', List.mem_cons_of_mem _ hm', hon⟩
    · obtain ⟨m', hm', hon⟩ := hs.grounded m hm q hq
      exact ⟨m', List.mem_cons_of_mem _ hm', hon⟩
  · intro j y q hy hq
    obtain ⟨m, hm, hmp, hmk, hthrough, hg⟩ := hs.backed j y q hy hq
    refine ⟨m, List.mem_cons_of_mem _ hm, hmp, hmk, hthrough, gave_mono hg ?_⟩
    rintro p - k - (hp | hp)
    · exact .inl (hsub hp)
    · exact .inr hp
  · intro j k q hq hj hk
    exact hs.unique j k q (fun hmem => hq (hsub hmem)) hj hk
  · intro m hm q hq hlent j hj
    rcases List.mem_cons.mp hm with rfl | hm
    · exact hgiven q hq (fun hmem => hlent (hsub hmem)) j hj
    · exact hs.given m hm q hq (fun hmem => hlent (hsub hmem)) j hj
  · intro q hq
    have hold : q ∈ h.lent → ∃ m ∈ n :: h.natives, m.ptr = q ∧ m.needs = [] := by
      intro hmem
      obtain ⟨m, hm, hrest⟩ := hs.lent q hmem
      exact ⟨m, List.mem_cons_of_mem _ hm, hrest⟩
    rcases hl with rfl | ⟨rfl, hnone⟩
    · exact hold hq
    · rcases List.mem_cons.mp hq with rfl | hq
      · exact ⟨n, List.mem_cons_self, rfl, hnone⟩
      · exact hold hq

theorem Covered.lend (hc : Covered h) : Covered (h.add n (n.ptr :: h.lent)) := by
  intro m hm
  rcases List.mem_cons.mp hm with rfl | hm
  · exact .inl List.mem_cons_self
  · rcases hc m hm with hlent | hj
    · exact .inl (List.mem_cons_of_mem _ hlent)
    · exact .inr hj

/-- The wrapper becomes `x`, or goes, and the library is not told. -/
def set (h : Handles κ) (i : Nat) (x : Option (Wrapper κ)) : Handles κ :=
  ⟨Function.update h.wrappers i x, h.natives, h.lent⟩

theorem ptr?_update_self (f : Nat → Option (Wrapper κ)) (ns : List (Native κ)) (l : List Nat) (x : Option (Wrapper κ)) :
    ptr? ⟨Function.update f i x, ns, l⟩ i = x.bind Wrapper.ptr := by
  simp [ptr?]

theorem ptr?_set_of_ne {x : Option (Wrapper κ)} (hj : j ≠ i) : (h.set i x).ptr? j = h.ptr? j :=
  ptr?_update_of_ne h.wrappers h.natives h.natives h.lent x hj

/-- A new wrapper of an object that is lent. -/
theorem Sound.borrow (hs : Sound On h) (hi : h.wrappers i = none) (hp : x.ptr = some p) (hlent : p ∈ h.lent)
    (hx : x.bases = [] ∧ x.refs = []) (hn : n ∈ h.natives) (hnp : n.ptr = p) (hkind : n.kind = x.kind)
    (hthrough : n.through = []) (hneeds : n.needs = []) : Sound On (h.set i (some x)) := by
  have hne : ∀ {j y}, h.wrappers j = some y → j ≠ i := by
    intro j y hy hji
    rw [hji, hi] at hy
    cases hy
  have hptr : ∀ {j q}, q ∉ h.lent → (h.set i (some x)).ptr? j = some q → h.ptr? j = some q := by
    intro j q hq hj
    by_cases hji : j = i
    · rw [hji, Handles.set, ptr?_update_self, Option.bind_some, hp] at hj
      rw [← Option.some.inj hj] at hq
      exact absurd hlent hq
    · rw [ptr?_set_of_ne hji] at hj
      exact hj
  refine ⟨hs.distinct, hs.grounded, ?_, ?_, ?_, ?_, hs.lent⟩
  · intro j y q hy hq
    by_cases hji : j = i
    · simp only [hji, Handles.set, Function.update_self, Option.some.injEq] at hy
      subst hy
      rw [hp] at hq
      refine ⟨n, hn, hnp.trans (Option.some.inj hq), hkind, hthrough.trans hx.1.symm, ?_⟩
      rw [hneeds, hx.1]
      exact .nil
    · simp only [Handles.set, Function.update_of_ne hji] at hy
      obtain ⟨m, hm, hmp, hmk, hmt, hg⟩ := hs.backed j y q hy hq
      refine ⟨m, hm, hmp, hmk, hmt, gave_mono hg ?_⟩
      rintro r - k - (hr | hr)
      · exact .inl hr
      · obtain ⟨z, hz, -⟩ := ptr?_eq_some.mp hr
        exact .inr ((ptr?_set_of_ne (hne hz)).trans hr)
  · intro j k q hq hj hk
    exact hs.unique j k q hq (hptr hq hj) (hptr hq hk)
  · intro j y hy
    by_cases hji : j = i
    · simp only [hji, Handles.set, Function.update_self, Option.some.injEq] at hy
      rw [← hy, hx.1, hx.2]
      exact ⟨List.nil_subset _, fun k hk => by cases hk⟩
    · simp only [Handles.set, Function.update_of_ne hji] at hy
      refine ⟨(hs.kept j y hy).1, fun k hk => ?_⟩
      obtain ⟨z, hz⟩ := (hs.kept j y hy).2 k hk
      exact ⟨z, by simpa only [Handles.set, Function.update_of_ne (hne hz)] using hz⟩
  · intro m hm q hq hnot j hj
    exact hs.given m hm q hq hnot j (hptr hnot hj)

/-! ## Release -/

/-- The wrapper becomes `x`, or goes, and the library destroys the object at the address. -/
def free (h : Handles κ) (i : Nat) (x : Option (Wrapper κ)) (p : Nat) : Handles κ :=
  ⟨Function.update h.wrappers i x, h.natives.filter fun n => n.ptr ≠ p, h.lent⟩

theorem ptr?_free_of_ne {x : Option (Wrapper κ)} (hj : j ≠ i) : (h.free i x p).ptr? j = h.ptr? j :=
  ptr?_update_of_ne h.wrappers (h.natives.filter fun n => n.ptr ≠ p) h.natives h.lent x hj

/-- What becomes of a wrapper that holds nothing any more: it keeps no more wrappers alive than it did, or it goes, and
then no wrapper keeps it alive. -/
def Left (h : Handles κ) (i : Nat) : Option (Wrapper κ) → Prop
  | none => ¬ h.Referenced i
  | some y => y.ptr = none ∧ y.bases ⊆ y.refs ∧ ∃ x, h.wrappers i = some x ∧ y.refs ⊆ x.refs

theorem Left.ptr {x : Option (Wrapper κ)} (hl : h.Left i x) : x.bind Wrapper.ptr = none := by
  cases x with
  | none => rfl
  | some y => exact hl.1

/-- A wrapper holds nothing any more. What it held is lent or not in use, or no wrapper refers to it. -/
theorem Sound.set (hs : Sound On h) {x : Option (Wrapper κ)} (hl : h.Left i x)
    (hfree : ∀ p, h.ptr? i = some p → p ∉ h.lent → h.InUse p → ¬ h.Referenced i) : Sound On (h.set i x) := by
  have hptr : ∀ {j q}, (h.set i x).ptr? j = some q → j ≠ i ∧ h.ptr? j = some q := by
    intro j q hq
    by_cases hji : j = i
    · rw [hji, Handles.set, ptr?_update_self, hl.ptr] at hq
      cases hq
    · rw [ptr?_set_of_ne hji] at hq
      exact ⟨hji, hq⟩
  have hsome : ∀ {j k y}, h.wrappers j = some y → k ∈ y.refs → ∃ z, (h.set i x).wrappers k = some z := by
    intro j k y hy hk
    by_cases hki : k = i
    · simp only [hki, Handles.set, Function.update_self]
      cases x with
      | none =>
          rw [hki] at hk
          exact absurd ⟨j, y, hy, hk⟩ hl
      | some z => exact ⟨z, rfl⟩
    · simp only [Handles.set, Function.update_of_ne hki]
      exact (hs.kept j y hy).2 k hk
  refine ⟨hs.distinct, hs.grounded, ?_, ?_, ?_, ?_, hs.lent⟩
  · intro j y q hy hq
    obtain ⟨hji, hjq⟩ := hptr (ptr?_eq_some.mpr ⟨y, hy, hq⟩)
    simp only [Handles.set, Function.update_of_ne hji] at hy
    obtain ⟨n, hn, hnp, hnk, hthrough, hg⟩ := hs.backed j y q hy hq
    refine ⟨n, hn, hnp, hnk, hthrough, gave_mono hg ?_⟩
    rintro p hpn k hk (hp | hp)
    · exact .inl hp
    · by_cases hlent : p ∈ h.lent
      · exact .inl hlent
      · refine .inr ?_
        rw [ptr?_set_of_ne, hp]
        intro hki
        rw [hki] at hp hk
        exact hfree p hp hlent ⟨n, hn, hpn⟩ ⟨j, y, hy, (hs.kept j y hy).1 hk⟩
  · intro j k q hq hj hk
    exact hs.unique j k q hq (hptr hj).2 (hptr hk).2
  · intro j y hy
    by_cases hji : j = i
    · subst hji
      simp only [Handles.set, Function.update_self] at hy
      subst hy
      obtain ⟨-, hsub, z, hz, hrefs⟩ := hl
      exact ⟨hsub, fun k hk => hsome hz (hrefs hk)⟩
    · simp only [Handles.set, Function.update_of_ne hji] at hy
      exact ⟨(hs.kept j y hy).1, fun k hk => hsome hy hk⟩
  · intro n hn q hq hlent j hj
    exact hs.given n hn q hq hlent j (hptr hj).2

/-- An object of the library that is not in use is destroyed, and no wrapper holds it any more. -/
theorem Sound.filter (hs : Sound On h) (huse : ¬ h.InUse p) (hp : ∀ j, h.ptr? j ≠ some p) (hlent : p ∉ h.lent) :
    Sound On ⟨h.wrappers, h.natives.filter fun n => n.ptr ≠ p, h.lent⟩ := by
  have hmem : ∀ {m}, m ∈ h.natives → m.ptr ≠ p → m ∈ h.natives.filter fun n => n.ptr ≠ p := by
    intro m hm hmp
    rw [List.mem_filter]
    exact ⟨hm, by simpa using hmp⟩
  refine ⟨?_, ?_, ?_, hs.unique, hs.kept, ?_, ?_⟩
  · exact (hs.distinct.sublist (List.filter_sublist.map _))
  · intro n hn q hq
    have hn' := (List.mem_filter.mp hn).1
    obtain ⟨m, hm, hmq, hon⟩ := hs.grounded n hn' q hq
    refine ⟨m, hmem hm ?_, hmq, hon⟩
    intro hmp
    rw [hmq] at hmp
    rw [hmp] at hq
    exact huse ⟨n, hn', hq⟩
  · intro j y q hy hq
    obtain ⟨n, hn, hnp, hrest⟩ := hs.backed j y q hy hq
    refine ⟨n, hmem hn ?_, hnp, hrest⟩
    intro hqp
    rw [hnp] at hqp
    exact hp j (ptr?_eq_some.mpr ⟨y, hy, hqp ▸ hq⟩)
  · intro n hn
    exact hs.given n (List.mem_filter.mp hn).1
  · intro q hq
    obtain ⟨n, hn, hnq, hrest⟩ := hs.lent q hq
    refine ⟨n, hmem hn ?_, hnq, hrest⟩
    intro hqp
    rw [hnq] at hqp
    exact hlent (hqp ▸ hq)

theorem Sound.free {x : Option (Wrapper κ)} (hs : Sound On h) (hp : h.ptr? i = some p) (hlent : p ∉ h.lent)
    (huse : ¬ h.InUse p) (hl : h.Left i x) : Sound On (h.free i x p) := by
  have hset : Sound On (h.set i x) := by
    refine hs.set hl fun q hq _ hin => absurd hin ?_
    rw [hp] at hq
    rw [← Option.some.inj hq]
    exact huse
  refine hset.filter huse ?_ hlent
  intro j hj
  by_cases hji : j = i
  · rw [hji, Handles.set, ptr?_update_self, hl.ptr] at hj
    cases hj
  · rw [ptr?_set_of_ne hji] at hj
    exact hji (hs.unique j i p hlent hj hp)

/-- A wrapper goes: it held nothing, or the library kept what it held. -/
theorem Sound.drop (hs : Sound On h) (hi : ¬ h.Referenced i) : Sound On (h.set i none) :=
  hs.set hi fun _ _ _ _ => hi

theorem Covered.free {x : Option (Wrapper κ)} (hc : Covered h) (hp : h.ptr? i = some p) :
    Covered (h.free i x p) := by
  intro n hn
  obtain ⟨hn, hnp⟩ := List.mem_filter.mp hn
  rcases hc n hn with hlent | ⟨j, hj⟩
  · exact .inl hlent
  · refine .inr ⟨j, ?_⟩
    rw [ptr?_free_of_ne]
    · exact hj
    · intro hji
      rw [hji, hp] at hj
      simp [Option.some.inj hj] at hnp

theorem Covered.set {x : Option (Wrapper κ)} (hc : Covered h) (hi : ∀ p, h.ptr? i = some p → p ∈ h.lent) :
    Covered (h.set i x) := by
  intro n hn
  rcases hc n hn with hlent | ⟨j, hj⟩
  · exact .inl hlent
  · by_cases hji : j = i
    · rw [hji] at hj
      exact .inl (hi n.ptr hj)
    · exact .inr ⟨j, (ptr?_set_of_ne hji).trans hj⟩

/-- Where every object has its wrapper, the one of a wrapper that nothing keeps alive is not in use. -/
theorem Covered.not_inUse (hc : Covered h) (hs : Sound On h) (hp : h.ptr? i = some p) (hlent : p ∉ h.lent)
    (hi : ¬ h.Referenced i) : ¬ h.InUse p := by
  rintro ⟨n, hn, hpn⟩
  rcases hc n hn with hn' | ⟨j, hj⟩
  · obtain ⟨m, hm, hmp, hneeds⟩ := hs.lent n.ptr hn'
    rw [eq_of_ptr hs.distinct hn hm hmp.symm, hneeds] at hpn
    cases hpn
  · obtain ⟨y, hy, hyp⟩ := ptr?_eq_some.mp hj
    obtain ⟨m, hm, hmp, -, -, hg⟩ := hs.backed j y n.ptr hy hyp
    rw [eq_of_ptr hs.distinct hm hn hmp] at hg
    obtain ⟨k, hk, hgk⟩ := exists_gave hg hpn
    rcases hgk with hgk | hgk
    · exact hlent hgk
    · rw [hs.unique i k p hlent hp hgk] at hi
      exact hi ⟨j, y, hy, (hs.kept j y hy).1 hk⟩

/-- What has a wrapper was made through wrappers that it keeps alive. -/
theorem Covered.not_through (hc : Covered h) (hs : Sound On h) (hn : n ∈ h.natives) (hlent : n.ptr ∉ h.lent)
    (hi : ¬ h.Referenced i) : i ∉ n.through := by
  intro hmem
  obtain ⟨j, hj⟩ := (hc n hn).resolve_left hlent
  obtain ⟨y, hy, hyp⟩ := ptr?_eq_some.mp hj
  obtain ⟨m, hm, hmp, -, hthrough, -⟩ := hs.backed j y n.ptr hy hyp
  rw [eq_of_ptr hs.distinct hm hn hmp] at hthrough
  rw [hthrough] at hmem
  exact hi ⟨j, y, hy, (hs.kept j y hy).1 hmem⟩

/-! ## Counting -/

/-- How many objects of some classes were made through a wrapper. -/
def users (h : Handles κ) (counted : κ → Bool) (i : Nat) : Nat :=
  h.natives.countP fun n => counted n.kind && decide (i ∈ n.through)

theorem countP_filter_ptr (P : Native κ → Bool) {ns : List (Native κ)} (hd : (ns.map Native.ptr).Nodup) (hn : n ∈ ns) :
    ns.countP P = (ns.filter fun m => m.ptr ≠ n.ptr).countP P + if P n then 1 else 0 := by
  induction ns with
  | nil => cases hn
  | cons m ns ih =>
      rw [List.map_cons, List.nodup_cons] at hd
      rcases List.mem_cons.mp hn with rfl | hn
      · have hrest : ns.filter (fun k => k.ptr ≠ n.ptr) = ns := by
          rw [List.filter_eq_self]
          intro k hk
          have hne : k.ptr ≠ n.ptr := by
            intro he
            exact hd.1 (he ▸ List.mem_map_of_mem hk)
          simpa using hne
        rw [List.countP_cons, List.filter_cons_of_neg (by simp), hrest]
      · have hne : m.ptr ≠ n.ptr := by
          intro he
          exact hd.1 (he ▸ List.mem_map_of_mem hn)
        rw [List.countP_cons, List.filter_cons_of_pos (by simpa using hne), List.countP_cons, ih hd.2 hn]
        omega

theorem users_make (counted : κ → Bool) :
    (h.make i x n).users counted j = h.users counted j + if counted n.kind && decide (j ∈ n.through) then 1 else 0 :=
  List.countP_cons

theorem users_free {x : Option (Wrapper κ)} (hs : Sound On h) (counted : κ → Bool) (hn : n ∈ h.natives) :
    h.users counted j =
      (h.free i x n.ptr).users counted j + if counted n.kind && decide (j ∈ n.through) then 1 else 0 :=
  countP_filter_ptr _ hs.distinct hn

/-- What a wrapper holds is not in use if nothing was made through the wrapper, where only counted classes are made from
its class. -/
theorem not_inUse_of_users {counted : κ → Bool} (hs : Sound On h) (hp : h.ptr? i = some p) (hlent : p ∉ h.lent)
    (hm : m ∈ h.natives) (hmp : m.ptr = p) (hon : ∀ k, On k m.kind → counted k = true) (hu : h.users counted i = 0) :
    ¬ h.InUse p := by
  rintro ⟨n, hn, hpn⟩
  obtain ⟨m', hm', hmp', hon'⟩ := hs.grounded n hn p hpn
  rw [eq_of_ptr hs.distinct hm' hm (hmp'.trans hmp.symm)] at hon'
  have := List.countP_eq_zero.mp hu n hn
  simp [hon _ hon', hs.given n hn p hpn hlent i hp] at this

end Handles

end Rdma4py.Lib
