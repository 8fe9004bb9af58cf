import Rdma4py.Bindings.Lemmas.ObjectMoves

/-!
# The lifetimes of native objects

No native function is given a stale pointer, and no native object loses what it was made from, whatever fails and in
whatever order the objects are closed and die. An object dies when nothing refers to it any more. Where the provider
destroys what is not in use, nothing is left behind.
-/

namespace Rdma4py.Bindings.Objects

open Lib

variable {b : Binding} {w : World}

/-- What holds in every state of a run. -/
structure Safe (w : World) : Prop where
  /-- No native function was given a pointer that was NULL or stale. -/
  faults : w.faults = []
  /-- What a native object was made from is there. -/
  grounded : ∀ n ∈ w.natives, ∀ p ∈ n.needs, ∃ m ∈ w.natives, m.ptr = p ∧ Kind.On n.kind m.kind
  /-- An open object holds a native object of its class, and no other object holds it, unless it is a device that
  librdmacm lends to the contexts of its endpoints. -/
  held : ∀ i o p, w.objects i = some o → o.wrapper.ptr = some p →
    (∃ n ∈ w.natives, n.ptr = p ∧ n.kind = o.wrapper.kind) ∧
      (p ∉ w.cmDevices → ∀ j o', w.objects j = some o' → o'.wrapper.ptr = some p → j = i)
  /-- The contexts of endpoints hold the devices of librdmacm, and the others none of them. -/
  lent : ∀ i c p, w.objects i = some (.context c) → c.ctx = some p → (p ∈ w.cmDevices ↔ c.owned = false)
  /-- A context counts the PDs, completion channels and CQs that were made through it. -/
  counted : ∀ i c, w.objects i = some (.context c) →
    c.children = w.natives.countP fun n => n.kind.child && decide (i ∈ n.through)

theorem Good.safe (hg : Good b w) : Safe w := by
  refine ⟨hg.faults, hg.sound.grounded, ?_, ?_, hg.children⟩
  · intro i o p hi hp
    obtain ⟨n, hn, hnp, hnk, -⟩ := hg.native hi hp
    refine ⟨⟨n, hn, hnp, hnk⟩, ?_⟩
    intro hlent j o' hj hp'
    exact hg.sound.unique j i p hlent ((ptr?_of_object hj).trans hp') ((ptr?_of_object hi).trans hp)
  · intro i c p hi hp
    apply hg.lends i c.owned p
    rw [view_of_object hi, Object.view, hp]

/-- Two endpoints on one device, of which the first dies before the PD of its context, and the PD is closed. -/
def twoEndpoints : List Event :=
  [.resolve (.ok (some (10, 11))) 0, .allocPd 0 (some 12) 0, .resolve (.ok (some (13, 11))) 0, .drop 1 0, .close 2 0 0]

theorem twoEndpoints_plays : ((process verbs).when fun w e => w.Room ∧ Honest w e).Plays .initial twoEndpoints := by
  have hroom : ∀ {n}, n ≤ 5 → n + 2 < 2 ^ 32 := fun h => by omega
  refine ⟨⟨⟨rfl, ?_, .inr ⟨by decide, ?_⟩⟩, hroom (by decide), trivial⟩,
    ⟨⟨trivial, ?_, trivial⟩, hroom (n := 2) (by decide), trivial⟩,
    ⟨⟨rfl, ?_, .inl (by decide)⟩, hroom (n := 3) (by decide), trivial⟩,
    ⟨⟨trivial, (fun p hp => by cases hp), ?_, ?_⟩, hroom (n := 4) (by decide), fun h => absurd rfl h⟩,
    ⟨⟨trivial, (fun p hp => by cases hp), ?_⟩, hroom (n := 3) (by decide), fun h => absurd rfl h⟩, trivial⟩
  · rintro p - ⟨n, hn, -⟩
    cases hn
  · rintro ⟨n, hn, -⟩
    cases hn
  · rintro p hp ⟨n, hn, rfl⟩
    revert n
    decide
  · rintro p hp ⟨n, hn, rfl⟩
    revert n
    decide
  · rintro - ⟨x, p, hx, -, -, hcm, -⟩
    cases hx
    exact hcm rfl
  · rintro ⟨j, x, hx, hmem⟩
    rcases j with _ | _ | _ | _ | _ | j
    · cases hx
      cases hmem
    · cases hx
      exact absurd hmem (by decide)
    · cases hx
      exact absurd hmem (by decide)
    · cases hx
      cases hmem
    · cases hx
      exact absurd hmem (by decide)
    · cases hx
  · rintro - ⟨x, p, hx, hp, -, -, n, hn, hmem⟩
    cases hx
    cases hp
    revert n
    decide

/-- **Nothing is left behind.** Where the provider destroys what is not in use, every native object has an object that
holds it, in every state, except for the devices that librdmacm keeps open. What died, in whatever order, took its native
object with it. -/
theorem nothing_leaks (h : ((process b).when fun w e => w.Room ∧ Honest w e).Reaches .initial w) :
    ∀ n ∈ w.natives, (n.kind = .context ∧ n.ptr ∈ w.cmDevices) ∨
      ∃ i o, w.objects i = some o ∧ o.wrapper.ptr = some n.ptr := by
  have hinit : Whole b .initial := by
    refine ⟨good_initial, ?_⟩
    intro n hn
    cases hn
  have hw : Whole b w := h.invariant (fun _ _ hw he => hw.step he.1 he.2.1 he.2.2) hinit
  intro n hn
  rcases hw.covered n hn with hlent | ⟨i, hi⟩
  · refine .inl ⟨?_, hlent⟩
    rw [Handles.eq_of_ptr hw.good.sound.distinct hn (hw.good.devices n.ptr hlent) rfl]
  · obtain ⟨x, hx, hp⟩ := Handles.ptr?_eq_some.mp hi
    obtain ⟨o, ho, rfl⟩ := Option.map_eq_some_iff.mp hx
    exact .inr ⟨i, o, ho, hp⟩

/-- Of the two endpoints the device and the second are left. -/
theorem nothing_leaks_endpoint : let w := (process verbs).play .initial twoEndpoints
    w.natives = [⟨13, .cmId, [], []⟩, ⟨11, .context, [], []⟩] ∧
      ∀ n ∈ w.natives, (n.kind = .context ∧ n.ptr ∈ w.cmDevices) ∨
        ∃ i o, w.objects i = some o ∧ o.wrapper.ptr = some n.ptr := by
  intro w
  exact ⟨by decide, nothing_leaks twoEndpoints_plays.reaches⟩

end Rdma4py.Bindings.Objects
