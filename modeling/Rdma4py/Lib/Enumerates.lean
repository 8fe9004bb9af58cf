import Mathlib.Data.List.Perm.Subperm
import Mathlib.Data.List.Range

/-!
# Lists that enumerate a set

The tokens of a resource (identifiers, buffers, messages in flight) lie in several lists. That together they hold each
element of a set once says that none is lost and none is doubled.
-/

namespace Rdma4py.Lib

variable {α : Type*} {l l' : List α} {P Q : α → Prop} {a : α}

/-- The list holds the elements with the property, each of them once. -/
structure Enumerates (l : List α) (P : α → Prop) : Prop where
  nodup : l.Nodup
  mem_iff : ∀ a, a ∈ l ↔ P a

namespace Enumerates

theorem range (n : Nat) : Enumerates (List.range n) (· < n) := ⟨List.nodup_range, fun _ => List.mem_range⟩

theorem nil (h : ∀ a, ¬ P a) : Enumerates [] P := ⟨List.nodup_nil, fun a => by simp [h a]⟩

theorem perm (h : Enumerates l P) (hp : l.Perm l') : Enumerates l' P :=
  ⟨hp.nodup_iff.mp h.nodup, fun a => hp.mem_iff.symm.trans (h.mem_iff a)⟩

theorem congr (h : Enumerates l P) (hPQ : ∀ a, P a ↔ Q a) : Enumerates l Q :=
  ⟨h.nodup, fun a => (h.mem_iff a).trans (hPQ a)⟩

/-- A new element joins. -/
theorem cons (h : Enumerates l P) (ha : ¬ P a) : Enumerates (a :: l) fun x => x = a ∨ P x :=
  ⟨List.nodup_cons.mpr ⟨fun hmem => ha ((h.mem_iff a).mp hmem), h.nodup⟩, fun x => by rw [List.mem_cons, h.mem_iff]⟩

/-- An element leaves. -/
theorem tail (h : Enumerates (a :: l) P) : Enumerates l fun x => P x ∧ x ≠ a := by
  obtain ⟨hnot, hnd⟩ := List.nodup_cons.mp h.nodup
  refine ⟨hnd, fun x => ?_⟩
  rw [← h.mem_iff x, List.mem_cons]
  constructor
  · intro hx
    exact ⟨Or.inr hx, fun he => hnot (he ▸ hx)⟩
  · rintro ⟨rfl | hx, hne⟩
    · exact absurd rfl hne
    · exact hx

/-- The head has the property. -/
theorem head (h : Enumerates (a :: l) P) : P a := (h.mem_iff a).mp List.mem_cons_self

/-- The elements of a second list include the first. -/
theorem length_le (h : Enumerates l P) (hsub : ∀ a, P a → a ∈ l') : l.length ≤ l'.length :=
  (h.nodup.subperm fun a ha => hsub a ((h.mem_iff a).mp ha)).length_le

end Enumerates

end Rdma4py.Lib
