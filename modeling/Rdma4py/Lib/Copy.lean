import Mathlib.Data.List.Pairwise
import Mathlib.Logic.Basic

/-!
# Copies between places

A memory gives a value to every place, and a copy names a source and a target for each of its positions. Whoever makes it
may write to the targets more than once and in any order, so what counts is how far it got: a front was copied, a rest
was not touched, and what lies between is open.
-/

namespace Rdma4py.Lib

/-- A copy: position by position, where a value is read and where it is written. -/
structure Copy (π : Type*) where
  length : Nat
  source : Nat → π
  target : Nat → π

namespace Copy

variable {π β : Type*} {c : Copy π} {m m' m'' : π → β} {n done limit : Nat}

/-- A piece of the copy. -/
def part (c : Copy π) (start length : Nat) : Copy π where
  length := length
  source i := c.source (start + i)
  target i := c.target (start + i)

/-- No target is written twice, and no target is read. -/
structure Apart (c : Copy π) : Prop where
  injective : ∀ i < c.length, ∀ j < c.length, c.target i = c.target j → i = j
  separate : ∀ i < c.length, ∀ j < c.length, c.source i ≠ c.target j

/-- Nothing but the targets differs. -/
def Within (c : Copy π) (m m' : π → β) : Prop := ∀ p, (∀ i < c.length, c.target i ≠ p) → m' p = m p

/-- Each target holds what its source holds. -/
def Done (c : Copy π) (m : π → β) : Prop := ∀ i < c.length, m (c.target i) = m (c.source i)

/-- The positions before `done` were copied, and those from `limit` on were not touched. -/
structure Moved (c : Copy π) (done limit : Nat) (m m' : π → β) : Prop where
  le : done ≤ limit
  limit_le : limit ≤ c.length
  copied : ∀ i < done, m' (c.target i) = m (c.source i)
  kept : ∀ i, limit ≤ i → i < c.length → m' (c.target i) = m (c.target i)
  within : c.Within m m'

/-- The whole copy was made. -/
def Made (c : Copy π) (m m' : π → β) : Prop := c.Moved c.length c.length m m'

/-- Each target holds what its source held at first. -/
def Arrived (c : Copy π) (m m' : π → β) : Prop := ∀ i < c.length, m' (c.target i) = m (c.source i)

/-- No place of the copy differs. -/
def Untouched (c : Copy π) (m m' : π → β) : Prop :=
  ∀ i < c.length, m' (c.source i) = m (c.source i) ∧ m' (c.target i) = m (c.target i)

/-- No target of the one is a place of the other. -/
def Spares (c c' : Copy π) : Prop :=
  ∀ i < c.length, ∀ j < c'.length, c.target i ≠ c'.target j ∧ c.target i ≠ c'.source j

/-- Of all these copies, no target is written twice, and no target is read. -/
structure Separate (cs : List (Copy π)) : Prop where
  apart : ∀ c ∈ cs, c.Apart
  spares : cs.Pairwise fun c c' => c.Spares c' ∧ c'.Spares c

theorem Within.refl (c : Copy π) (m : π → β) : c.Within m m := fun _ _ => rfl

theorem Within.trans (h : c.Within m m') (h' : c.Within m' m'') : c.Within m m'' :=
  fun p hp => (h' p hp).trans (h p hp)

/-- A memory in which nothing was moved. -/
theorem Moved.refl (c : Copy π) (m : π → β) : c.Moved 0 0 m m :=
  ⟨Nat.le_refl 0, Nat.zero_le _, fun _ hi => absurd hi (Nat.not_lt_zero _), fun _ _ _ => rfl, .refl c m⟩

/-- Whatever was written on the way, the copy is made once the targets agree with the sources. -/
theorem Within.made (hc : c.Apart) (h : c.Within m m') (hd : c.Done m') : c.Made m m' := by
  refine ⟨Nat.le_refl _, Nat.le_refl _, ?_, fun i hle hi => absurd hle (Nat.not_le.mpr hi), h⟩
  intro i hi
  rw [hd i hi]
  exact h _ fun j hj htarget => hc.separate i hi j hj htarget.symm

theorem Within.moved (h : c.Within m m') : c.Moved 0 c.length m m' :=
  ⟨Nat.zero_le _, Nat.le_refl _, fun _ hi => absurd hi (Nat.not_lt_zero _), fun _ hle hi => absurd hle (Nat.not_le.mpr hi),
    h⟩

/-- The front is open, and the rest was not touched. -/
theorem Within.front (hc : c.Apart) (hn : n ≤ c.length) (h : (c.part 0 n).Within m m') : c.Moved 0 n m m' := by
  refine ⟨Nat.zero_le n, hn, fun _ hi => absurd hi (Nat.not_lt_zero _), ?_, ?_⟩
  · intro i hle hi
    apply h
    intro j hj htarget
    have hji := hc.injective (0 + j) (by simp only [part] at hj; omega) i hi htarget
    simp only [part] at hj
    omega
  · intro p hp
    apply h
    intro j hj
    simp only [part] at hj
    exact hp (0 + j) (by omega)

/-- The front was copied, and then the copy of the rest went on. -/
theorem Moved.append (hc : c.Apart) (hn : n ≤ c.length) (h : (c.part 0 n).Made m m')
    (h' : (c.part n (c.length - n)).Moved done limit m' m'') : c.Moved (n + done) (n + limit) m m'' := by
  have hlimit : limit ≤ c.length - n := h'.limit_le
  have hdone := h'.le
  -- What the first piece wrote, the rest keeps; what the rest reads and keeps, the first piece did not write.
  have hfirst : ∀ i < n, m'' (c.target i) = m' (c.target i) := by
    intro i hi
    apply h'.within
    intro j hj htarget
    have hj : j < c.length - n := hj
    have := hc.injective (n + j) (by omega) i (by omega) htarget
    omega
  have hrest : ∀ i, n ≤ i → i < c.length → m' (c.target i) = m (c.target i) := by
    intro i hle hi
    apply h.within
    intro j hj htarget
    have hj : j < n := hj
    have := hc.injective (0 + j) (by omega) i hi htarget
    omega
  have hsource : ∀ i < c.length, m' (c.source i) = m (c.source i) := by
    intro i hi
    apply h.within
    intro j hj htarget
    have hj : j < n := hj
    exact hc.separate i hi (0 + j) (by omega) htarget.symm
  refine ⟨by omega, by omega, ?_, ?_, ?_⟩
  · intro i hi
    by_cases hin : i < n
    · rw [hfirst i hin]
      have hcopied := h.copied i hin
      simpa only [part, Nat.zero_add] using hcopied
    · obtain ⟨j, rfl⟩ := Nat.exists_eq_add_of_le (Nat.not_lt.mp hin)
      rw [← hsource (n + j) (by omega)]
      exact h'.copied j (by omega)
  · intro i hle hi
    obtain ⟨j, rfl⟩ := Nat.exists_eq_add_of_le (show n ≤ i by omega)
    rw [← hrest (n + j) (by omega) hi]
    exact h'.kept j (by omega) (show j < c.length - n by omega)
  · intro p hp
    have hlast : m'' p = m' p := h'.within p fun j hj => hp (n + j) (by simp only [part] at hj; omega)
    have hfront : m' p = m p := h.within p fun j hj => hp (0 + j) (by simp only [part] at hj; omega)
    exact hlast.trans hfront

/-! ## Several copies -/

variable {c' : Copy π} {start start' length length' : Nat}

theorem Within.untouched (h : c.Within m m') (hs : c.Spares c') : c'.Untouched m m' := by
  intro j hj
  constructor
  · apply h
    intro i hi
    exact (hs i hi j hj).2
  · apply h
    intro i hi
    exact (hs i hi j hj).1

theorem Untouched.arrived {m₀ : π → β} (h : c.Untouched m m') (ha : c.Arrived m₀ m) : c.Arrived m₀ m' :=
  fun i hi => (h i hi).2.trans (ha i hi)

theorem Untouched.part (h : c.Untouched m m') (hle : start + length ≤ c.length) :
    (c.part start length).Untouched m m' := by
  intro i hi
  simp only [Copy.part] at hi
  exact h (start + i) (by omega)

theorem Separate.target_ne_source {cs : List (Copy π)} (h : Separate cs) (hc : c ∈ cs) (hc' : c' ∈ cs) {i j : Nat}
    (hi : i < c.length) (hj : j < c'.length) : c.target i ≠ c'.source j := by
  by_cases heq : c = c'
  · subst heq
    exact ((h.apart c hc).separate j hj i hi).symm
  · have : Std.Symm fun c c' : Copy π => c.Spares c' ∧ c'.Spares c := ⟨fun _ _ hs => ⟨hs.2, hs.1⟩⟩
    have hspares := h.spares.forall hc hc' heq
    exact (hspares.1 i hi j hj).2

/-- Pieces of copies that do not meet do not meet. -/
theorem Spares.part (h : c.Spares c') (hle : start + length ≤ c.length) (hle' : start' + length' ≤ c'.length) :
    (c.part start length).Spares (c'.part start' length') := by
  intro i hi j hj
  simp only [Copy.part] at hi hj
  exact h (start + i) (by omega) (start' + j) (by omega)

/-- Pieces of one copy do not meet when their positions differ. -/
theorem Apart.part_spares (h : c.Apart) (hle : start + length ≤ c.length) (hle' : start' + length' ≤ c.length)
    (hd : start + length ≤ start' ∨ start' + length' ≤ start) :
    (c.part start length).Spares (c.part start' length') := by
  intro i hi j hj
  simp only [Copy.part] at hi hj
  constructor
  · intro htarget
    have hij := h.injective (start + i) (by omega) (start' + j) (by omega) htarget
    omega
  · intro hsource
    exact h.separate (start' + j) (by omega) (start + i) (by omega) hsource.symm

end Copy

end Rdma4py.Lib
