import Mathlib.Algebra.BigOperators.Group.List.Basic
import Mathlib.Algebra.Order.BigOperators.Group.List
import Mathlib.Algebra.Order.Group.Nat
import Mathlib.Algebra.Ring.Nat
import Mathlib.Data.List.Perm.Basic
import Mathlib.Logic.Function.Basic

/-!
# Lists in numbered buckets

`f : Nat → List α` gives the contents of the buckets 0, 1, …. `flat n f` puts the first `n` of them in one list.
-/

namespace Rdma4py.Lib

variable {α β : Type*} {n : Nat}

/-- The contents of the first `n` buckets. -/
def flat (n : Nat) (f : Nat → List α) : List α := (List.range n).flatMap f

@[simp] theorem mem_flat {f : Nat → List α} {a : α} : a ∈ flat n f ↔ ∃ q < n, a ∈ f q := by
  simp [flat]

theorem flat_succ (n : Nat) (f : Nat → List α) : flat (n + 1) f = flat n f ++ f n := by
  simp [flat, List.range_succ]

@[simp] theorem flat_nil (n : Nat) : flat n (fun _ => ([] : List α)) = [] := by simp [flat]

theorem map_flat (g : α → β) (n : Nat) (f : Nat → List α) : (flat n f).map g = flat n fun q => (f q).map g := by
  simp [flat, List.map_flatMap]

theorem length_flat (n : Nat) (f : Nat → List α) : (flat n f).length = ((List.range n).map fun q => (f q).length).sum := by
  simp [flat, List.length_flatMap]

theorem flat_perm {f g : Nat → List α} (h : ∀ q < n, (f q).Perm (g q)) : (flat n f).Perm (flat n g) := by
  induction n with
  | zero => exact .refl _
  | succ n ih =>
      rw [flat_succ, flat_succ]
      exact (ih fun q hq => h q (by omega)).append (h n (by omega))

theorem flat_append_perm (n : Nat) (f g : Nat → List α) :
    (flat n fun q => f q ++ g q).Perm (flat n f ++ flat n g) :=
  (List.flatMap_append_perm (List.range n) f g).symm

/-- One more element in one bucket. -/
theorem flat_update_perm {q : Nat} (hq : q < n) (f : Nat → List α) (a : α) :
    (flat n (Function.update f q (f q ++ [a]))).Perm (flat n f ++ [a]) := by
  induction n with
  | zero => omega
  | succ n ih =>
      rw [flat_succ, flat_succ]
      rcases Nat.lt_or_eq_of_le (Nat.le_of_lt_succ hq) with hlt | rfl
      · rw [Function.update_of_ne (by omega)]
        refine ((ih hlt).append_right _).trans ?_
        rw [List.append_assoc, List.append_assoc]
        exact List.perm_append_comm.append_left _
      · have hsame : flat q (Function.update f q (f q ++ [a])) = flat q f := by
          refine List.flatMap_congr fun i hi => ?_
          rw [Function.update_of_ne (List.mem_range.mp hi).ne]
        rw [hsame, Function.update_self, List.append_assoc]

/-- Sorting the elements of a list into buckets keeps them all. -/
theorem flat_filter_perm {f : α → Nat} {l : List α} (h : ∀ a ∈ l, f a < n) :
    (flat n fun q => l.filter fun a => f a = q).Perm l := by
  have key : ∀ m, (flat m fun q => l.filter fun a => f a = q).Perm (l.filter fun a => f a < m) := by
    intro m
    induction m with
    | zero => simp [flat]
    | succ m ih =>
        rw [flat_succ]
        refine (ih.append_right _).trans ?_
        have := List.filter_append_perm (fun a => decide (f a < m)) (l.filter fun a => decide (f a < m + 1))
        rw [List.filter_filter, List.filter_filter] at this
        refine .trans (.of_eq ?_) this
        congr 1
        · exact List.filter_congr fun a _ => by simp only [← Bool.decide_and]; grind
        · exact List.filter_congr fun a _ => by grind
  have hall : (l.filter fun a => decide (f a < n)) = l := List.filter_eq_self.mpr fun a ha => by simpa using h a ha
  simpa only [hall] using key n

/-- Elements that know their bucket are found there again. -/
theorem filter_flat {tag : α → Nat} {f : Nat → List α} (h : ∀ q, ∀ a ∈ f q, tag a = q) (n q : Nat) :
    ((flat n f).filter fun a => tag a = q) = if q < n then f q else [] := by
  induction n with
  | zero => rfl
  | succ n ih =>
      rw [flat_succ, List.filter_append, ih]
      rcases Nat.lt_trichotomy q n with hlt | rfl | hgt
      · rw [if_pos hlt, if_pos (by omega), List.filter_eq_nil_iff.mpr, List.append_nil]
        intro a ha
        simpa [h n a ha] using hlt.ne'
      · rw [if_neg (by omega), if_pos (by omega), List.nil_append]
        exact List.filter_eq_self.mpr fun a ha => by simp [h q a ha]
      · rw [if_neg (by omega), if_neg (by omega), List.nil_append, List.filter_eq_nil_iff.mpr]
        intro a ha
        simpa [h n a ha] using hgt.ne

/-- When every bucket holds at most `d` elements and one of them fewer, there are fewer than `n * d` in all. -/
theorem length_flat_lt {f : Nat → List α} {d : Nat} (hle : ∀ q, (f q).length ≤ d) {q : Nat} (hq : q < n)
    (hlt : (f q).length < d) : (flat n f).length < n * d := by
  rw [length_flat]
  calc ((List.range n).map fun q => (f q).length).sum
      < ((List.range n).map fun _ => d).sum :=
        List.sum_lt_sum _ _ (fun i _ => hle i) ⟨q, List.mem_range.mpr hq, hlt⟩
    _ = n * d := by rw [List.map_const', List.sum_replicate, List.length_range]; rfl

end Rdma4py.Lib
