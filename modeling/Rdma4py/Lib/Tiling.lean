import Mathlib.Algebra.BigOperators.Group.List.Basic
import Mathlib.Algebra.Ring.Nat
import Mathlib.Data.List.Range

/-!
# Cutting an interval into pieces

A piece is an offset and a length. `Tiles lo ps hi` says that the pieces `ps` follow one another from `lo` to `hi`,
each with a positive length. Such a list has no gap and no overlap.
-/

namespace Rdma4py.Lib

/-- `range(start, stop, step)` for a positive step. -/
def pyRange (start stop step : Nat) : List Nat := List.range' start ((stop - start + step - 1) / step) step

theorem pyRange_of_le {start stop step : Nat} (hs : 0 < step) (h : stop ≤ start) : pyRange start stop step = [] := by
  have : (stop - start + step - 1) / step = 0 := Nat.div_eq_of_lt (by omega)
  rw [pyRange, this]; rfl

theorem pyRange_of_lt {start stop step : Nat} (hs : 0 < step) (h : start < stop) :
    pyRange start stop step = start :: pyRange (start + step) stop step := by
  have hn : (stop - start + step - 1) / step = (stop - (start + step) + step - 1) / step + 1 := by
    rcases Nat.le_total (start + step) stop with hle | hle
    · rw [show stop - start + step - 1 = stop - (start + step) + step - 1 + step by omega, Nat.add_div_right _ hs]
    · rw [show stop - start + step - 1 = stop - start - 1 + step by omega, Nat.add_div_right _ hs,
        Nat.div_eq_of_lt (show stop - start - 1 < step by omega),
        Nat.div_eq_of_lt (show stop - (start + step) + step - 1 < step by omega)]
  rw [pyRange, pyRange, hn, List.range'_succ]

/-- The pieces follow one another from `lo` to `hi`, and none is empty. -/
def Tiles : Nat → List (Nat × Nat) → Nat → Prop
  | lo, [], hi => lo = hi
  | lo, p :: ps, hi => p.1 = lo ∧ 0 < p.2 ∧ Tiles (lo + p.2) ps hi

namespace Tiles

variable {lo hi : Nat} {ps : List (Nat × Nat)}

theorem le (h : Tiles lo ps hi) : lo ≤ hi := by
  induction ps generalizing lo with
  | nil => exact Nat.le_of_eq h
  | cons p ps ih => have := ih h.2.2; omega

theorem sum_lengths (h : Tiles lo ps hi) : lo + (ps.map Prod.snd).sum = hi := by
  induction ps generalizing lo with
  | nil => simpa [Tiles] using h
  | cons p ps ih =>
      have := ih h.2.2
      simp only [List.map_cons, List.sum_cons]; omega

theorem mem_bounds (h : Tiles lo ps hi) {p : Nat × Nat} (hp : p ∈ ps) : lo ≤ p.1 ∧ 0 < p.2 ∧ p.1 + p.2 ≤ hi := by
  induction ps generalizing lo with
  | nil => cases hp
  | cons q ps ih =>
      obtain ⟨hq, hpos, hrest⟩ := h
      rcases List.mem_cons.mp hp with rfl | hp
      · have := hrest.le; omega
      · have := ih hrest hp; omega

/-- No gap: every position lies in some piece. -/
theorem exists_mem (h : Tiles lo ps hi) {x : Nat} (hlo : lo ≤ x) (hhi : x < hi) :
    ∃ p ∈ ps, p.1 ≤ x ∧ x < p.1 + p.2 := by
  induction ps generalizing lo with
  | nil => have : lo = hi := h; omega
  | cons q ps ih =>
      obtain ⟨hq, hpos, hrest⟩ := h
      rcases Nat.lt_or_ge x (lo + q.2) with hx | hx
      · exact ⟨q, by simp, by omega, by omega⟩
      · obtain ⟨p, hp, hxp⟩ := ih hrest hx
        exact ⟨p, by simp [hp], hxp⟩

/-- No overlap: the pieces are pairwise disjoint. -/
theorem pairwise_disjoint (h : Tiles lo ps hi) : ps.Pairwise fun p q => p.1 + p.2 ≤ q.1 := by
  induction ps generalizing lo with
  | nil => exact .nil
  | cons p ps ih =>
      obtain ⟨hp, _, hrest⟩ := h
      refine List.Pairwise.cons (fun q hq => ?_) (ih hrest)
      have := hrest.mem_bounds hq; omega

end Tiles

/-- Steps of a range, each cut off at its end, tile it. -/
theorem tiles_pyRange {start stop step : Nat} (hs : 0 < step) (h : start ≤ stop) :
    Tiles start ((pyRange start stop step).map fun o => (o, min step (stop - o))) stop := by
  induction hn : stop - start using Nat.strong_induction_on generalizing start with
  | _ n ih =>
      rcases Nat.eq_or_lt_of_le h with heq | hlt
      · rw [pyRange_of_le hs (by omega)]; exact heq
      · rw [pyRange_of_lt hs hlt]
        refine ⟨rfl, by simp only; omega, ?_⟩
        rcases Nat.le_total (start + step) stop with hle | hle
        · rw [show start + min step (stop - start) = start + step by omega]
          exact ih _ (by omega) hle rfl
        · rw [pyRange_of_le hs hle, show start + min step (stop - start) = stop by omega]
          rfl

end Rdma4py.Lib
