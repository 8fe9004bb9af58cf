import Mathlib.Tactic.Common
import Rdma4py.Lib.Tiling
import Rdma4py.Transport.Sender

/-!
# The ranges of the flows

The ranges of `_partitions` follow one another from the first byte to the last, and none is empty.
-/

namespace Rdma4py.Transport

open Lib

variable {nbytes flows flow flow' : Nat}

theorem partitionBound_zero (nbytes flows : Nat) : partitionBound nbytes flows 0 = 0 := by
  simp [partitionBound]

theorem partitionBound_self (hf : 0 < flows) : partitionBound nbytes flows flows = nbytes :=
  Nat.mul_div_cancel _ hf

theorem partitionBound_mono (h : flow ≤ flow') :
    partitionBound nbytes flows flow ≤ partitionBound nbytes flows flow' :=
  Nat.div_le_div_right (Nat.mul_le_mul_left nbytes h)

/-- With a byte for each flow, no range is empty. -/
theorem partitionBound_lt (hf : 0 < flows) (hn : flows ≤ nbytes) (flow : Nat) :
    partitionBound nbytes flows flow < partitionBound nbytes flows (flow + 1) := by
  have hstep : nbytes * flow + flows ≤ nbytes * (flow + 1) := by
    rw [Nat.mul_succ]
    omega
  calc partitionBound nbytes flows flow < nbytes * flow / flows + 1 := Nat.lt_succ_self _
    _ = (nbytes * flow + flows) / flows := (Nat.add_div_right _ hf).symm
    _ ≤ partitionBound nbytes flows (flow + 1) := Nat.div_le_div_right hstep

theorem partitionBound_le (hf : 0 < flows) (h : flow ≤ flows) : partitionBound nbytes flows flow ≤ nbytes :=
  (partitionBound_mono h).trans_eq (partitionBound_self hf)

/-- The ranges as pieces: where each starts and how long it is. -/
def rangePieces (nbytes flows : Nat) : List (Nat × Nat) :=
  (List.range flows).map fun flow =>
    (partitionBound nbytes flows flow, partitionBound nbytes flows (flow + 1) - partitionBound nbytes flows flow)

theorem tiles_snoc {lo mid hi : Nat} {ps : List (Nat × Nat)} (h : Tiles lo ps mid) (hlt : mid < hi) :
    Tiles lo (ps ++ [(mid, hi - mid)]) hi := by
  induction ps generalizing lo with
  | nil =>
      obtain rfl : lo = mid := h
      exact ⟨rfl, by simp only; omega, by simp only [Tiles]; omega⟩
  | cons p ps ih => exact ⟨h.1, h.2.1, ih h.2.2⟩

theorem tiles_ranges (hf : 0 < flows) (hn : flows ≤ nbytes) : Tiles 0 (rangePieces nbytes flows) nbytes := by
  have hfirst : ∀ k ≤ flows, Tiles 0 ((List.range k).map fun flow => (partitionBound nbytes flows flow,
      partitionBound nbytes flows (flow + 1) - partitionBound nbytes flows flow)) (partitionBound nbytes flows k) := by
    intro k hk
    induction k with
    | zero => exact (partitionBound_zero nbytes flows).symm
    | succ k ih =>
        rw [List.range_succ, List.map_append, List.map_singleton]
        exact tiles_snoc (ih (by omega)) (partitionBound_lt hf hn k)
  have := hfirst flows (Nat.le_refl _)
  rwa [partitionBound_self hf] at this

/-- Every position lies in the range of one flow. -/
theorem exists_flow (hf : 0 < flows) (hn : flows ≤ nbytes) {position : Nat} (hp : position < nbytes) :
    ∃ flow < flows, partitionBound nbytes flows flow ≤ position ∧
      position < partitionBound nbytes flows (flow + 1) := by
  obtain ⟨p, hmem, hlo, hhi⟩ := (tiles_ranges hf hn).exists_mem (Nat.zero_le position) hp
  obtain ⟨flow, hflow, rfl⟩ := List.mem_map.mp hmem
  have := partitionBound_lt hf hn flow
  exact ⟨flow, List.mem_range.mp hflow, hlo, by simp only at hhi; omega⟩

/-- Another number of flows cuts the tensor in other ranges: only the last flow of all ends at the end. -/
theorem flows_eq_of_last {flows' : Nat} (hf : 0 < flows) (hn : 0 < nbytes) (hle : flows ≤ flows')
    (hlast : partitionBound nbytes flows' flows = nbytes) : flows' = flows := by
  rw [partitionBound] at hlast
  have hpos : 0 < flows' := by omega
  have hmul : nbytes * flows' ≤ nbytes * flows := by
    rw [← Nat.le_div_iff_mul_le hpos, hlast]
  exact Nat.le_antisymm (Nat.le_of_mul_le_mul_left hmul hn) hle

end Rdma4py.Transport
