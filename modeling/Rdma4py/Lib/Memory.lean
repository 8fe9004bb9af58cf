import Mathlib.Data.List.Basic

/-!
# Memory

A memory gives a value to every address. A write changes a range of addresses; what a read of another range sees stays.
-/

namespace Rdma4py.Lib

variable {α : Type*}

/-- The contents of a memory. -/
abbrev Memory (α : Type*) := Nat → α

namespace Memory

/-- Store the values of a list from an offset on. -/
def write (m : Memory α) (data : List α) (offset : Nat) : Memory α :=
  fun i => if offset ≤ i then (data[i - offset]?).getD (m i) else m i

/-- The values of a range. -/
def read (m : Memory α) (length offset : Nat) : List α := (List.range length).map fun i => m (offset + i)

variable {m : Memory α} {data : List α} {length offset offset' i : Nat}

theorem length_read (m : Memory α) (length offset : Nat) : (m.read length offset).length = length := by
  simp [read]

theorem write_of_lt (h : i < data.length) : (m.write data offset) (offset + i) = data[i] := by
  simp [write, h]

theorem write_of_outside (h : i < offset ∨ offset + data.length ≤ i) : (m.write data offset) i = m i := by
  unfold write
  split
  · next hle =>
      rw [List.getElem?_eq_none (by omega)]
      rfl
  · rfl

/-- A read sees what was written. -/
theorem read_write_self (m : Memory α) (data : List α) (offset : Nat) :
    (m.write data offset).read data.length offset = data := by
  refine List.ext_getElem (length_read _ _ _) fun i h₁ h₂ => ?_
  simp only [read, List.getElem_map, List.getElem_range]
  exact write_of_lt h₂

/-- A read does not see what was written elsewhere. -/
theorem read_write_disjoint (h : offset' + length ≤ offset ∨ offset + data.length ≤ offset') :
    (m.write data offset).read length offset' = m.read length offset' := by
  refine List.map_congr_left fun i hi => ?_
  have := List.mem_range.mp hi
  exact write_of_outside (by omega)

end Memory

end Rdma4py.Lib
