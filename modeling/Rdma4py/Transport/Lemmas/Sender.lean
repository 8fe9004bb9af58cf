import Rdma4py.Lib.Memory
import Rdma4py.Transport.Lemmas.Partition

/-!
# The connections of a thread sender

A flow sends its header and then its range of the tensor, again and again.
-/

namespace Rdma4py.Transport

open Lib

variable {t : Sending} {flow : Nat} {xs data : List UInt8} {o w k j : Nat}

/-! ## Slices -/

theorem slice_take (h : o + w ≤ k) : slice (xs.take k) o w = slice xs o w := by
  rw [slice, slice, List.drop_take, List.take_take, Nat.min_eq_left (by omega)]

theorem slice_drop (xs : List UInt8) (k o w : Nat) : slice (xs.drop k) o w = slice xs (k + o) w := by
  rw [slice, slice, List.drop_drop]

/-- A repeated list has the list at every turn. -/
theorem slice_replicate (h : j < k) : slice (List.replicate k xs).flatten (j * xs.length) xs.length = xs := by
  induction k generalizing j with
  | zero => omega
  | succ k ih =>
      rw [List.replicate_succ, List.flatten_cons]
      cases j with
      | zero => simp [slice]
      | succ j =>
          rw [slice, show (j + 1) * xs.length = xs.length + j * xs.length by rw [Nat.succ_mul, Nat.add_comm],
            ← List.drop_drop, List.drop_left]
          exact ih (by omega)

theorem length_flatten_replicate (k : Nat) (xs : List UInt8) :
    (List.replicate k xs).flatten.length = k * xs.length := by
  simp

/-! ## A flow -/

namespace Sending

/-- The length of the range of a flow. -/
def length (t : Sending) (flow : Nat) : Nat := t.stop flow - t.start flow

theorem staticHeader_formed (h : (t.staticHeader flow).Fits) : (t.staticHeader flow).Formed :=
  ⟨rfl, t.id.length_eq, h⟩

theorem payload_eq (t : Sending) (flow : Nat) :
    t.payload flow = slice t.source (t.start flow) (t.length flow) :=
  sendRange_eq t.chunkBytes_pos (Nat.le_refl _)

theorem length_payload (hf : flow < t.flows) : (t.payload flow).length = t.length flow := by
  rw [payload_eq, length_slice]
  have hstop : t.stop flow ≤ t.source.length := partitionBound_le t.flows_pos hf
  have hle : t.start flow ≤ t.stop flow := partitionBound_mono (Nat.le_succ flow)
  rw [Sending.length]
  omega

theorem staticFlow_of_ne_nil (h : t.staticFlow flow ≠ []) :
    t.flows ≤ t.source.length ∧ (t.staticHeader flow).Fits ∧
      t.staticFlow flow = (t.staticHeader flow).pack ++ (List.replicate t.iterations (t.payload flow)).flatten := by
  unfold staticFlow at h ⊢
  split at h
  · exact absurd rfl h
  next hok =>
    push Not at hok
    rw [if_neg (by push Not; exact hok)]
    exact ⟨hok.1, hok.2, rfl⟩

theorem unpack_staticFlow (h : t.staticFlow flow ≠ []) (hk : headerSize ≤ k) :
    Header.unpack (((t.staticFlow flow).take k).take headerSize) = t.staticHeader flow := by
  obtain ⟨-, hfits, heq⟩ := staticFlow_of_ne_nil h
  have hformed := staticHeader_formed hfits
  rw [List.take_take, Nat.min_eq_left hk, heq, List.take_append_of_le_length (Header.length_pack hformed).ge,
    List.take_of_length_le (Header.length_pack hformed).le, Header.unpack_pack hformed]

/-- The bytes behind the header are the payload, once for each iteration. -/
theorem drop_staticFlow (h : t.staticFlow flow ≠ []) :
    (t.staticFlow flow).drop headerSize = (List.replicate t.iterations (t.payload flow)).flatten := by
  obtain ⟨-, hfits, heq⟩ := staticFlow_of_ne_nil h
  rw [heq, List.drop_append_of_le_length (Header.length_pack (staticHeader_formed hfits)).ge,
    List.drop_of_length_le (Header.length_pack (staticHeader_formed hfits)).le, List.nil_append]

theorem length_staticFlow (h : t.staticFlow flow ≠ []) (hf : flow < t.flows) :
    (t.staticFlow flow).length = headerSize + t.iterations * t.length flow := by
  obtain ⟨-, hfits, heq⟩ := staticFlow_of_ne_nil h
  rw [heq, List.length_append, Header.length_pack (staticHeader_formed hfits), length_flatten_replicate,
    length_payload hf]

theorem slice_staticFlow (h : t.staticFlow flow ≠ []) (hf : flow < t.flows) (hj : j < t.iterations) :
    slice (t.staticFlow flow) (headerSize + j * t.length flow) (t.length flow) =
      slice t.source (t.start flow) (t.length flow) := by
  rw [← slice_drop, drop_staticFlow h, ← payload_eq, ← length_payload hf]
  exact slice_replicate hj

end Sending

/-- A tensor whose ranges are those of the source is the source. -/
theorem read_eq_of_ranges {tensor : Memory UInt8} {source : List UInt8} {flows : Nat} (hf : 0 < flows)
    (hn : flows ≤ source.length)
    (h : ∀ flow < flows, tensor.read (partitionBound source.length flows (flow + 1) -
        partitionBound source.length flows flow) (partitionBound source.length flows flow) =
      slice source (partitionBound source.length flows flow)
        (partitionBound source.length flows (flow + 1) - partitionBound source.length flows flow)) :
    tensor.read source.length 0 = source := by
  refine List.ext_getElem (Memory.length_read _ _ _) fun i h₁ h₂ => ?_
  obtain ⟨flow, hflow, hlo, hhi⟩ := exists_flow hf hn h₂
  obtain ⟨k, rfl⟩ := Nat.exists_eq_add_of_le hlo
  have hk : k < partitionBound source.length flows (flow + 1) - partitionBound source.length flows flow := by omega
  have hget := congrArg (·[k]?) (h flow hflow)
  simp only [Memory.read, List.getElem?_map, List.getElem?_range hk, Option.map_some, getElem?_slice hk] at hget
  simp only [Memory.read, List.getElem_map, List.getElem_range, Nat.zero_add]
  rw [List.getElem?_eq_getElem h₂] at hget
  exact Option.some.inj hget

end Rdma4py.Transport
