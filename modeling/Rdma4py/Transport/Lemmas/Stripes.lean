import Mathlib.Algebra.BigOperators.Ring.List
import Rdma4py.Lib.Buckets
import Rdma4py.Lib.Tiling
import Rdma4py.Transport.DynamicSender
import Rdma4py.Transport.Lemmas.Sender

/-!
# What a process sender puts on its connections

A connection carries stripes, each behind its header, and the terminator. Wherever it breaks off, what arrives is a part
of that.
-/

namespace Rdma4py.Transport

open Lib

variable {t : Sending} {flow task k : Nat} {data rest : List UInt8}

namespace Sending

/-- The length of the stripe of a task. -/
def taskLength (t : Sending) (task : Nat) : Nat := t.taskStop task - t.taskOffset task

/-- The header of a task and its stripe. -/
def frame (t : Sending) (flow task : Nat) : List UInt8 := (t.taskHeader flow task).pack ++ t.taskPayload task

theorem taskHeader_formed (h : (t.taskHeader flow task).Fits) : (t.taskHeader flow task).Formed :=
  ⟨rfl, t.id.length_eq, h⟩

theorem terminator_formed (h : (t.terminator flow).Fits) : (t.terminator flow).Formed :=
  ⟨rfl, t.id.length_eq, h⟩

theorem taskPayload_eq (t : Sending) (task : Nat) :
    t.taskPayload task = slice t.source (t.taskOffset task) (t.taskLength task) :=
  sendRange_eq t.chunkBytes_pos (Nat.le_refl _)

theorem length_taskPayload (t : Sending) (task : Nat) : (t.taskPayload task).length = t.taskLength task := by
  rw [taskPayload_eq]
  rcases Nat.le_total (t.taskOffset task) (t.taskStop task) with hle | hge
  · refine length_slice ?_
    have : t.taskStop task ≤ t.source.length := Nat.min_le_right ..
    rw [taskLength]
    omega
  · have hz : t.taskLength task = 0 := Nat.sub_eq_zero_of_le hge
    simp [hz, slice]

/-! ## The tasks of one iteration cut the source -/

theorem tiles_stripes (t : Sending) :
    Tiles 0 ((pyRange 0 t.source.length t.stripeBytes).map fun o => (o, min t.stripeBytes (t.source.length - o)))
      t.source.length :=
  tiles_pyRange t.stripeBytes_pos (Nat.zero_le _)

theorem range'_zero_eq_map (n step : Nat) : List.range' 0 n step = (List.range n).map (· * step) := by
  induction n with
  | zero => rfl
  | succ n ih => simp [List.range'_concat, List.range_succ, ih, Nat.mul_comm]

theorem taskLength_eq (t : Sending) (task : Nat) :
    t.taskLength task = min t.stripeBytes (t.source.length - t.taskOffset task) := by
  rw [taskLength, taskStop]
  omega

theorem sum_taskLength_one (t : Sending) :
    ((List.range t.stripeCount).map t.taskLength).sum = t.source.length := by
  have hsum := t.tiles_stripes.sum_lengths
  rw [pyRange, Nat.sub_zero, range'_zero_eq_map, List.map_map, List.map_map, Nat.zero_add] at hsum
  calc ((List.range t.stripeCount).map t.taskLength).sum
      = ((List.range t.stripeCount).map fun k => min t.stripeBytes (t.source.length - k * t.stripeBytes)).sum := by
        refine congrArg _ (List.map_congr_left fun k hk => ?_)
        rw [taskLength_eq, taskOffset, Nat.mod_eq_of_lt (List.mem_range.mp hk)]
    _ = t.source.length := hsum

/-- The stripes of all tasks add up to all iterations of the source. -/
theorem sum_taskLength (t : Sending) :
    ((List.range t.taskCount).map t.taskLength).sum = t.source.length * t.iterations := by
  have hall : ∀ j, ((List.range (t.stripeCount * j)).map t.taskLength).sum = t.source.length * j := by
    intro j
    induction j with
    | zero => simp
    | succ j ih =>
        have hturn : (List.range t.stripeCount).map (t.taskLength ∘ (t.stripeCount * j + ·)) =
            (List.range t.stripeCount).map t.taskLength := by
          refine List.map_congr_left fun k _ => ?_
          simp only [Function.comp_apply, taskLength_eq, taskOffset, Nat.mul_add_mod]
        rw [Nat.mul_succ, List.range_add, List.map_append, List.sum_append, ih, List.map_map, hturn,
          sum_taskLength_one, Nat.mul_succ]
  exact hall t.iterations

end Sending

namespace Dynamic

/-- What a connection of a process sender may still deliver when a header is next. -/
inductive Framed (t : Sending) (flow : Nat) : List UInt8 → Prop
  | nil : Framed t flow []
  | terminator {data : List UInt8} :
      (t.terminator flow).Fits → data <+: (t.terminator flow).pack → Framed t flow data
  | cut {task : Nat} {data : List UInt8} :
      (t.taskHeader flow task).Fits → data <+: t.frame flow task → Framed t flow data
  | stripe {task : Nat} {rest : List UInt8} :
      (t.taskHeader flow task).Fits → Framed t flow rest → Framed t flow (t.frame flow task ++ rest)

theorem Framed.take (h : Framed t flow data) (k : Nat) : Framed t flow (data.take k) := by
  induction h generalizing k with
  | nil => simpa using Framed.nil
  | terminator hf hp => exact .terminator hf ((List.take_prefix k _).trans hp)
  | cut hf hp => exact .cut hf ((List.take_prefix k _).trans hp)
  | @stripe task rest hf _ ih =>
      rw [List.take_append]
      rcases Nat.lt_or_ge k (t.frame flow task).length with hlt | hge
      · rw [Nat.sub_eq_zero_of_le hlt.le, List.take_zero, List.append_nil]
        exact .cut hf (List.take_prefix k _)
      · rw [List.take_of_length_le hge]
        exact .stripe hf (ih _)

/-- Stripes before it keep it of the same kind. -/
theorem Framed.append {tasks : List Nat} (h : Framed t flow data)
    (hf : ∀ task ∈ tasks, (t.taskHeader flow task).Fits) :
    Framed t flow ((tasks.map (t.frame flow)).flatten ++ data) := by
  induction tasks with
  | nil => exact h
  | cons task tasks ih =>
      rw [List.map_cons, List.flatten_cons, List.append_assoc]
      exact .stripe (hf task List.mem_cons_self) (ih fun x hx => hf x (List.mem_cons_of_mem _ hx))

/-- When a header has arrived, it is the terminator, or the header of a task with its stripe behind it. -/
theorem Framed.header (h : Framed t flow data) (hl : headerSize ≤ data.length) :
    Header.unpack (data.take headerSize) = t.terminator flow ∨
      ∃ task, Header.unpack (data.take headerSize) = t.taskHeader flow task ∧
        (data.drop headerSize <+: t.taskPayload task ∨
          ∃ rest, Framed t flow rest ∧ data.drop headerSize = t.taskPayload task ++ rest) := by
  have hcut : ∀ {h : Header} (tail : List UInt8), h.Formed → (h.pack ++ tail).take headerSize = h.pack ∧
      (h.pack ++ tail).drop headerSize = tail := fun tail hf => by
    have hlen := Header.length_pack hf
    exact ⟨by rw [← hlen]; exact List.take_left, by rw [← hlen]; exact List.drop_left⟩
  cases h with
  | nil => simp [headerSize] at hl
  | terminator hf hp =>
      left
      have hlen := Header.length_pack (Sending.terminator_formed hf)
      rw [hp.eq_of_length (Nat.le_antisymm hp.length_le (hlen ▸ hl)), ← hlen, List.take_length]
      exact Header.unpack_pack (Sending.terminator_formed hf)
  | @cut task _ hf hp =>
      right
      have hformed := Sending.taskHeader_formed hf
      obtain ⟨htake, hdrop⟩ := hcut (t.taskPayload task) hformed
      obtain ⟨tail, htail⟩ := hp
      rw [← Sending.frame, ← htail] at htake hdrop
      rw [List.take_append_of_le_length hl] at htake
      rw [List.drop_append_of_le_length hl] at hdrop
      exact ⟨task, by rw [htake, Header.unpack_pack hformed], .inl ⟨tail, hdrop⟩⟩
  | @stripe task rest hf hrest =>
      right
      have hformed := Sending.taskHeader_formed hf
      obtain ⟨htake, hdrop⟩ := hcut (t.taskPayload task ++ rest) hformed
      rw [Sending.frame, List.append_assoc]
      exact ⟨task, by rw [htake, Header.unpack_pack hformed], .inr ⟨rest, hrest, hdrop⟩⟩

end Dynamic

end Rdma4py.Transport
