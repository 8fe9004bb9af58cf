import Mathlib.Data.List.Nodup
import Rdma4py.Device.Lemmas.Post
import Rdma4py.Device.Lemmas.Reduce

/-!
# The device code: results

What a transfer posts, and when the threads of a block reduce every element once.
-/

namespace Rdma4py.Device

open Lib

/-! ## Posting -/

/-- **Posting.** A transfer posts what it reserves: in order, one entry for each piece and the dump behind them. -/
theorem transfer_posts_exactly {max length : Nat} (hmax : 0 < max) (hmax32 : max < 2 ^ 32) (hpos : 0 < length)
    (hlen : length + max ≤ 2 ^ 64) (base : Nat) (remote local' dump : Addr) (immediate : Nat) :
    (∀ v : Variant, ¬ (v.withMcst = true ∧ max = 1 ∧ length = 2 ^ 64 - 1) →
      ∃ ps data, PostsExactly max base length (RdmaEntry v remote local' immediate)
        (if v.withMcst then [.dump dump.addr dump.key 1] else [])
        (postRdma v max base remote local' length dump immediate) ps data) ∧
    ∃ ps data, PostsExactly max base length (SendEntry local') [] (postSend max base local' length) ps data := by
  refine ⟨fun v hv => ⟨_, _, postRdma_posts v hmax hmax32 hpos hlen (fun hm => ?_) base remote local' dump immediate⟩,
    _, _, postSend_posts hmax hmax32 hpos hlen base local'⟩
  rw [chunkCount_eq hlen]
  by_cases hone : max = 1
  · subst hone
    have hlength : length ≠ 2 ^ 64 - 1 := fun h => hv ⟨hm, rfl, h⟩
    rw [Nat.div_one]
    omega
  · have hdiv : (length + max - 1) / max ≤ (length + max - 1) / 2 := Nat.div_le_div_left (by omega) (by decide)
    omega

/-- A read of 5 bytes in pieces of at most 2, with a dump. -/
theorem transfer_posts_exactly_read :
    (∃ ps data, PostsExactly 2 6 5 (RdmaEntry ⟨true, true, false⟩ ⟨100, 7⟩ ⟨200, 8⟩ 0) [.dump 300 9 1]
      (postRdma ⟨true, true, false⟩ 2 6 ⟨100, 7⟩ ⟨200, 8⟩ 5 ⟨300, 9⟩ 0) ps data) ∧
    ∃ ps data, PostsExactly 2 6 5 (SendEntry ⟨200, 8⟩) [] (postSend 2 6 ⟨200, 8⟩ 5) ps data := by
  have hmax : 0 < 2 := by decide
  have hmax32 : 2 < 2 ^ 32 := by decide
  have hpos : 0 < 5 := by decide
  have hlen : 5 + 2 ≤ 2 ^ 64 := by decide
  obtain ⟨hrdma, hsend⟩ := transfer_posts_exactly hmax hmax32 hpos hlen 6 ⟨100, 7⟩ ⟨200, 8⟩ ⟨300, 9⟩ 0
  exact ⟨hrdma ⟨true, true, false⟩ (by decide), hsend⟩

example : (postRdma ⟨true, true, false⟩ 2 6 ⟨100, 7⟩ ⟨200, 8⟩ 5 ⟨300, 9⟩ 0).ops =
    [.reserve 4, .prepare 6 (.read 100 7 200 8 2), .prepare 7 (.read 102 7 202 8 2), .prepare 8 (.read 104 7 204 8 1),
     .prepare 9 (.dump 300 9 1), .markReady 6 9, .submit 10] := by decide

/-- With entries of one byte, the longest read and its dump reserve no slot at all. -/
theorem transfer_slots_overflow :
    ¬ ∀ (v : Variant) (max length : Nat), 0 < max → max < 2 ^ 32 → 0 < length → length + max ≤ 2 ^ 64 →
      ∃ ps data, PostsExactly max 0 length (RdmaEntry v ⟨0, 0⟩ ⟨0, 0⟩ 0) (if v.withMcst then [.dump 0 0 1] else [])
        (postRdma v max 0 ⟨0, 0⟩ ⟨0, 0⟩ length ⟨0, 0⟩ 0) ps data := by
  intro h
  obtain ⟨ps, data, hps⟩ := h ⟨true, true, false⟩ 1 (2 ^ 64 - 1) (by decide) (by decide) (by decide) (by decide)
  have hreserve := congrArg List.head? hps.ops
  have hcount : chunkCount 1 (2 ^ 64 - 1) = 2 ^ 64 - 1 := by decide
  simp only [postRdma, if_true, hcount, postOps, List.head?_cons, Option.some.injEq, Op.reserve.injEq,
    List.length_append, List.length_singleton] at hreserve
  have hzero : u64 (2 ^ 64 - 1 + 1) = 0 := by decide
  omega

/-! ## The reduction -/

namespace Reduction

/-- All calls end; together they write every element before `count` once, with the sum of its values, and access no other. -/
structure Reduces {α : Type} (r : Reduction) (sum : α → α → α) (scratch work : Nat → α) : Prop where
  ends : (r.block sum scratch).Bounded (start work)
  inside : ∀ b, (r.block sum scratch).Reaches (start work) b → ∀ a ∈ b.log, a.element < r.count
  once : ∀ b, (r.block sum scratch).Reaches (start work) b → r.Finished b →
    ∀ i < r.count, b.log.count (.writeWork i) = 1
  result : ∀ b, (r.block sum scratch).Reaches (start work) b → r.Finished b →
    ∀ i, b.work i = if i < r.count then sum (work i) (scratch i) else work i

/-- **Strided reduction.** In every order of the accesses: the calls of a block reduce every element once, unless the index
of a thread overflows. -/
theorem strided_reduction_iff {α : Type} (r : Reduction) (sum : α → α → α) (scratch work : Nat → α) :
    r.Reduces sum scratch work ↔ r.count = 0 ∨ r.count + r.stride ≤ 2 ^ 32 := by
  constructor
  · intro h
    by_contra hno
    push Not at hno
    obtain ⟨hcount, hover⟩ := hno
    obtain ⟨e, he, b, hb, htwice⟩ := written_twice (r := r) sum scratch work (i := r.count - 1) (by omega) (by omega)
    obtain ⟨u, hu, hfinal⟩ := h.ends.exists_final hb
    have hone := h.once u (hb.trans hu) (fun t ht hrun => hfinal t ⟨ht, hrun⟩) e he
    have hmono := log_count_reaches hu (.writeWork e)
    omega
  · intro h
    have hw : r.NoWrap := by
      intro i hi
      omega
    refine ⟨bounded hw sum scratch work, fun b hb a ha => ?_, fun b hb hf i hi => ?_, fun b hb hf i => ?_⟩
    · exact (((reaches_inv hw hb).logged a).mp ha).1
    · have hinv := reaches_inv hw hb
      exact List.count_eq_one_of_mem hinv.once (hinv.finished hf hi)
    · have hinv := reaches_inv hw hb
      rw [hinv.result i]
      by_cases hi : i < r.count
      · rw [if_pos (hinv.finished hf hi), if_pos hi]
      · rw [if_neg hi, if_neg]
        intro hmem
        exact hi ((hinv.logged (.writeWork i)).mp hmem).1

/-- The largest count, by 512 threads. -/
def largest : Reduction := ⟨2 ^ 32 - 1, 512, by decide, by decide, by decide⟩

/-- The thread 510 comes to the element `2 ^ 32 - 2`, and its next index is 510 again. -/
theorem strided_reduction_overflow : ¬ largest.Reduces (· + ·) (fun _ => (1 : Nat)) (fun _ => 0) := by
  intro h
  obtain ⟨e, he, b, hb, htwice⟩ := written_twice (r := largest) (· + ·) (fun _ => (1 : Nat)) (fun _ => 0)
    (i := 2 ^ 32 - 2) (by decide) (by decide)
  obtain ⟨u, hu, hfinal⟩ := h.ends.exists_final hb
  have hone := h.once u (hb.trans hu) (fun t ht hrun => hfinal t ⟨ht, hrun⟩) e he
  have hmono := log_count_reaches hu (.writeWork e)
  omega

end Reduction

end Rdma4py.Device
