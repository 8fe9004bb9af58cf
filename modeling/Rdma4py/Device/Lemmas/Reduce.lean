import Mathlib.Data.List.Perm.Subperm
import Mathlib.Logic.Function.Iterate
import Mathlib.Tactic.Common
import Rdma4py.Device.Reduce

/-!
# Every element once

Without a wraparound, thread `t` visits the indices that leave the remainder `t`: an access to an element is in the log when
the thread of its remainder has passed it.
-/

namespace Rdma4py.Device

open Lib

/-! ## Residues -/

/-- Two numbers with one remainder are at least a stride apart. -/
theorem lt_add_stride_iff {i j stride : Nat} (hs : 0 < stride) (h : j % stride = i % stride) :
    j < i + stride ↔ j ≤ i := by
  constructor
  · intro hlt
    by_contra hle
    have hzero := Nat.sub_mod_eq_zero_of_mod_eq h
    rw [Nat.mod_eq_of_lt (by omega)] at hzero
    omega
  · intro hle
    omega

namespace Reduction

variable {α : Type} {r : Reduction} {sum : α → α → α} {scratch : Nat → α} {work : Nat → α} {b b' : Block α} {t : Nat}

/-! ## Threads -/

/-- The next access of a thread. -/
def access (th : Thread α) : Access :=
  match th.phase with
  | .head => .readWork th.index
  | .hasLocal _ => .readScratch th.index
  | .hasRemote _ _ => .writeWork th.index

/-- The thread has passed the access. -/
def Passed (th : Thread α) : Access → Prop
  | .readWork i => match th.phase with
      | .head => i < th.index
      | .hasLocal _ | .hasRemote _ _ => i ≤ th.index
  | .readScratch i => match th.phase with
      | .head | .hasLocal _ => i < th.index
      | .hasRemote _ _ => i ≤ th.index
  | .writeWork i => i < th.index

theorem access_element (th : Thread α) : (access th).element = th.index := by
  cases h : th.phase <;> simp [access, h, Access.element]

theorem not_passed_access (th : Thread α) : ¬ Passed th (access th) := by
  cases h : th.phase <;> simp [access, Passed, h]

theorem advance_log (r : Reduction) (sum : α → α → α) (scratch : Nat → α) (b : Block α) (t : Nat) :
    (r.advance sum scratch b t).log = access (b.threads t) :: b.log := by
  cases h : (b.threads t).phase <;> simp [advance, access, h]

theorem advance_threads_of_ne {t' : Nat} (h : t' ≠ t) :
    (r.advance sum scratch b t).threads t' = b.threads t' := by
  cases hp : (b.threads t).phase <;> simp [advance, hp, Function.update_of_ne h]

/-- An access is the only one that a thread passes. -/
theorem passed_advance (hnext : (b.threads t).index + r.stride < 2 ^ 32) {a : Access}
    (ha : a.element % r.stride = (b.threads t).index % r.stride) :
    Passed ((r.advance sum scratch b t).threads t) a ↔ a = access (b.threads t) ∨ Passed (b.threads t) a := by
  have hn : r.next (b.threads t).index = (b.threads t).index + r.stride := Nat.mod_eq_of_lt hnext
  cases hp : (b.threads t).phase with
  | head =>
      cases a with
      | readWork i => simp [advance, access, Passed, hp, Nat.le_iff_lt_or_eq, or_comm]
      | readScratch i => simp [advance, access, Passed, hp]
      | writeWork i => simp [advance, access, Passed, hp]
  | hasLocal x =>
      cases a with
      | readWork i => simp [advance, access, Passed, hp]
      | readScratch i => simp [advance, access, Passed, hp, Nat.le_iff_lt_or_eq, or_comm]
      | writeWork i => simp [advance, access, Passed, hp]
  | hasRemote x y =>
      have hlt := lt_add_stride_iff r.stride_pos ha
      cases a with
      | readWork i =>
          simp only [Access.element] at hlt
          simp [advance, access, Passed, hp, hn, hlt]
      | readScratch i =>
          simp only [Access.element] at hlt
          simp [advance, access, Passed, hp, hn, hlt]
      | writeWork i =>
          simp only [Access.element] at hlt
          simp [advance, access, Passed, hp, hn, hlt, Nat.le_iff_lt_or_eq, or_comm]

/-! ## The invariant -/

/-- What a thread holds in its registers. -/
def Holds (work scratch : Nat → α) (th : Thread α) : Prop :=
  match th.phase with
  | .head => True
  | .hasLocal x => x = work th.index
  | .hasRemote x y => x = work th.index ∧ y = scratch th.index

/-- Thread `t` keeps to its remainder, the log has what the threads passed, and the elements that are written are sums. -/
structure Inv (r : Reduction) (sum : α → α → α) (scratch work : Nat → α) (b : Block α) : Prop where
  remainder : ∀ t < r.stride, (b.threads t).index % r.stride = t
  inside : ∀ t < r.stride, (b.threads t).phase ≠ .head → (b.threads t).index < r.count
  holds : ∀ t < r.stride, Holds work scratch (b.threads t)
  logged : ∀ a, a ∈ b.log ↔ a.element < r.count ∧ Passed (b.threads (a.element % r.stride)) a
  once : b.log.Nodup
  result : ∀ i, b.work i = if Access.writeWork i ∈ b.log then sum (work i) (scratch i) else work i

/-- No index overflows. -/
def NoWrap (r : Reduction) : Prop := ∀ i < r.count, i + r.stride < 2 ^ 32

theorem start_inv (r : Reduction) (sum : α → α → α) (scratch work : Nat → α) :
    Inv r sum scratch work (start work) where
  remainder t ht := Nat.mod_eq_of_lt ht
  inside t _ h := absurd rfl h
  holds _ _ := trivial
  logged a := by
    have hle : ¬ a.element < a.element % r.stride := Nat.not_lt.mpr (Nat.mod_le _ _)
    cases a <;> simp_all [start, Passed, Access.element]
  once := List.nodup_nil
  result i := by simp [start]

theorem Inv.index_lt (h : Inv r sum scratch work b) (ht : t < r.stride) (hrun : r.Running (b.threads t)) :
    (b.threads t).index < r.count := by
  cases hp : (b.threads t).phase with
  | head => simpa [Running, hp] using hrun
  | hasLocal x => exact h.inside t ht (by simp [hp])
  | hasRemote x y => exact h.inside t ht (by simp [hp])

theorem Inv.access_not_mem (h : Inv r sum scratch work b) (ht : t < r.stride) : access (b.threads t) ∉ b.log := by
  intro hmem
  have hpassed := ((h.logged _).mp hmem).2
  rw [access_element, h.remainder t ht] at hpassed
  exact not_passed_access _ hpassed

theorem Inv.advance (hw : r.NoWrap) (h : Inv r sum scratch work b) (ht : t < r.stride)
    (hrun : r.Running (b.threads t)) : Inv r sum scratch work (r.advance sum scratch b t) := by
  have hidx := h.index_lt ht hrun
  have hnew := h.access_not_mem ht
  have hn : r.next (b.threads t).index = (b.threads t).index + r.stride := Nat.mod_eq_of_lt (hw _ hidx)
  refine ⟨fun t' ht' => ?_, fun t' ht' hphase => ?_, fun t' ht' => ?_, fun a => ?_, ?_, fun i => ?_⟩
  · by_cases htt : t' = t
    · subst htt
      have hrem := h.remainder t' ht
      cases hp : (b.threads t').phase with
      | head => simpa [Reduction.advance, hp] using hrem
      | hasLocal x => simpa [Reduction.advance, hp] using hrem
      | hasRemote x y => simpa [Reduction.advance, hp, hn] using hrem
    · rw [advance_threads_of_ne htt]
      exact h.remainder t' ht'
  · by_cases htt : t' = t
    · subst htt
      cases hp : (b.threads t').phase with
      | head => simpa [Reduction.advance, hp] using hidx
      | hasLocal x => simpa [Reduction.advance, hp] using hidx
      | hasRemote x y => simp [Reduction.advance, hp] at hphase
    · rw [advance_threads_of_ne htt] at hphase ⊢
      exact h.inside t' ht' hphase
  · by_cases htt : t' = t
    · subst htt
      have hold := h.holds t' ht
      cases hp : (b.threads t').phase with
      | head =>
          -- the element is not written yet: the register has its old value
          have hwrite : Access.writeWork (b.threads t').index ∉ b.log := by
            intro hmem
            have hpassed := ((h.logged _).mp hmem).2
            simp only [Access.element, h.remainder t' ht, Passed] at hpassed
            exact Nat.lt_irrefl _ hpassed
          have hval := h.result (b.threads t').index
          rw [if_neg hwrite] at hval
          simpa [Reduction.advance, hp, Holds] using hval
      | hasLocal x =>
          simp only [Holds, hp] at hold
          simp [Reduction.advance, hp, Holds, hold]
      | hasRemote x y => simp [Reduction.advance, hp, Holds]
    · rw [advance_threads_of_ne htt]
      exact h.holds t' ht'
  · rw [advance_log, List.mem_cons, h.logged a]
    by_cases ha : a.element % r.stride = t
    · rw [ha, passed_advance (hw _ hidx) (by rw [ha, h.remainder t ht])]
      have helement : a = access (b.threads t) → a.element < r.count := by
        rintro rfl
        rw [access_element]
        exact hidx
      tauto
    · rw [advance_threads_of_ne ha]
      have hne : a ≠ access (b.threads t) := by
        rintro rfl
        rw [access_element, h.remainder t ht] at ha
        exact ha rfl
      tauto
  · rw [advance_log]
    exact List.nodup_cons.mpr ⟨hnew, h.once⟩
  · rw [advance_log]
    have hval := h.result i
    cases hp : (b.threads t).phase with
    | head => simpa [Reduction.advance, access, hp] using hval
    | hasLocal x => simpa [Reduction.advance, access, hp] using hval
    | hasRemote x y =>
        have hold := h.holds t ht
        simp only [Holds, hp] at hold
        obtain ⟨rfl, rfl⟩ := hold
        by_cases hi : i = (b.threads t).index
        · subst hi
          simp [Reduction.advance, access, hp]
        · simpa [Reduction.advance, access, hp, hi, Function.update_of_ne hi] using hval

theorem reaches_inv (hw : r.NoWrap) (h : (r.block sum scratch).Reaches (start work) b) :
    Inv r sum scratch work b :=
  h.invariant (fun _ _ hi he => hi.advance hw he.1 he.2) (start_inv r sum scratch work)

/-! ## Ends of runs -/

theorem play_log_length (b : Block α) (ts : List Nat) :
    ((r.block sum scratch).play b ts).log.length = b.log.length + ts.length := by
  induction ts generalizing b with
  | nil => rfl
  | cons t ts ih =>
      have hcons : (r.block sum scratch).play b (t :: ts) = (r.block sum scratch).play (r.advance sum scratch b t) ts := rfl
      rw [hcons, ih, advance_log, List.length_cons, List.length_cons]
      omega

/-- Every access is one of three for each element. -/
theorem Inv.log_length (h : Inv r sum scratch work b) : b.log.length ≤ 3 * r.count := by
  have hsub : b.log ⊆ (List.range r.count).map .readWork ++ ((List.range r.count).map .readScratch ++
      (List.range r.count).map .writeWork) := by
    intro a ha
    have hlt := ((h.logged a).mp ha).1
    cases a <;> simpa [Access.element] using hlt
  have hlen := (h.once.subperm hsub).length_le
  simp only [List.length_append, List.length_map, List.length_range] at hlen
  omega

theorem bounded (hw : r.NoWrap) (sum : α → α → α) (scratch work : Nat → α) :
    (r.block sum scratch).Bounded (start work) := by
  refine ⟨3 * r.count, fun ts hts => ?_⟩
  have hlen := (reaches_inv hw hts.reaches).log_length
  rw [play_log_length] at hlen
  simpa [start] using hlen

theorem Inv.finished (h : Inv r sum scratch work b) (hf : r.Finished b) {i : Nat} (hi : i < r.count) :
    .writeWork i ∈ b.log := by
  have ht : i % r.stride < r.stride := Nat.mod_lt _ r.stride_pos
  have hstop := hf _ ht
  refine (h.logged _).mpr ⟨hi, ?_⟩
  cases hp : (b.threads (i % r.stride)).phase with
  | head =>
      simp only [Running, hp, Nat.not_lt] at hstop
      exact Nat.lt_of_lt_of_le hi hstop
  | hasLocal x => simp [Running, hp] at hstop
  | hasRemote x y => simp [Running, hp] at hstop

/-! ## A wraparound -/

theorem log_count_advance (b : Block α) (t : Nat) (a : Access) :
    b.log.count a ≤ (r.advance sum scratch b t).log.count a := by
  rw [advance_log]
  exact (List.sublist_cons_self _ _).count_le a

theorem log_count_reaches (h : (r.block sum scratch).Reaches b b') (a : Access) : b.log.count a ≤ b'.log.count a :=
  h.invariant (I := fun b' => b.log.count a ≤ b'.log.count a)
    (fun b' t hle _ => Nat.le_trans hle (log_count_advance b' t a)) (Nat.le_refl _)

/-- A thread runs through one iteration. -/
theorem iteration (sum : α → α → α) (scratch : Nat → α) (ht : t < r.stride) {i : Nat}
    (hb : b.threads t = ⟨i, .head⟩) (hi : i < r.count) :
    ∃ b', (r.block sum scratch).Reaches b b' ∧ b'.threads t = ⟨r.next i, .head⟩ ∧
      (∀ t' ≠ t, b'.threads t' = b.threads t') ∧ b.log.count (.writeWork i) < b'.log.count (.writeWork i) := by
  have hplays : (r.block sum scratch).Plays b [t, t, t] := by
    refine ⟨⟨ht, ?_⟩, ⟨ht, ?_⟩, ⟨ht, ?_⟩, trivial⟩
    · simpa [Running, hb] using hi
    · simp [block, Running, advance, hb]
    · simp [block, Running, advance, hb]
  refine ⟨_, hplays.reaches, ?_, fun t' ht' => ?_, ?_⟩
  · simp [Machine.play, block, advance, hb]
  · have hsame : ∀ b : Block α, ((r.block sum scratch).next b t).threads t' = b.threads t' := fun _ =>
      advance_threads_of_ne ht'
    simp only [Machine.play, List.foldl_cons, List.foldl_nil, hsame]
  · simp [Machine.play, block, advance, hb]

/-- A thread runs through several iterations. -/
theorem iterations (sum : α → α → α) (scratch : Nat → α) (ht : t < r.stride) (n : Nat) {i : Nat} (hb : b.threads t = ⟨i, .head⟩)
    (hi : ∀ k < n, r.next^[k] i < r.count) :
    ∃ b', (r.block sum scratch).Reaches b b' ∧ b'.threads t = ⟨r.next^[n] i, .head⟩ ∧
      ∀ t' ≠ t, b'.threads t' = b.threads t' := by
  induction n with
  | zero => exact ⟨b, .refl _, hb, fun _ _ => rfl⟩
  | succ n ih =>
      obtain ⟨b', hreach, hb', hsame⟩ := ih fun k hk => hi k (Nat.lt_succ_of_lt hk)
      obtain ⟨b'', hreach', hb'', hsame', -⟩ :=
        iteration sum scratch ht hb' (hi n (Nat.lt_succ_self n))
      refine ⟨b'', hreach.trans hreach', ?_, fun t' ht' => (hsame' t' ht').trans (hsame t' ht')⟩
      rw [hb'', Function.iterate_succ_apply']

theorem iterate_next {t k : Nat} (h : t + k * r.stride < 2 ^ 32) : r.next^[k] t = t + k * r.stride := by
  induction k with
  | zero => simp
  | succ k ih =>
      have hk : t + k * r.stride < 2 ^ 32 := by
        rw [Nat.succ_mul] at h
        omega
      rw [Function.iterate_succ_apply', ih hk, next, Nat.succ_mul, ← Nat.add_assoc]
      exact Nat.mod_eq_of_lt (by rw [Nat.succ_mul] at h; omega)

/-- When an index overflows, an element is written twice. -/
theorem written_twice (sum : α → α → α) (scratch work : Nat → α) {i : Nat} (hi : i < r.count)
    (hwrap : 2 ^ 32 ≤ i + r.stride) :
    ∃ e < r.count, ∃ b, (r.block sum scratch).Reaches (start work) b ∧ 2 ≤ b.log.count (.writeWork e) := by
  have hstride := r.stride_lt
  have hcount := r.count_lt
  -- the thread of `i` goes on with the element `e`, which another iteration writes, too
  obtain ⟨e, he⟩ : ∃ e, i + r.stride = e + 2 ^ 32 := ⟨i + r.stride - 2 ^ 32, by omega⟩
  have hei : e < i := by omega
  have hidiv : i % r.stride + i / r.stride * r.stride = i := by
    rw [Nat.mul_comm]
    exact Nat.mod_add_div i r.stride
  have hediv : e % r.stride + e / r.stride * r.stride = e := by
    rw [Nat.mul_comm]
    exact Nat.mod_add_div e r.stride
  have hit : i % r.stride < r.stride := Nat.mod_lt _ r.stride_pos
  have het : e % r.stride < r.stride := Nat.mod_lt _ r.stride_pos
  have hle : ∀ k ≤ i / r.stride, r.next^[k] (i % r.stride) = i % r.stride + k * r.stride ∧
      i % r.stride + k * r.stride ≤ i := by
    intro k hk
    have hmul : k * r.stride ≤ i / r.stride * r.stride := Nat.mul_le_mul_right _ hk
    exact ⟨iterate_next (by omega), by omega⟩
  have hover : r.next^[i / r.stride + 1] (i % r.stride) = e := by
    rw [Function.iterate_succ_apply', (hle _ (Nat.le_refl _)).1, hidiv, next, he]
    omega
  have hinside : ∀ k < i / r.stride + 1, r.next^[k] (i % r.stride) < r.count := by
    intro k hk
    obtain ⟨heq, hki⟩ := hle k (Nat.le_of_lt_succ hk)
    omega
  refine ⟨e, by omega, ?_⟩
  by_cases hsame : e % r.stride = i % r.stride
  · -- the same thread comes back to `e`
    have hedivle : e / r.stride ≤ i / r.stride := Nat.div_le_div_right (Nat.le_of_lt hei)
    have hek : r.next^[e / r.stride] (i % r.stride) = e := by
      rw [(hle _ hedivle).1, ← hsame, hediv]
    obtain ⟨b₁, hr₁, hb₁, -⟩ := iterations sum scratch (b := start work) hit (e / r.stride) rfl
      fun k hk => hinside k (by omega)
    rw [hek] at hb₁
    obtain ⟨b₂, hr₂, hb₂, -, hc₂⟩ := iteration sum scratch hit hb₁ (by omega)
    have hback : ∀ k, r.next^[k] (r.next e) = r.next^[k + (e / r.stride + 1)] (i % r.stride) := by
      intro k
      rw [Function.iterate_add_apply, Function.iterate_succ_apply', hek]
    obtain ⟨b₃, hr₃, hb₃, -⟩ := iterations sum scratch hit (i / r.stride - e / r.stride) hb₂
      fun k hk => by
        rw [hback]
        exact hinside _ (by omega)
    rw [hback, show i / r.stride - e / r.stride + (e / r.stride + 1) = i / r.stride + 1 by omega, hover] at hb₃
    obtain ⟨b₄, hr₄, -, -, hc₄⟩ := iteration sum scratch hit hb₃ (by omega)
    have hmono := log_count_reaches hr₃ (.writeWork e)
    exact ⟨b₄, ((hr₁.trans hr₂).trans hr₃).trans hr₄, by omega⟩
  · -- the thread of `e` writes it, too
    obtain ⟨b₁, hr₁, hb₁, hs₁⟩ := iterations sum scratch (b := start work) hit
      (i / r.stride + 1) rfl hinside
    rw [hover] at hb₁
    obtain ⟨b₂, hr₂, -, hs₂, hc₂⟩ := iteration sum scratch hit hb₁ (by omega)
    have hother : b₂.threads (e % r.stride) = ⟨e % r.stride, .head⟩ := by
      rw [hs₂ _ hsame, hs₁ _ hsame]
      rfl
    obtain ⟨b₃, hr₃, hb₃, -⟩ := iterations sum scratch het (e / r.stride) hother fun k hk => by
      have hmul : k * r.stride ≤ e / r.stride * r.stride := Nat.mul_le_mul_right _ (Nat.le_of_lt hk)
      rw [iterate_next (by omega)]
      omega
    rw [iterate_next (by omega), hediv] at hb₃
    obtain ⟨b₄, hr₄, -, -, hc₄⟩ := iteration sum scratch het hb₃ (by omega)
    have hmono := log_count_reaches hr₃ (.writeWork e)
    exact ⟨b₄, ((hr₁.trans hr₂).trans hr₃).trans hr₄, by omega⟩

end Reduction

end Rdma4py.Device
