import Mathlib.Data.List.Nodup
import Mathlib.Data.List.Perm.Subperm
import Mathlib.Data.List.Range
import Mathlib.Data.Nat.Find
import Mathlib.Data.Nat.ModEq
import Mathlib.Logic.Function.Iterate

/-!
# Handing out identifiers from a cycle

Identifiers are the numbers 1 to `m`. A counter runs around them, and a scan skips those that are busy. The scans
of one round share a start: as long as the identifiers handed out and the busy ones together are fewer than `m`, the
counter has not come back to its start, so no identifier is handed out twice.
-/

namespace Rdma4py.Lib.CyclicIds

/-- The identifier after `x` in the cycle 1, 2, …, `m`, 1, …. -/
def cyclicNext (m x : Nat) : Nat := if x = m then 1 else x + 1

/-- From `x` on, the first identifier that is not busy, and the counter after it. The scan makes at most as many
steps as its first argument says. -/
def scan (m : Nat) (busy : Nat → Prop) [DecidablePred busy] : Nat → Nat → Option Nat × Nat
  | 0, x => (none, x)
  | steps + 1, x => if busy x then scan m busy steps (cyclicNext m x) else (some x, cyclicNext m x)

variable {m : Nat}

theorem cyclicNext_range {x : Nat} (h : 1 ≤ x ∧ x ≤ m) : 1 ≤ cyclicNext m x ∧ cyclicNext m x ≤ m := by
  unfold cyclicNext; split <;> omega

theorem iterate_range {x : Nat} (h : 1 ≤ x ∧ x ≤ m) (k : Nat) :
    1 ≤ (cyclicNext m)^[k] x ∧ (cyclicNext m)^[k] x ≤ m := by
  induction k with
  | zero => exact h
  | succ k ih => rw [Function.iterate_succ_apply']; exact cyclicNext_range ih

theorem iterate_eq {x : Nat} (h : 1 ≤ x ∧ x ≤ m) (k : Nat) : (cyclicNext m)^[k] x = (x - 1 + k) % m + 1 := by
  induction k with
  | zero => rw [Function.iterate_zero_apply, Nat.add_zero, Nat.mod_eq_of_lt (by omega)]; omega
  | succ k ih =>
      have hlt : (x - 1 + k) % m < m := Nat.mod_lt _ (by omega)
      rw [Function.iterate_succ_apply', ih, cyclicNext, ← Nat.add_assoc, ← Nat.mod_add_mod (x - 1 + k) m 1]
      split
      · next he => rw [he, Nat.mod_self]
      · next he => rw [Nat.mod_eq_of_lt (show (x - 1 + k) % m + 1 < m by omega)]

/-- Fewer than `m` steps apart, the counter shows different identifiers. -/
theorem iterate_inj {x i j : Nat} (h : 1 ≤ x ∧ x ≤ m) (hi : i < m) (hj : j < m)
    (he : (cyclicNext m)^[i] x = (cyclicNext m)^[j] x) : i = j := by
  rw [iterate_eq h, iterate_eq h, Nat.add_right_cancel_iff] at he
  have hmod : i ≡ j [MOD m] := Nat.ModEq.add_left_cancel' (x - 1) he
  rwa [Nat.ModEq, Nat.mod_eq_of_lt hi, Nat.mod_eq_of_lt hj] at hmod

/-- The identifiers that the counter shows in its first `k` steps from `x`. -/
def walked (m x k : Nat) : List Nat := (List.range k).map fun i => (cyclicNext m)^[i] x

theorem walked_succ (x k : Nat) : walked m x (k + 1) = walked m x k ++ [(cyclicNext m)^[k] x] := by
  simp [walked, List.range_succ]

theorem walked_nodup {x k : Nat} (h : 1 ≤ x ∧ x ≤ m) (hk : k ≤ m) : (walked m x k).Nodup := by
  refine List.Nodup.map_on ?_ List.nodup_range
  intro i hi j hj
  rw [List.mem_range] at hi hj
  exact iterate_inj h (by omega) (by omega)

/-- A scan finds the first free identifier of the walk, when there is one within its steps. -/
theorem scan_eq {busy : Nat → Prop} [DecidablePred busy] {steps x i : Nat} (hi : i < steps)
    (hbusy : ∀ j < i, busy ((cyclicNext m)^[j] x)) (hfree : ¬ busy ((cyclicNext m)^[i] x)) :
    scan m busy steps x = (some ((cyclicNext m)^[i] x), (cyclicNext m)^[i + 1] x) := by
  induction steps generalizing x i with
  | zero => omega
  | succ steps ih =>
      cases i with
      | zero => simp only [Function.iterate_zero_apply] at hfree; simp [scan, hfree]
      | succ i =>
          have hx : busy x := hbusy 0 (by omega)
          have := ih (x := cyclicNext m x) (i := i) (by omega)
            (fun j hj => by simpa only [Function.iterate_succ_apply] using hbusy (j + 1) (by omega))
            (by simpa only [Function.iterate_succ_apply] using hfree)
          simpa only [scan, hx, if_true, Function.iterate_succ_apply] using this

/-- The state of a round of scans: from `start` the counter has walked to `cur`, at most once around the cycle; what
it passed was handed out (`taken`) or busy. -/
def Round (m : Nat) (busy : List Nat) (start : Nat) (taken : List Nat) (cur : Nat) : Prop :=
  ∃ k skipped, k ≤ m ∧ cur = (cyclicNext m)^[k] start ∧ skipped ⊆ busy ∧
    (walked m start k).Perm (taken ++ skipped)

variable {busy taken : List Nat} {start cur : Nat}

theorem Round.init (m : Nat) (busy : List Nat) (start : Nat) : Round m busy start [] start :=
  ⟨0, [], Nat.zero_le m, rfl, List.nil_subset _, .refl _⟩

theorem Round.perm {taken' : List Nat} (h : Round m busy start taken cur) (ht : taken.Perm taken') :
    Round m busy start taken' cur := by
  obtain ⟨k, skipped, hk, hc, hs, hp⟩ := h
  exact ⟨k, skipped, hk, hc, hs, hp.trans (ht.append_right _)⟩

theorem Round.cur_range (h : Round m busy start taken cur) (hs : 1 ≤ start ∧ start ≤ m) :
    1 ≤ cur ∧ cur ≤ m := by
  obtain ⟨k, _, _, rfl, _⟩ := h
  exact iterate_range hs k

theorem Round.taken_nodup (h : Round m busy start taken cur) (hs : 1 ≤ start ∧ start ≤ m) : taken.Nodup := by
  obtain ⟨k, skipped, hk, _, _, hp⟩ := h
  exact List.Nodup.of_append_left (hp.nodup_iff.mp (walked_nodup hs hk))

/-- What lies ahead on the first turn cannot all be busy, when busy and taken identifiers are fewer than `m`. -/
theorem Round.exists_free {k : Nat} {skipped : List Nat} (hs : 1 ≤ start ∧ start ≤ m) (hsk : skipped ⊆ busy)
    (hp : (walked m start k).Perm (taken ++ skipped)) (hroom : taken.length + busy.length < m) :
    ∃ i, k + i < m ∧ (cyclicNext m)^[k + i] start ∉ busy := by
  by_contra hno
  push Not at hno
  have hsub : walked m start m ⊆ taken ++ busy := by
    intro y hy
    simp only [walked, List.mem_map, List.mem_range] at hy
    obtain ⟨j, hj, rfl⟩ := hy
    rcases Nat.lt_or_ge j k with hjk | hjk
    · have hmem : (cyclicNext m)^[j] start ∈ walked m start k :=
        List.mem_map.mpr ⟨j, List.mem_range.mpr hjk, rfl⟩
      rcases List.mem_append.mp (hp.subset hmem) with ht | ht
      · exact List.mem_append_left _ ht
      · exact List.mem_append_right _ (hsk ht)
    · have := hno (j - k) (by omega)
      rw [Nat.add_sub_cancel' hjk] at this
      exact List.mem_append_right _ this
  have hlen := ((walked_nodup hs (Nat.le_refl m)).subperm hsub).length_le
  simp only [walked, List.length_map, List.length_range, List.length_append] at hlen
  omega

/-- While there is room, a scan succeeds with an identifier that is neither busy nor handed out in this round. -/
theorem Round.scan {isBusy : Nat → Prop} [DecidablePred isBusy] (hb : ∀ x, isBusy x ↔ x ∈ busy)
    (h : Round m busy start taken cur) (hs : 1 ≤ start ∧ start ≤ m)
    (hroom : taken.length + busy.length < m) :
    ∃ x next, scan m isBusy m cur = (some x, next) ∧ Round m busy start (taken ++ [x]) next ∧
      x ∉ busy ∧ 1 ≤ x ∧ x ≤ m := by
  obtain ⟨k, skipped, hk, rfl, hsk, hp⟩ := h
  have hex := Round.exists_free hs hsk hp hroom
  classical
  -- The scan stops at the least free position ahead.
  obtain ⟨hlt, hfree⟩ := Nat.find_spec hex
  have hleast : ∀ j < Nat.find hex, (cyclicNext m)^[k + j] start ∈ busy := by
    intro j hj
    by_contra hn
    exact Nat.find_min hex hj ⟨by omega, hn⟩
  generalize Nat.find hex = i at hlt hfree hleast
  have hit : ∀ j, (cyclicNext m)^[j] ((cyclicNext m)^[k] start) = (cyclicNext m)^[k + j] start := by
    intro j; rw [Nat.add_comm, Function.iterate_add_apply]
  have hrun : ∀ j ≤ i, ∃ more, more ⊆ busy ∧
      (walked m start (k + j)).Perm (taken ++ (skipped ++ more)) := by
    intro j hj
    induction j with
    | zero => exact ⟨[], List.nil_subset _, by simpa using hp⟩
    | succ j ih =>
        obtain ⟨more, hm, hpm⟩ := ih (by omega)
        refine ⟨more ++ [(cyclicNext m)^[k + j] start], ?_, ?_⟩
        · exact List.append_subset.mpr ⟨hm, List.cons_subset.mpr ⟨hleast j (by omega), List.nil_subset _⟩⟩
        · rw [← Nat.add_assoc, walked_succ, ← List.append_assoc, ← List.append_assoc]
          exact (by simpa using hpm : (walked m start (k + j)).Perm (taken ++ skipped ++ more)).append_right _
  obtain ⟨more, hm, hpm⟩ := hrun i (Nat.le_refl i)
  refine ⟨(cyclicNext m)^[k + i] start, (cyclicNext m)^[k + i + 1] start, ?_, ?_, hfree, ?_⟩
  · rw [scan_eq (i := i) (by omega) (fun j hj => (hb _).mpr (by rw [hit]; exact hleast j hj))
      (fun hn => hfree (by rw [← hit]; exact (hb _).mp hn)), hit, hit, Nat.add_assoc]
  · refine ⟨k + i + 1, skipped ++ more, by omega, rfl, List.append_subset.mpr ⟨hsk, hm⟩, ?_⟩
    rw [walked_succ, List.append_assoc, List.singleton_append]
    exact (List.perm_append_singleton _ _).trans ((hpm.cons _).trans List.perm_middle.symm)
  · exact iterate_range hs _

end Rdma4py.Lib.CyclicIds
