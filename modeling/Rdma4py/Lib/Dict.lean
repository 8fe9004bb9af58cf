import Mathlib.Data.List.AList
import Mathlib.Data.List.Induction
import Mathlib.Data.List.Perm.Basic
import Rdma4py.Lib.Buckets

/-!
# Dictionaries

A dictionary is an association list without repeated keys (`AList`), so that distinct keys need no proof. This file
counts its entries: what an insertion under a fresh key adds, and what a removal takes away.
-/

namespace Rdma4py.Lib

/-- A dictionary from `κ` to `ν`. -/
abbrev Dict (κ ν : Type*) := AList (fun _ : κ => ν)

namespace Dict

variable {κ ν : Type*}

/-- The keys whose values meet `p`, in the order of the entries. -/
def keysWhere (p : ν → Bool) (d : Dict κ ν) : List κ := (d.entries.filter fun e => p e.2).map Sigma.fst

/-- The values, in the order of the entries. -/
def values (d : Dict κ ν) : List ν := d.entries.map Sigma.snd

/-- Whether there is no entry. -/
def isEmpty (d : Dict κ ν) : Bool := d.entries.isEmpty

theorem isEmpty_iff {d : Dict κ ν} : d.isEmpty = true ↔ d = ∅ := by
  rw [isEmpty, List.isEmpty_iff]
  exact ⟨fun h => AList.ext h, fun h => by rw [h]; rfl⟩

/-- The keys sorted into buckets by their values. -/
theorem flat_keysWhere_perm {f : ν → Nat} {n : Nat} {d : Dict κ ν} (h : ∀ v ∈ d.values, f v < n) :
    (flat n fun q => d.keysWhere fun v => f v = q).Perm d.keys := by
  have hb : ∀ e ∈ d.entries, f e.2 < n := fun e he => h e.2 (List.mem_map_of_mem he)
  have := (flat_filter_perm hb).map Sigma.fst
  rwa [map_flat] at this

variable [DecidableEq κ]

/-- `d.update(items)`: a later item replaces an earlier one under the same key. -/
def update (d : Dict κ ν) (items : List (κ × ν)) : Dict κ ν := items.foldl (fun d kv => d.insert kv.1 kv.2) d

theorem update_append (d : Dict κ ν) (items items' : List (κ × ν)) :
    d.update (items ++ items') = update (d.update items) items' := List.foldl_append ..

theorem mem_update {d : Dict κ ν} {items : List (κ × ν)} {k : κ} :
    k ∈ d.update items ↔ k ∈ items.map Prod.fst ∨ k ∈ d := by
  induction items generalizing d with
  | nil => simp [update]
  | cons kv items ih =>
      have := ih (d := d.insert kv.1 kv.2)
      simp only [update, List.foldl_cons, List.map_cons, List.mem_cons, AList.mem_insert] at this ⊢
      rw [this]
      tauto

/-- An updated key has the value of one of its items. -/
theorem lookup_update {d : Dict κ ν} {items : List (κ × ν)} {k : κ} (h : k ∈ items.map Prod.fst) :
    ∃ v, (k, v) ∈ items ∧ AList.lookup k (d.update items) = some v := by
  induction items using List.reverseRecOn with
  | nil => simp at h
  | append_singleton items kv ih =>
      rw [update_append]
      by_cases hk : k = kv.1
      · subst hk
        exact ⟨kv.2, by simp, AList.lookup_insert _⟩
      · have hmem : k ∈ items.map Prod.fst := by
          simpa [hk] using h
        obtain ⟨v, hv, hl⟩ := ih hmem
        exact ⟨v, by simp [hv], (AList.lookup_insert_ne hk).trans hl⟩

theorem lookup_update_of_notMem {d : Dict κ ν} {items : List (κ × ν)} {k : κ} (h : k ∉ items.map Prod.fst) :
    AList.lookup k (d.update items) = d.lookup k := by
  induction items generalizing d with
  | nil => rfl
  | cons kv items ih =>
      simp only [List.map_cons, List.mem_cons, not_or] at h
      exact (ih h.2).trans (AList.lookup_insert_ne h.1)

/-! ## Removal -/

theorem entries_perm_of_lookup {d : Dict κ ν} {k : κ} {v : ν} (h : d.lookup k = some v) :
    d.entries.Perm (⟨k, v⟩ :: (d.erase k).entries) := by
  have hk : k ∈ d.entries.keys := AList.lookup_isSome.mp (by rw [h]; rfl)
  obtain ⟨v', l₁, l₂, hnot, he, hr⟩ := List.exists_of_kerase hk
  have hv : v' = v := by
    have hmem : Sigma.mk k v' ∈ d.entries := by rw [he]; simp
    have := List.mem_dlookup d.nodupKeys hmem
    rw [AList.lookup] at h
    rw [h] at this
    exact (Option.mem_some_iff.mp this).symm
  subst hv
  have hre : (d.erase k).entries = l₁ ++ l₂ := hr
  rw [hre, he]
  exact List.perm_middle

theorem keysWhere_perm_of_lookup {d : Dict κ ν} {k : κ} {v : ν} (h : d.lookup k = some v) (p : ν → Bool) :
    (d.keysWhere p).Perm (if p v then k :: keysWhere p (d.erase k) else keysWhere p (d.erase k)) := by
  have := ((entries_perm_of_lookup h).filter fun e => p e.2).map Sigma.fst
  unfold keysWhere
  cases hp : p v <;> simpa [hp] using this

theorem values_perm_of_lookup {d : Dict κ ν} {k : κ} {v : ν} (h : d.lookup k = some v) :
    d.values.Perm (v :: values (d.erase k)) := by
  simpa [values] using (entries_perm_of_lookup h).map Sigma.snd

theorem keys_perm_of_lookup {d : Dict κ ν} {k : κ} {v : ν} (h : d.lookup k = some v) :
    d.keys.Perm (k :: (d.erase k).keys) := by
  simpa [AList.keys, List.keys] using (entries_perm_of_lookup h).map Sigma.fst

/-- A key with its value is listed under the predicates that the value meets. -/
theorem lookup_of_mem_keysWhere {d : Dict κ ν} {p : ν → Bool} {k : κ} (h : k ∈ d.keysWhere p) :
    ∃ v, d.lookup k = some v ∧ p v = true := by
  simp only [keysWhere, List.mem_map, List.mem_filter] at h
  obtain ⟨⟨k, v⟩, ⟨hmem, hp⟩, rfl⟩ := h
  exact ⟨v, Option.mem_def.mp (List.mem_dlookup d.nodupKeys hmem), hp⟩

/-! ## Insertion of fresh keys -/

theorem erase_insert_of_notMem {d : Dict κ ν} {k : κ} {v : ν} (h : k ∉ d) :
    AList.erase k (d.insert k v) = d := by
  refine AList.ext ?_
  show List.kerase k (d.insert k v).entries = d.entries
  rw [AList.entries_insert_of_notMem h]
  exact List.kerase_cons_eq rfl

theorem update_entries_perm {d : Dict κ ν} {items : List (κ × ν)} (hnd : (items.map Prod.fst).Nodup)
    (hfresh : ∀ kv ∈ items, kv.1 ∉ d) :
    (d.update items).entries.Perm (items.map (fun kv => ⟨kv.1, kv.2⟩) ++ d.entries) := by
  induction items generalizing d with
  | nil => exact .refl _
  | cons kv items ih =>
      simp only [List.map_cons, List.nodup_cons] at hnd
      have hk : kv.1 ∉ d := hfresh kv (by simp)
      have hrest : ∀ kv' ∈ items, kv'.1 ∉ d.insert kv.1 kv.2 := by
        intro kv' hm hin
        rcases (AList.mem_insert d).mp hin with he | hin
        · exact hnd.1 (List.mem_map.mpr ⟨kv', hm, he⟩)
        · exact hfresh kv' (by simp [hm]) hin
      have := ih hnd.2 hrest
      rw [AList.entries_insert_of_notMem hk] at this
      exact this.trans List.perm_middle

theorem keysWhere_update {d : Dict κ ν} {items : List (κ × ν)} (hnd : (items.map Prod.fst).Nodup)
    (hfresh : ∀ kv ∈ items, kv.1 ∉ d) (p : ν → Bool) :
    (keysWhere p (d.update items)).Perm
      ((items.filter fun kv => p kv.2).map Prod.fst ++ d.keysWhere p) := by
  have := ((update_entries_perm hnd hfresh).filter fun e => p e.2).map Sigma.fst
  simpa [keysWhere, List.filter_map, Function.comp_def] using this

theorem keys_update {d : Dict κ ν} {items : List (κ × ν)} (hnd : (items.map Prod.fst).Nodup)
    (hfresh : ∀ kv ∈ items, kv.1 ∉ d) : (d.update items).keys.Perm (items.map Prod.fst ++ d.keys) := by
  have := (update_entries_perm hnd hfresh).map Sigma.fst
  simpa [AList.keys, List.keys, Function.comp_def] using this

theorem values_update {d : Dict κ ν} {items : List (κ × ν)} (hnd : (items.map Prod.fst).Nodup)
    (hfresh : ∀ kv ∈ items, kv.1 ∉ d) : (values (d.update items)).Perm (items.map Prod.snd ++ d.values) := by
  have := (update_entries_perm hnd hfresh).map Sigma.snd
  simpa [values, Function.comp_def] using this

end Dict

end Rdma4py.Lib
