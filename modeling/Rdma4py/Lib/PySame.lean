import Mathlib.Data.List.Forall2
import Mathlib.Data.Option.Basic
import Rdma4py.Lib.PyValue

/-!
# Equal Python values

What `==` with an integer or a string, `get` and iteration make of a value, and when two values are the same up to the
order of the items of their dictionaries.
-/

namespace Rdma4py.Lib.PyValue

/-- `isinstance(v, dict)`. -/
def isDict : PyValue → Bool
  | dict _ => true
  | _ => false

/-- `v == k`. -/
def eqInt (v : PyValue) (k : Int) : Bool :=
  match v.number with
  | .ok (.finite x) => x = k
  | _ => false

/-- `v == s`. -/
def eqStr : PyValue → PyStr → Bool
  | str t, s => t = s
  | _, _ => false

/-- `v.get(key)` of a dictionary. -/
def get (items : List (PyStr × PyValue)) (key : String) : PyValue := (lookup items key).getD null

/-- What a loop over the value visits. -/
def iterate : PyValue → Except PyExn (List PyValue)
  | list xs => .ok xs
  | str s => .ok (s.map fun c => str [c])
  | dict items => .ok ((items.map Prod.fst).eraseDups.map str)
  | null | bool _ | int _ | float _ => .error .typeError

/-- The same value, whatever the order of the items of a dictionary. -/
inductive Same : PyValue → PyValue → Prop
  | null : Same null null
  | bool (b : Bool) : Same (bool b) (bool b)
  | int (n : Int) : Same (int n) (int n)
  | float (x : PyFloat) : Same (float x) (float x)
  | str (s : PyStr) : Same (str s) (str s)
  | list {xs ys : List PyValue} (h : List.Forall₂ Same xs ys) : Same (list xs) (list ys)
  | dict {xs ys : List (PyStr × PyValue)}
      (h : ∀ key, Option.Rel Same (xs.reverse.lookup key) (ys.reverse.lookup key)) : Same (dict xs) (dict ys)

variable {v w x : PyValue} {xs ys : List (PyStr × PyValue)} {key : String} {k : Int} {s : PyStr}

theorem same_int_iff : Same (int k) w ↔ w = int k := by
  constructor
  · intro h
    cases h
    rfl
  · rintro rfl
    exact .int k

theorem same_str_iff : Same (str s) w ↔ w = str s := by
  constructor
  · intro h
    cases h
    rfl
  · rintro rfl
    exact .str s

theorem exists_of_same_list {vs : List PyValue} (h : Same (list vs) w) : ∃ ws, w = list ws ∧ List.Forall₂ Same vs ws := by
  cases h with
  | list h => exact ⟨_, rfl, h⟩

theorem exists_of_same_dict (h : Same (dict xs) w) :
    ∃ ys, w = dict ys ∧ ∀ key, Option.Rel Same (lookup xs key) (lookup ys key) := by
  cases h with
  | dict h => exact ⟨_, rfl, fun key => h _⟩

/-- What a key of one dictionary has, the same key of the other has. -/
theorem lookup_of_rel (h : ∀ key, Option.Rel Same (lookup xs key) (lookup ys key)) (hv : lookup xs key = some v) :
    ∃ w, lookup ys key = some w ∧ Same v w := by
  have hkey := h key
  rw [hv] at hkey
  generalize lookup ys key = o at hkey
  cases hkey with
  | some hs => exact ⟨_, rfl, hs⟩

/-- Two dictionaries with the same keys, of which each has the same value. -/
theorem same_dict (hkeys : ∀ key ∈ ys.map Prod.fst, key ∈ xs.map Prod.fst)
    (h : ∀ key ∈ xs.map Prod.fst, Option.Rel Same (xs.reverse.lookup key) (ys.reverse.lookup key)) :
    Same (dict xs) (dict ys) := by
  refine .dict fun key => ?_
  by_cases hkey : key ∈ xs.map Prod.fst
  · exact h key hkey
  · have hnone : ∀ {zs : List (PyStr × PyValue)}, key ∉ zs.map Prod.fst → zs.reverse.lookup key = none := by
      intro zs hz
      rw [List.lookup_eq_none_iff]
      intro p hp
      simp only [bne_iff_ne, ne_eq]
      rintro rfl
      exact hz (List.mem_map_of_mem (List.mem_reverse.mp hp))
    rw [hnone hkey, hnone fun hy => hkey (hkeys key hy)]
    exact .none

@[simp] theorem eqInt_int (n k : Int) : (int n).eqInt k = decide (n = k) := by
  simp [eqInt, number]

@[simp] theorem eqStr_str (t s : PyStr) : (str t).eqStr s = decide (t = s) := rfl

end Rdma4py.Lib.PyValue
