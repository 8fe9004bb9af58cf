import Mathlib.Algebra.Order.Field.Rat
import Mathlib.Algebra.Order.Ring.Cast

/-!
# Python values that JSON text decodes to

What comparisons, the truth value, `len`, `int`, a subscript and `bytes.fromhex` make of such a value, and which exception
they raise on one of the wrong type.
-/

namespace Rdma4py.Lib

/-- A string by its code points, lone surrogates included. -/
abbrev PyStr := List Nat

/-- The code points of a literal. -/
def pyStr (s : String) : PyStr := s.toList.map Char.toNat

/-- A float; a finite one by its exact value. -/
inductive PyFloat
  | nan
  | infinity (negative : Bool)
  | finite (value : ℚ)
  deriving DecidableEq, Repr

/-- What `json.loads` returns. A dictionary is given by its items, of which the last counts. -/
inductive PyValue
  | null
  | bool (b : Bool)
  | int (n : Int)
  | float (x : PyFloat)
  | str (s : PyStr)
  | list (elements : List PyValue)
  | dict (items : List (PyStr × PyValue))

/-- The exceptions of the operations below. -/
inductive PyExn
  | typeError
  | valueError
  | keyError
  | overflowError
  deriving DecidableEq, Repr

namespace PyFloat

/-- `x < k`. -/
def lt : PyFloat → Int → Bool
  | nan, _ => false
  | infinity negative, _ => negative
  | finite x, k => x < k

/-- `x <= k`. -/
def le : PyFloat → Int → Bool
  | nan, _ => false
  | infinity negative, _ => negative
  | finite x, k => x ≤ k

/-- `x > k`. -/
def gt : PyFloat → Int → Bool
  | nan, _ => false
  | infinity negative, _ => !negative
  | finite x, k => (k : ℚ) < x

end PyFloat

namespace PyValue

/-! ## Comparisons with an integer -/

/-- The number that is compared. Python compares integers and floats by their exact values, and `True` is 1. -/
def number : PyValue → Except PyExn PyFloat
  | bool b => .ok (.finite (if b then 1 else 0))
  | int n => .ok (.finite n)
  | float x => .ok x
  | null | str _ | list _ | dict _ => .error .typeError

/-- `v < k`. -/
def lt (v : PyValue) (k : Int) : Except PyExn Bool := v.number.map (·.lt k)

/-- `v <= k`. -/
def le (v : PyValue) (k : Int) : Except PyExn Bool := v.number.map (·.le k)

/-- `v > k`. -/
def gt (v : PyValue) (k : Int) : Except PyExn Bool := v.number.map (·.gt k)

@[simp] theorem lt_int (n k : Int) : (int n).lt k = .ok (decide (n < k)) := by
  simp [lt, number, Except.map, PyFloat.lt]

@[simp] theorem le_int (n k : Int) : (int n).le k = .ok (decide (n ≤ k)) := by
  simp [le, number, Except.map, PyFloat.le]

@[simp] theorem gt_int (n k : Int) : (int n).gt k = .ok (decide (k < n)) := by
  simp [gt, number, Except.map, PyFloat.gt]

/-! ## Truth values and lengths -/

/-- `bool(v)`. -/
def truth : PyValue → Bool
  | null => false
  | bool b => b
  | int n => n ≠ 0
  | float (.finite x) => x ≠ 0
  | float _ => true
  | str s => s ≠ []
  | list xs => !xs.isEmpty
  | dict items => !items.isEmpty

/-- `len(v)`. -/
def len : PyValue → Except PyExn Nat
  | str s => .ok s.length
  | list xs => .ok xs.length
  | dict items => .ok (items.map Prod.fst).eraseDups.length
  | null | bool _ | int _ | float _ => .error .typeError

/-! ## `int` -/

/-- `int(v)`; `parse` says which integer a string denotes, if any. -/
def toInt (parse : PyStr → Option Int) : PyValue → Except PyExn Int
  | bool b => .ok (if b then 1 else 0)
  | int n => .ok n
  | float .nan => .error .valueError
  | float (.infinity _) => .error .overflowError
  | float (.finite x) => .ok (x.num.tdiv x.den)
  | str s => match parse s with
      | some n => .ok n
      | none => .error .valueError
  | null | list _ | dict _ => .error .typeError

/-- Only an infinite number overflows. -/
theorem toInt_overflow_iff {parse : PyStr → Option Int} {v : PyValue} :
    v.toInt parse = .error .overflowError ↔ ∃ negative, v = float (.infinity negative) := by
  cases v with
  | float x => cases x <;> simp [toInt]
  | str s => cases h : parse s <;> simp [toInt, h]
  | null => simp [toInt]
  | bool b => simp [toInt]
  | int n => simp [toInt]
  | list xs => simp [toInt]
  | dict items => simp [toInt]

/-! ## Items -/

/-- The value of a key. -/
def lookup (items : List (PyStr × PyValue)) (key : String) : Option PyValue := items.reverse.lookup (pyStr key)

/-- `v[key]`. -/
def getItem (v : PyValue) (key : String) : Except PyExn PyValue :=
  match v with
  | dict items => match lookup items key with
      | some x => .ok x
      | none => .error .keyError
  | null | bool _ | int _ | float _ | str _ | list _ => .error .typeError

/-- `set(v) == keys` for a dictionary. -/
def hasKeys (items : List (PyStr × PyValue)) (keys : List String) : Bool :=
  (items.map Prod.fst).all (· ∈ keys.map pyStr) && (keys.map pyStr).all (· ∈ items.map Prod.fst)

/-! ## `bytes.fromhex` -/

/-- The value of a hexadecimal digit. -/
def hexDigit (c : Nat) : Option Nat :=
  if 48 ≤ c ∧ c ≤ 57 then some (c - 48)
  else if 97 ≤ c ∧ c ≤ 102 then some (c - 87)
  else if 65 ≤ c ∧ c ≤ 70 then some (c - 55)
  else none

/-- ASCII whitespace. -/
def isSpace (c : Nat) : Bool := c = 32 || (9 ≤ c && c ≤ 13)

/-- `bytes.fromhex` of a string: whitespace between two bytes is skipped. -/
def fromhex : PyStr → Option (List Nat)
  | [] => some []
  | [c] => if isSpace c then some [] else none
  | c :: d :: cs =>
      if isSpace c then fromhex (d :: cs)
      else
        match hexDigit c, hexDigit d with
        | some high, some low => (fromhex cs).map ((16 * high + low) :: ·)
        | _, _ => none

/-- A hexadecimal digit, as `hex` writes it. -/
def hexChar (n : Nat) : Nat := if n < 10 then 48 + n else 87 + n

/-- `bytes.hex()`. -/
def hex (bytes : List Nat) : PyStr := bytes.flatMap fun b => [hexChar (b / 16), hexChar (b % 16)]

theorem hexDigit_hexChar {n : Nat} (h : n < 16) : hexDigit (hexChar n) = some n := by
  unfold hexChar hexDigit
  split
  · rw [if_pos (by omega)]
    simp
  · rw [if_neg (by omega), if_pos (by omega)]
    simp

/-- `bytes.fromhex(v)`. -/
def toBytes : PyValue → Except PyExn (List Nat)
  | str s => match fromhex s with
      | some bytes => .ok bytes
      | none => .error .valueError
  | null | bool _ | int _ | float _ | list _ | dict _ => .error .typeError

theorem not_isSpace_of_hexDigit {c n : Nat} (h : hexDigit c = some n) : isSpace c = false := by
  simp only [hexDigit] at h
  simp only [isSpace]
  split_ifs at h <;> simp <;> omega

/-- What `hex` writes reads back. -/
theorem fromhex_hex {bytes : List Nat} (h : ∀ b ∈ bytes, b < 256) : fromhex (hex bytes) = some bytes := by
  induction bytes with
  | nil => rfl
  | cons b bs ih =>
      obtain ⟨hb, hbs⟩ := List.forall_mem_cons.mp h
      have hhigh := hexDigit_hexChar (n := b / 16) (by omega)
      have hlow := hexDigit_hexChar (n := b % 16) (by omega)
      have hrest : fromhex (bs.flatMap fun b => [hexChar (b / 16), hexChar (b % 16)]) = some bs := ih hbs
      simp [hex, fromhex, not_isSpace_of_hexDigit hhigh, hhigh, hlow, hrest, Nat.div_add_mod]

/-- Two characters for every byte, and the whitespace. -/
theorem length_of_fromhex {s : PyStr} {bytes : List Nat} (h : fromhex s = some bytes) :
    2 * bytes.length + s.countP isSpace = s.length := by
  induction s using fromhex.induct generalizing bytes with
  | case1 =>
      simp only [fromhex, Option.some.injEq] at h
      subst h
      rfl
  | case2 c hc =>
      simp only [fromhex, hc, if_true, Option.some.injEq] at h
      subst h
      simp [hc]
  | case3 c hc => simp [fromhex, hc] at h
  | case4 c d cs hc ih =>
      simp only [fromhex, hc, if_true] at h
      have := ih h
      rw [List.countP_cons, hc, List.length_cons]
      simp only [if_true]
      omega
  | case5 c d cs hc high low hhigh hlow ih =>
      simp only [fromhex, hc, Bool.false_eq_true, if_false, hhigh, hlow, Option.map_eq_some_iff] at h
      obtain ⟨rest, hrest, rfl⟩ := h
      have := ih hrest
      rw [List.countP_cons, List.countP_cons, not_isSpace_of_hexDigit hhigh, not_isSpace_of_hexDigit hlow]
      simp only [List.length_cons, Bool.false_eq_true, if_false]
      omega
  | case6 c d cs hc hbad =>
      simp only [fromhex, hc, Bool.false_eq_true, if_false] at h
      cases h

end PyValue

end Rdma4py.Lib
