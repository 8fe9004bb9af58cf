/-!
# Checks that are made one after another

`a or b or c` in a language where each operand may raise: the first operand that is true or raises decides.
-/

namespace Rdma4py.Lib

universe u

variable {ε : Type u} {c : Except ε Bool} {cs : List (Except ε Bool)}

/-- The operands of an `or`, in order. -/
def orChain : List (Except ε Bool) → Except ε Bool
  | [] => .ok false
  | .ok false :: cs => orChain cs
  | .ok true :: _ => .ok true
  | .error e :: _ => .error e

/-- `x` is the first operand that is not false. -/
def FirstStop (cs : List (Except ε Bool)) (x : Except ε Bool) : Prop :=
  ∃ pre post, cs = pre ++ x :: post ∧ ∀ c ∈ pre, c = .ok false

theorem firstStop_cons_false {x : Except ε Bool} (hx : x ≠ .ok false) :
    FirstStop (.ok false :: cs) x ↔ FirstStop cs x := by
  constructor
  · rintro ⟨pre, post, h, hpre⟩
    cases pre with
    | nil =>
        rw [List.nil_append, List.cons.injEq] at h
        exact absurd h.1.symm hx
    | cons c pre =>
        rw [List.cons_append, List.cons.injEq] at h
        exact ⟨pre, post, h.2, fun c hc => hpre c (List.mem_cons_of_mem _ hc)⟩
  · rintro ⟨pre, post, rfl, hpre⟩
    refine ⟨.ok false :: pre, post, rfl, fun c hc => ?_⟩
    cases hc with
    | head => rfl
    | tail _ hc => exact hpre c hc

theorem firstStop_cons {x : Except ε Bool} (hc : c ≠ .ok false) : FirstStop (c :: cs) x ↔ x = c := by
  constructor
  · rintro ⟨pre, post, h, hpre⟩
    cases pre with
    | nil =>
        rw [List.nil_append, List.cons.injEq] at h
        exact h.1.symm
    | cons d pre =>
        rw [List.cons_append, List.cons.injEq] at h
        exact absurd (h.1.trans (hpre d List.mem_cons_self)) hc
  · rintro rfl
    exact ⟨[], cs, rfl, by simp⟩

/-- The chain is true or raises when its first operand that is not false does. -/
theorem orChain_eq_iff {x : Except ε Bool} (hx : x ≠ .ok false) : orChain cs = x ↔ FirstStop cs x := by
  induction cs with
  | nil =>
      constructor
      · intro h
        exact absurd h.symm hx
      · rintro ⟨pre, post, h, _⟩
        simp at h
  | cons c cs ih =>
      cases c with
      | error e => rw [firstStop_cons (by simp), orChain, eq_comm]
      | ok b =>
          cases b with
          | false => rw [firstStop_cons_false hx, orChain, ih]
          | true => rw [firstStop_cons (by simp), orChain, eq_comm]

/-- The chain is false when all operands are. -/
theorem orChain_eq_false_iff : orChain cs = .ok false ↔ ∀ c ∈ cs, c = .ok false := by
  induction cs with
  | nil => simp [orChain]
  | cons c cs ih =>
      cases c with
      | error e => simp [orChain]
      | ok b =>
          cases b with
          | false => simp [orChain, ih]
          | true => simp [orChain]

end Rdma4py.Lib
