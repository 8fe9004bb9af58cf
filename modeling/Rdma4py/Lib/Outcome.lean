import Mathlib.Data.List.Forall2

/-!
# Computations that may fail

What a successful `Except` computation says about its steps.
-/

namespace Rdma4py.Lib

universe v

variable {ε : Type*} {α β : Type v} {e : ε} {x : Except ε α} {f : α → Except ε β} {b : β}

theorem throw_eq (e : ε) : (throw e : Except ε α) = .error e := rfl

theorem bind_eq (x : Except ε α) (f : α → Except ε β) : (x >>= f) = x.bind f := rfl

theorem pure_eq (a : α) : (pure a : Except ε α) = .ok a := rfl

theorem error_bind (e : ε) (f : α → Except ε β) : (Except.error e).bind f = .error e := rfl

/-- A sequence succeeds when both steps do. -/
theorem bind_eq_ok : x.bind f = .ok b ↔ ∃ a, x = .ok a ∧ f a = .ok b := by
  cases x <;> simp [Except.bind]

theorem map_eq_ok {g : α → β} : x.map g = .ok b ↔ ∃ a, x = .ok a ∧ g a = b := by
  cases x <;> simp [Except.map]

/-- A check that raises was passed. -/
theorem ite_error_eq_ok {c : Prop} [Decidable c] {y : Except ε β} :
    (if c then .error e else y) = .ok b ↔ ¬ c ∧ y = .ok b := by
  split <;> simp [*]

/-- A `mapM` succeeds when every element has a result, and gives the results in order. -/
theorem mapM_ok_iff {f : α → Except ε β} {l : List α} {bs : List β} :
    l.mapM f = .ok bs ↔ List.Forall₂ (fun a b => f a = .ok b) l bs := by
  induction l generalizing bs with
  | nil => simp [pure_eq, eq_comm]
  | cons a l ih =>
      simp only [List.mapM_cons, bind_eq, bind_eq_ok, pure_eq, Except.ok.injEq, List.forall₂_cons_left_iff, ih]
      constructor
      · rintro ⟨b, hb, rest, hrest, rfl⟩
        exact ⟨b, rest, hb, hrest, rfl⟩
      · rintro ⟨b, rest, hb, hrest, rfl⟩
        exact ⟨b, hb, rest, hrest, rfl⟩

/-- Each element of the result of a `mapM` comes from an element of the list. -/
theorem exists_of_mapM_ok {f : α → Except ε β} {l : List α} {bs : List β} (h : l.mapM f = .ok bs) :
    ∀ b ∈ bs, ∃ a ∈ l, f a = .ok b := by
  have hall := mapM_ok_iff.mp h
  clear h
  induction hall with
  | nil => simp
  | cons hf _ ih =>
      intro b hb
      rcases List.mem_cons.mp hb with rfl | hb
      · exact ⟨_, List.mem_cons_self, hf⟩
      · obtain ⟨a, ha, hf'⟩ := ih b hb
        exact ⟨a, List.mem_cons_of_mem _ ha, hf'⟩

/-- A `forM` succeeds when every element does. -/
theorem forM_eq_ok {f : α → Except ε PUnit} {l : List α} : l.forM f = .ok ⟨⟩ ↔ ∀ a ∈ l, f a = .ok ⟨⟩ := by
  induction l with
  | nil => simp [pure_eq]
  | cons a l ih =>
      simp only [List.forM_eq_forM, List.forM_cons, bind_eq, bind_eq_ok, List.forall_mem_cons] at ih ⊢
      constructor
      · rintro ⟨_, ha, hl⟩
        exact ⟨ha, ih.mp hl⟩
      · rintro ⟨ha, hl⟩
        exact ⟨⟨⟩, ha, ih.mpr hl⟩

end Rdma4py.Lib
