import Mathlib.Logic.Relation

/-!
# Machines and their runs

A machine says which events a state allows and where each event leads. Both parts can be computed, so the
definition that the proofs are about is also the one that a concrete run evaluates.
-/

namespace Rdma4py.Lib

/-- A transition system with labelled, deterministic steps. Nondeterminism is the choice of the event. -/
structure Machine (σ ε : Type*) where
  Enabled : σ → ε → Prop
  next : σ → ε → σ

namespace Machine

variable {σ ε : Type*} {M : Machine σ ε}

/-- One step by some enabled event. -/
def Step (M : Machine σ ε) (s t : σ) : Prop := ∃ e, M.Enabled s e ∧ M.next s e = t

/-- Finitely many steps lead from the first state to the second. -/
def Reaches (M : Machine σ ε) : σ → σ → Prop := Relation.ReflTransGen M.Step

/-- The same machine, where each step also meets the condition `P` on its state and event. -/
def when (M : Machine σ ε) (P : σ → ε → Prop) : Machine σ ε where
  Enabled s e := M.Enabled s e ∧ P s e
  next := M.next

@[simp] theorem when_next (P : σ → ε → Prop) : (M.when P).next = M.next := rfl

theorem Reaches.refl (s : σ) : M.Reaches s s := Relation.ReflTransGen.refl

theorem Reaches.trans {s t u : σ} (h : M.Reaches s t) (h' : M.Reaches t u) : M.Reaches s u :=
  Relation.ReflTransGen.trans h h'

theorem Reaches.tail {s t : σ} {e : ε} (h : M.Reaches s t) (he : M.Enabled t e) :
    M.Reaches s (M.next t e) :=
  Relation.ReflTransGen.tail h ⟨e, he, rfl⟩

/-- The invariant rule: what each enabled step preserves holds after every run. -/
theorem Reaches.invariant {I : σ → Prop} (hstep : ∀ s e, I s → M.Enabled s e → I (M.next s e)) {s t : σ}
    (h : M.Reaches s t) (hs : I s) : I t := by
  induction h with
  | refl => exact hs
  | tail _ hst ih =>
      obtain ⟨e, he, rfl⟩ := hst
      exact hstep _ e ih he

/-- A run of the restricted machine is a run of the machine. -/
theorem Reaches.of_when {P : σ → ε → Prop} {s t : σ} (h : (M.when P).Reaches s t) : M.Reaches s t :=
  h.lift id fun _ _ ⟨e, he, ht⟩ => ⟨e, he.1, ht⟩

/-- A weaker condition allows more runs. -/
theorem Reaches.when_mono {P Q : σ → ε → Prop} (hPQ : ∀ s e, P s e → Q s e) {s t : σ}
    (h : (M.when P).Reaches s t) : (M.when Q).Reaches s t :=
  h.lift id fun _ _ ⟨e, he, ht⟩ => ⟨e, ⟨he.1, hPQ _ _ he.2⟩, ht⟩

/-! ## Concrete runs -/

/-- The state after the events of a list. -/
def play (M : Machine σ ε) (s : σ) (es : List ε) : σ := es.foldl M.next s

@[simp] theorem when_play (P : σ → ε → Prop) (s : σ) (es : List ε) : (M.when P).play s es = M.play s es := rfl

/-- Every event of the list is enabled when its turn comes. -/
def Plays (M : Machine σ ε) : σ → List ε → Prop
  | _, [] => True
  | s, e :: es => M.Enabled s e ∧ Plays M (M.next s e) es

instance Plays.decidable [∀ s e, Decidable (M.Enabled s e)] : ∀ s es, Decidable (M.Plays s es)
  | _, [] => inferInstanceAs (Decidable True)
  | s, e :: es => @instDecidableAnd _ _ _ (Plays.decidable (M.next s e) es)

theorem Plays.reaches {s : σ} {es : List ε} (h : M.Plays s es) : M.Reaches s (M.play s es) := by
  induction es generalizing s with
  | nil => exact .refl s
  | cons e es ih => exact ((Reaches.refl s).tail h.1).trans (ih h.2)

theorem Plays.append {s : σ} {es es' : List ε} (h : M.Plays s es) (h' : M.Plays (M.play s es) es') :
    M.Plays s (es ++ es') := by
  induction es generalizing s with
  | nil => exact h'
  | cons e es ih => exact ⟨h.1, ih h.2 h'⟩

/-- Events that meet the condition in every state. -/
theorem Plays.when {P : σ → ε → Prop} {s : σ} {es : List ε} (h : M.Plays s es) (hP : ∀ e ∈ es, ∀ s, P s e) :
    (M.when P).Plays s es := by
  induction es generalizing s with
  | nil => trivial
  | cons e es ih =>
      exact ⟨⟨h.1, hP e List.mem_cons_self s⟩, ih h.2 fun e' he' => hP e' (List.mem_cons_of_mem e he')⟩

theorem play_append (M : Machine σ ε) (s : σ) (es es' : List ε) :
    M.play s (es ++ es') = M.play (M.play s es) es' := by
  simp [play]

theorem Reaches.exists_plays {s t : σ} (h : M.Reaches s t) : ∃ es, M.Plays s es ∧ M.play s es = t := by
  induction h with
  | refl => exact ⟨[], trivial, rfl⟩
  | tail _ hst ih =>
      obtain ⟨e, he, rfl⟩ := hst
      obtain ⟨es, hes, rfl⟩ := ih
      exact ⟨es ++ [e], hes.append ⟨he, trivial⟩, by rw [play_append]; rfl⟩

/-- No run is longer than some number of steps. -/
def Bounded (M : Machine σ ε) (s : σ) : Prop := ∃ n, ∀ es, M.Plays s es → es.length ≤ n

/-- What every step lessens bounds the runs. -/
theorem Bounded.of_lt (f : σ → Nat) (hf : ∀ s e, M.Enabled s e → f (M.next s e) < f s) (s : σ) : M.Bounded s := by
  refine ⟨f s, ?_⟩
  intro es hes
  induction es generalizing s with
  | nil => exact Nat.zero_le _
  | cons e es ih =>
      have hlt := hf s e hes.1
      have hle := ih _ hes.2
      rw [List.length_cons]
      omega

/-- Where runs are bounded, every run goes on to a state that allows nothing. -/
theorem Bounded.exists_final {s t : σ} (hb : M.Bounded s) (ht : M.Reaches s t) :
    ∃ u, M.Reaches t u ∧ ∀ e, ¬ M.Enabled u e := by
  obtain ⟨n, hn⟩ := hb
  obtain ⟨es, hes, rfl⟩ := ht.exists_plays
  induction hk : n - es.length generalizing es with
  | zero =>
      refine ⟨_, .refl _, fun e he => ?_⟩
      have hlong := hn (es ++ [e]) (hes.append ⟨he, trivial⟩)
      rw [List.length_append, List.length_singleton] at hlong
      omega
  | succ k ih =>
      by_cases hfinal : ∀ e, ¬ M.Enabled (M.play s es) e
      · exact ⟨_, .refl _, hfinal⟩
      · obtain ⟨e, he⟩ := Classical.not_forall.mp hfinal
        have he := Classical.not_not.mp he
        have hes' : M.Plays s (es ++ [e]) := hes.append ⟨he, trivial⟩
        obtain ⟨u, hu, hfinal⟩ := ih (es ++ [e]) hes' hes'.reaches
          (by rw [List.length_append, List.length_singleton]; omega)
        rw [play_append] at hu
        exact ⟨u, ((Reaches.refl _).tail he).trans hu, hfinal⟩

end Machine

end Rdma4py.Lib
