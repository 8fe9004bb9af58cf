/-!
# Programs that change a state and may raise

A program returns, raises, or does not end with the answers that it was given. A triple speaks of the state that it
leaves: with its value when it returns, and otherwise with what it raised, if anything.
-/

namespace Rdma4py.Lib

/-- How a program ended. -/
inductive Ending (ε α : Type)
  | returned (a : α)
  | raised (e : ε)
  | unfinished
  deriving DecidableEq, Repr

/-- A program over the states `σ`. -/
def Program (σ ε α : Type) := σ → Ending ε α × σ

namespace Program

variable {σ ε α β : Type}

/-! ## Statements -/

def bind (c : Program σ ε α) (f : α → Program σ ε β) : Program σ ε β := fun s =>
  match c s with
  | (.returned a, s') => f a s'
  | (.raised e, s') => (.raised e, s')
  | (.unfinished, s') => (.unfinished, s')

instance : Monad (Program σ ε) where
  pure a := fun s => (.returned a, s)
  bind := bind

def raise (e : ε) : Program σ ε α := fun s => (.raised e, s)

def diverge : Program σ ε α := fun s => (.unfinished, s)

/-- `if b: raise e`. -/
def refuse (b : Prop) [Decidable b] (e : ε) : Program σ ε Unit := if b then raise e else pure ()

/-- What a function of the state gives. -/
def read (f : σ → α) : Program σ ε α := fun s => (.returned (f s), s)

/-- Changes the state. -/
def update (f : σ → σ) : Program σ ε Unit := fun s => (.returned (), f s)

/-- A computation that leaves the state alone. -/
def eval (x : Except ε α) : Program σ ε α := fun s =>
  match x with
  | .ok a => (.returned a, s)
  | .error e => (.raised e, s)

/-- `try: c` with `except Exception: handler; raise`. -/
def onError (c : Program σ ε α) (handler : σ → σ) : Program σ ε α := fun s =>
  match c s with
  | (.raised e, s') => (.raised e, handler s')
  | r => r

/-- `try: c` with `finally: final`. What `final` raises takes the place of how `c` ended. -/
def ensure (c : Program σ ε α) (final : Program σ ε Unit) : Program σ ε α := fun s =>
  match c s with
  | (.unfinished, s') => (.unfinished, s')
  | (o, s') =>
      match final s' with
      | (.returned (), s'') => (o, s'')
      | (.raised e, s'') => (.raised e, s'')
      | (.unfinished, s'') => (.unfinished, s'')

/-! ## Triples -/

/-- What an ending says: `Q` of the value that was returned, or `E` of what was raised, if anything. -/
def Ending.Holds (Q : α → σ → Prop) (E : Option ε → σ → Prop) : Ending ε α → σ → Prop
  | .returned a => Q a
  | .raised e => E (some e)
  | .unfinished => E none

/-- From the states with `P`, the program ends with `Q`, or early with `E`. -/
def Triple (P : σ → Prop) (c : Program σ ε α) (Q : α → σ → Prop) (E : Option ε → σ → Prop) : Prop :=
  ∀ s, P s → Ending.Holds Q E (c s).1 (c s).2

variable {P P' : σ → Prop} {Q Q' : α → σ → Prop} {S : β → σ → Prop} {E E' : Option ε → σ → Prop} {c : Program σ ε α}
  {f : α → Program σ ε β}

theorem triple_pure {a : α} (h : ∀ s, P s → Q a s) : Triple P (pure a : Program σ ε α) Q E := h

theorem triple_raise {e : ε} (h : ∀ s, P s → E (some e) s) : Triple P (raise e : Program σ ε α) Q E := h

theorem triple_diverge (h : ∀ s, P s → E none s) : Triple P (diverge : Program σ ε α) Q E := h

theorem triple_read {g : σ → α} (h : ∀ s, P s → Q (g s) s) : Triple P (read g : Program σ ε α) Q E := h

theorem triple_update {g : σ → σ} {Q : Unit → σ → Prop} (h : ∀ s, P s → Q () (g s)) :
    Triple P (update g : Program σ ε Unit) Q E := h

theorem triple_eval {x : Except ε α} (hok : ∀ a, x = .ok a → ∀ s, P s → Q a s)
    (herror : ∀ e, x = .error e → ∀ s, P s → E (some e) s) : Triple P (eval x) Q E := by
  intro s hs
  cases x with
  | ok a => exact hok a rfl s hs
  | error e => exact herror e rfl s hs

/-- The rule of consequence. -/
theorem Triple.conseq (h : Triple P c Q E) (hp : ∀ s, P' s → P s) (hq : ∀ a s, Q a s → Q' a s)
    (he : ∀ x s, E x s → E' x s) : Triple P' c Q' E' := by
  intro s hs
  have hend := h s (hp s hs)
  cases hc : (c s).1 with
  | returned a =>
      rw [hc] at hend
      exact hq a _ hend
  | raised e =>
      rw [hc] at hend
      exact he (some e) _ hend
  | unfinished =>
      rw [hc] at hend
      exact he none _ hend

/-- A fact beside the state is an assumption. -/
theorem triple_of_fact {b : Prop} (h : b → Triple P c Q E) : Triple (fun s => b ∧ P s) c Q E :=
  fun s hs => h hs.1 s hs.2

theorem triple_of_exists {ι : Type} {P : ι → σ → Prop} (h : ∀ i, Triple (P i) c Q E) :
    Triple (fun s => ∃ i, P i s) c Q E := by
  rintro s ⟨i, hs⟩
  exact h i s hs

/-- One program after the other: an early end of the first is the end. -/
theorem Triple.bind (hc : Triple P c Q E) (hf : ∀ a, Triple (Q a) (f a) S E) : Triple P (c >>= f) S E := by
  intro s hs
  have hend := hc s hs
  show Ending.Holds S E (Program.bind c f s).1 (Program.bind c f s).2
  unfold Program.bind
  rcases hr : c s with ⟨o, s'⟩
  rw [hr] at hend
  cases o with
  | returned a => exact hf a s' hend
  | raised e => exact hend
  | unfinished => exact hend

theorem Triple.onError {handler : σ → σ} (hc : Triple P c Q E) (he : ∀ e s, E (some e) s → E' (some e) (handler s))
    (hn : ∀ s, E none s → E' none s) : Triple P (onError c handler) Q E' := by
  intro s hs
  have hend := hc s hs
  unfold Program.onError
  rcases hr : c s with ⟨o, s'⟩
  rw [hr] at hend
  cases o with
  | returned a => exact hend
  | raised e => exact he e s' hend
  | unfinished => exact hn s' hend

theorem Triple.ensure {final : Program σ ε Unit} (hc : Triple P c Q E)
    (hq : ∀ a, Triple (Q a) final (fun _ => Q' a) E')
    (he : ∀ e, Triple (E (some e)) final (fun _ => E' (some e)) E') (hn : ∀ s, E none s → E' none s) :
    Triple P (ensure c final) Q' E' := by
  intro s hs
  have hend := hc s hs
  unfold Program.ensure
  rcases hr : c s with ⟨o, s'⟩
  rw [hr] at hend
  cases o with
  | returned a =>
      have hfinal := hq a s' hend
      dsimp only
      rcases hf : final s' with ⟨o', s''⟩
      rw [hf] at hfinal
      cases o' with
      | returned u => exact hfinal
      | raised e => exact hfinal
      | unfinished => exact hfinal
  | raised e =>
      have hfinal := he e s' hend
      dsimp only
      rcases hf : final s' with ⟨o', s''⟩
      rw [hf] at hfinal
      cases o' with
      | returned u => exact hfinal
      | raised e' => exact hfinal
      | unfinished => exact hfinal
  | unfinished => exact hn s' hend

theorem triple_refuse {b : Prop} [Decidable b] {e : ε} {Q : Unit → σ → Prop} (ht : b → ∀ s, P s → E (some e) s)
    (hf : ¬ b → ∀ s, P s → Q () s) : Triple P (refuse b e : Program σ ε Unit) Q E := by
  unfold refuse
  by_cases h : b
  · rw [if_pos h]
    exact triple_raise (ht h)
  · rw [if_neg h]
    exact triple_pure (hf h)

end Program

end Rdma4py.Lib
