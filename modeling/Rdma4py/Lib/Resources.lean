/-!
# Computations that open and close resources

A computation returns or raises. Beside its result it records the resources that it opened and those that it closed.
-/

namespace Rdma4py.Lib

variable {ρ ε α β σ : Type}

/-- A finished computation. -/
structure Run (ρ ε α : Type) where
  result : Except ε α
  opened : List ρ
  closed : List ρ

namespace Run

/-! ## Statements -/

def bind (x : Run ρ ε α) (f : α → Run ρ ε β) : Run ρ ε β :=
  match x.result with
  | .error e => ⟨.error e, x.opened, x.closed⟩
  | .ok a => ⟨(f a).result, x.opened ++ (f a).opened, x.closed ++ (f a).closed⟩

instance : Monad (Run ρ ε) where
  pure a := ⟨.ok a, [], []⟩
  bind := bind

/-- `raise e`. -/
def raise (e : ε) : Run ρ ε α := ⟨.error e, [], []⟩

/-- A call that may raise. -/
def call : Option ε → Run ρ ε Unit
  | none => ⟨.ok (), [], []⟩
  | some e => raise e

/-- A computation that opens and closes nothing. -/
def eval (x : Except ε α) : Run ρ ε α := ⟨x, [], []⟩

/-- A call that opens a resource, unless it raises. -/
def acquire (failure : Option ε) (r : ρ) : Run ρ ε ρ :=
  match failure with
  | none => ⟨.ok r, [r], []⟩
  | some e => raise e

/-- Closes the resources in order. -/
def release (rs : List ρ) : Run ρ ε Unit := ⟨.ok (), [], rs⟩

/-- `try: x` with `except Exception: handler; raise`. The handler finds what `x` opened and closed. -/
def onError (x : Run ρ ε α) (handler : List ρ → List ρ → Run ρ ε Unit) : Run ρ ε α :=
  match x.result with
  | .ok _ => x
  | .error e =>
      let y := handler x.opened x.closed
      ⟨match y.result with | .ok _ => .error e | .error e' => .error e', x.opened ++ y.opened, x.closed ++ y.closed⟩

/-- The resources under other names. -/
def rename {ρ' : Type} (f : ρ → ρ') (x : Run ρ ε α) : Run ρ' ε α := ⟨x.result, x.opened.map f, x.closed.map f⟩

/-- The statements of a `try` block, whose local variables survive: their last values, and what was raised. -/
def runSteps : List (σ → Run ρ ε σ) → σ → Run ρ ε (σ × Option ε)
  | [], x => ⟨.ok (x, none), [], []⟩
  | f :: fs, x =>
      match (f x).result with
      | .error e => ⟨.ok (x, some e), (f x).opened, (f x).closed⟩
      | .ok x' =>
          ⟨(runSteps fs x').result, (f x).opened ++ (runSteps fs x').opened, (f x).closed ++ (runSteps fs x').closed⟩

/-- `try` with `except Exception: handler; raise` and `finally: final`. -/
def tryBlock (steps : List (σ → Run ρ ε σ)) (x : σ) (handler final : σ → Run ρ ε Unit) : Run ρ ε σ := do
  match ← runSteps steps x with
  | (x, none) =>
      final x
      return x
  | (x, some e) =>
      handler x
      final x
      raise e

/-! ## What the statements do -/

@[simp] theorem pure_run (a : α) : (pure a : Run ρ ε α) = ⟨.ok a, [], []⟩ := rfl

theorem bind_of_ok {x : Run ρ ε α} {f : α → Run ρ ε β} {a : α} (h : x.result = .ok a) :
    (x >>= f) = ⟨(f a).result, x.opened ++ (f a).opened, x.closed ++ (f a).closed⟩ := by
  show bind x f = _
  rw [bind, h]

theorem bind_of_error {x : Run ρ ε α} {f : α → Run ρ ε β} {e : ε} (h : x.result = .error e) :
    (x >>= f) = ⟨.error e, x.opened, x.closed⟩ := by
  show bind x f = _
  rw [bind, h]

theorem eval_bind_ok (a : α) (f : α → Run ρ ε β) : (eval (.ok a) >>= f) = f a := rfl

theorem eval_bind_error (e : ε) (f : α → Run ρ ε β) : (eval (.error e) >>= f) = raise e := rfl

theorem onError_of_ok {x : Run ρ ε α} {a : α} (h : x.result = .ok a) (handler : List ρ → List ρ → Run ρ ε Unit) :
    onError x handler = x := by
  rw [onError, h]

theorem onError_of_error {x : Run ρ ε α} {e : ε} {handler : List ρ → List ρ → Run ρ ε Unit} (h : x.result = .error e)
    (hh : (handler x.opened x.closed).result = .ok ()) :
    onError x handler = ⟨.error e, x.opened ++ (handler x.opened x.closed).opened,
      x.closed ++ (handler x.opened x.closed).closed⟩ := by
  rw [onError, h]
  simp only [hh]

theorem runSteps_cons_of_ok {f : σ → Run ρ ε σ} {x x' : σ} (h : (f x).result = .ok x') (fs : List (σ → Run ρ ε σ)) :
    runSteps (f :: fs) x =
      ⟨(runSteps fs x').result, (f x).opened ++ (runSteps fs x').opened, (f x).closed ++ (runSteps fs x').closed⟩ := by
  simp only [runSteps, h]

theorem runSteps_cons_of_error {f : σ → Run ρ ε σ} {x : σ} {e : ε} (h : (f x).result = .error e)
    (fs : List (σ → Run ρ ε σ)) : runSteps (f :: fs) x = ⟨.ok (x, some e), (f x).opened, (f x).closed⟩ := by
  simp only [runSteps, h]

/-- The local variables and the exception after the statements of a `try` block. -/
theorem runSteps_result (fs : List (σ → Run ρ ε σ)) (x : σ) : ∃ y err, (runSteps fs x).result = .ok (y, err) := by
  induction fs generalizing x with
  | nil => exact ⟨x, none, rfl⟩
  | cons f fs ih =>
      cases h : (f x).result with
      | error e => exact ⟨x, some e, by simp [runSteps, h]⟩
      | ok x' =>
          obtain ⟨y, err, hy⟩ := ih x'
          exact ⟨y, err, by simp [runSteps, h, hy]⟩

/-- Statements one after the other. -/
theorem runSteps_append (fs gs : List (σ → Run ρ ε σ)) (x : σ) :
    (∃ y e, (runSteps fs x).result = .ok (y, some e) ∧ runSteps (fs ++ gs) x = runSteps fs x) ∨
    ∃ y, (runSteps fs x).result = .ok (y, none) ∧ (runSteps (fs ++ gs) x).result = (runSteps gs y).result ∧
      (runSteps (fs ++ gs) x).opened = (runSteps fs x).opened ++ (runSteps gs y).opened ∧
      (runSteps (fs ++ gs) x).closed = (runSteps fs x).closed ++ (runSteps gs y).closed := by
  induction fs generalizing x with
  | nil => exact .inr ⟨x, rfl, rfl, rfl, rfl⟩
  | cons f fs ih =>
      cases h : (f x).result with
      | error e => exact .inl ⟨x, e, by simp [runSteps, h], by simp [runSteps, h]⟩
      | ok x' =>
          rcases ih x' with ⟨y, e, hy, hs⟩ | ⟨y, hy, hr, ho, hc⟩
          · exact .inl ⟨y, e, by simp [runSteps, h, hy], by simp [runSteps, h, hs]⟩
          · exact .inr ⟨y, by simp [runSteps, h, hy], by simp [runSteps, h, hr], by simp [runSteps, h, ho],
              by simp [runSteps, h, hc]⟩

/-- When none of the statements raises, every one of them returns. -/
theorem runSteps_returned {fs : List (σ → Run ρ ε σ)} {x y : σ} (h : (runSteps fs x).result = .ok (y, none)) :
    ∀ f ∈ fs, ∃ z z', (f z).result = .ok z' := by
  induction fs generalizing x with
  | nil =>
      intro f hf
      exact absurd hf List.not_mem_nil
  | cons f fs ih =>
      intro g hg
      cases hr : (f x).result with
      | error e =>
          rw [runSteps_cons_of_error hr] at h
          cases h
      | ok x' =>
          rw [runSteps_cons_of_ok hr] at h
          rcases List.mem_cons.mp hg with rfl | hg
          · exact ⟨x, x', hr⟩
          · exact ih h g hg

/-- A `try` block whose statements return. -/
theorem tryBlock_of_none {fs : List (σ → Run ρ ε σ)} {x y : σ} {handler final : σ → Run ρ ε Unit}
    (h : (runSteps fs x).result = .ok (y, none)) (hf : (final y).result = .ok ()) :
    tryBlock fs x handler final =
      ⟨.ok y, (runSteps fs x).opened ++ (final y).opened, (runSteps fs x).closed ++ (final y).closed⟩ := by
  rw [tryBlock, bind_of_ok h]
  simp only
  rw [bind_of_ok hf]
  simp

/-- A `try` block one of whose statements raises. -/
theorem tryBlock_of_some {fs : List (σ → Run ρ ε σ)} {x y : σ} {e : ε} {handler final : σ → Run ρ ε Unit}
    (h : (runSteps fs x).result = .ok (y, some e)) (hh : (handler y).result = .ok ())
    (hf : (final y).result = .ok ()) :
    tryBlock fs x handler final =
      ⟨.error e, (runSteps fs x).opened ++ ((handler y).opened ++ (final y).opened),
        (runSteps fs x).closed ++ ((handler y).closed ++ (final y).closed)⟩ := by
  rw [tryBlock, bind_of_ok h]
  simp only
  rw [bind_of_ok hh, bind_of_ok hf]
  simp [raise]

/-! ## Accounts -/

/-- Everything that was opened is closed again or among the resources `held`. -/
def Holds (x : Run ρ ε α) (held : List ρ) : Prop := ∀ r ∈ x.opened, r ∈ x.closed ∨ r ∈ held

/-- Everything that was opened is closed again. -/
def Clean (x : Run ρ ε α) : Prop := ∀ r ∈ x.opened, r ∈ x.closed

theorem Holds.append {o o' c c' held held' : List ρ} (h : ∀ r ∈ o, r ∈ c ∨ r ∈ held)
    (h' : ∀ r ∈ o', r ∈ c' ∨ r ∈ held') (hsub : ∀ r ∈ held, r ∈ c' ∨ r ∈ held') :
    ∀ r ∈ o ++ o', r ∈ c ++ c' ∨ r ∈ held' := by
  intro r hr
  rcases List.mem_append.mp hr with hr | hr
  · rcases h r hr with hc | hh
    · exact .inl (List.mem_append_left _ hc)
    · exact (hsub r hh).imp_left (List.mem_append_right _)
  · exact (h' r hr).imp_left (List.mem_append_right _)

/-- Statements after which the local variables hold what was opened and not closed, also when one of them raises. `P` is what
they expect of the variables, `Q` what they establish. -/
def Keeps (held : σ → List ρ) (P Q : σ → Prop) (fs : List (σ → Run ρ ε σ)) : Prop :=
  ∀ x, P x → ∀ y err, (runSteps fs x).result = .ok (y, err) →
    (runSteps fs x).Holds (held y) ∧ held x ⊆ held y ∧ (err = none → Q y)

variable {held : σ → List ρ} {P Q R : σ → Prop}

theorem keeps_nil : Keeps held P P ([] : List (σ → Run ρ ε σ)) := by
  intro x hx y err h
  simp only [runSteps, Except.ok.injEq, Prod.mk.injEq] at h
  obtain ⟨rfl, rfl⟩ := h
  exact ⟨fun r hr => by simp [runSteps] at hr, List.Subset.refl _, fun _ => hx⟩

/-- A statement cleans up when it raises; otherwise the variables hold what they held and what it leaves open. -/
theorem keeps_one {f : σ → Run ρ ε σ} (hraised : ∀ x e, P x → (f x).result = .error e → (f x).Clean)
    (hreturned : ∀ x x', P x → (f x).result = .ok x' → (f x).Holds (held x') ∧ held x ⊆ held x' ∧ Q x') :
    Keeps held P Q [f] := by
  intro x hx y err h
  cases hr : (f x).result with
  | error e =>
      rw [runSteps_cons_of_error hr] at h ⊢
      simp only [Except.ok.injEq, Prod.mk.injEq] at h
      obtain ⟨rfl, rfl⟩ := h
      refine ⟨fun r hmem => .inl (hraised x e hx hr r hmem), List.Subset.refl _, ?_⟩
      intro herr
      cases herr
  | ok x' =>
      rw [runSteps_cons_of_ok hr] at h ⊢
      simp only [runSteps, Except.ok.injEq, Prod.mk.injEq] at h
      obtain ⟨rfl, rfl⟩ := h
      obtain ⟨hh, hsub, hq⟩ := hreturned x x' hx hr
      refine ⟨?_, hsub, fun _ => hq⟩
      intro r hmem
      simpa [runSteps] using hh r (by simpa [runSteps] using hmem)

theorem Keeps.append {fs gs : List (σ → Run ρ ε σ)} (hf : Keeps held P Q fs) (hg : Keeps held Q R gs) :
    Keeps held P R (fs ++ gs) := by
  intro x hx y err h
  rcases runSteps_append fs gs x with ⟨y', e, hy, hs⟩ | ⟨y', hy, hr, ho, hc⟩
  · rw [hs] at h ⊢
    rw [hy] at h
    simp only [Except.ok.injEq, Prod.mk.injEq] at h
    obtain ⟨rfl, rfl⟩ := h
    obtain ⟨hh, hsub, -⟩ := hf x hx _ _ hy
    refine ⟨hh, hsub, ?_⟩
    intro herr
    cases herr
  · obtain ⟨hh, hsub, hq⟩ := hf x hx _ _ hy
    obtain ⟨hh', hsub', hr'⟩ := hg y' (hq rfl) y err (by rw [← hr, h])
    refine ⟨?_, fun r hmem => hsub' (hsub hmem), hr'⟩
    simp only [Holds, ho, hc]
    exact Holds.append hh hh' fun r hmem => .inr (hsub' hmem)

theorem Keeps.cons {f : σ → Run ρ ε σ} {fs : List (σ → Run ρ ε σ)} (hf : Keeps held P Q [f]) (hg : Keeps held Q R fs) :
    Keeps held P R (f :: fs) := hf.append hg

/-- Statements that all expect and establish the same. -/
theorem keeps_all {fs : List (σ → Run ρ ε σ)} (hfs : ∀ f ∈ fs, Keeps held P P [f]) : Keeps held P P fs := by
  induction fs with
  | nil => exact keeps_nil
  | cons f fs ih =>
      exact (hfs f List.mem_cons_self).cons (ih fun g hg => hfs g (List.mem_cons_of_mem _ hg))

/-! ## Computations that open and close nothing -/

/-- Nothing is opened or closed. -/
structure Silent (x : Run ρ ε α) : Prop where
  opened : x.opened = []
  closed : x.closed = []

theorem Silent.eq {x : Run ρ ε α} (h : x.Silent) : x = ⟨x.result, [], []⟩ := by
  obtain ⟨result, opened, closed⟩ := x
  obtain ⟨rfl, rfl⟩ := h
  rfl

theorem Silent.clean {x : Run ρ ε α} (h : x.Silent) : x.Clean := by
  simp [Clean, h.opened]

theorem silent_call (failure : Option ε) : (call failure : Run ρ ε Unit).Silent := by
  cases failure <;> exact ⟨rfl, rfl⟩

theorem Silent.bind {x : Run ρ ε α} {f : α → Run ρ ε β} (hx : x.Silent) (hf : ∀ a, (f a).Silent) :
    (x >>= f).Silent := by
  cases h : x.result with
  | error e =>
      rw [bind_of_error h]
      exact ⟨hx.opened, hx.closed⟩
  | ok a =>
      rw [bind_of_ok h]
      exact ⟨by simp [hx.opened, (hf a).opened], by simp [hx.closed, (hf a).closed]⟩

theorem silent_pure (a : α) : (pure a : Run ρ ε α).Silent := ⟨rfl, rfl⟩

theorem silent_forM {f : α → Run ρ ε Unit} (hf : ∀ a, (f a).Silent) (l : List α) : (l.forM f).Silent := by
  induction l with
  | nil => exact silent_pure ()
  | cons a l ih => exact (hf a).bind fun _ => ih

theorem call_ok_iff {failure : Option ε} {u : Unit} : (call failure : Run ρ ε Unit).result = .ok u ↔ failure = none := by
  cases failure <;> simp [call, raise]

theorem bind_ok_iff {x : Run ρ ε α} {f : α → Run ρ ε β} {b : β} :
    (x >>= f).result = .ok b ↔ ∃ a, x.result = .ok a ∧ (f a).result = .ok b := by
  cases h : x.result with
  | error e =>
      rw [bind_of_error h]
      simp
  | ok a =>
      rw [bind_of_ok h]
      simp

theorem forM_ok_iff {f : α → Run ρ ε Unit} {l : List α} {u : Unit} :
    (l.forM f).result = .ok u ↔ ∀ a ∈ l, (f a).result = .ok () := by
  induction l with
  | nil => simp [List.forM]
  | cons a l ih =>
      have hcons : (a :: l).forM f = (f a >>= fun _ => l.forM f) := rfl
      rw [hcons, bind_ok_iff, List.forall_mem_cons]
      constructor
      · rintro ⟨_, h, hl⟩
        exact ⟨h, ih.mp hl⟩
      · rintro ⟨h, hl⟩
        exact ⟨(), h, ih.mpr hl⟩

/-- A statement that opens, closes and stores nothing. -/
structure Quiet (f : σ → Run ρ ε σ) : Prop where
  silent : ∀ x, (f x).Silent
  stores : ∀ x x', (f x).result = .ok x' → x' = x

theorem keeps_quiet {fs : List (σ → Run ρ ε σ)} (hfs : ∀ f ∈ fs, Quiet f) : Keeps held P P fs := by
  refine keeps_all fun f hf => keeps_one (fun x e _ _ => ((hfs f hf).silent x).clean) fun x x' hx h => ?_
  obtain rfl := (hfs f hf).stores x x' h
  exact ⟨fun r hr => .inl (((hfs f hf).silent x').clean r hr), List.Subset.refl _, hx⟩

end Run

end Rdma4py.Lib
