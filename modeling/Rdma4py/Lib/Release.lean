import Mathlib.Logic.Function.Basic

/-!
# Releasing resources again and again

An owner holds resources in named places. A release closes every held resource in turn, also after the `close` of
another one failed. What failed stays held, and the next release tries it again.
-/

namespace Rdma4py.Lib

variable {ρ ε : Type}

/-- A call of a resource's `close`, and what it raised. -/
structure Attempt (ρ ε : Type) where
  resource : ρ
  error : Option ε
  deriving DecidableEq, Repr

/-- Which places hold a resource. The record: the resources that were opened, and the calls of their `close`. -/
structure Holder (ρ ε : Type) where
  held : ρ → Bool := fun _ => false
  opened : List ρ := []
  attempts : List (Attempt ρ ε) := []

namespace Holder

/-- The record agrees with what is held: no attempt follows one that closed the same resource, and what was opened is
either held or closed. -/
structure Sound (h : Holder ρ ε) : Prop where
  once : h.attempts.Pairwise fun a b => a.error = none → b.resource ≠ a.resource
  closed : ∀ a ∈ h.attempts, a.error = none → h.held a.resource = false
  attempted : ∀ a ∈ h.attempts, a.resource ∈ h.opened
  opened : ∀ r ∈ h.opened, h.held r = true ∨ ⟨r, none⟩ ∈ h.attempts
  held : ∀ r, h.held r = true → r ∈ h.opened

theorem Sound.empty : Sound ({} : Holder ρ ε) where
  once := .nil
  closed := by simp
  attempted := by simp
  opened := by simp
  held := by simp

variable [DecidableEq ρ]

/-! ## The operations -/

/-- A new resource. -/
def hold (h : Holder ρ ε) (r : ρ) : Holder ρ ε :=
  { h with held := Function.update h.held r true, opened := h.opened ++ [r] }

/-- Close a resource. It is given up only when `close` returns. -/
def close (h : Holder ρ ε) (r : ρ) : Option ε → Holder ρ ε
  | none => { h with held := Function.update h.held r false, attempts := h.attempts ++ [⟨r, none⟩] }
  | some e => { h with attempts := h.attempts ++ [⟨r, some e⟩] }

/-- Close what the places of the list hold, and collect what the calls raise. -/
def release (raises : ρ → Option ε) : List ρ → Holder ρ ε → Holder ρ ε × List ε
  | [], h => (h, [])
  | r :: rs, h =>
      if h.held r then
        let (h', errors) := release raises rs (h.close r (raises r))
        (h', (raises r).toList ++ errors)
      else release raises rs h

/-! ## One release -/

@[simp] theorem hold_attempts (h : Holder ρ ε) (r : ρ) : (h.hold r).attempts = h.attempts := rfl

@[simp] theorem hold_opened (h : Holder ρ ε) (r : ρ) : (h.hold r).opened = h.opened ++ [r] := rfl

@[simp] theorem close_opened (h : Holder ρ ε) (r : ρ) (error : Option ε) : (h.close r error).opened = h.opened := by
  cases error <;> rfl

@[simp] theorem close_attempts (h : Holder ρ ε) (r : ρ) (error : Option ε) :
    (h.close r error).attempts = h.attempts ++ [⟨r, error⟩] := by
  cases error <;> rfl

theorem close_held (h : Holder ρ ε) (r : ρ) (error : Option ε) (r' : ρ) :
    (h.close r error).held r' = if r' = r ∧ error = none then false else h.held r' := by
  cases error with
  | none => by_cases hr : r' = r <;> simp [close, hr]
  | some e => simp [close]

@[simp] theorem close_held_of_ne (h : Holder ρ ε) {r r' : ρ} (error : Option ε) (hne : r' ≠ r) :
    (h.close r error).held r' = h.held r' := by
  simp [close_held, hne]

@[simp] theorem release_opened (raises : ρ → Option ε) (rs : List ρ) (h : Holder ρ ε) :
    (h.release raises rs).1.opened = h.opened := by
  induction rs generalizing h with
  | nil => rfl
  | cons r rs ih =>
      by_cases hr : h.held r
      · simp [release, hr, ih]
      · simp [release, hr, ih]

/-- Closing one place leaves what the other places hold. -/
theorem filter_held_close {r : ρ} {rs : List ρ} (hr : r ∉ rs) (h : Holder ρ ε) (error : Option ε) :
    rs.filter (h.close r error).held = rs.filter h.held := by
  refine List.filter_congr ?_
  intro r' hr'
  have hne : r' ≠ r := by
    rintro rfl
    exact hr hr'
  exact h.close_held_of_ne error hne

/-- Every held resource is attempted once, in order, whatever the other calls do. -/
theorem release_attempts (raises : ρ → Option ε) {rs : List ρ} (hrs : rs.Nodup) (h : Holder ρ ε) :
    (h.release raises rs).1.attempts = h.attempts ++ (rs.filter h.held).map fun r => ⟨r, raises r⟩ := by
  induction rs generalizing h with
  | nil => simp [release]
  | cons r rs ih =>
      obtain ⟨hr, hrs⟩ := List.nodup_cons.mp hrs
      by_cases hheld : h.held r
      · simp [release, hheld, ih hrs, filter_held_close hr]
      · simp [release, hheld, ih hrs]

/-- What is collected are the errors of these attempts. -/
theorem release_errors (raises : ρ → Option ε) {rs : List ρ} (hrs : rs.Nodup) (h : Holder ρ ε) :
    (h.release raises rs).2 = (rs.filter h.held).filterMap raises := by
  induction rs generalizing h with
  | nil => simp [release]
  | cons r rs ih =>
      obtain ⟨hr, hrs⟩ := List.nodup_cons.mp hrs
      by_cases hheld : h.held r
      · cases hraises : raises r with
        | none => simp [release, hheld, hraises, ih hrs, filter_held_close hr]
        | some e => simp [release, hheld, hraises, ih hrs, filter_held_close hr]
      · simp [release, hheld, ih hrs]

theorem release_errors_eq_nil (raises : ρ → Option ε) {rs : List ρ} (hrs : rs.Nodup) (h : Holder ρ ε) :
    (h.release raises rs).2 = [] ↔ ∀ r ∈ rs, h.held r → raises r = none := by
  rw [release_errors raises hrs, List.filterMap_eq_nil_iff]
  simp

/-- What is still held: what failed, and what the list does not name. -/
theorem release_held (raises : ρ → Option ε) {rs : List ρ} (hrs : rs.Nodup) (h : Holder ρ ε) (r : ρ) :
    (h.release raises rs).1.held r = true ↔ h.held r = true ∧ (r ∈ rs → raises r ≠ none) := by
  induction rs generalizing h with
  | nil => simp [release]
  | cons r' rs ih =>
      obtain ⟨hr', hrs⟩ := List.nodup_cons.mp hrs
      by_cases hheld : h.held r'
      · simp only [release, hheld, if_true, ih hrs, close_held]
        by_cases heq : r = r'
        · subst heq
          cases hraises : raises r <;> simp [hheld, hr']
        · simp [heq]
      · simp only [release, hheld, Bool.false_eq_true, if_false, ih hrs]
        by_cases heq : r = r'
        · subst heq
          simp [hheld]
        · simp [heq]

/-! ## All releases -/

theorem Sound.hold {h : Holder ρ ε} (hs : h.Sound) {r : ρ} (hr : r ∉ h.opened) : (h.hold r).Sound where
  once := hs.once
  closed := by
    intro a ha herror
    have hne : a.resource ≠ r := by
      rintro rfl
      exact hr (hs.attempted a ha)
    have hclosed := hs.closed a ha herror
    simpa [Holder.hold, hne] using hclosed
  attempted := by
    intro a ha
    have hopened := hs.attempted a ha
    simp [hopened]
  opened := by
    intro r' hr'
    by_cases heq : r' = r
    · simp [Holder.hold, heq]
    · rw [hold_opened, List.mem_append, List.mem_singleton] at hr'
      have hopened := hs.opened r' (hr'.resolve_right heq)
      simpa [Holder.hold, heq] using hopened
  held := by
    intro r' hr'
    by_cases heq : r' = r
    · simp [heq]
    · have hheld := hs.held r' (by simpa [Holder.hold, heq] using hr')
      simp [hheld]

theorem Sound.close {h : Holder ρ ε} (hs : h.Sound) {r : ρ} (hr : h.held r = true) (error : Option ε) :
    (h.close r error).Sound where
  once := by
    rw [close_attempts, List.pairwise_append]
    refine ⟨hs.once, List.pairwise_singleton _ _, ?_⟩
    intro a ha b hb hnone heq
    rw [List.mem_singleton.mp hb] at heq
    have hclosed := hs.closed a ha hnone
    rw [← heq, hr] at hclosed
    exact Bool.noConfusion hclosed
  closed := by
    intro a ha hnone
    rw [close_attempts, List.mem_append, List.mem_singleton] at ha
    rw [close_held]
    rcases ha with ha | rfl
    · simp [hs.closed a ha hnone]
    · simp [show error = none from hnone]
  attempted := by
    intro a ha
    rw [close_attempts, List.mem_append, List.mem_singleton] at ha
    rw [close_opened]
    rcases ha with ha | rfl
    · exact hs.attempted a ha
    · exact hs.held r hr
  opened := by
    intro r' hr'
    rw [close_opened] at hr'
    rw [close_held, close_attempts]
    by_cases heq : r' = r
    · cases error <;> simp [heq, hr]
    · simpa [heq] using hs.opened r' hr'
  held := by
    intro r' hr'
    rw [close_held] at hr'
    rw [close_opened]
    refine hs.held r' ?_
    split at hr'
    · exact Bool.noConfusion hr'
    · exact hr'

theorem Sound.release {h : Holder ρ ε} (hs : h.Sound) (raises : ρ → Option ε) (rs : List ρ) :
    (h.release raises rs).1.Sound := by
  induction rs generalizing h with
  | nil => exact hs
  | cons r rs ih =>
      by_cases hheld : h.held r
      · simp only [Holder.release, hheld, if_true]
        exact ih (hs.close hheld _)
      · simp only [Holder.release, hheld, Bool.false_eq_true, if_false]
        exact ih hs

end Holder

end Rdma4py.Lib
