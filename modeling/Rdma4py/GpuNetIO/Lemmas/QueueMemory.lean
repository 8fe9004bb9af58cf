import Mathlib.Tactic.Common
import Rdma4py.GpuNetIO.QueueMemory

/-!
# The pages and their references

What the loops over pages do to the references, and that they keep registrations and references together.
-/

namespace Rdma4py.GpuNetIO

variable {m m' : HostMemory} {pages acquired remaining : List Nat} {register unregister : Nat → Int} {base : Nat}

/-! ## Pages -/

theorem mem_queuePages {pageSize : Nat} {info : BridgeInfo} :
    base ∈ queuePages pageSize info ↔ ∃ part ∈ ranges info, base ∈ pageRange pageSize part := by
  simp [queuePages, List.mem_insertionSort, List.mem_flatMap]

theorem queuePages_nodup (pageSize : Nat) (info : BridgeInfo) : (queuePages pageSize info).Nodup :=
  (List.perm_insertionSort _ _).nodup_iff.mpr (List.nodup_dedup _)

/-- The page of every byte of the queue memory is one of its pages. -/
theorem pageBase_mem_queuePages {pageSize : Nat} (hp : 0 < pageSize) {info : BridgeInfo} {part : Nat × Nat}
    (hpart : part ∈ ranges info) {address : Nat} (hlo : part.1 ≤ address) (hhi : address < part.1 + part.2) :
    pageBase pageSize address ∈ queuePages pageSize info := by
  refine mem_queuePages.mpr ⟨part, hpart, ?_⟩
  have hfirst : part.1 / pageSize ≤ address / pageSize := Nat.div_le_div_right hlo
  have hlast : address / pageSize + 1 ≤ (part.1 + part.2 + pageSize - 1) / pageSize := by
    rw [Nat.le_div_iff_mul_le hp, Nat.add_mul, Nat.one_mul]
    have := Nat.div_mul_le_self address pageSize
    omega
  simp only [pageRange, pageBase, List.mem_range', ← Nat.sub_mul]
  refine ⟨address / pageSize - part.1 / pageSize, ?_, ?_⟩
  · rw [Nat.mul_div_cancel _ hp]
    omega
  · rw [Nat.mul_comm pageSize, ← Nat.add_mul]
    congr 1
    omega

theorem queuePages_ne_nil {pageSize : Nat} (hp : 0 < pageSize) (info : BridgeInfo) : queuePages pageSize info ≠ [] := by
  have hdbrec : (info.sqDbrec, 4) ∈ ranges info := by simp [ranges]
  exact List.ne_nil_of_mem (pageBase_mem_queuePages hp hdbrec (Nat.le_refl _) (by simp))

/-! ## References and registrations -/

namespace HostMemory

/-- A page is registered exactly as long as it has references. -/
def Sound (m : HostMemory) : Prop := ∀ base, m.registered base = decide (0 < m.refs base)

theorem empty_sound : empty.Sound := fun _ => by simp [empty]

theorem Sound.acquire (h : m.Sound) (base : Nat) : (m.acquire base).Sound := by
  intro b
  have hb := h b
  by_cases hz : m.refs base = 0 <;> by_cases he : b = base <;>
    simp_all [HostMemory.acquire]
  omega

theorem Sound.release (h : m.Sound) (hrefs : 1 < m.refs base) : (m.release base).Sound := by
  intro b
  have hb := h b
  by_cases he : b = base <;> simp_all [HostMemory.release]
  omega

theorem Sound.forget (h : m.Sound) (base : Nat) : (m.forget base).Sound := by
  intro b
  have hb := h b
  by_cases he : b = base <;> simp_all [HostMemory.forget]

end HostMemory

/-- What the registration of pages leads to. -/
structure Acquired (pages : List Nat) (m m' : HostMemory) (acquired : List Nat) : Prop where
  sound : m'.Sound
  sublist : acquired.Sublist pages
  refs : ∀ b, m'.refs b = m.refs b + acquired.count b

theorem acquirePages_spec (register : Nat → Int) (pages : List Nat) (hm : m.Sound) :
    ∃ m' acquired failed, acquirePages register pages m = (m', acquired, failed) ∧
    Acquired pages m m' acquired ∧ (failed = none → acquired = pages) := by
  induction pages generalizing m with
  | nil => exact ⟨m, [], none, rfl, ⟨hm, .refl _, by simp⟩, fun _ => rfl⟩
  | cons base pages ih =>
      by_cases hfail : m.refs base = 0 ∧ register base ≠ 0
      · exact ⟨m, [], some (register base), by rw [acquirePages, if_pos hfail], ⟨hm, by simp, by simp⟩, by simp⟩
      · obtain ⟨m', acquired, failed, heq, h, hall⟩ := ih (hm.acquire base)
        refine ⟨m', base :: acquired, failed, by rw [acquirePages, if_neg hfail, heq], ⟨h.sound, ?_, ?_⟩, ?_⟩
        · exact h.sublist.cons_cons base
        · intro b
          rw [h.refs b, HostMemory.acquire_refs, Function.update_apply, List.count_cons]
          by_cases hb : b = base
          · subst hb
            simp
            omega
          · simp [hb, Ne.symm hb]
        · intro hnone
          rw [hall hnone]

/-- What the closing of mappings leads to: each page loses the reference that the mappings had, or remains in them. -/
structure Released (unregister : Nat → Int) (pages : List Nat) (m m' : HostMemory) (remaining : List Nat) : Prop where
  sound : m'.Sound
  sublist : remaining.Sublist pages
  refs : ∀ b, m'.refs b + pages.count b = m.refs b + remaining.count b
  stays : pages.Nodup → ∀ b ∈ pages, b ∈ remaining ↔ m.refs b ≤ 1 ∧ unregister b ≠ 0

/-- The first page is given up: by one reference less, or by the end of its registration. -/
theorem Released.cons {m₁ : HostMemory} (h : Released unregister pages m₁ m' remaining)
    (hrefs : m₁.refs = Function.update m.refs base (m.refs base - 1)) (hpos : 0 < m.refs base)
    (hgone : 1 < m.refs base ∨ unregister base = 0) : Released unregister (base :: pages) m m' remaining := by
  refine ⟨h.sound, h.sublist.trans (List.sublist_cons_self ..), fun b => ?_, fun hnd b hb => ?_⟩
  · have := h.refs b
    rw [hrefs, Function.update_apply] at this
    rw [List.count_cons]
    by_cases hb : b = base
    · subst hb
      simp at this ⊢
      omega
    · simpa [hb, Ne.symm hb] using this
  · obtain ⟨hnotin, hnd⟩ := List.nodup_cons.mp hnd
    rcases List.mem_cons.mp hb with rfl | hb
    · have hout : b ∉ remaining := fun hr => hnotin (h.sublist.subset hr)
      simp only [hout, false_iff]
      omega
    · have hne : b ≠ base := fun he => hnotin (he ▸ hb)
      rw [h.stays hnd b hb, hrefs, Function.update_of_ne hne]

/-- The first page stays: its only reference could not be given up. -/
theorem Released.keep (h : Released unregister pages m m' remaining) (hone : m.refs base ≤ 1)
    (hfail : unregister base ≠ 0) : Released unregister (base :: pages) m m' (base :: remaining) := by
  refine ⟨h.sound, h.sublist.cons_cons base, fun b => ?_, fun hnd b hb => ?_⟩
  · have := h.refs b
    rw [List.count_cons, List.count_cons]
    omega
  · obtain ⟨hnotin, hnd⟩ := List.nodup_cons.mp hnd
    rcases List.mem_cons.mp hb with rfl | hb
    · simp [hone, hfail]
    · have hne : b ≠ base := fun he => hnotin (he ▸ hb)
      rw [List.mem_cons, h.stays hnd b hb]
      simp [hne]

theorem releasePages_spec (unregister : Nat → Int) (hm : m.Sound) (hc : ∀ b, pages.count b ≤ m.refs b) :
    ∃ m' remaining error, releasePages unregister pages m = (m', .ok (remaining, error)) ∧
      Released unregister pages m m' remaining ∧ (error = none ↔ remaining = []) := by
  induction pages generalizing m with
  | nil => exact ⟨m, [], none, rfl, ⟨hm, .refl _, by simp, by simp⟩, by simp⟩
  | cons base pages ih =>
      have hpos : 0 < m.refs base := by
        have := hc base
        rw [List.count_cons_self] at this
        omega
      -- the reference that is given up is the one that the first page of the list counts for
      have hrest : ∀ m₁ : HostMemory, m₁.refs = Function.update m.refs base (m.refs base - 1) →
          ∀ b, pages.count b ≤ m₁.refs b := by
        intro m₁ hrefs b
        have := hc b
        rw [hrefs, Function.update_apply]
        rw [List.count_cons] at this
        by_cases hb : b = base
        · subst hb
          simp at this ⊢
          omega
        · simpa [hb, Ne.symm hb] using this
      have hz : m.refs base ≠ 0 := by omega
      by_cases hmany : 1 < m.refs base
      · obtain ⟨m', remaining, error, heq, h, hnone⟩ := ih (hm.release hmany) (hrest _ rfl)
        exact ⟨m', remaining, error, by rw [releasePages, if_neg hz, if_pos hmany, heq],
          h.cons rfl hpos (.inl hmany), hnone⟩
      by_cases hok : unregister base = 0
      · have hrefs : (m.forget base).refs = Function.update m.refs base (m.refs base - 1) := by
          rw [HostMemory.forget_refs, show m.refs base - 1 = 0 by omega]
        obtain ⟨m', remaining, error, heq, h, hnone⟩ := ih (hm.forget base) (hrest _ hrefs)
        exact ⟨m', remaining, error, by rw [releasePages, if_neg hz, if_neg hmany, if_pos hok, heq],
          h.cons hrefs hpos (.inr hok), hnone⟩
      · have hc' : ∀ b, pages.count b ≤ m.refs b := fun b =>
          (List.count_le_count_cons ..).trans (hc b)
        obtain ⟨m', remaining, error, heq, h, _⟩ := ih hm hc'
        exact ⟨m', base :: remaining, some (unregister base),
          by rw [releasePages, if_neg hz, if_neg hmany, if_neg hok, heq], h.keep (by omega) hok, by simp⟩

/-- Closing raises exactly when pages remain. -/
theorem closeMappings_spec (unregister : Nat → Int) (hm : m.Sound) (hc : ∀ b, pages.count b ≤ m.refs b) :
    ∃ m' remaining result, closeMappings unregister pages m = (m', remaining, result) ∧
      Released unregister pages m m' remaining ∧ (result = .ok () ↔ remaining = []) := by
  obtain ⟨m', remaining, error, heq, h, hnone⟩ := releasePages_spec unregister hm hc
  cases error with
  | none => exact ⟨m', remaining, .ok (), by rw [closeMappings, heq], h, by simpa using hnone⟩
  | some status => exact ⟨m', remaining, .error _, by rw [closeMappings, heq], h, by simpa using hnone⟩

theorem rollback_spec (unregister : Nat → Int) (e : Exn) (hm : m.Sound) (hc : ∀ b, pages.count b ≤ m.refs b) :
    ∃ m' remaining e', rollback unregister pages e m = (m', remaining, e') ∧
      Released unregister pages m m' remaining := by
  obtain ⟨m', remaining, result, heq, h, _⟩ := closeMappings_spec unregister hm hc
  cases result with
  | error e' => exact ⟨m', remaining, e', by rw [rollback, heq], h⟩
  | ok _ => exact ⟨m', remaining, e, by rw [rollback, heq], h⟩

/-- What `_register_queue_memory` holds at its end: every page of the queue memory, or what its rollback could not give
back. -/
theorem registerQueueMemory_spec (pageSize : Nat) (calls : CudaCalls) (info : BridgeInfo) (hm : m.Sound) :
    ∃ m', m'.Sound ∧
      ((registerQueueMemory pageSize calls info m = (m', .mappings (queuePages pageSize info)) ∧
          ∀ b, m'.refs b = m.refs b + (queuePages pageSize info).count b) ∨
        ∃ remaining e, registerQueueMemory pageSize calls info m = (m', .failed remaining e) ∧
          ∀ b, m'.refs b = m.refs b + remaining.count b) := by
  unfold registerQueueMemory
  cases calls.driver with
  | some e => exact ⟨m, hm, .inr ⟨[], e, rfl, by simp⟩⟩
  | none =>
      obtain ⟨m₁, acquired, failed, heq, h, hall⟩ :=
        acquirePages_spec calls.register (queuePages pageSize info) hm
      have hback : ∀ e, ∃ m' remaining e', rollback calls.unregister acquired e m₁ = (m', remaining, e') ∧
          m'.Sound ∧ ∀ b, m'.refs b = m.refs b + remaining.count b := by
        intro e
        have hc : ∀ b, acquired.count b ≤ m₁.refs b := fun b => by
          rw [h.refs b]
          exact Nat.le_add_left ..
        obtain ⟨m', remaining, e', hr, hrel⟩ := rollback_spec calls.unregister e h.sound hc
        refine ⟨m', remaining, e', hr, hrel.sound, fun b => ?_⟩
        have h₁ := hrel.refs b
        have h₂ := h.refs b
        omega
      simp only [heq]
      cases failed with
      | some status =>
          obtain ⟨m', remaining, e', hr, hs, hrefs⟩ := hback
            (.runtimeError s!"cuMemHostRegister failed for mlx5 queue memory with CUDA status {status}")
          exact ⟨m', hs, .inr ⟨remaining, e', by simp only [hr], hrefs⟩⟩
      | none =>
          obtain rfl := hall rfl
          dsimp only
          split
          · exact ⟨m₁, h.sound, .inl ⟨rfl, h.refs⟩⟩
          next status _ =>
            obtain ⟨m', remaining, e', hr, hs, hrefs⟩ := hback (.runtimeError
              s!"cuMemHostGetDevicePointer failed for mlx5 queue memory with CUDA status {status}")
            exact ⟨m', hs, .inr ⟨remaining, e', by simp only [hr], hrefs⟩⟩

end Rdma4py.GpuNetIO
