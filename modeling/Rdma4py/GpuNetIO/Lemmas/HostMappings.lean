import Mathlib.Algebra.Ring.Nat
import Mathlib.Data.List.Count
import Rdma4py.GpuNetIO.HostMappings
import Rdma4py.GpuNetIO.Lemmas.QueueMemory

/-!
# Pages that several queues share: the references

The references of a page are those of the mappings that hold it and those that failed registrations left behind.
-/

namespace Rdma4py.GpuNetIO

open Lib

variable {m m' : HostMemory} {pages acquired remaining : List Nat} {unregister : Nat → Int} {base : Nat}

/-! ## Sums -/

theorem sum_set {l : List Nat} {i a : Nat} (h : l[i]? = some a) (x : Nat) : (l.set i x).sum + a = l.sum + x := by
  induction l generalizing i with
  | nil => simp at h
  | cons b l ih =>
      cases i with
      | zero =>
          obtain rfl : b = a := by simpa using h
          simp
          omega
      | succ i =>
          have := ih (by simpa using h)
          simp
          omega

theorem le_sum_of_getElem? {l : List Nat} {i a : Nat} (h : l[i]? = some a) : a ≤ l.sum := by
  have := sum_set h 0
  omega

theorem add_le_sum {l : List Nat} {i j a b : Nat} (hi : l[i]? = some a) (hj : l[j]? = some b) (hij : i ≠ j) :
    a + b ≤ l.sum := by
  have hrest : (l.set i 0)[j]? = some b := by rw [List.getElem?_set_ne hij, hj]
  have := le_sum_of_getElem? hrest
  have := sum_set hi 0
  omega

/-! ## The calls of the driver -/

theorem registerCalls_unregistered (register : Nat → Int) (pages : List Nat) (hm : m.Sound) :
    ∀ call ∈ registerCalls register pages m, call.2.registered call.1 = false := by
  induction pages generalizing m with
  | nil => simp [registerCalls]
  | cons base pages ih =>
      have hrest := ih (hm.acquire base)
      by_cases hz : m.refs base = 0
      · have hun : m.registered base = false := by simp [hm base, hz]
        by_cases hfail : register base = 0
        · simpa [registerCalls, hz, hfail, hun] using hrest
        · simp [registerCalls, hz, hfail, hun]
      · simpa [registerCalls, hz] using hrest

/-- The calls are for the pages with one reference. -/
structure Unregisters (pages : List Nat) (m : HostMemory) (calls : List (Nat × HostMemory)) : Prop where
  registered : ∀ call ∈ calls, call.2.registered call.1 = true
  mem : ∀ call ∈ calls, call.1 ∈ pages
  last : ∀ call ∈ calls, m.refs call.1 = 1
  all : ∀ b ∈ pages, m.refs b = 1 → ∃ m', (b, m') ∈ calls

theorem Unregisters.cons {m₁ : HostMemory} {calls : List (Nat × HostMemory)} (h : Unregisters pages m₁ calls)
    (hnot : base ∉ pages) (hrefs : ∀ b, b ≠ base → m₁.refs b = m.refs b) (hmany : m.refs base ≠ 1) :
    Unregisters (base :: pages) m calls := by
  have hne : ∀ b ∈ pages, b ≠ base := fun b hb hbb => hnot (hbb ▸ hb)
  constructor
  case registered => exact h.registered
  case mem => exact fun call hcall => List.mem_cons_of_mem _ (h.mem call hcall)
  case last =>
      intro call hcall
      rw [← hrefs _ (hne _ (h.mem call hcall)), h.last call hcall]
  case all =>
      intro b hb hone
      rcases List.mem_cons.mp hb with rfl | hb
      · exact absurd hone hmany
      · exact h.all b hb (by rw [hrefs _ (hne b hb), hone])

theorem Unregisters.call {m₁ : HostMemory} {calls : List (Nat × HostMemory)} (h : Unregisters pages m₁ calls)
    (hm : m.Sound) (hnot : base ∉ pages) (hrefs : ∀ b, b ≠ base → m₁.refs b = m.refs b) (hone : m.refs base = 1) :
    Unregisters (base :: pages) m ((base, m) :: calls) := by
  have hne : ∀ b ∈ pages, b ≠ base := fun b hb hbb => hnot (hbb ▸ hb)
  constructor
  case registered =>
      intro call hcall
      rcases List.mem_cons.mp hcall with rfl | hcall
      · simp [hm base, hone]
      · exact h.registered call hcall
  case mem =>
      intro call hcall
      rcases List.mem_cons.mp hcall with rfl | hcall
      · simp
      · exact List.mem_cons_of_mem _ (h.mem call hcall)
  case last =>
      intro call hcall
      rcases List.mem_cons.mp hcall with rfl | hcall
      · exact hone
      · rw [← hrefs _ (hne _ (h.mem call hcall)), h.last call hcall]
  case all =>
      intro b hb hb₁
      rcases List.mem_cons.mp hb with rfl | hb
      · exact ⟨m, by simp⟩
      · obtain ⟨m', hm'⟩ := h.all b hb (by rw [hrefs _ (hne b hb), hb₁])
        exact ⟨m', List.mem_cons_of_mem _ hm'⟩

theorem unregisterCalls_spec (unregister : Nat → Int) (hm : m.Sound) (hnd : pages.Nodup)
    (hpos : ∀ b ∈ pages, 0 < m.refs b) : Unregisters pages m (unregisterCalls unregister pages m) := by
  induction pages generalizing m with
  | nil => exact ⟨by simp [unregisterCalls], by simp [unregisterCalls], by simp [unregisterCalls], by simp⟩
  | cons base pages ih =>
      obtain ⟨hnot, hnd⟩ := List.nodup_cons.mp hnd
      have hbase : 0 < m.refs base := hpos base (by simp)
      -- the first page leaves the references of the others as they are
      have hrest : ∀ m₁ : HostMemory, m₁.Sound → (∀ b, b ≠ base → m₁.refs b = m.refs b) →
          Unregisters pages m₁ (unregisterCalls unregister pages m₁) := by
        intro m₁ hs hrefs
        apply ih hs hnd
        intro b hb
        rw [hrefs b fun he => hnot (he ▸ hb)]
        exact hpos b (by simp [hb])
      by_cases hmany : 1 < m.refs base
      · have hrefs : ∀ b, b ≠ base → (m.release base).refs b = m.refs b := by
          intro b hb
          simp [hb]
        rw [unregisterCalls, if_neg (by omega), if_pos hmany]
        exact (hrest _ (hm.release hmany) hrefs).cons hnot hrefs (by omega)
      rw [unregisterCalls, if_neg (by omega), if_neg hmany]
      by_cases hok : unregister base = 0
      · have hrefs : ∀ b, b ≠ base → (m.forget base).refs b = m.refs b := by
          intro b hb
          simp [hb]
        rw [if_pos hok]
        exact (hrest _ (hm.forget base) hrefs).call hm hnot hrefs (by omega)
      · rw [if_neg hok]
        exact (hrest m hm fun _ _ => rfl).call hm hnot (fun _ _ => rfl) (by omega)

/-- When every call succeeds, no page remains. -/
theorem Released.remaining_eq_nil {calls : List (Nat × HostMemory)} (h : Released unregister pages m m' remaining)
    (hcalls : Unregisters pages m calls) (hnd : pages.Nodup) (hpos : ∀ b ∈ pages, 0 < m.refs b)
    (hok : ∀ call ∈ calls, unregister call.1 = 0) : remaining = [] := by
  apply List.eq_nil_iff_forall_not_mem.mpr
  intro b hb
  have hmem := h.sublist.subset hb
  obtain ⟨hle, hfail⟩ := (h.stays hnd b hmem).mp hb
  have := hpos b hmem
  obtain ⟨m₁, hcall⟩ := hcalls.all b hmem (by omega)
  exact hfail (hok _ hcall)

/-! ## Failed registrations -/

/-- An exception that takes the place of the first one says that a page could not be unregistered. -/
theorem rollback_exception (unregister : Nat → Int) (e : Exn) (hm : m.Sound) (hc : ∀ b, pages.count b ≤ m.refs b) :
    ∃ m' remaining e', rollback unregister pages e m = (m', remaining, e') ∧ Released unregister pages m m' remaining ∧
      (remaining = [] ∨ ∃ status : Int, e' = .runtimeError s!"cuMemHostUnregister failed with CUDA status {status}") := by
  obtain ⟨m', remaining, error, heq, h, hnone⟩ := releasePages_spec unregister hm hc
  cases error with
  | none => exact ⟨m', remaining, e, by rw [rollback, closeMappings, heq], h, .inl (hnone.mp rfl)⟩
  | some status => exact ⟨m', remaining, _, by rw [rollback, closeMappings, heq], h, .inr ⟨status, rfl⟩⟩

/-- A failed registration leaves pages behind only when one of them could not be unregistered, and says so. -/
structure Failed (unregister : Nat → Int) (m m' : HostMemory) (calls : List (Nat × HostMemory)) (remaining : List Nat)
    (e : Exn) : Prop where
  refs : ∀ b, m'.refs b = m.refs b + remaining.count b
  registered : ∀ call ∈ calls, call.2.registered call.1 = true
  unheld : ∀ call ∈ calls, m.refs call.1 = 0
  clean : (∀ call ∈ calls, unregister call.1 = 0) → remaining = []
  blames : remaining = [] ∨ ∃ status : Int, e = .runtimeError s!"cuMemHostUnregister failed with CUDA status {status}"

theorem rollback_failed (unregister : Nat → Int) (e : Exn) {m₁ : HostMemory} (h : Acquired pages m m₁ acquired)
    (hnd : pages.Nodup) : ∃ m' remaining e', rollback unregister acquired e m₁ = (m', remaining, e') ∧
      Failed unregister m m' (unregisterCalls unregister acquired m₁) remaining e' := by
  have hc : ∀ b, acquired.count b ≤ m₁.refs b := by
    intro b
    rw [h.refs b]
    exact Nat.le_add_left ..
  have hnd' : acquired.Nodup := hnd.sublist h.sublist
  have hpos : ∀ b ∈ acquired, 0 < m₁.refs b := by
    intro b hb
    have := hc b
    have := List.count_pos_iff.mpr hb
    omega
  have hcalls := unregisterCalls_spec unregister h.sound hnd' hpos
  obtain ⟨m', remaining, e', heq, hrel, hblame⟩ := rollback_exception unregister e h.sound hc
  refine ⟨m', remaining, e', heq, ?_, hcalls.registered, ?_, hrel.remaining_eq_nil hcalls hnd' hpos, hblame⟩
  · intro b
    have := hrel.refs b
    have := h.refs b
    omega
  · intro call hcall
    have := List.count_pos_iff.mpr (hcalls.mem call hcall)
    have := hcalls.last call hcall
    have := h.refs call.1
    omega

theorem registerQueueMemory_failed {pageSize : Nat} {calls : CudaCalls} {info : BridgeInfo} {e : Exn} (hm : m.Sound)
    (h : registerQueueMemory pageSize calls info m = (m', .failed remaining e)) :
    Failed calls.unregister m m' (rollbackCalls pageSize calls info m) remaining e := by
  unfold registerQueueMemory at h
  unfold rollbackCalls
  cases hd : calls.driver with
  | some e₀ =>
      obtain ⟨rfl, rfl, rfl⟩ : m = m' ∧ [] = remaining ∧ e₀ = e := by simpa [hd] using h
      exact ⟨by simp, by simp, by simp, by simp, .inl rfl⟩
  | none =>
      obtain ⟨m₁, acquired, failed, heq, hacq, _⟩ := acquirePages_spec calls.register (queuePages pageSize info) hm
      have hback := fun e => rollback_failed calls.unregister e hacq (queuePages_nodup pageSize info)
      simp only [hd, heq] at h ⊢
      cases failed with
      | some status =>
          obtain ⟨m₂, remaining', e', hr, hf⟩ := hback
            (.runtimeError s!"cuMemHostRegister failed for mlx5 queue memory with CUDA status {status}")
          simp only [hr, Prod.mk.injEq, Registered.failed.injEq] at h
          obtain ⟨rfl, rfl, rfl⟩ := h
          exact hf
      | none =>
          dsimp only at h ⊢
          cases hp : ((List.range (ranges info).length).map calls.devicePointer).find? (· ≠ 0) with
          | none => simp only [hp, Prod.mk.injEq, reduceCtorEq, and_false] at h
          | some status =>
              obtain ⟨m₂, remaining', e', hr, hf⟩ := hback (.runtimeError
                s!"cuMemHostGetDevicePointer failed for mlx5 queue memory with CUDA status {status}")
              simp only [hp, hr, Prod.mk.injEq, Registered.failed.injEq] at h
              obtain ⟨rfl, rfl, rfl⟩ := h
              exact hf

theorem rollbackCalls_of_mappings {pageSize : Nat} {calls : CudaCalls} {info : BridgeInfo}
    (h : registerQueueMemory pageSize calls info m = (m', .mappings pages)) :
    rollbackCalls pageSize calls info m = [] := by
  unfold registerQueueMemory at h
  unfold rollbackCalls
  cases hd : calls.driver with
  | some e => rfl
  | none =>
      rcases hacq : acquirePages calls.register (queuePages pageSize info) m with ⟨m₁, acquired, failed⟩
      cases failed with
      | some status => simp [hd, hacq] at h
      | none =>
          cases hp : ((List.range (ranges info).length).map calls.devicePointer).find? (· ≠ 0) with
          | none => rfl
          | some status => simp only [hd, hacq, hp, Prod.mk.injEq, reduceCtorEq, and_false] at h

/-! ## All mappings of a process -/

namespace Registry

/-- The references are those of the mappings and the lost ones, and a page is registered as long as it has some. -/
structure Inv (pageSize : Nat) (r : Registry) : Prop where
  sound : r.memory.Sound
  refs : ∀ base, r.memory.refs base = (r.mappings.map fun h => h.pages.count base).sum + r.lost.count base
  nodup : ∀ h ∈ r.mappings, h.pages.Nodup
  whole : ∀ h ∈ r.mappings, h.closeCalled = false → h.pages = queuePages pageSize h.info

variable {pageSize : Nat} {r : Registry} {e : Event} {i j : Nat} {h : HostMappings}

theorem getElem?_counts (hi : r.mappings[i]? = some h) (base : Nat) :
    (r.mappings.map fun h => h.pages.count base)[i]? = some (h.pages.count base) := by
  simp [hi]

/-- With each page at most once in a mapping, the counts of a page are those that hold it. -/
theorem sum_count_eq {mappings : List HostMappings} (hnd : ∀ h ∈ mappings, h.pages.Nodup) (base : Nat) :
    (mappings.map fun h => h.pages.count base).sum = mappings.countP fun h => base ∈ h.pages := by
  induction mappings with
  | nil => rfl
  | cons h mappings ih =>
      have hrest := ih fun h' hh' => hnd h' (by simp [hh'])
      by_cases hmem : base ∈ h.pages
      · simp [hmem, hrest, List.count_eq_one_of_mem (hnd h (by simp)) hmem, Nat.add_comm]
      · simp [hmem, hrest, List.count_eq_zero_of_not_mem hmem]

namespace Inv

theorem empty (pageSize : Nat) : Inv pageSize .empty :=
  ⟨HostMemory.empty_sound, by simp [Registry.empty], by simp [Registry.empty], by simp [Registry.empty]⟩

theorem refs_eq (hr : Inv pageSize r) (base : Nat) : r.memory.refs base = r.holders base + r.lost.count base := by
  rw [hr.refs base, sum_count_eq hr.nodup, holders]

theorem count_le (hr : Inv pageSize r) (hi : r.mappings[i]? = some h) (base : Nat) :
    h.pages.count base ≤ r.memory.refs base := by
  have := le_sum_of_getElem? (getElem?_counts hi base)
  have := hr.refs base
  omega

theorem pos_of_mem (hr : Inv pageSize r) (hi : r.mappings[i]? = some h) {base : Nat} (hb : base ∈ h.pages) :
    0 < r.memory.refs base := by
  have := hr.count_le hi base
  have := List.count_pos_iff.mpr hb
  omega

/-- The only reference of a page is that of the only mapping that holds it. -/
theorem holder_unique (hr : Inv pageSize r) {h' : HostMappings} (hi : r.mappings[i]? = some h)
    (hj : r.mappings[j]? = some h') {base : Nat} (hb : base ∈ h.pages) (hb' : base ∈ h'.pages)
    (hone : r.memory.refs base = 1) : i = j := by
  by_contra hij
  have := add_le_sum (getElem?_counts hi base) (getElem?_counts hj base) hij
  have := List.count_pos_iff.mpr hb
  have := List.count_pos_iff.mpr hb'
  have := hr.refs base
  omega

theorem register (hr : Inv pageSize r) (info : BridgeInfo) (calls : CudaCalls) :
    Inv pageSize (r.next pageSize (.register info calls)) := by
  obtain ⟨m, hs, ⟨heq, hrefs⟩ | ⟨remaining, e, heq, hrefs⟩⟩ :=
    registerQueueMemory_spec pageSize calls info hr.sound
  · simp only [next, heq]
    constructor
    case sound => exact hs
    case refs =>
        intro base
        have := hr.refs base
        simp [hrefs base]
        omega
    case nodup =>
        intro h hh
        rcases List.mem_append.mp hh with hh | hh
        · exact hr.nodup h hh
        · obtain rfl := List.mem_singleton.mp hh
          exact queuePages_nodup pageSize info
    case whole =>
        intro h hh hopen
        rcases List.mem_append.mp hh with hh | hh
        · exact hr.whole h hh hopen
        · obtain rfl := List.mem_singleton.mp hh
          rfl
  · simp only [next, heq]
    constructor
    case sound => exact hs
    case refs =>
        intro base
        have := hr.refs base
        simp [hrefs base]
        omega
    case nodup => exact hr.nodup
    case whole => exact hr.whole

theorem close (hr : Inv pageSize r) (i : Nat) (unregister : Nat → Int) :
    Inv pageSize (r.next pageSize (.close i unregister)) := by
  cases hi : r.mappings[i]? with
  | none => simpa [next, hi] using hr
  | some h =>
      obtain ⟨m, remaining, result, heq, hrel, _⟩ := closeMappings_spec unregister hr.sound (hr.count_le hi)
      have hmem : h ∈ r.mappings := List.mem_of_getElem? hi
      simp only [next, hi, heq]
      constructor
      case sound => exact hrel.sound
      case refs =>
          intro base
          have := hrel.refs base
          have := hr.refs base
          have := sum_set (getElem?_counts hi base) (remaining.count base)
          simp only [List.map_set]
          omega
      case nodup =>
          intro h' hh'
          rcases List.mem_or_eq_of_mem_set hh' with hh' | rfl
          · exact hr.nodup h' hh'
          · exact (hr.nodup h hmem).sublist hrel.sublist
      case whole =>
          intro h' hh' hopen
          rcases List.mem_or_eq_of_mem_set hh' with hh' | rfl
          · exact hr.whole h' hh' hopen
          · simp at hopen

theorem next (hr : Inv pageSize r) (e : Event) : Inv pageSize (r.next pageSize e) := by
  cases e with
  | register info calls => exact hr.register info calls
  | close i unregister => exact hr.close i unregister

theorem of_reaches (hr : (machine pageSize).Reaches .empty r) : Inv pageSize r :=
  hr.invariant (fun _ e hi _ => hi.next e) (.empty pageSize)

/-! ## What an event asks the driver for -/

theorem registers (hr : Inv pageSize r) : ∀ call ∈ r.registers pageSize e, call.2.registered call.1 = false := by
  cases e with
  | close i unregister => simp [Registry.registers]
  | register info calls =>
      cases hd : calls.driver with
      | some e => simp [Registry.registers, hd]
      | none =>
          simpa [Registry.registers, hd] using
            registerCalls_unregistered calls.register (queuePages pageSize info) hr.sound

/-- A rollback asks for pages that no mappings hold. -/
theorem rollbackCalls (hr : Inv pageSize r) (info : BridgeInfo) (calls : CudaCalls) :
    ∀ call ∈ GpuNetIO.rollbackCalls pageSize calls info r.memory,
      call.2.registered call.1 = true ∧ r.memory.refs call.1 = 0 := by
  intro call hcall
  obtain ⟨m, _, ⟨heq, _⟩ | ⟨remaining, e, heq, _⟩⟩ := registerQueueMemory_spec pageSize calls info hr.sound
  · rw [rollbackCalls_of_mappings heq] at hcall
    simp at hcall
  · have hf := registerQueueMemory_failed hr.sound heq
    exact ⟨hf.registered call hcall, hf.unheld call hcall⟩

/-- A page that is unregistered was registered, and only mappings that are being closed hold it. -/
theorem unregisters (hr : Inv pageSize r) : ∀ call ∈ r.unregisters pageSize e,
    call.2.registered call.1 = true ∧ ∀ j h, r.mappings[j]? = some h → call.1 ∈ h.pages → e.Closes j := by
  intro call hcall
  cases e with
  | register info calls =>
      obtain ⟨hreg, hzero⟩ := hr.rollbackCalls info calls call hcall
      refine ⟨hreg, fun j h hj hb => ?_⟩
      have := hr.pos_of_mem hj hb
      omega
  | close i unregister =>
      cases hi : r.mappings[i]? with
      | none => simp [Registry.unregisters, hi] at hcall
      | some h =>
          have hcalls := unregisterCalls_spec unregister hr.sound (hr.nodup h (List.mem_of_getElem? hi))
            fun _ hb => hr.pos_of_mem hi hb
          simp only [Registry.unregisters, hi] at hcall
          refine ⟨hcalls.registered call hcall, fun j h' hj hb => ?_⟩
          exact hr.holder_unique hi hj (hcalls.mem call hcall) hb (hcalls.last call hcall)

/-- A registration that fails, and says another thing than that a page could not be unregistered, changes nothing. -/
theorem failed (hr : Inv pageSize r) {info : BridgeInfo} {calls : CudaCalls} {m : HostMemory} {remaining : List Nat}
    {ex : Exn} (h : registerQueueMemory pageSize calls info r.memory = (m, .failed remaining ex))
    (hex : ∀ status : Int, ex ≠ .runtimeError s!"cuMemHostUnregister failed with CUDA status {status}") :
    m.refs = r.memory.refs := by
  have hf := registerQueueMemory_failed hr.sound h
  rcases hf.blames with rfl | ⟨status, he⟩
  · funext b
    simpa using hf.refs b
  · exact absurd he (hex status)

theorem lost_next (hr : Inv pageSize r) (hlost : r.lost = []) (he : r.RollsBack pageSize e) :
    (r.next pageSize e).lost = [] := by
  cases e with
  | close i unregister =>
      cases hi : r.mappings[i]? with
      | none => simpa [Registry.next, hi] using hlost
      | some h => simpa [Registry.next, hi] using hlost
  | register info calls =>
      obtain ⟨m, _, ⟨heq, _⟩ | ⟨remaining, ex, heq, _⟩⟩ := registerQueueMemory_spec pageSize calls info hr.sound
      · simpa [Registry.next, heq] using hlost
      · obtain rfl := (registerQueueMemory_failed hr.sound heq).clean he
        simpa [Registry.next, heq] using hlost

theorem lost_of_reaches (hr : ((machine pageSize).when (RollsBack pageSize)).Reaches .empty r) :
    Inv pageSize r ∧ r.lost = [] := by
  have hstep : ∀ r e, Inv pageSize r ∧ r.lost = [] → ((machine pageSize).when (RollsBack pageSize)).Enabled r e →
      Inv pageSize (r.next pageSize e) ∧ (r.next pageSize e).lost = [] := fun _ e hi he =>
    ⟨hi.1.next e, hi.1.lost_next hi.2 he.2⟩
  exact hr.invariant hstep ⟨.empty pageSize, rfl⟩

end Inv

end Registry

end Rdma4py.GpuNetIO
