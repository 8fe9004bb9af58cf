import Rdma4py.GpuNetIO.DeviceQP
import Rdma4py.GpuNetIO.Lemmas.QueueMemory
import Rdma4py.Lib.Outcome

/-!
# What one call does to the handles

Each call has a few outcomes; the lemmas here say which. The invariants are proved from them.
-/

namespace Rdma4py.GpuNetIO

open Lib

variable {w w' : World} {m : HostMemory} {pageSize : Nat} {base q cq i : Nat} {d : DeviceQP}

/-- The mappings of the handle have the page. -/
def DeviceQP.holds (d : DeviceQP) (base : Nat) : Bool :=
  match d.mappings with
  | none => false
  | some pages => decide (base ∈ pages)

theorem DeviceQP.holds_of_some {pages : List Nat} (h : d.mappings = some pages) (base : Nat) :
    d.holds base = decide (base ∈ pages) := by
  rw [DeviceQP.holds, h]

/-- Replacing an element changes the count by what it counted and what it counts now. -/
theorem countP_set_add {α : Type*} {p : α → Bool} {l : List α} {i : Nat} {x a : α} (h : l[i]? = some x) :
    (l.set i a).countP p + (p x).toNat = l.countP p + (p a).toNat := by
  obtain ⟨hi, hx⟩ := List.getElem?_eq_some_iff.mp h
  have hpos : (p x).toNat ≤ l.countP p := by
    cases hp : p x with
    | false => exact Nat.zero_le _
    | true => exact List.one_le_countP_iff.mpr ⟨x, List.mem_of_getElem? h, hp⟩
  rw [List.countP_set hi, hx]
  cases hp : p x <;> cases ha : p a <;> simp_all

/-! ## The attributes of the QPs never change -/

namespace World

@[simp] theorem addUsers_toQPAttrs (q' : Nat) (n : Int) :
    ((w.addUsers q n).qps q').toQPAttrs = (w.qps q').toQPAttrs := by
  by_cases h : q' = q <;> simp [addUsers, h]

@[simp] theorem transferOwnership_toQPAttrs (q' : Nat) :
    ((w.transferOwnership q).qps q').toQPAttrs = (w.qps q').toQPAttrs := by
  by_cases h : q' = q <;> simp [transferOwnership, h]

@[simp] theorem transferOwnership_handles : (w.transferOwnership q).handles = w.handles := rfl

@[simp] theorem addUsers_handles (n : Int) : (w.addUsers q n).handles = w.handles := rfl

@[simp] theorem transferOwnership_leaked : (w.transferOwnership q).leaked = w.leaked := rfl

@[simp] theorem addUsers_leaked (n : Int) : (w.addUsers q n).leaked = w.leaked := rfl

theorem uses_congr (h : ∀ q, (w'.qps q).toQPAttrs = (w.qps q).toQPAttrs) : w'.Uses q cq ↔ w.Uses q cq := by
  rw [Uses, Uses, h q]

@[simp] theorem addUsers_isOpen (q' : Nat) (n : Int) : ((w.addUsers q n).qps q').isOpen = (w.qps q').isOpen := by
  by_cases h : q' = q <;> simp [addUsers, h]

@[simp] theorem transferOwnership_isOpen (q' : Nat) :
    ((w.transferOwnership q).qps q').isOpen = (w.qps q').isOpen := by
  by_cases h : q' = q <;> simp [transferOwnership, h]

theorem addUsers_externalUsers (q' : Nat) (n : Int) : ((w.addUsers q n).qps q').externalUsers =
    (w.qps q').externalUsers + if q' = q then n else 0 := by
  by_cases h : q' = q <;> simp [addUsers, h]

@[simp] theorem transferOwnership_externalUsers (q' : Nat) :
    ((w.transferOwnership q).qps q').externalUsers = (w.qps q').externalUsers := by
  by_cases h : q' = q <;> simp [transferOwnership, h]

theorem addUsers_cqUsers (n : Int) : ((w.addUsers q n).cqs cq).externalUsers =
    (w.cqs cq).externalUsers + if w.Uses q cq then n else 0 := by
  by_cases h : w.Uses q cq <;> simp [addUsers, h]

@[simp] theorem transferOwnership_cqUsers : ((w.transferOwnership q).cqs cq).externalUsers =
    (w.cqs cq).externalUsers := by
  by_cases h : w.Uses q cq <;> simp [transferOwnership, h]

@[simp] theorem addUsers_cqIsOpen (n : Int) : ((w.addUsers q n).cqs cq).isOpen = (w.cqs cq).isOpen := by
  by_cases h : w.Uses q cq <;> simp [addUsers, h]

@[simp] theorem transferOwnership_cqIsOpen : ((w.transferOwnership q).cqs cq).isOpen = (w.cqs cq).isOpen := by
  by_cases h : w.Uses q cq <;> simp [transferOwnership, h]

/-! ## Export -/

theorem bridgeInfo_cases (q : Nat) (native : Except Exn BridgeInfo) (w : World) :
    (∃ e, w.bridgeInfo q native = (w, .error e)) ∨
      ∃ info, w.bridgeInfo q native = (w.transferOwnership q, .ok info) ∧ (w.qps q).isOpen = true := by
  unfold bridgeInfo
  dsimp only
  split
  · exact .inl ⟨_, rfl⟩
  next ho =>
    have ho : (w.qps q).isOpen = true := by simpa using ho
    repeat' split
    all_goals first
      | exact .inl ⟨_, rfl⟩
      | exact .inr ⟨_, rfl, ho⟩

theorem acquireExternalDatapath_cases (q : Nat) (w : World) :
    (∃ e, w.acquireExternalDatapath q = .error e) ∨ w.acquireExternalDatapath q = .ok (w.addUsers q 1) := by
  unfold acquireExternalDatapath
  repeat' split
  · exact .inl ⟨_, rfl⟩
  · exact .inl ⟨_, rfl⟩
  · exact .inr rfl

theorem exportBody_cases (calls : ExportCalls) (nicHandler : String) :
    (∃ e, exportBody q nicHandler calls w = .error e) ∨
      ∃ device, exportBody q nicHandler calls w = .ok (device, w.addUsers q 1) := by
  simp only [exportBody, bind_eq]
  cases docaExport nicHandler calls with
  | error e => exact .inl ⟨e, rfl⟩
  | ok device =>
      rcases acquireExternalDatapath_cases q w with ⟨e, heq⟩ | heq
      · exact .inl ⟨e, by rw [heq]; rfl⟩
      · exact .inr ⟨device, by rw [heq]; rfl⟩

/-- A failed export: ownership may have moved, and pages may have leaked. -/
def failedExport (q : Nat) (m : HostMemory) (remaining : List Nat) (w : World) : World :=
  { w.transferOwnership q with memory := m, leaked := remaining ++ w.leaked }

/-- A successful export. -/
def exported (q : Nat) (m : HostMemory) (device : ℕ+) (pages : List Nat) (info : BridgeInfo) (w : World) : World :=
  { addUsers q 1 (transferOwnership q w) with
    memory := m
    handles := w.handles ++ [⟨some device, some q, some pages, q, info⟩] }

theorem exportQP_cases (pageSize : Nat) (hm : w.memory.Sound) (q : Nat) (nicHandler : String) (calls : ExportCalls) :
    (w.exportQP pageSize q nicHandler calls).1 = w ∨
      (∃ m remaining, m.Sound ∧ (∀ b, m.refs b = w.memory.refs b + remaining.count b) ∧
        (w.exportQP pageSize q nicHandler calls).1 = w.failedExport q m remaining) ∨
      ∃ m device info, m.Sound ∧ (∀ b, m.refs b = w.memory.refs b + (queuePages pageSize info).count b) ∧
        (w.qps q).isOpen = true ∧
        (w.exportQP pageSize q nicHandler calls).1 = w.exported q m device (queuePages pageSize info) info := by
  unfold exportQP
  cases exportChecks nicHandler calls with
  | error e => exact .inl rfl
  | ok =>
      rcases bridgeInfo_cases q calls.native w with ⟨e, heq⟩ | ⟨info, heq, ho⟩
      · rw [heq]
        exact .inl rfl
      rw [heq]
      dsimp only
      split
      · exact .inr (.inl ⟨w.memory, [], hm, by simp, rfl⟩)
      have hmem : (w.transferOwnership q).memory = w.memory := rfl
      obtain ⟨m, hs, ⟨hreg, hrefs⟩ | ⟨remaining, e, hreg, hrefs⟩⟩ :=
        registerQueueMemory_spec pageSize calls.cuda info hm
      · simp only [hmem, hreg]
        rcases exportBody_cases (q := q) (w := { w.transferOwnership q with memory := m }) calls
          nicHandler with ⟨e, heq⟩ | ⟨device, heq⟩
        · have hc : ∀ b, (queuePages pageSize info).count b ≤ m.refs b := fun b => by
            rw [hrefs b]
            exact Nat.le_add_left ..
          obtain ⟨m', remaining, result, hclose, hrel, -⟩ := closeMappings_spec calls.cuda.unregister hs hc
          simp only [heq, hclose]
          refine .inr (.inl ⟨m', remaining, hrel.sound, fun b => ?_, rfl⟩)
          have h₁ := hrel.refs b
          have h₂ := hrefs b
          omega
        · simp only [heq]
          exact .inr (.inr ⟨m, device, info, hs, hrefs, ho, rfl⟩)
      · simp only [hmem, hreg]
        exact .inr (.inl ⟨m, remaining, hs, hrefs, rfl⟩)

/-! ## Close -/

/-- A close that raises before the counts are released. -/
def interruptedClose (i : Nat) (m : HostMemory) (d : DeviceQP) (remaining : List Nat) (w : World) : World :=
  { w with memory := m, handles := w.handles.set i { d with mappings := some remaining } }

/-- A close that gets through. -/
def closedDevice (i : Nat) (m : HostMemory) (d : DeviceQP) (q : Nat) (w : World) : World :=
  { addUsers q (-1) w with
    memory := m
    handles := w.handles.set i { d with device := none, qp := none, mappings := none }
    releases := i :: w.releases }

theorem closeDevice_cases (hm : w.memory.Sound) (hi : w.handles[i]? = some d) (hopen : d.closed = false)
    {pages : List Nat} (hpages : d.mappings = some pages) (hc : ∀ b, pages.count b ≤ w.memory.refs b)
    (hq : d.qp = some q) (husers : 0 < (w.qps q).externalUsers) (calls : CloseCalls) :
    ∃ m remaining, Released calls.unregister pages w.memory m remaining ∧
      if remaining = [] ∧ calls.unexportQp = 0 then (w.closeDevice i calls).1 = w.closedDevice i m d q
      else (w.closeDevice i calls).1 = w.interruptedClose i m d remaining := by
  obtain ⟨m, remaining, result, heq, hrel, hok⟩ := closeMappings_spec calls.unregister hm hc
  refine ⟨m, remaining, hrel, ?_⟩
  obtain ⟨device, _, _, source, info⟩ := d
  obtain rfl : _ = some pages := hpages
  obtain rfl : _ = some q := hq
  simp only [closeDevice, hi, hopen, Bool.false_eq_true, if_false, heq]
  cases result with
  | error e =>
      have hne : ¬ (remaining = [] ∧ calls.unexportQp = 0) := fun h => by simpa using hok.mpr h.1
      rw [if_neg hne]
      rfl
  | ok =>
      have hnil : remaining = [] := hok.mp rfl
      subst hnil
      by_cases hx : calls.unexportQp = 0
      · have hrelease : releaseExternalDatapath q
            { w with memory := m, handles := w.handles.set i ⟨device, some q, some [], source, info⟩ } =
            .ok (addUsers q (-1)
              { w with memory := m, handles := w.handles.set i ⟨device, some q, some [], source, info⟩ }) := by
          rw [releaseExternalDatapath, if_neg (by simpa using husers)]
        simp only [hx, ne_eq, not_true_eq_false, if_false, hrelease, and_self, if_true]
        simp only [addUsers, closedDevice, List.set_set]
        rfl
      · simp only [hx, ne_eq, not_false_eq_true, if_true, and_false, if_false]
        rfl

end World

end Rdma4py.GpuNetIO
