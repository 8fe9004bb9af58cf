import Mathlib.Algebra.Ring.Nat
import Rdma4py.GpuNetIO.Lemmas.Invariant

/-!
# GPUNetIO: results

A handle that reports `closed` has nothing left, and the counts are right, whatever fails. A handle that does not report
it still has its memory, unless a `close` of it has given up a page and raised.
-/

namespace Rdma4py.GpuNetIO

open Lib

variable {w : World} {pageSize : Nat} {attrs : Nat → QPAttrs} {i : Nat}

/-- Every page of the queue memory of an open handle is registered and held by the handle. -/
structure Mapped (pageSize : Nat) (w : World) : Prop where
  pages : ∀ d ∈ w.handles, d.closed = false → ∀ base ∈ queuePages pageSize d.info,
    d.holds base = true ∧ w.memory.registered base = true
  bytes : ∀ d ∈ w.handles, d.closed = false → ∀ part ∈ ranges d.info, ∀ address, part.1 ≤ address →
    address < part.1 + part.2 → pageBase pageSize address ∈ queuePages pageSize d.info

/-- An open handle counts once for its QP and once for each of its CQs, a closed one has nothing, and its counts were
released once. Nothing that is destroyed has users. -/
structure Accounted (w : World) : Prop where
  qpUsers : ∀ q, (w.qps q).externalUsers = w.handles.countP (·.openOn q)
  cqUsers : ∀ cq, (w.cqs cq).externalUsers = w.handles.countP (w.openOver cq)
  references : ∀ base, w.memory.refs base = w.handles.countP (·.holds base) + w.leaked.count base
  closed : ∀ d ∈ w.handles, d.closed = true → d.mappings = none ∧ d.qp = none
  released : ∀ i d, w.handles[i]? = some d → w.releases.count i = if d.closed then 1 else 0
  qpDestroyed : ∀ q, (w.qps q).isOpen = false → (w.qps q).externalUsers = 0
  cqDestroyed : ∀ cq, (w.cqs cq).isOpen = false → (w.cqs cq).externalUsers = 0

/-- A close of an open handle succeeds up to the release of the counts, or it gives up no page. -/
def Clean (w : World) : Event → Prop
  | .close i calls => ∀ d, w.handles[i]? = some d → d.closed = false → ∀ pages, d.mappings = some pages →
      ((∀ base ∈ pages, 1 < w.memory.refs base ∨ calls.unregister base = 0) ∧ calls.unexportQp = 0) ∨
        ∀ base ∈ pages, w.memory.refs base ≤ 1 ∧ calls.unregister base ≠ 0
  | _ => True

/-! ## The open handles keep their pages -/

/-- The mappings of an open handle are the pages of its queue memory. -/
def Whole (pageSize : Nat) (w : World) : Prop :=
  ∀ d ∈ w.handles, d.closed = false → ∀ base ∈ queuePages pageSize d.info, d.holds base = true

theorem Whole.mapped (hp : 0 < pageSize) (h : Inv pageSize w) (hw : Whole pageSize w) : Mapped pageSize w where
  pages d hd hopen base hb := ⟨hw d hd hopen base hb, h.registered hd (hw d hd hopen base hb)⟩
  bytes _ _ _ _ hpart _ hlo hhi := pageBase_mem_queuePages hp hpart hlo hhi

theorem Whole.exportQP (hw : Whole pageSize w) (h : Inv pageSize w) (q : Nat) (nicHandler : String)
    (calls : World.ExportCalls) : Whole pageSize (w.exportQP pageSize q nicHandler calls).1 := by
  rcases World.exportQP_cases pageSize h.sound q nicHandler calls with
    heq | ⟨m, remaining, -, -, heq⟩ | ⟨m, device, info, -, -, -, heq⟩
  · rw [heq]
    exact hw
  · rw [heq]
    exact hw
  · rw [heq]
    intro d hd hopen base hb
    rcases List.mem_append.mp hd with hd | hd
    · exact hw d hd hopen base hb
    · obtain rfl := List.mem_singleton.mp hd
      exact decide_eq_true hb

/-- What remains of the pages, when the close is clean: none if it gets through, and all of them otherwise. -/
theorem Clean.remaining {d : DeviceQP} {pages remaining : List Nat} {m : HostMemory} {calls : World.CloseCalls}
    (hc : Clean w (.close i calls)) (hi : w.handles[i]? = some d) (hopen : d.closed = false)
    (hp : d.mappings = some pages) (hnd : pages.Nodup) (hne : pages ≠ [])
    (hrel : Released calls.unregister pages w.memory m remaining) :
    (remaining = [] ∧ calls.unexportQp = 0) ∨ (remaining ≠ [] ∧ ∀ base ∈ pages, base ∈ remaining) := by
  rcases hc d hi hopen pages hp with ⟨hgone, hx⟩ | hstay
  · refine .inl ⟨List.eq_nil_iff_forall_not_mem.mpr fun b hb => ?_, hx⟩
    have hin := hrel.sublist.subset hb
    have hfail := (hrel.stays hnd b hin).mp hb
    rcases hgone b hin with hmany | hok
    · exact absurd hfail.1 (by omega)
    · exact hfail.2 hok
  · have hall : ∀ b ∈ pages, b ∈ remaining := fun b hb => (hrel.stays hnd b hb).mpr (hstay b hb)
    obtain ⟨b, hb⟩ := List.exists_mem_of_ne_nil pages hne
    exact .inr ⟨List.ne_nil_of_mem (hall b hb), hall⟩

theorem Whole.closeDevice (hp : 0 < pageSize) (hw : Whole pageSize w) (h : Inv pageSize w) {calls : World.CloseCalls}
    (hc : Clean w (.close i calls)) : Whole pageSize (w.closeDevice i calls).1 := by
  by_cases hd : ∀ d, w.handles[i]? = some d → d.closed = true
  · rw [closeDevice_of_closed hd]
    exact hw
  push Not at hd
  obtain ⟨d, hi, hopen⟩ := hd
  have hopen : d.closed = false := by simpa using hopen
  have hd := List.mem_of_getElem? hi
  obtain ⟨pages, hpages⟩ := (h.live d hd hopen).1
  have hholds : ∀ b ∈ queuePages pageSize d.info, b ∈ pages := fun b hb => by
    simpa [DeviceQP.holds_of_some hpages] using hw d hd hopen b hb
  have hne : pages ≠ [] := by
    obtain ⟨b, hb⟩ := List.exists_mem_of_ne_nil _ (queuePages_ne_nil hp d.info)
    exact List.ne_nil_of_mem (hholds b hb)
  obtain ⟨m, remaining, hrel, heq⟩ := h.closeDevice_cases hi hopen hpages calls
  rcases hc.remaining hi hopen hpages (h.pages d hd pages hpages).1 hne hrel with hdone | ⟨hsome, hall⟩
  · rw [if_pos hdone] at heq
    rw [heq]
    exact forall_mem_set hw fun hclosed => by simp [DeviceQP.closed] at hclosed
  · rw [if_neg fun hdone => hsome hdone.1] at heq
    rw [heq]
    refine forall_mem_set hw fun _ b hb => ?_
    rw [DeviceQP.holds_of_some (show DeviceQP.mappings _ = some remaining from rfl)]
    exact decide_eq_true (hall b (hholds b hb))

theorem Whole.step (hp : 0 < pageSize) (hw : Whole pageSize w) (h : Inv pageSize w) {e : Event} (hc : Clean w e) :
    Whole pageSize (next pageSize w e) := by
  have hdestroy : ∀ w' : World, w'.handles = w.handles → Whole pageSize w' := fun w' hh => by
    rw [Whole, hh]
    exact hw
  cases e with
  | «export» q nicHandler calls => exact hw.exportQP h q nicHandler calls
  | close i calls => exact hw.closeDevice hp h hc
  | closeQP q status =>
      refine hdestroy _ ?_
      simp only [next, World.closeQP]
      repeat' split
      all_goals rfl
  | closeCQ cq status =>
      refine hdestroy _ ?_
      simp only [next, World.closeCQ]
      repeat' split
      all_goals rfl
  | collectQP q => exact hdestroy _ rfl
  | collectCQ cq => exact hdestroy _ rfl

/-- A close that is not clean leaves an open handle without one of its pages. -/
theorem Inv.not_mapped (h : Inv pageSize w) {e : Event}
    (hc : ¬ Clean w e) : ¬ Mapped pageSize (next pageSize w e) := by
  cases e with
  | close i calls =>
      simp only [Clean] at hc
      push Not at hc
      obtain ⟨d, hi, hopen, pages, hpages, hfail, b, hb, hgone⟩ := hc
      have hd := List.mem_of_getElem? hi
      have hnd := (h.pages d hd pages hpages).1
      obtain ⟨m, remaining, hrel, heq⟩ := h.closeDevice_cases hi hopen hpages calls
      have hlost : b ∉ remaining := fun hr => by
        have := (hrel.stays hnd b hb).mp hr
        exact this.2 (hgone this.1)
      -- it did not get through: a page stayed, or the unexport failed
      have hstuck : ¬ (remaining = [] ∧ calls.unexportQp = 0) := by
        rintro ⟨rfl, hx⟩
        refine hfail (fun b hb => ?_) hx
        by_contra hno
        push Not at hno
        simpa using (hrel.stays hnd b hb).mpr ⟨by omega, hno.2⟩
      rw [if_neg hstuck] at heq
      intro hm
      rw [next, heq] at hm
      have hin : { d with mappings := some remaining } ∈ (w.interruptedClose i m d remaining).handles :=
        List.mem_set (List.getElem?_eq_some_iff.mp hi).1 _
      have := (hm.pages _ hin hopen b ((h.pages d hd pages hpages).2 hb)).1
      rw [DeviceQP.holds_of_some (show DeviceQP.mappings _ = some remaining from rfl)] at this
      exact hlost (of_decide_eq_true this)
  | _ => exact fun _ => hc trivial

/-! ## Handle validity -/

theorem Inv.accounted (h : Inv pageSize w) : Accounted w where
  qpUsers := h.qpUsers
  cqUsers := h.cqUsers
  references := h.refs
  closed := h.dead
  released := h.released
  qpDestroyed := h.qpDestroyed
  cqDestroyed _ hc := h.cqUsers_eq_zero hc

theorem reaches_whole (hp : 0 < pageSize) (h : ((machine pageSize).when Clean).Reaches (World.initial attrs) w) :
    Inv pageSize w ∧ Whole pageSize w := by
  have hstep : ∀ w e, Inv pageSize w ∧ Whole pageSize w → ((machine pageSize).when Clean).Enabled w e →
      Inv pageSize (next pageSize w e) ∧ Whole pageSize (next pageSize w e) := fun _ _ hi he =>
    ⟨hi.1.step he.1, hi.2.step hp hi.1 he.2⟩
  exact h.invariant hstep ⟨initial_inv attrs, fun _ hd => by simp [World.initial] at hd⟩

/-- **Handle validity.** In every run in which the caller keeps the open handles, the counts are right, a closed handle has
nothing and nothing in use is destroyed. While the closes are clean, every open handle has its whole queue memory; after
the first one that is not, one has not. -/
theorem handle_validity (attrs : Nat → QPAttrs) (pageBits : Nat) :
    (∀ w, (machine (2 ^ pageBits)).Reaches (World.initial attrs) w → Accounted w) ∧
    (∀ w, ((machine (2 ^ pageBits)).when Clean).Reaches (World.initial attrs) w → Mapped (2 ^ pageBits) w) ∧
    ∀ w e, ((machine (2 ^ pageBits)).when Clean).Reaches (World.initial attrs) w → Enabled w e → ¬ Clean w e →
      ¬ Mapped (2 ^ pageBits) (next (2 ^ pageBits) w e) := by
  have hp : 0 < 2 ^ pageBits := Nat.two_pow_pos pageBits
  refine ⟨fun w h => (reaches_inv h).accounted, fun w h => ?_, fun w e h _ hc => ?_⟩
  · obtain ⟨hi, hw⟩ := reaches_whole hp h
    exact hw.mapped hp hi
  · obtain ⟨hi, -⟩ := reaches_whole hp h
    exact hi.not_mapped hc

/-- An RC QP with a send CQ and a receive CQ of its own. -/
def separateCqs (_ : Nat) : QPAttrs := ⟨0, 1, true, false, false⟩

/-- Queues of 16 work requests and CQs of 8 entries, all in one page. -/
def onePageInfo : BridgeInfo where
  sqWqeAddr := 4096
  sqWqeNum := 16
  sqWqeStride := 64
  sqDbrec := 5376
  sqDb := 8192
  sqCqeAddr := 5632
  sqCqeNum := 8
  sqCqeSize := 64
  sqCqDbrec := 6144
  rqWqeAddr := 5120
  rqWqeNum := 16
  rqDbrec := 5380
  rcvWqeSize := 16
  rqCqeAddr := 6400
  rqCqeNum := 8
  rqCqeSize := 64
  rqCqDbrec := 6912

def devicePointer : ℕ+ := ⟨0x3000, by decide⟩

/-- Every call of the export succeeds. -/
def exportSucceeds : World.ExportCalls where
  library := none
  gpuBusId := .ok "0000:1b:00.0"
  currentBusId := .ok "0000:1b:00.0"
  native := .ok onePageInfo
  freshCqs := true
  cuda := ⟨none, fun _ => 0, fun _ => 0, fun _ => 0⟩
  gpuCreate := 0
  bridgeExportQp := 0
  qpDev := (0, devicePointer)
  cpuProxyEnabled := (0, false)

/-- One QP is exported and closed. The first attempt to close unregisters nothing and raises. -/
theorem handle_validity_retried_close :
    Mapped 4096 ((machine 4096).play (World.initial separateCqs)
      [.export 0 "gpu" exportSucceeds, .close 0 ⟨fun _ => 1, 0, 0⟩]) ∧
    Accounted ((machine 4096).play (World.initial separateCqs)
      [.export 0 "gpu" exportSucceeds, .close 0 ⟨fun _ => 1, 0, 0⟩, .close 0 ⟨fun _ => 0, 0, 0⟩, .closeQP 0 0]) := by
  have hv := handle_validity separateCqs 12
  refine ⟨hv.2.1 _ (Machine.Plays.reaches (M := (machine 4096).when Clean) ⟨⟨trivial, trivial⟩, ⟨trivial, ?_⟩, trivial⟩),
    hv.1 _ (Machine.Plays.reaches ⟨trivial, trivial, trivial, trivial, trivial⟩)⟩
  intro d hi hopen pages hp
  have hd : ((machine 4096).next (World.initial separateCqs) (.export 0 "gpu" exportSucceeds)).handles[0]? =
      some ⟨some devicePointer, some 0, some [4096], 0, onePageInfo⟩ := by decide
  obtain rfl := Option.some.inj (hd.symm.trans hi)
  obtain rfl := Option.some.inj hp
  refine .inr fun base hb => ⟨?_, Int.one_ne_zero⟩
  obtain rfl := List.mem_singleton.mp hb
  decide

/-- An unexport that fails leaves the handle open after its memory was unregistered. -/
theorem failed_unexport_unmaps :
    ¬ ∀ attrs pageBits w, (machine (2 ^ pageBits)).Reaches (World.initial attrs) w → Mapped (2 ^ pageBits) w := by
  intro h
  have hm := h separateCqs 12 _ (Machine.Plays.reaches (show (machine (2 ^ 12)).Plays (World.initial separateCqs)
    [.export 0 "gpu" exportSucceeds, .close 0 ⟨fun _ => 0, 1, 0⟩] from ⟨trivial, trivial, trivial⟩))
  have hpages := hm.pages ⟨some devicePointer, some 0, some [], 0, onePageInfo⟩ (by decide) rfl 4096
    (by decide)
  cases hpages.1

end Rdma4py.GpuNetIO
