import Rdma4py.GpuNetIO.Lemmas.Handles

/-!
# The counts along a run

The references of the pages and the external users are counts of open handles. Every call keeps this, whatever fails.
-/

namespace Rdma4py.GpuNetIO

open Lib

variable {w w' : World} {m : HostMemory} {pageSize : Nat} {base q cq i : Nat} {d : DeviceQP} {pages remaining : List Nat}

/-- The handle is open and was exported from the QP. -/
def DeviceQP.openOn (q : Nat) (d : DeviceQP) : Bool := !d.closed && decide (d.source = q)

/-- The handle is open and its QP uses the CQ. -/
def World.openOver (w : World) (cq : Nat) (d : DeviceQP) : Bool := !d.closed && decide (w.Uses d.source cq)

/-- What holds of references, users and handles in every state. -/
structure Inv (pageSize : Nat) (w : World) : Prop where
  sound : w.memory.Sound
  refs : ∀ base, w.memory.refs base = w.handles.countP (·.holds base) + w.leaked.count base
  pages : ∀ d ∈ w.handles, ∀ pages, d.mappings = some pages → pages.Nodup ∧ pages ⊆ queuePages pageSize d.info
  live : ∀ d ∈ w.handles, d.closed = false → (∃ pages, d.mappings = some pages) ∧ d.qp = some d.source
  dead : ∀ d ∈ w.handles, d.closed = true → d.mappings = none ∧ d.qp = none
  qpUsers : ∀ q, (w.qps q).externalUsers = w.handles.countP (·.openOn q)
  cqUsers : ∀ cq, (w.cqs cq).externalUsers = w.handles.countP (w.openOver cq)
  released : ∀ i d, w.handles[i]? = some d → w.releases.count i = if d.closed then 1 else 0
  inRange : ∀ i ∈ w.releases, i < w.handles.length
  qpDestroyed : ∀ q, (w.qps q).isOpen = false → (w.qps q).externalUsers = 0
  cqDestroyed : ∀ cq, (w.cqs cq).isOpen = false → ∀ q, w.Uses q cq → (w.qps q).isOpen = false
  collected : ∀ q, w.collected q = true → (w.qps q).isOpen = false

theorem initial_inv (attrs : Nat → QPAttrs) : Inv pageSize (World.initial attrs) where
  sound := HostMemory.empty_sound
  refs _ := by simp [World.initial]
  pages _ hd := by simp [World.initial] at hd
  live _ hd := by simp [World.initial] at hd
  dead _ hd := by simp [World.initial] at hd
  qpUsers _ := by simp [World.initial]
  cqUsers _ := by simp [World.initial]
  released _ _ hd := by simp [World.initial] at hd
  inRange _ hi := by simp [World.initial] at hi
  qpDestroyed _ _ := rfl
  cqDestroyed _ hc := by simp [World.initial] at hc
  collected _ hc := by simp [World.initial] at hc

/-! ## Consequences -/

theorem openOver_congr (h : ∀ q, (w'.qps q).toQPAttrs = (w.qps q).toQPAttrs) : w'.openOver cq = w.openOver cq := by
  funext d
  simp [World.openOver, World.uses_congr h]

/-- Only an open handle counts for a QP, and it refers to it. -/
theorem Inv.users_eq_zero (h : Inv pageSize w) (hq : ∀ d ∈ w.handles, d.qp ≠ some q) :
    (w.qps q).externalUsers = 0 := by
  have hnone : w.handles.countP (·.openOn q) = 0 := by
    refine List.countP_eq_zero.mpr fun d hd hon => ?_
    simp only [DeviceQP.openOn, Bool.and_eq_true, Bool.not_eq_true', decide_eq_true_eq] at hon
    exact hq d hd (hon.2 ▸ (h.live d hd hon.1).2)
  rw [h.qpUsers, hnone]
  rfl

/-- A destroyed CQ has no users, because the QPs that use it are destroyed. -/
theorem Inv.cqUsers_eq_zero (h : Inv pageSize w) (hc : (w.cqs cq).isOpen = false) : (w.cqs cq).externalUsers = 0 := by
  have hnone : w.handles.countP (w.openOver cq) = 0 := by
    refine List.countP_eq_zero.mpr fun d hd hover => ?_
    simp only [World.openOver, Bool.and_eq_true, Bool.not_eq_true', decide_eq_true_eq] at hover
    have hz := h.qpDestroyed d.source (h.cqDestroyed cq hc d.source hover.2)
    rw [h.qpUsers] at hz
    have hpos : 0 < w.handles.countP (·.openOn d.source) :=
      List.countP_pos_iff.mpr ⟨d, hd, by simp [DeviceQP.openOn, hover.1]⟩
    omega
  rw [h.cqUsers, hnone]
  rfl

theorem holds_toNat (hp : d.mappings = some pages) (hnd : pages.Nodup) (base : Nat) :
    (d.holds base).toNat = pages.count base := by
  rw [DeviceQP.holds_of_some hp]
  by_cases hb : base ∈ pages <;> simp [hb, List.count_eq_one_of_mem hnd, List.count_eq_zero_of_not_mem]

/-- A handle has a reference to each page of its mappings. -/
theorem Inv.count_le_refs (h : Inv pageSize w) (hd : d ∈ w.handles) (hp : d.mappings = some pages) (base : Nat) :
    pages.count base ≤ w.memory.refs base := by
  rw [h.refs, ← holds_toNat hp (h.pages d hd pages hp).1 base]
  cases hh : d.holds base with
  | false => exact Nat.zero_le _
  | true =>
      have hpos : 0 < w.handles.countP (·.holds base) := List.countP_pos_iff.mpr ⟨d, hd, hh⟩
      simp only [Bool.toNat_true]
      omega

theorem Inv.registered (h : Inv pageSize w) (hd : d ∈ w.handles) (hh : d.holds base = true) :
    w.memory.registered base = true := by
  have hpos : 0 < w.handles.countP (·.holds base) := List.countP_pos_iff.mpr ⟨d, hd, hh⟩
  rw [h.sound, h.refs]
  exact decide_eq_true (by omega)

theorem Inv.users_pos (h : Inv pageSize w) (hd : d ∈ w.handles) (hopen : d.closed = false) :
    0 < (w.qps d.source).externalUsers := by
  have hpos : 0 < w.handles.countP (·.openOn d.source) :=
    List.countP_pos_iff.mpr ⟨d, hd, by simp [DeviceQP.openOn, hopen]⟩
  rw [h.qpUsers]
  omega

/-! ## Export -/

theorem Inv.failedExport (h : Inv pageSize w) (hm : m.Sound)
    (hrefs : ∀ b, m.refs b = w.memory.refs b + remaining.count b) : Inv pageSize (w.failedExport q m remaining) := by
  have hattrs : ∀ q', ((w.failedExport q m remaining).qps q').toQPAttrs = (w.qps q').toQPAttrs := fun q' =>
    World.transferOwnership_toQPAttrs q'
  refine ⟨hm, fun b => ?_, h.pages, h.live, h.dead, fun q' => ?_, fun cq => ?_, h.released, h.inRange,
    fun q' ho => ?_, fun cq ho q' hu => ?_, fun q' hc => ?_⟩
  · simp only [World.failedExport, World.transferOwnership_handles, hrefs, h.refs, List.count_append]
    omega
  · exact (World.transferOwnership_externalUsers q').trans (h.qpUsers q')
  · rw [openOver_congr hattrs]
    exact World.transferOwnership_cqUsers.trans (h.cqUsers cq)
  · rw [World.failedExport, World.transferOwnership_isOpen] at ho
    rw [World.failedExport, World.transferOwnership_externalUsers, h.qpDestroyed q' ho]
  · rw [World.failedExport, World.transferOwnership_cqIsOpen] at ho
    rw [World.failedExport, World.transferOwnership_isOpen]
    exact h.cqDestroyed cq ho q' ((World.uses_congr hattrs).mp hu)
  · rw [World.failedExport, World.transferOwnership_isOpen]
    exact h.collected q' hc

theorem Inv.exported {device : ℕ+} {info : BridgeInfo} (h : Inv pageSize w) (hm : m.Sound)
    (hrefs : ∀ b, m.refs b = w.memory.refs b + (queuePages pageSize info).count b) (hopen : (w.qps q).isOpen = true) :
    Inv pageSize (w.exported q m device (queuePages pageSize info) info) := by
  have hattrs : ∀ q', ((w.exported q m device (queuePages pageSize info) info).qps q').toQPAttrs =
      (w.qps q').toQPAttrs := fun q' =>
    (World.addUsers_toQPAttrs q' 1).trans (World.transferOwnership_toQPAttrs q')
  have hopen' : ∀ q', ((w.exported q m device (queuePages pageSize info) info).qps q').isOpen =
      (w.qps q').isOpen := fun q' =>
    (World.addUsers_isOpen q' 1).trans (World.transferOwnership_isOpen q')
  have hnd := queuePages_nodup pageSize info
  have hmem : ∀ d ∈ (w.exported q m device (queuePages pageSize info) info).handles,
      d ∈ w.handles ∨ d = ⟨some device, some q, some (queuePages pageSize info), q, info⟩ := fun d hd => by
    simpa [World.exported] using hd
  refine ⟨hm, fun b => ?_, fun d hd => ?_, fun d hd => ?_, fun d hd => ?_, fun q' => ?_, fun cq => ?_,
    fun i d hi => ?_, fun i hi => ?_, fun q' ho => ?_, fun cq ho q' hu => ?_, fun q' hc => ?_⟩
  · have hnew := holds_toNat (d := ⟨some device, some q, some (queuePages pageSize info), q, info⟩) rfl hnd b
    rw [World.exported, hrefs, h.refs, List.countP_append, List.countP_singleton, ← hnew]
    cases DeviceQP.holds _ b with
    | false => simp
    | true =>
        simp
        omega
  · rcases hmem d hd with hd | rfl
    · exact h.pages d hd
    · intro ps hps
      obtain rfl : queuePages pageSize info = ps := by simpa using hps
      exact ⟨hnd, List.Subset.refl _⟩
  · rcases hmem d hd with hd | rfl
    · exact h.live d hd
    · exact fun _ => ⟨⟨_, rfl⟩, rfl⟩
  · rcases hmem d hd with hd | rfl
    · exact h.dead d hd
    · intro hc
      simp [DeviceQP.closed] at hc
  · simp only [World.exported, World.addUsers_externalUsers, World.transferOwnership_externalUsers, h.qpUsers,
      List.countP_append, List.countP_singleton, DeviceQP.openOn, DeviceQP.closed]
    by_cases hq : q = q' <;> simp [hq, eq_comm]
  · rw [openOver_congr hattrs]
    have hu : (w.transferOwnership q).Uses q cq ↔ w.Uses q cq :=
      World.uses_congr fun q' => World.transferOwnership_toQPAttrs q'
    simp only [World.exported, World.addUsers_cqUsers, World.transferOwnership_cqUsers, h.cqUsers,
      List.countP_append, List.countP_singleton, World.openOver, DeviceQP.closed, hu]
    by_cases hq : w.Uses q cq <;> simp [hq]
  · rw [World.exported, List.getElem?_append] at hi
    have hrel : (w.exported q m device (queuePages pageSize info) info).releases = w.releases := rfl
    rw [hrel]
    split at hi
    · exact h.released i d hi
    next hlt =>
      rw [List.getElem?_singleton] at hi
      split at hi
      · obtain rfl := Option.some.inj hi
        have hfresh : i ∉ w.releases := fun hin => hlt (h.inRange i hin)
        simp [List.count_eq_zero_of_not_mem hfresh, DeviceQP.closed]
      · cases hi
  · have hlt := h.inRange i hi
    simp only [World.exported, List.length_append, List.length_singleton]
    omega
  · rw [hopen'] at ho
    have hne : q' ≠ q := fun he => by simp [he, hopen] at ho
    simp only [World.exported, World.addUsers_externalUsers, World.transferOwnership_externalUsers,
      h.qpDestroyed q' ho, hne, if_false, Int.add_zero]
  · rw [hopen']
    have ho' : (w.cqs cq).isOpen = false := by
      simpa [World.exported] using ho
    exact h.cqDestroyed cq ho' q' ((World.uses_congr hattrs).mp hu)
  · rw [hopen']
    exact h.collected q' hc

/-! ## Close -/

theorem forall_mem_set {α : Type*} {P : α → Prop} {l : List α} {a : α} (h : ∀ x ∈ l, P x) (ha : P a) :
    ∀ x ∈ l.set i a, P x := by
  intro x hx
  rcases List.mem_or_eq_of_mem_set hx with hx | rfl
  · exact h x hx
  · exact ha

/-- The references after one handle gave pages up. -/
theorem Inv.refs_set (h : Inv pageSize w) (hi : w.handles[i]? = some d) (hp : d.mappings = some pages) {d' : DeviceQP}
    (hrefs : ∀ b, m.refs b + pages.count b = w.memory.refs b + remaining.count b)
    (hd' : ∀ b, (d'.holds b).toNat = remaining.count b) (b : Nat) :
    m.refs b = (w.handles.set i d').countP (·.holds b) + w.leaked.count b := by
  have hset := countP_set_add (p := (·.holds b)) (a := d') hi
  have hd := holds_toNat hp (h.pages d (List.mem_of_getElem? hi) pages hp).1 b
  have h₁ := hrefs b
  have h₂ := h.refs b
  have h₃ := hd' b
  omega

theorem Inv.interruptedClose {unregister : Nat → Int} (h : Inv pageSize w) (hi : w.handles[i]? = some d)
    (hopen : d.closed = false) (hp : d.mappings = some pages)
    (hrel : Released unregister pages w.memory m remaining) : Inv pageSize (w.interruptedClose i m d remaining) := by
  have hd : d ∈ w.handles := List.mem_of_getElem? hi
  have hnd := (h.pages d hd pages hp).1
  refine ⟨hrel.sound, ?_, forall_mem_set h.pages ?_, forall_mem_set h.live ?_, forall_mem_set h.dead ?_,
    fun q => ?_, fun cq => ?_, fun j d' hj => ?_, fun j hj => ?_, h.qpDestroyed, h.cqDestroyed, h.collected⟩
  · exact h.refs_set hi hp hrel.refs fun b => holds_toNat rfl (hnd.sublist hrel.sublist) b
  · intro ps hps
    obtain rfl : remaining = ps := by simpa using hps
    exact ⟨hnd.sublist hrel.sublist, fun b hb => (h.pages d hd pages hp).2 (hrel.sublist.subset hb)⟩
  · exact fun _ => ⟨⟨_, rfl⟩, (h.live d hd hopen).2⟩
  · intro hc
    rw [show DeviceQP.closed { d with mappings := some remaining } = d.closed from rfl, hopen] at hc
    cases hc
  · have hset := countP_set_add (p := (·.openOn q)) (a := { d with mappings := some remaining }) hi
    have hsame : DeviceQP.openOn q { d with mappings := some remaining } = d.openOn q := rfl
    rw [hsame] at hset
    rw [World.interruptedClose, h.qpUsers]
    dsimp only
    omega
  · have hset := countP_set_add (p := w.openOver cq) (a := { d with mappings := some remaining }) hi
    have hsame : w.openOver cq { d with mappings := some remaining } = w.openOver cq d := rfl
    rw [hsame] at hset
    have hover : (w.interruptedClose i m d remaining).openOver cq = w.openOver cq := rfl
    rw [hover, World.interruptedClose, h.cqUsers]
    dsimp only
    omega
  · rw [World.interruptedClose, List.getElem?_set] at hj
    split at hj
    next he =>
      subst he
      split at hj
      · obtain rfl := Option.some.inj hj
        exact h.released i d hi
      · cases hj
    · exact h.released j d' hj
  · rw [World.interruptedClose, List.length_set]
    exact h.inRange j hj

theorem Inv.closedDevice {unregister : Nat → Int} (h : Inv pageSize w) (hi : w.handles[i]? = some d)
    (hopen : d.closed = false) (hp : d.mappings = some pages) (hrel : Released unregister pages w.memory m []) :
    Inv pageSize (w.closedDevice i m d d.source) := by
  have hattrs : ∀ q', ((w.closedDevice i m d d.source).qps q').toQPAttrs = (w.qps q').toQPAttrs := fun q' =>
    World.addUsers_toQPAttrs q' (-1)
  have hlt : i < w.handles.length := (List.getElem?_eq_some_iff.mp hi).1
  refine ⟨hrel.sound, ?_, forall_mem_set h.pages ?_, forall_mem_set h.live ?_, forall_mem_set h.dead ?_,
    fun q => ?_, fun cq => ?_, fun j d' hj => ?_, fun j hj => ?_, fun q ho => ?_, fun cq ho q hu => ?_,
    fun q hc => ?_⟩
  · exact h.refs_set hi hp hrel.refs fun b => rfl
  · intro ps hps
    cases hps
  · intro hc
    simp [DeviceQP.closed] at hc
  · exact fun _ => ⟨rfl, rfl⟩
  · have hset := countP_set_add (p := (·.openOn q)) (a := { d with device := none, qp := none, mappings := none }) hi
    have hgone : DeviceQP.openOn q { d with device := none, qp := none, mappings := none } = false := rfl
    rw [hgone, show d.openOn q = decide (d.source = q) by simp [DeviceQP.openOn, hopen]] at hset
    simp only [World.closedDevice, World.addUsers_externalUsers, h.qpUsers]
    by_cases hq : d.source = q
    · simp only [hq, decide_true, Bool.toNat_true, Bool.toNat_false, if_true] at hset ⊢
      omega
    · simp only [hq, Ne.symm hq, decide_false, Bool.toNat_false, if_false] at hset ⊢
      omega
  · have hset := countP_set_add (p := w.openOver cq) (a := { d with device := none, qp := none, mappings := none }) hi
    have hgone : w.openOver cq { d with device := none, qp := none, mappings := none } = false := rfl
    rw [hgone, show w.openOver cq d = decide (w.Uses d.source cq) by simp [World.openOver, hopen]] at hset
    rw [openOver_congr hattrs]
    simp only [World.closedDevice, World.addUsers_cqUsers, h.cqUsers]
    by_cases hu : w.Uses d.source cq
    · simp only [hu, decide_true, Bool.toNat_true, Bool.toNat_false, if_true] at hset ⊢
      omega
    · simp only [hu, decide_false, Bool.toNat_false, if_false] at hset ⊢
      omega
  · simp only [World.closedDevice, List.getElem?_set, List.count_cons] at hj ⊢
    split at hj
    next he =>
      subst he
      obtain rfl := Option.some.inj hj
      rw [h.released i d hi, hopen]
      simp [DeviceQP.closed]
    next hne =>
      simp [h.released j d' hj, hne]
  · simp only [World.closedDevice, List.length_set, List.mem_cons] at hj ⊢
    rcases hj with rfl | hj
    · exact hlt
    · exact h.inRange j hj
  · have ho' : (w.qps q).isOpen = false := by simpa [World.closedDevice] using ho
    have hz := h.qpDestroyed q ho'
    have hne : q ≠ d.source := fun he => by
      have := h.users_pos (List.mem_of_getElem? hi) hopen
      rw [← he] at this
      omega
    simp only [World.closedDevice, World.addUsers_externalUsers, hz, hne, if_false, Int.add_zero]
  · have ho' : (w.cqs cq).isOpen = false := by simpa [World.closedDevice] using ho
    simpa [World.closedDevice] using h.cqDestroyed cq ho' q ((World.uses_congr hattrs).mp hu)
  · simpa [World.closedDevice] using h.collected q hc

/-- A close on an open handle, told by what it leads to. -/
theorem Inv.closeDevice_cases (h : Inv pageSize w) (hi : w.handles[i]? = some d) (hopen : d.closed = false)
    (hp : d.mappings = some pages) (calls : World.CloseCalls) :
    ∃ m remaining, Released calls.unregister pages w.memory m remaining ∧
      if remaining = [] ∧ calls.unexportQp = 0 then (w.closeDevice i calls).1 = w.closedDevice i m d d.source
      else (w.closeDevice i calls).1 = w.interruptedClose i m d remaining :=
  have hd := List.mem_of_getElem? hi
  World.closeDevice_cases h.sound hi hopen hp (h.count_le_refs hd hp) (h.live d hd hopen).2 (h.users_pos hd hopen) calls

/-- A close on a handle that is not there, or closed already, does nothing. -/
theorem closeDevice_of_closed (hd : ∀ d, w.handles[i]? = some d → d.closed = true) (calls : World.CloseCalls) :
    (w.closeDevice i calls).1 = w := by
  unfold World.closeDevice
  cases hi : w.handles[i]? with
  | none => rfl
  | some d => simp [hd d hi]

/-! ## The destruction of QPs and CQs -/

/-- QPs without users may be destroyed, and CQs whose QPs are. -/
theorem Inv.destroy (h : Inv pageSize w) (hmem : w'.memory = w.memory) (hhandles : w'.handles = w.handles)
    (hleaked : w'.leaked = w.leaked) (hreleases : w'.releases = w.releases)
    (hattrs : ∀ q, (w'.qps q).toQPAttrs = (w.qps q).toQPAttrs)
    (hqp : ∀ q, (w'.qps q).externalUsers = (w.qps q).externalUsers)
    (hcq : ∀ cq, (w'.cqs cq).externalUsers = (w.cqs cq).externalUsers)
    (hmono : ∀ q, (w.qps q).isOpen = false → (w'.qps q).isOpen = false)
    (hqpOpen : ∀ q, (w'.qps q).isOpen = false → (w.qps q).isOpen = false ∨ (w.qps q).externalUsers = 0)
    (hcqOpen : ∀ cq, (w'.cqs cq).isOpen = false →
      (w.cqs cq).isOpen = false ∨ ∀ q, w.Uses q cq → (w'.qps q).isOpen = false)
    (hcol : ∀ q, w'.collected q = true → w.collected q = true ∨ (w'.qps q).isOpen = false) : Inv pageSize w' := by
  refine ⟨hmem ▸ h.sound, ?_, hhandles ▸ h.pages, hhandles ▸ h.live, hhandles ▸ h.dead, fun q => ?_, fun cq => ?_, ?_, ?_,
    fun q ho => ?_, fun cq ho q hu => ?_, fun q hc => ?_⟩
  · rw [hmem, hhandles, hleaked]
    exact h.refs
  · rw [hqp, hhandles]
    exact h.qpUsers q
  · rw [hcq, hhandles, openOver_congr hattrs]
    exact h.cqUsers cq
  · rw [hhandles, hreleases]
    exact h.released
  · rw [hhandles, hreleases]
    exact h.inRange
  · rw [hqp]
    exact (hqpOpen q ho).elim (h.qpDestroyed q) id
  · have hu' := (World.uses_congr hattrs).mp hu
    rcases hcqOpen cq ho with ho | hq
    · exact hmono q (h.cqDestroyed cq ho q hu')
    · exact hq q hu'
  · exact (hcol q hc).elim (fun hc => hmono q (h.collected q hc)) id

theorem Inv.destroyQP (h : Inv pageSize w) (hz : (w.qps q).externalUsers = 0) {collected : Nat → Bool}
    (hcol : ∀ q', collected q' = true → w.collected q' = true ∨ q' = q) :
    Inv pageSize { w with
      qps := Function.update w.qps q { w.qps q with isOpen := false }
      collected := collected } := by
  refine h.destroy rfl rfl rfl rfl (fun q' => ?_) (fun q' => ?_) (fun _ => rfl) (fun q' ho => ?_) (fun q' ho => ?_)
    (fun cq ho => .inl ho) fun q' hc => ?_
  · by_cases hq : q' = q <;> simp [hq]
  · by_cases hq : q' = q <;> simp [hq]
  · by_cases hq : q' = q <;> simp [hq, ho]
  · by_cases hq : q' = q
    · exact .inr (hq ▸ hz)
    · exact .inl (by simpa [hq] using ho)
  · rcases hcol q' hc with hc | rfl
    · exact .inl hc
    · exact .inr (by simp)

theorem Inv.destroyCQ (h : Inv pageSize w) (hq : ∀ q, w.Uses q cq → (w.qps q).isOpen = false) :
    Inv pageSize { w with cqs := Function.update w.cqs cq { w.cqs cq with isOpen := false } } := by
  refine h.destroy rfl rfl rfl rfl (fun _ => rfl) (fun _ => rfl) (fun cq' => ?_) (fun _ ho => ho) (fun _ ho => .inl ho)
    (fun cq' ho => ?_) fun _ hc => .inl hc
  · by_cases hc : cq' = cq <;> simp [hc]
  · by_cases hc : cq' = cq
    · exact .inr (hc ▸ hq)
    · exact .inl (by simpa [hc] using ho)

/-! ## Steps and runs -/

theorem Inv.step (h : Inv pageSize w) {e : Event} (he : Enabled w e) : Inv pageSize (next pageSize w e) := by
  cases e with
  | «export» q nicHandler calls =>
      simp only [next]
      rcases World.exportQP_cases pageSize h.sound q nicHandler calls with
        heq | ⟨m, remaining, hm, hrefs, heq⟩ | ⟨m, device, info, hm, hrefs, hopen, heq⟩
      · rw [heq]
        exact h
      · rw [heq]
        exact h.failedExport hm hrefs
      · rw [heq]
        exact h.exported hm hrefs hopen
  | close i calls =>
      simp only [next]
      by_cases hd : ∀ d, w.handles[i]? = some d → d.closed = true
      · rw [closeDevice_of_closed hd]
        exact h
      · push Not at hd
        obtain ⟨d, hi, hopen⟩ := hd
        have hopen : d.closed = false := by simpa using hopen
        obtain ⟨pages, hp⟩ := (h.live d (List.mem_of_getElem? hi) hopen).1
        obtain ⟨m, remaining, hrel, heq⟩ := h.closeDevice_cases hi hopen hp calls
        split at heq
        next hdone =>
          obtain rfl := hdone.1
          rw [heq]
          exact h.closedDevice hi hopen hp hrel
        · rw [heq]
          exact h.interruptedClose hi hopen hp hrel
  | closeQP q status =>
      simp only [next, World.closeQP]
      repeat' split
      · exact h
      · exact h
      · exact h
      next hz _ =>
        exact h.destroyQP (by simpa using hz) fun _ => .inl
  | closeCQ cq status =>
      simp only [next, World.closeCQ]
      repeat' split
      · exact h
      · exact h
      · exact h
      next hs =>
        exact h.destroyCQ (he (by simpa using hs))
  | collectQP q =>
      refine h.destroyQP (h.users_eq_zero he) fun q' hc => ?_
      by_cases hq : q' = q
      · exact .inr hq
      · exact .inl (by simpa [hq] using hc)
  | collectCQ cq => exact h.destroyCQ fun q hu => h.collected q (he q hu)

theorem reaches_inv {attrs : Nat → QPAttrs} (h : (machine pageSize).Reaches (World.initial attrs) w) :
    Inv pageSize w :=
  h.invariant (fun _ _ hi he => hi.step he) (initial_inv attrs)

end Rdma4py.GpuNetIO
