import Rdma4py.Bindings.Lemmas.ObjectRelease

/-!
# Every event keeps the invariant

What keeps the invariant is one step of a process that has room for the children of its contexts in their counts.
-/

namespace Rdma4py.Bindings.Objects

open Lib

variable {b : Binding} {w w' : World} {e : Event} {i : Nat}

/-- There are fewer native objects than `_children`, an `unsigned int`, can count. -/
def World.Room (w : World) : Prop := w.natives.length + 2 < 2 ^ 32

theorem sound_initial : World.initial.handles.Sound Kind.On := by
  refine ⟨List.nodup_nil, ?_, ?_, ?_, ?_, ?_, ?_⟩
  · intro n hn
    cases hn
  · intro i x p hx
    cases hx
  · intro i j p _ hp
    cases hp
  · intro i x hx
    cases hx
  · intro n hn
    cases hn
  · intro p hp
    cases hp

theorem good_initial : Good b World.initial := by
  refine ⟨sound_initial, ⟨?_, ?_, ?_⟩, ?_, ?_, ?_, ?_, fun _ => rfl, ?_, ?_, fun _ _ => rfl, rfl⟩
  · intro i id c h
    cases h
  · intro i id owner h
    cases h
  · intro i k h
    cases h
  · intro i c h
    cases h
  · intro n hn
    cases hn
  · intro i owned p h
    cases h
  · intro p hp
    cases hp
  · intro n hn
    cases hn
  · intro i id c q h
    cases h

theorem compChannel_of_optional {channel : Option Nat} {ch : Option (Nat × CompChannel)}
    (h : World.optional w.compChannel? channel = some ch) :
    ∀ k y, ch = some (k, y) → w.objects k = some (.compChannel y) := by
  intro k y hky
  cases channel with
  | none =>
      cases h
      cases hky
  | some l =>
      obtain ⟨z, hz, hzc⟩ := Option.map_eq_some_iff.mp h
      rw [← hzc, Option.some.injEq] at hky
      cases hky
      exact objects_of_compChannel? hz

/-- A CQ whose events change. -/
theorem Good.onCq (hg : Good b w) {f : CQ → Bindings.CQ} (hf : ∀ x, (f x).isOpen = x.events.isOpen) :
    Good b (w.onCq i f) := by
  rw [World.onCq]
  cases hx : w.cq? i with
  | none => exact hg
  | some x =>
      have hi := objects_of_cq? hx
      have hsame : ∀ {w'}, Good b w' → w'.objects i = some (.cq x) → Good b (w'.put i (some (.cq { x with events := f x }))) := by
        intro w' hg' hi'
        refine hg'.put_same hi' ?_ rfl (fun _ h => by cases h)
        simp [Object.wrapper, Object.bases, CQ.ptr, hf]
      cases hopen : x.events.isOpen with
      | false => simpa only [hopen, Bool.false_eq_true, if_false] using hsame hg hi
      | true =>
          have hlive : w.isLive (some x.handle) = true := hg.live (o := .cq x) hi (by simp [Object.wrapper, CQ.ptr, hopen])
          simpa only [hopen, if_true] using hsame (hg.use (by simpa using hlive)) hi

theorem ackEvents_isOpen (cls : CQClass) (nevents : UInt32) (cq : Bindings.CQ) :
    (cq.ackEvents cls nevents).1.isOpen = cq.isOpen := by
  rw [Bindings.CQ.ackEvents]
  split
  · rfl
  · split
    · rfl
    · split <;> rfl

theorem Good.setUsers (hg : Good b w) {n : Int} : Good b (w.setUsers i n) := by
  rw [World.setUsers]
  split
  · next x hx => exact hg.put_same hx rfl rfl (fun _ h => by cases h)
  · next x hx => exact hg.put_same hx rfl rfl (fun _ h => by cases h)
  · exact hg

theorem Good.method (hg : Good b w) : Good b (w.method i) := by
  rw [World.method]
  cases hp : w.pointer i with
  | none => exact hg
  | some p =>
      obtain ⟨o, ho, hop⟩ := Option.bind_eq_some_iff.mp hp
      exact hg.use (by simpa using hg.live ho hop)

/-- The CQs of an open QP are open, though only the QP is checked. -/
theorem Good.bridgeInfo (hg : Good b w) : Good b (w.bridgeInfo i) := by
  rw [World.bridgeInfo]
  split
  · next p pd sendCq recvCq srq cmId cmOwner users hx =>
      have hi := objects_of_qp? hx
      have hcq : ∀ j, j = sendCq ∨ j = recvCq → w.isLive (w.pointer j) = true := by
        intro j hj
        obtain ⟨y, q, -, hy, hq, -⟩ := hg.base (j := j) hi rfl (by
          rcases hj with rfl | rfl
          · simp [Object.bases]
          · simp [Object.bases]) fun _ h => by cases h
        rw [World.pointer, hy, Option.bind_some, hq]
        exact hg.live hy hq
      refine hg.use ?_
      intro a ha
      rcases List.mem_cons.mp ha with rfl | ha
      · exact hg.live hi rfl
      · rcases List.mem_cons.mp ha with rfl | ha
        · exact hcq _ (.inl rfl)
        · rw [List.mem_singleton.mp ha]
          exact hcq _ (.inr rfl)
  · exact hg

theorem Good.connect (hg : Good b w) {x : CMID} (hi : w.objects i = some (.cmId x)) {rc errno : Int} :
    Good b (x.connect b i rc errno w).1 := by
  rw [CMID.connect]
  cases hid : x.id with
  | none => exact hg
  | some id =>
      have hguse : Good b (w.use [some id]) := hg.use (by simpa using hg.live hi hid)
      simp only
      split
      · exact hguse
      · split
        · exact hguse
        · exact hguse.put_same hi (by simp [Object.wrapper, Object.bases, hid]) (by simp [Object.view, hid])
            (fun _ h => by cases h)

theorem Good.disconnect (hg : Good b w) {x : CMID} (hi : w.objects i = some (.cmId x)) {rc errno : Int} :
    Good b (x.disconnect b i rc errno w).1 := by
  rw [CMID.disconnect]
  cases hid : x.id with
  | none => exact hg
  | some id =>
      have hguse : Good b (w.use [some id]) := hg.use (by simpa using hg.live hi hid)
      simp only
      split
      · exact hg
      · split
        · exact hguse
        · exact hguse.put_same hi (by simp [Object.wrapper, Object.bases, hid]) (by simp [Object.view, hid])
            (fun _ h => by cases h)

theorem Good.close (hg : Good b w) {o : Object} (hi : w.objects i = some o) {rc errno : Int}
    (hr : rc = 0 → ¬ w.Refused i) : Good b (o.close b i rc errno w).1 := by
  cases o with
  | context x => exact hg.closeContext hi
  | pd x => exact hg.closePd hi hr
  | mr x => exact hg.closeMr hi hr
  | compChannel x => exact hg.closeCompChannel hi hr
  | cq x => exact hg.closeCq hi hr
  | qp x => exact hg.closeQp hi
  | ah x => exact hg.closeAh hi hr
  | srq x => exact hg.closeSrq hi hr
  | cmId x => exact hg.closeCmId hi

theorem Good.dealloc (hg : Good b w) {o : Object} (hi : w.objects i = some o) {rc : Int} (hr : rc = 0 → ¬ w.Refused i)
    (href : ¬ w.handles.Referenced i) : Good b (o.dealloc i rc w) := by
  have huse : o.wrapper.kind ≠ .context → o.wrapper.kind ≠ .cmId → ∀ p, rc = 0 → o.wrapper.ptr = some p →
      p ∉ w.cmDevices ∧ ¬ w.handles.InUse p :=
    fun hctx hcm p h hp => ⟨hg.not_lent hi hp hctx, not_inUse_of_refused hi hp (hr h) hctx hcm⟩
  cases o with
  | context x => exact hg.deallocContext hi href
  | qp x => exact hg.deallocQp hi href
  | cmId x => exact hg.deallocCmId hi href
  | _ => exact hg.dealloced hi (huse (fun h => by cases h) (fun h => by cases h)) href (fun _ h => by cases h)

/-- What one event preserves. -/
theorem Good.step (hg : Good b w) (he : Enabled b w e) (hk : w.Room) : Good b (next b w e) := by
  obtain ⟨hhas, haddr, he⟩ := he
  have hroom : w.natives.length + 1 < 2 ^ 32 := Nat.lt_of_succ_lt hk
  cases e with
  | openDevice name listed result errno =>
      exact hg.openDevice hroom fun p hp => haddr p (Option.mem_toList.mpr hp)
  | allocPd i result errno =>
      rw [next]
      cases hx : w.context? i with
      | none => exact hg
      | some x => exact hg.allocPd (objects_of_context? hx) hroom fun p hp => haddr p (Option.mem_toList.mpr hp)
  | createCompChannel i result errno =>
      rw [next]
      cases hx : w.context? i with
      | none => exact hg
      | some x =>
          exact hg.createCompChannel (objects_of_context? hx) hroom fun p hp => haddr p (Option.mem_toList.mpr hp)
  | createCq op i cqe channel compVector numCompVectors result errno =>
      rw [next]
      cases hx : w.context? i with
      | none => exact hg
      | some x =>
          cases hch : World.optional w.compChannel? channel with
          | none => exact hg
          | some ch =>
              exact hg.createCq (objects_of_context? hx) (compChannel_of_optional hch) hroom fun p hp =>
                haddr p (Option.mem_toList.mpr hp)
  | regMr i addr length result errno =>
      rw [next]
      cases hx : w.pd? i with
      | none => exact hg
      | some x => exact hg.regMr (objects_of_pd? hx) hroom fun p hp => haddr p (Option.mem_toList.mpr hp)
  | createAh i result errno =>
      rw [next]
      cases hx : w.pd? i with
      | none => exact hg
      | some x => exact hg.createAh (objects_of_pd? hx) hroom fun p hp => haddr p (Option.mem_toList.mpr hp)
  | createSrq i result errno =>
      rw [next]
      cases hx : w.pd? i with
      | none => exact hg
      | some x => exact hg.createSrq (objects_of_pd? hx) hroom fun p hp => haddr p (Option.mem_toList.mpr hp)
  | createQp i sendCq recvCq srq result ex rc errno =>
      rw [next]
      cases hx : w.pd? i with
      | none => exact hg
      | some x =>
          cases hargs : w.queueArgs sendCq recvCq srq with
          | none => exact hg
          | some args =>
              exact hg.createQp (objects_of_pd? hx) (valid_of_queueArgs hargs) hroom fun p hp =>
                haddr p (Option.mem_toList.mpr hp)
  | resolve result errno =>
      refine hg.resolve hhas hk ?_
      rintro id ctx rfl
      exact ⟨haddr id List.mem_cons_self, he⟩
  | cmCreateQp i pd sendCq recvCq srq rc result errno =>
      rw [next]
      cases hx : w.cmId? i with
      | none => exact hg
      | some x =>
          cases hy : w.pd? pd with
          | none => exact hg
          | some y =>
              cases hargs : w.queueArgs sendCq recvCq srq with
              | none => exact hg
              | some args =>
                  refine hg.cmCreateQp (objects_of_cmId? hx) (objects_of_pd? hy) (valid_of_queueArgs hargs) hroom ?_
                  rintro p rfl
                  exact haddr p List.mem_cons_self
  | connect i rc errno =>
      rw [next]
      cases hx : w.cmId? i with
      | none => exact hg
      | some x => exact hg.connect (objects_of_cmId? hx)
  | disconnect i rc errno =>
      rw [next]
      cases hx : w.cmId? i with
      | none => exact hg
      | some x => exact hg.disconnect (objects_of_cmId? hx)
  | getCqEvent i => exact hg.onCq fun _ => rfl
  | ackEvents i nevents => exact hg.onCq fun x => ackEvents_isOpen b.cqClass nevents x.events
  | users i n => exact hg.setUsers
  | method i => exact hg.method
  | bridgeInfo i => exact hg.bridgeInfo
  | close i rc errno =>
      rw [next]
      cases ho : w.objects i with
      | none => exact hg
      | some o => exact hg.close ho he
  | drop i rc =>
      rw [next]
      cases ho : w.objects i with
      | none => exact hg
      | some o => exact hg.dealloc ho he.1 he.2

end Rdma4py.Bindings.Objects
