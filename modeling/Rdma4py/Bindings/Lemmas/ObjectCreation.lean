import Rdma4py.Bindings.Lemmas.ObjectSteps

/-!
# Creation keeps the invariant

Each function passes live pointers, and what it creates is made from what it passed.
-/

namespace Rdma4py.Bindings.Objects

open Lib

variable {b : Binding} {w w' : World} {i j k p q : Nat} {o o' : Object} {n m : Native Kind} {errno : Int}

/-! ## Looking up objects -/

theorem objects_of_context? {x : Context} (h : w.context? i = some x) : w.objects i = some (.context x) := by
  rw [World.context?] at h
  split at h
  · next y hy => rw [hy, Option.some.inj h]
  · cases h

theorem objects_of_pd? {x : PD} (h : w.pd? i = some x) : w.objects i = some (.pd x) := by
  rw [World.pd?] at h
  split at h
  · next y hy => rw [hy, Option.some.inj h]
  · cases h

theorem objects_of_compChannel? {x : CompChannel} (h : w.compChannel? i = some x) :
    w.objects i = some (.compChannel x) := by
  rw [World.compChannel?] at h
  split at h
  · next y hy => rw [hy, Option.some.inj h]
  · cases h

theorem objects_of_cq? {x : CQ} (h : w.cq? i = some x) : w.objects i = some (.cq x) := by
  rw [World.cq?] at h
  split at h
  · next y hy => rw [hy, Option.some.inj h]
  · cases h

theorem objects_of_qp? {x : QP} (h : w.qp? i = some x) : w.objects i = some (.qp x) := by
  rw [World.qp?] at h
  split at h
  · next y hy => rw [hy, Option.some.inj h]
  · cases h

theorem objects_of_srq? {x : SRQ} (h : w.srq? i = some x) : w.objects i = some (.srq x) := by
  rw [World.srq?] at h
  split at h
  · next y hy => rw [hy, Option.some.inj h]
  · cases h

theorem objects_of_cmId? {x : CMID} (h : w.cmId? i = some x) : w.objects i = some (.cmId x) := by
  rw [World.cmId?] at h
  split at h
  · next y hy => rw [hy, Option.some.inj h]
  · cases h

/-! ## One new object -/

/-- What a function made `o` from: its bases, which are open and none of which is an endpoint. -/
structure MadeFrom (w : World) (o : Object) (needs : List Nat) : Prop where
  needs : needs.map some = o.bases.map w.handles.ptr?
  on : ∀ j ∈ o.bases, ∃ y, w.objects j = some y ∧ Kind.On o.wrapper.kind y.wrapper.kind

theorem MadeFrom.use {needs : List Nat} (h : MadeFrom w o needs) (args : List (Option Nat)) :
    MadeFrom (w.use args) o needs :=
  ⟨h.needs, h.on⟩

/-- The view of an object that no endpoint manages. -/
theorem Good.linked_new (hg : Good b w) (hcm : ∀ id c, o.view ≠ .cmId id c) (hqp : ∀ z, o.view ≠ .qp (some z))
    (hcq : ∀ k, o.view = .cq (some k) → w.view k = some .compChannel) :
    Linked (Function.update w.view w.fresh (some o.view)) := by
  exact hg.linked.new hg.view_fresh (fun id c h => absurd h (hcm id c)) (fun id owner h => absurd h (hqp _)) hcq

theorem MadeFrom.fits {needs : List Nat} (hmade : MadeFrom w o needs) (haddr : ¬ w.handles.Live p)
    (hptr : o.wrapper.ptr = some p) (hrefs : o.wrapper.refs = o.bases) :
    w.handles.Fits Kind.On o.wrapper ⟨p, o.wrapper.kind, needs, o.bases⟩ := by
  have hbases := bases_of_wrapper o
  refine ⟨haddr, hptr, rfl, hbases.symm, by rw [hbases]; exact hmade.needs, ?_, ?_, ?_⟩
  · intro j hj
    rw [hbases] at hj
    obtain ⟨y, hy, hon⟩ := hmade.on j hj
    exact ⟨y.wrapper, by rw [handles_wrappers, hy]; rfl, hon⟩
  · rw [hbases, hrefs]
    exact List.Subset.refl _
  · intro j hj
    rw [hrefs] at hj
    obtain ⟨y, hy, -⟩ := hmade.on j hj
    exact ⟨y.wrapper, by rw [handles_wrappers, hy]; rfl⟩

/-- A pointer that an object was made from is that of an endpoint only if the base is one. -/
theorem Good.endpoint_base (hg : Good b w) {needs : List Nat} (hmade : MadeFrom w o needs) (hm : m ∈ w.natives)
    (hkind : m.kind = .cmId) (hmem : m.ptr ∈ needs) : ∃ j ∈ o.bases, ∃ x, w.objects j = some (.cmId x) ∧ x.id = some m.ptr := by
  have hmem' : some m.ptr ∈ o.bases.map w.handles.ptr? := hmade.needs ▸ List.mem_map_of_mem hmem
  obtain ⟨j, hj, hjp⟩ := List.mem_map.mp hmem'
  obtain ⟨y, hy, -⟩ := hmade.on j hj
  rw [ptr?_of_object hy] at hjp
  obtain ⟨n, hn, hnp, hnk, -⟩ := hg.native hy hjp
  rw [Handles.eq_of_ptr hg.sound.distinct hn hm hnp] at hnk
  rw [hkind] at hnk
  refine ⟨j, hj, ?_⟩
  cases y with
  | cmId x => exact ⟨x, hy, hjp⟩
  | _ => cases hnk

/-- The end of a function that creates an object without an endpoint. -/
theorem Good.created (hg : Good b w) {op : String} {result : Option Nat} {kind : Kind} {needs : List Nat}
    {o : Nat → Object} (hroom : w.natives.length + 1 < 2 ^ 32) (haddr : ∀ p ∈ result, ¬ w.handles.Live p)
    (hmade : ∀ p, MadeFrom w (o p) needs) (hkind : ∀ p, (o p).wrapper.kind = kind)
    (hptr : ∀ p, (o p).wrapper.ptr = some p) (hrefs : ∀ p, (o p).wrapper.refs = (o p).bases)
    (hlinked : ∀ p, Linked (Function.update w.view w.fresh (some (o p).view)))
    (hview : ∀ p id c, (o p).view ≠ .cmId id c)
    (hchannel : ∀ p x k, o p = .cq x → x.channel = some k → ∃ y, w.objects k = some (.compChannel y))
    (hempty : ∀ p c, o p ≠ .context c) (hcm : ∀ p, ∀ j ∈ (o p).bases, ∀ x, w.objects j ≠ some (.cmId x)) :
    Good b (w.created b op result errno kind needs o).1 := by
  cases result with
  | none => exact hg
  | some p =>
      have hfits := (hmade p).fits (haddr p rfl) (hptr p) (hrefs p)
      rw [hkind p] at hfits
      have hnew : New w (o p) ⟨p, kind, needs, (o p).bases⟩ :=
        ⟨hfits, hlinked p, hchannel p, fun c hc => absurd hc (hempty p c), hroom⟩
      refine hg.wrap_plain hnew (hview p) ?_
      intro m hm hk hmem
      obtain ⟨j, hj, x, hx, -⟩ := hg.endpoint_base (hmade p) hm hk hmem
      exact absurd hx (hcm p j hj x)

/-- What an object was made from that has one base. -/
theorem madeFrom_one {y : Object} (hj : w.objects j = some y) (hp : y.wrapper.ptr = some p) (hbases : o.bases = [j])
    (hon : Kind.On o.wrapper.kind y.wrapper.kind) : MadeFrom w o [p] := by
  refine ⟨?_, ?_⟩
  · rw [hbases, List.map_singleton, List.map_singleton, ptr?_of_object hj, hp]
  · intro k hk
    rw [hbases, List.mem_singleton] at hk
    rw [hk]
    exact ⟨y, hj, hon⟩

/-- `alloc_pd` and the like: an object with one base, of which nothing but its native object matters. -/
theorem Good.created_one (hg : Good b w) {y : Object} {op : String} {result : Option Nat} {kind : Kind} {o : Nat → Object}
    (hroom : w.natives.length + 1 < 2 ^ 32) (haddr : ∀ p ∈ result, ¬ w.handles.Live p)
    (hj : w.objects j = some y) (hp : y.wrapper.ptr = some q) (hcm : ∀ x, y ≠ .cmId x)
    (hbases : ∀ p, (o p).bases = [j]) (hkind : ∀ p, (o p).wrapper.kind = kind)
    (hon : Kind.On kind y.wrapper.kind) (hptr : ∀ p, (o p).wrapper.ptr = some p)
    (hrefs : ∀ p, (o p).wrapper.refs = (o p).bases) (hempty : ∀ p c, o p ≠ .context c) (hcq : ∀ p x, o p ≠ .cq x)
    (hview : ∀ p, (o p).view = .other ∨ (o p).view = .compChannel) :
    Good b (w.created b op result errno kind [q] o).1 := by
  refine hg.created hroom haddr (fun p => madeFrom_one hj hp (hbases p) (by rw [hkind p]; exact hon)) hkind hptr hrefs
    (fun p => ?_) ?_ (fun p x k hx => absurd hx (hcq p x)) hempty ?_
  · apply hg.linked_new
    · intro id c h
      rcases hview p with hv | hv
      · rw [hv] at h
        cases h
      · rw [hv] at h
        cases h
    · intro z h
      rcases hview p with hv | hv
      · rw [hv] at h
        cases h
      · rw [hv] at h
        cases h
    · intro k h
      rcases hview p with hv | hv
      · rw [hv] at h
        cases h
      · rw [hv] at h
        cases h
  · intro p id c h
    rcases hview p with hv | hv
    · rw [hv] at h
      cases h
    · rw [hv] at h
      cases h
  · intro p k hk x hx
    rw [hbases p, List.mem_singleton] at hk
    rw [hk, hj, Option.some.injEq] at hx
    exact hcm x hx

/-! ## The functions -/

@[simp] theorem onChildren_none (w : World) (f : Nat → Nat) : w.onChildren f none = w := by
  simp [World.onChildren]

/-- A new object that was made from nothing. -/
theorem Good.wrap_alone (hg : Good b w) (hnew : New w o n) (hparent : o.parent = none) (hneeds : n.needs = [])
    (hview : ∀ id c, o.view ≠ .cmId id c) : Good b (w.wrap o n) := by
  have h := hg.wrap_plain hnew hview fun m _ _ hmem => by
    rw [hneeds] at hmem
    cases hmem
  rw [hparent, World.addChild, onChildren_none] at h
  exact h

/-- A context that was opened. -/
theorem Good.new_context (hg : Good b w) (hroom : w.natives.length + 1 < 2 ^ 32) (haddr : ¬ w.handles.Live p) :
    New w (.context ⟨some p, true, 0⟩) ⟨p, .context, [], []⟩ := by
  refine ⟨?_, ?_, ?_, ?_, hroom⟩
  · exact MadeFrom.fits (o := .context ⟨some p, true, 0⟩) ⟨rfl, fun j hj => by cases hj⟩ haddr rfl rfl
  · exact hg.linked_new (fun id c h => by cases h) (fun z h => by cases h) (fun k h => by cases h)
  · intro x k hx
    cases hx
  · intro c hc
    cases hc
    exact ⟨rfl, rfl⟩

theorem Good.openDevice (hg : Good b w) {name : String} {listed : Bool} {result : Option Nat}
    (hroom : w.natives.length + 1 < 2 ^ 32) (haddr : ∀ p ∈ result, ¬ w.handles.Live p) :
    Good b (Device.open b name listed result errno w).1 := by
  cases listed with
  | false => exact hg
  | true =>
      cases result with
      | none => exact hg
      | some p =>
          exact hg.wrap_alone (hg.new_context hroom (haddr p rfl)) rfl rfl fun _ _ h => by cases h

theorem Good.allocPd (hg : Good b w) {x : Context} (hi : w.objects i = some (.context x)) {result : Option Nat}
    (hroom : w.natives.length + 1 < 2 ^ 32) (haddr : ∀ p ∈ result, ¬ w.handles.Live p) :
    Good b (x.allocPd b i result errno w).1 := by
  rw [Context.allocPd]
  cases hctx : x.ctx with
  | none => exact hg
  | some ctx =>
      have huse : Good b (w.use [some ctx]) := hg.use (by simpa using hg.live hi hctx)
      exact huse.created_one (y := .context x) hroom haddr hi hctx (fun _ h => by cases h) (fun _ => rfl)
        (fun _ => rfl) .pd (fun _ => rfl) (fun _ => rfl) (fun _ _ h => by cases h) (fun _ _ h => by cases h)
        (fun _ => .inl rfl)

theorem Good.createCompChannel (hg : Good b w) {x : Context} (hi : w.objects i = some (.context x)) {result : Option Nat}
    (hroom : w.natives.length + 1 < 2 ^ 32) (haddr : ∀ p ∈ result, ¬ w.handles.Live p) :
    Good b (x.createCompChannel b i result errno w).1 := by
  rw [Context.createCompChannel]
  cases hctx : x.ctx with
  | none => exact hg
  | some ctx =>
      have huse : Good b (w.use [some ctx]) := hg.use (by simpa using hg.live hi hctx)
      exact huse.created_one (y := .context x) hroom haddr hi hctx (fun _ h => by cases h) (fun _ => rfl)
        (fun _ => rfl) .compChannel (fun _ => rfl) (fun _ => rfl) (fun _ _ h => by cases h) (fun _ _ h => by cases h)
        (fun _ => .inr rfl)

theorem Good.createAh (hg : Good b w) {x : PD} (hi : w.objects i = some (.pd x)) {result : Option Nat}
    (hroom : w.natives.length + 1 < 2 ^ 32) (haddr : ∀ p ∈ result, ¬ w.handles.Live p) :
    Good b (x.createAh b i result errno w).1 := by
  rw [PD.createAh]
  cases hpd : x.pd with
  | none => exact hg
  | some pd =>
      have huse : Good b (w.use [some pd]) := hg.use (by simpa using hg.live hi hpd)
      exact huse.created_one (y := .pd x) hroom haddr hi hpd (fun _ h => by cases h) (fun _ => rfl)
        (fun _ => rfl) .ah (fun _ => rfl) (fun _ => rfl) (fun _ _ h => by cases h) (fun _ _ h => by cases h)
        (fun _ => .inl rfl)

theorem Good.createSrq (hg : Good b w) {x : PD} (hi : w.objects i = some (.pd x)) {result : Option Nat}
    (hroom : w.natives.length + 1 < 2 ^ 32) (haddr : ∀ p ∈ result, ¬ w.handles.Live p) :
    Good b (x.createSrq b i result errno w).1 := by
  rw [PD.createSrq]
  cases hpd : x.pd with
  | none => exact hg
  | some pd =>
      have huse : Good b (w.use [some pd]) := hg.use (by simpa using hg.live hi hpd)
      exact huse.created_one (y := .pd x) hroom haddr hi hpd (fun _ h => by cases h) (fun _ => rfl)
        (fun _ => rfl) .srq (fun _ => rfl) (fun _ => rfl) (fun _ _ h => by cases h) (fun _ _ h => by cases h)
        (fun _ => .inl rfl)

theorem Good.regMr (hg : Good b w) {x : PD} (hi : w.objects i = some (.pd x)) {addr length : Int} {result : Option Nat}
    (hroom : w.natives.length + 1 < 2 ^ 32) (haddr : ∀ p ∈ result, ¬ w.handles.Live p) :
    Good b (x.regMr b i addr length result errno w).1 := by
  rw [PD.regMr]
  cases hpd : x.pd with
  | none => exact hg
  | some pd =>
      have huse : Good b (w.use [some pd]) := hg.use (by simpa using hg.live hi hpd)
      have hmade : Good b ((w.use [some pd]).created b "ibv_reg_mr" result errno .mr [pd] fun p => .mr ⟨some p, i⟩).1 :=
        huse.created_one (y := .pd x) hroom haddr hi hpd (fun _ h => by cases h) (fun _ => rfl) (fun _ => rfl) .mr
          (fun _ => rfl) (fun _ => rfl) (fun _ _ h => by cases h) (fun _ _ h => by cases h) (fun _ => .inl rfl)
      by_cases h₁ : addr < 0 ∨ 0xFFFFFFFFFFFFFFFF < addr
      · simpa only [if_pos h₁] using hg
      · by_cases h₂ : length ≤ 0 ∨ 0xFFFFFFFFFFFFFFFF < length
        · simpa only [if_neg h₁, if_pos h₂] using hg
        · by_cases h₃ : 0x10000000000000000 < addr + length
          · simpa only [if_neg h₁, if_neg h₂, if_pos h₃] using hg
          · simpa only [if_neg h₁, if_neg h₂, if_neg h₃] using hmade

/-! ## Completion queues -/

theorem channel_eq_ok {ch : Option (Nat × CompChannel)} {chan : List Nat} (h : Context.channel b i ch = .ok chan) :
    (ch = none ∧ chan = []) ∨ ∃ k y p, ch = some (k, y) ∧ y.chan = some p ∧ chan = [p] := by
  cases ch with
  | none =>
      cases h
      exact .inl ⟨rfl, rfl⟩
  | some z =>
      obtain ⟨k, y⟩ := z
      rw [Context.channel] at h
      cases hchan : y.chan with
      | none =>
          rw [hchan] at h
          cases h
      | some p =>
          rw [hchan] at h
          by_cases hc : y.context ≠ i
          · simp [if_pos hc] at h
          · simp only [if_neg hc, Except.ok.injEq] at h
            exact .inr ⟨k, y, p, rfl, hchan, h.symm⟩

theorem Good.createCq (hg : Good b w) {op : String} {x : Context} (hi : w.objects i = some (.context x)) {cqe : Int}
    {ch : Option (Nat × CompChannel)} (hch : ∀ k y, ch = some (k, y) → w.objects k = some (.compChannel y))
    {compVector numCompVectors : Int} {result : Option Nat} (hroom : w.natives.length + 1 < 2 ^ 32)
    (haddr : ∀ p ∈ result, ¬ w.handles.Live p) :
    Good b (x.createCq b op i cqe ch compVector numCompVectors result errno w).1 := by
  rw [Context.createCq]
  cases hctx : x.ctx with
  | none => exact hg
  | some ctx =>
      have hlive : w.isLive (some ctx) = true := hg.live hi hctx
      have huse : Good b (w.use [some ctx]) := hg.use (by simpa using hlive)
      by_cases h₁ : cqe ≤ 0
      · simpa only [if_pos h₁] using hg
      · by_cases h₂ : compVector < 0 ∨ numCompVectors ≤ compVector
        · simpa only [if_neg h₁, if_pos h₂] using huse
        · simp only [if_neg h₁, if_neg h₂]
          cases hchannel : Context.channel b i ch with
          | error e => exact huse
          | ok chan =>
              have hmade : ∀ p, MadeFrom w (.cq ⟨p, .create, i, ch.map Prod.fst⟩) (ctx :: chan) := by
                intro p
                rcases channel_eq_ok hchannel with ⟨rfl, rfl⟩ | ⟨k, y, q, rfl, hq, rfl⟩
                · exact madeFrom_one (y := .context x) hi hctx rfl .cq
                · have hk := hch k y rfl
                  refine ⟨?_, ?_⟩
                  · show [some ctx, some q] = [w.handles.ptr? i, w.handles.ptr? k]
                    rw [ptr?_of_object hi, ptr?_of_object hk]
                    simp only [Object.wrapper, hctx, hq]
                  · intro j hj
                    rcases List.mem_cons.mp hj with rfl | hj
                    · exact ⟨.context x, hi, .cq⟩
                    · rw [List.mem_singleton.mp hj]
                      exact ⟨.compChannel y, hk, .cqChannel⟩
              have hall : ∀ a ∈ some ctx :: chan.map some, w.isLive a = true := by
                intro a ha
                rcases channel_eq_ok hchannel with ⟨-, rfl⟩ | ⟨k, y, q, hky, hq, rfl⟩
                · rw [List.mem_singleton.mp ha]
                  exact hlive
                · rcases List.mem_cons.mp ha with rfl | ha
                  · exact hlive
                  · rw [List.mem_singleton.mp ha]
                    exact hg.live (hch k y hky) hq
              have hview : ∀ k, ch.map Prod.fst = some k → ∃ y, w.objects k = some (.compChannel y) := by
                intro k hk
                obtain ⟨z, hz, rfl⟩ := Option.map_eq_some_iff.mp hk
                exact ⟨z.2, hch z.1 z.2 hz⟩
              refine (hg.use hall).created hroom haddr (fun p => (hmade p).use _) (fun _ => rfl) (fun _ => rfl)
                (fun _ => rfl) (fun p => ?_) (fun _ _ _ h => by cases h) ?_ (fun _ _ h => by cases h) ?_
              · apply (hg.use hall).linked_new
                · intro id c h
                  cases h
                · intro z h
                  cases h
                · intro k hk
                  obtain ⟨y, hy⟩ := hview k (View.cq.inj hk)
                  simp [World.view, World.use, hy, Object.view]
              · intro p y k hy hk
                cases hy
                exact hview k hk
              · intro p j hj y hy
                obtain ⟨z, hz, hon⟩ := (hmade p).on j hj
                have hyz : some (Object.cmId y) = some z := hy.symm.trans hz
                cases hyz
                cases hon

/-! ## Queue pairs -/

/-- The queues are objects of the process. -/
structure QueueArgs.Valid (args : QueueArgs) (w : World) : Prop where
  sendCq : w.objects args.sendCq.1 = some (.cq args.sendCq.2)
  recvCq : w.objects args.recvCq.1 = some (.cq args.recvCq.2)
  srq : ∀ k y, args.srq = some (k, y) → w.objects k = some (.srq y)

theorem valid_of_queueArgs {srq : Option Nat} {args : QueueArgs} (h : w.queueArgs i j srq = some args) :
    args.Valid w := by
  simp only [World.queueArgs, Option.bind_eq_bind, Option.bind_eq_some_iff] at h
  obtain ⟨scq, hscq, rcq, hrcq, s, hs, h⟩ := h
  cases h
  refine ⟨objects_of_cq? hscq, objects_of_cq? hrcq, ?_⟩
  intro k y hky
  cases srq with
  | none =>
      cases hs
      cases hky
  | some l =>
      obtain ⟨z, hz, hzs⟩ := Option.map_eq_some_iff.mp hs
      rw [← hzs, Option.some.injEq] at hky
      cases hky
      exact objects_of_srq? hz

theorem check_eq_ok {args : QueueArgs} {context pd : Nat} {owner : String} {queues : List Nat}
    (h : args.check b context pd owner = .ok queues) :
    ∃ scq rcq, args.sendCq.2.ptr = some scq ∧ args.recvCq.2.ptr = some rcq ∧
      ((args.srq = none ∧ queues = [scq, rcq]) ∨
        ∃ k y p, args.srq = some (k, y) ∧ y.srq = some p ∧ queues = [scq, rcq, p]) := by
  rw [QueueArgs.check] at h
  cases hscq : args.sendCq.2.ptr with
  | none => simp [hscq] at h
  | some scq =>
      cases hrcq : args.recvCq.2.ptr with
      | none => simp [hscq, hrcq] at h
      | some rcq =>
          refine ⟨scq, rcq, rfl, rfl, ?_⟩
          simp only [hscq, hrcq] at h
          by_cases hc : args.sendCq.2.context ≠ context ∨ args.recvCq.2.context ≠ context
          · simp [if_pos hc] at h
          · rw [if_neg hc] at h
            cases hsrq : args.srq with
            | none =>
                simp only [hsrq, Except.ok.injEq] at h
                exact .inl ⟨rfl, h.symm⟩
            | some z =>
                obtain ⟨k, y⟩ := z
                simp only [hsrq] at h
                cases hp : y.srq with
                | none => simp [hp] at h
                | some p =>
                    simp only [hp] at h
                    by_cases hpd : y.pd ≠ pd
                    · simp [if_pos hpd] at h
                    · simp only [if_neg hpd, Except.ok.injEq] at h
                      exact .inr ⟨k, y, p, rfl, hp, h.symm⟩

/-- The queues of a QP, as bases. -/
theorem QueueArgs.Valid.queues {args : QueueArgs} (hv : args.Valid w) {context pd : Nat} {owner : String}
    {queues : List Nat} (h : args.check b context pd owner = .ok queues) :
    queues.map some = ([args.sendCq.1, args.recvCq.1] ++ (args.srq.map Prod.fst).toList).map w.handles.ptr? ∧
      ∀ j ∈ [args.sendCq.1, args.recvCq.1] ++ (args.srq.map Prod.fst).toList,
        ∃ y, w.objects j = some y ∧ Kind.On .qp y.wrapper.kind ∧ ∀ z, y ≠ .cmId z := by
  obtain ⟨scq, rcq, hscq, hrcq, hrest⟩ := check_eq_ok h
  have hs := ptr?_of_object hv.sendCq
  have hr := ptr?_of_object hv.recvCq
  simp only [Object.wrapper, hscq] at hs
  simp only [Object.wrapper, hrcq] at hr
  have hscq' : ∃ y, w.objects args.sendCq.1 = some y ∧ Kind.On .qp y.wrapper.kind ∧ ∀ z, y ≠ .cmId z :=
    ⟨_, hv.sendCq, .qpCq, fun z hz => by cases hz⟩
  have hrcq' : ∃ y, w.objects args.recvCq.1 = some y ∧ Kind.On .qp y.wrapper.kind ∧ ∀ z, y ≠ .cmId z :=
    ⟨_, hv.recvCq, .qpCq, fun z hz => by cases hz⟩
  rcases hrest with ⟨hsrq, rfl⟩ | ⟨k, y, p, hsrq, hp, rfl⟩
  · refine ⟨by simp [hsrq, hs, hr], ?_⟩
    intro j hj
    simp only [hsrq, Option.map_none, Option.toList_none, List.append_nil, List.mem_cons, List.not_mem_nil,
      or_false] at hj
    rcases hj with rfl | rfl
    · exact hscq'
    · exact hrcq'
  · have hy := ptr?_of_object (hv.srq k y hsrq)
    simp only [Object.wrapper, hp] at hy
    refine ⟨by simp [hsrq, hs, hr, hy], ?_⟩
    intro j hj
    simp only [hsrq, Option.map_some, Option.toList_some, List.cons_append, List.nil_append, List.mem_cons,
      List.not_mem_nil, or_false] at hj
    rcases hj with rfl | rfl | rfl
    · exact hscq'
    · exact hrcq'
    · exact ⟨_, hv.srq j y hsrq, .qpSrq, fun z hz => by cases hz⟩

theorem QueueArgs.Valid.live {args : QueueArgs} (hg : Good b w) (hv : args.Valid w) {context pd : Nat} {owner : String}
    {queues : List Nat} (h : args.check b context pd owner = .ok queues) : ∀ a ∈ queues.map some, w.isLive a = true := by
  intro a ha
  rw [(hv.queues h).1] at ha
  obtain ⟨j, hj, hja⟩ := List.mem_map.mp ha
  have hmem : some a ∈ (queues.map some).map some := by
    rw [List.mem_map]
    exact ⟨a, by rw [(hv.queues h).1]; exact ha, rfl⟩
  cases a with
  | none =>
      simp at hmem
  | some p => exact isLive_of_ptr hg.sound hja

/-- What a QP was made from, without an endpoint. -/
theorem QueueArgs.Valid.madeFrom {args : QueueArgs} (hv : args.Valid w) {x : PD} (hi : w.objects i = some (.pd x))
    (hpd : x.pd = some q) {context pd : Nat} {owner : String} {queues : List Nat}
    (h : args.check b context pd owner = .ok queues) (p : Nat) : MadeFrom w (args.qp i none none p) (q :: queues) := by
  obtain ⟨hneeds, hon⟩ := hv.queues h
  refine ⟨?_, ?_⟩
  · rw [List.map_cons, hneeds]
    simp only [QueueArgs.qp, Object.bases, Option.toList_none, List.append_nil, List.cons_append, List.nil_append,
      List.map_cons, ptr?_of_object hi]
    simp only [Object.wrapper, hpd]
  · intro j hj
    simp only [QueueArgs.qp, Object.bases, Option.toList_none, List.append_nil, List.cons_append,
      List.nil_append] at hj
    rcases List.mem_cons.mp hj with rfl | hj
    · exact ⟨_, hi, .qp⟩
    · obtain ⟨y, hy, hy', -⟩ := hon j hj
      exact ⟨y, hy, hy'⟩

theorem QueueArgs.Valid.not_cmId {args : QueueArgs} (hv : args.Valid w) {x : PD} (hi : w.objects i = some (.pd x))
    {context pd : Nat} {owner : String} {queues : List Nat} (h : args.check b context pd owner = .ok queues)
    (hj : j ∈ (args.qp i none none p).bases) (y : CMID) : w.objects j ≠ some (.cmId y) := by
  intro hy
  simp only [QueueArgs.qp, Object.bases, Option.toList_none, List.append_nil, List.cons_append, List.nil_append] at hj
  rcases List.mem_cons.mp hj with rfl | hj
  · rw [hi] at hy
    cases hy
  · obtain ⟨z, hz, -, hne⟩ := (hv.queues h).2 j hj
    rw [hz] at hy
    exact hne y (Option.some.inj hy)

/-- `created` for a QP without an endpoint. -/
theorem QueueArgs.Valid.created {args : QueueArgs} (hg : Good b w) (hv : args.Valid w) {x : PD}
    (hi : w.objects i = some (.pd x)) (hpd : x.pd = some q) {context pd : Nat} {owner op : String} {queues : List Nat}
    (h : args.check b context pd owner = .ok queues) {result : Option Nat} (hroom : w.natives.length + 1 < 2 ^ 32)
    (haddr : ∀ p ∈ result, ¬ w.handles.Live p) :
    Good b (w.created b op result errno .qp (q :: queues) (args.qp i none none)).1 := by
  refine hg.created hroom haddr (hv.madeFrom hi hpd h) (fun _ => rfl) (fun _ => rfl) (fun _ => rfl) (fun p => ?_)
    (fun _ _ _ hx => by cases hx) (fun _ _ _ hx => by cases hx) (fun _ _ hc => by cases hc) ?_
  · exact hg.linked_new (fun _ _ hx => by cases hx) (fun _ hx => by cases hx) (fun _ hx => by cases hx)
  · exact fun p j hj y => hv.not_cmId hi h hj y

/-- A native object without a wrapper. -/
theorem Good.orphan (hg : Good b w) (haddr : ¬ w.handles.Live n.ptr) (hneeds : ∀ q ∈ n.needs, ∃ m ∈ w.natives,
      m.ptr = q ∧ Kind.On n.kind m.kind ∧ m.kind ≠ .cmId) (hchild : n.kind.child = false)
    (hgiven : ∀ p ∈ n.needs, p ∉ w.cmDevices → ∀ i, w.handles.ptr? i = some p → i ∈ n.through)
    (holder : ∀ j ∈ n.through, j < w.fresh) : Good b { w with natives := n :: w.natives } := by
  have hsound : (w.handles.add n w.cmDevices).Sound Kind.On := by
    refine hg.sound.add haddr ?_ hgiven (.inl rfl)
    intro q hq
    obtain ⟨m, hm, hp, hon, -⟩ := hneeds q hq
    exact ⟨m, hm, hp, hon⟩
  refine ⟨hsound, hg.linked, ?_, ?_, hg.lends, ?_, hg.extended, ?_, hg.attached, hg.fresh, hg.faults⟩
  · intro j c hj
    have hcount : (World.handles { w with natives := n :: w.natives }).users Kind.child j =
        w.handles.users Kind.child j := by
      show (n :: w.natives).countP _ = w.natives.countP _
      rw [List.countP_cons_of_neg (by simp [hchild])]
    rw [hcount]
    exact hg.children j c hj
  · intro m hm j hj
    rcases List.mem_cons.mp hm with rfl | hm
    · exact holder j hj
    · exact hg.older m hm j hj
  · exact fun p hp => List.mem_cons_of_mem _ (hg.devices p hp)
  · intro m hm m' hm' hkind hmem
    rcases List.mem_cons.mp hm' with heq | hm'
    · rw [heq] at hmem
      rcases List.mem_cons.mp hm with heq' | hm
      · rw [heq'] at hmem
        obtain ⟨m'', hm'', hp, -⟩ := hneeds n.ptr hmem
        exact absurd ⟨m'', hm'', hp⟩ haddr
      · exact absurd hmem (hg.not_needed haddr hm)
    · rcases List.mem_cons.mp hm with heq | hm
      · rw [heq] at hmem
        obtain ⟨m'', hm'', hp, -, hne⟩ := hneeds m'.ptr hmem
        rw [Handles.eq_of_ptr hg.sound.distinct hm'' hm' hp] at hne
        exact absurd hkind hne
      · exact hg.endpoint m hm m' hm' hkind hmem

theorem Good.createQp (hg : Good b w) {x : PD} (hi : w.objects i = some (.pd x)) {args : QueueArgs} (hv : args.Valid w)
    {result : Option Nat} {ex : Bool} {rc : Int} (hroom : w.natives.length + 1 < 2 ^ 32)
    (haddr : ∀ p ∈ result, ¬ w.handles.Live p) : Good b (x.createQp b i args result ex rc errno w).1 := by
  rw [PD.createQp]
  cases hpd : x.pd with
  | none => exact hg
  | some pd =>
      cases hcheck : args.check b x.context i "the PD's context" with
      | error e => exact hg
      | ok queues =>
          have hall : ∀ a ∈ some pd :: queues.map some, w.isLive a = true := by
            intro a ha
            rcases List.mem_cons.mp ha with rfl | ha
            · exact hg.live hi hpd
            · exact hv.live hg hcheck a ha
          have hvalid : ∀ args', args.Valid (w.use args') := fun _ => ⟨hv.sendCq, hv.recvCq, hv.srq⟩
          simp only
          cases hext : b.extended with
          | false => exact (hvalid _).created (hg.use hall) hi hpd hcheck hroom haddr
          | true =>
              -- The context of an open PD is open, though only the PD is checked.
              obtain ⟨c, hc, hlive⟩ : ∃ c, w.objects x.context = some (.context c) ∧ w.isLive c.ctx = true := by
                obtain ⟨y, q, -, hy, hyq, hon, -⟩ := hg.base hi hpd (List.mem_singleton.mpr rfl)
                  fun h => absurd (hg.extended hext) h
                have hlive := hg.live hy hyq
                cases y with
                | context c =>
                    rw [← hyq] at hlive
                    exact ⟨c, hy, hlive⟩
                | _ => cases hon
              simp only [hc, Bool.not_true, Bool.false_eq_true, if_false]
              have hall' : ∀ a ∈ c.ctx :: some pd :: queues.map some, w.isLive a = true := by
                intro a ha
                rcases List.mem_cons.mp ha with rfl | ha
                · exact hlive
                · exact hall a ha
              have hguse := hg.use hall'
              cases ex with
              | true => exact (hvalid _).created hguse hi hpd hcheck hroom haddr
              | false =>
                  cases result with
                  | none => exact (hvalid _).created hguse hi hpd hcheck hroom haddr
                  | some p =>
                      by_cases hrc : rc = 0
                      · simpa only [if_pos hrc] using hguse
                      · simp only [if_neg hrc]
                        have hmade : MadeFrom w (args.qp i none none p) (pd :: queues) := hv.madeFrom hi hpd hcheck p
                        have hgave : ∀ q ∈ pd :: queues, ∃ j ∈ (args.qp i none none p).bases,
                            w.handles.ptr? j = some q := by
                          intro q hq
                          have hmem : some q ∈ (args.qp i none none p).bases.map w.handles.ptr? :=
                            hmade.needs ▸ List.mem_map_of_mem hq
                          exact List.mem_map.mp hmem
                        refine hguse.orphan (haddr p rfl) ?_ rfl ?_ ?_
                        · intro q hq
                          obtain ⟨j, hj, hjq⟩ := hgave q hq
                          obtain ⟨y, hy, hon⟩ := hmade.on j hj
                          rw [ptr?_of_object hy] at hjq
                          obtain ⟨m, hm, hmq, hmk, -⟩ := hg.native hy hjq
                          refine ⟨m, hm, hmq, by rw [hmk]; exact hon, ?_⟩
                          rw [hmk]
                          cases y with
                          | cmId z => exact absurd hy (hv.not_cmId hi hcheck hj z)
                          | _ => exact fun h => by cases h
                        · intro q hq hlent k hk
                          obtain ⟨j, hj, hjq⟩ := hgave q hq
                          rw [hg.sound.unique k j q hlent hk hjq]
                          exact hj
                        · intro j hj
                          obtain ⟨y, hy, -⟩ := hmade.on j hj
                          exact hg.lt_fresh hy

/-! ## Endpoints -/

theorem Good.cmOpen (hg : Good b w) (hext : b.extended = false) (hctx : p ∈ w.cmDevices ∨ ¬ w.handles.Live p) :
    Good b (w.cmOpen p) := by
  rw [World.cmOpen]
  by_cases hp : p ∈ w.cmDevices
  · rw [if_pos hp]
    exact hg
  · rw [if_neg hp]
    have haddr : ¬ w.handles.Live p := hctx.resolve_left hp
    have hsound : (w.handles.add ⟨p, .context, [], []⟩ (p :: w.cmDevices)).Sound Kind.On :=
      hg.sound.add haddr (fun q hq => by cases hq) (fun q hq => by cases hq) (.inr ⟨rfl, rfl⟩)
    have hold : ∀ m ∈ w.natives, p ∉ m.needs := fun m hm => hg.not_needed (n := ⟨p, .context, [], []⟩) haddr hm
    refine ⟨hsound, hg.linked, ?_, ?_, ?_, ?_, fun h => ?_, ?_, hg.attached, hg.fresh, hg.faults⟩
    · intro j c hj
      rw [hg.children j c hj]
      exact (List.countP_cons_of_neg (by simp [Kind.child])).symm
    · intro m hm j hj
      rcases List.mem_cons.mp hm with rfl | hm
      · cases hj
      · exact hg.older m hm j hj
    · intro j owned q hj
      have hne : q ≠ p := by
        rintro rfl
        obtain ⟨c, hc, -, hcq⟩ := view_eq_context hj
        obtain ⟨m, hm, hmq, -⟩ := hg.native hc hcq
        exact haddr ⟨m, hm, hmq⟩
      show q ∈ p :: w.cmDevices ↔ owned = false
      rw [List.mem_cons, or_iff_right hne]
      exact hg.lends j owned q hj
    · intro q hq
      rcases List.mem_cons.mp hq with rfl | hq
      · exact List.mem_cons_self
      · exact List.mem_cons_of_mem _ (hg.devices q hq)
    · rw [hext] at h
      cases h
    · intro m hm m' hm' hkind hmem
      rcases List.mem_cons.mp hm' with rfl | hm'
      · cases hkind
      · rcases List.mem_cons.mp hm with rfl | hm
        · cases hmem
        · exact hg.endpoint m hm m' hm' hkind hmem

/-- The context of a new endpoint. -/
theorem Good.wrapBorrowed (hg : Good b w) (hp : p ∈ w.cmDevices) :
    Good b (w.wrapBorrowed (.context ⟨some p, false, 0⟩)) := by
  let x : Object := .context ⟨some p, false, 0⟩
  have hnone : w.handles.wrappers w.fresh = none := by
    rw [handles_wrappers, hg.objects_fresh]
    rfl
  have hview : (w.wrapBorrowed x).view = Function.update w.view w.fresh (some x.view) := view_put w w.fresh (some x)
  refine ⟨?_, ?_, ?_, ?_, ?_, hg.devices, hg.extended, hg.endpoint, ?_, ?_, hg.faults⟩
  · rw [handles_wrapBorrowed]
    exact hg.sound.borrow hnone rfl hp ⟨rfl, rfl⟩ (hg.devices p hp) rfl rfl rfl rfl
  · rw [hview]
    exact hg.linked_new (o := x) (fun _ _ h => by cases h) (fun _ h => by cases h) (fun _ h => by cases h)
  · intro j c hj
    by_cases hjf : j = w.fresh
    · simp only [hjf, World.wrapBorrowed, Function.update_self, Option.some.injEq, Object.context.injEq] at hj
      rw [← hj, hjf]
      exact hg.users_fresh.symm
    · simp only [World.wrapBorrowed, Function.update_of_ne hjf] at hj
      exact hg.children j c hj
  · exact fun m hm j hj => Nat.lt_succ_of_lt (hg.older m hm j hj)
  · rw [hview]
    refine hg.lends.new ?_
    intro owned q hx
    cases hx
    exact iff_of_true hp rfl
  · rw [hview, handles_wrapBorrowed]
    intro j id c q hj hq
    have hjf : j ≠ w.fresh := by
      rintro rfl
      rw [Function.update_self] at hj
      cases hj
    rw [Function.update_of_ne hjf] at hj
    obtain ⟨k, hk, hkq⟩ := hg.attached j id c q hj hq
    have hkf : k ≠ w.fresh := by
      rintro rfl
      rw [hg.view_fresh] at hk
      cases hk
    exact ⟨k, by rw [Function.update_of_ne hkf, hk], by rw [Handles.ptr?_set_of_ne hkf, hkq]⟩
  · intro j hj
    have hlt : w.fresh < j := hj
    show Function.update w.objects w.fresh (some x) j = none
    rw [Function.update_of_ne (by omega)]
    exact hg.fresh j (by omega)

/-- A new endpoint, whose context is there. -/
theorem Good.newEndpoint (hg : Good b w) {ctx : Option Nat} (hk : w.view k = some (.context false ctx))
    (hlive : ¬ w.handles.Live p) (hroom : w.natives.length + 1 < 2 ^ 32) :
    Good b { w.wrap (.cmId ⟨some p, k, false⟩) ⟨p, .cmId, [], []⟩ with
      endpointQp := Function.update w.endpointQp p none } := by
  let y : Object := .cmId ⟨some p, k, false⟩
  obtain ⟨c, hc, -⟩ := view_eq_context hk
  have hfits : w.handles.Fits Kind.On y.wrapper ⟨p, .cmId, [], []⟩ := by
    refine ⟨hlive, rfl, rfl, rfl, rfl, fun j hj => ?_, List.nil_subset _, fun j hj => ?_⟩
    · cases hj
    · rw [List.mem_singleton.mp hj, handles_wrappers, hc]
      exact ⟨_, rfl⟩
  have hnew : New w y ⟨p, .cmId, [], []⟩ := by
    refine ⟨hfits, hg.linked.new hg.view_fresh ?_ (fun _ _ h => by cases h) (fun _ h => by cases h),
      (fun _ _ h => by injection h), (fun _ h => by injection h), hroom⟩
    intro id c h
    cases h
    exact ⟨ctx, hk⟩
  have hend : ∀ m ∈ w.natives, ∀ m' ∈ w.natives, m'.kind = .cmId → m'.ptr ∈ m.needs →
      Function.update w.endpointQp p none m'.ptr = some m.ptr := by
    intro m hm m' hm' hkind hmem
    have hne : m'.ptr ≠ p := fun h => hlive ⟨m', hm', h⟩
    rw [Function.update_of_ne hne]
    exact hg.endpoint m hm m' hm' hkind hmem
  refine hg.wrap hnew (hg.attached_wrap ?_ ?_) hend (fun m _ _ hmem => by cases hmem)
  · intro j id c q _ hq
    by_cases hid : id = p
    · rw [hid, Function.update_self] at hq
      cases hq
    · rw [Function.update_of_ne hid] at hq
      exact .inl hq
  · intro id c h
    cases h
    exact Function.update_self ..

theorem Good.resolve (hg : Good b w) (hext : b.extended = false) {result : Except Int (Option (Nat × Nat))}
    (hroom : w.natives.length + 2 < 2 ^ 32) (hid : ∀ id ctx, result = .ok (some (id, ctx)) → ¬ w.handles.Live id ∧
      (ctx ∈ w.cmDevices ∨ ctx ≠ id ∧ ¬ w.handles.Live ctx)) : Good b (CMID.resolve b result errno w).1 := by
  match result with
  | .error rc => exact hg
  | .ok none => exact hg
  | .ok (some (id, ctx)) =>
      obtain ⟨hid, hctx⟩ := hid id ctx rfl
      have hopen : Good b (w.cmOpen ctx) := hg.cmOpen hext (hctx.imp_right And.right)
      have hborrow := hopen.wrapBorrowed (mem_cmOpen w ctx)
      have hview : ((w.cmOpen ctx).wrapBorrowed (.context ⟨some ctx, false, 0⟩)).view (w.cmOpen ctx).fresh =
          some (.context false (some ctx)) := by
        simp [World.view, World.wrapBorrowed, Object.view]
      have hlive : ¬ ((w.cmOpen ctx).wrapBorrowed (.context ⟨some ctx, false, 0⟩)).handles.Live id := by
        show ¬ ∃ n ∈ (w.cmOpen ctx).natives, n.ptr = id
        rintro ⟨m, hm, hmp⟩
        rw [World.cmOpen] at hm
        split at hm
        · exact hid ⟨m, hm, hmp⟩
        · next hnot =>
            rcases List.mem_cons.mp hm with rfl | hm
            · exact (hctx.resolve_left hnot).1 hmp
            · exact hid ⟨m, hm, hmp⟩
      have hlength : (w.cmOpen ctx).natives.length + 1 < 2 ^ 32 := by
        rw [World.cmOpen]
        split
        · omega
        · rw [List.length_cons]
          omega
      have hend := hborrow.newEndpoint hview hlive hlength
      rw [cmOpen_fresh] at hend
      exact hend

/-- A QP of an endpoint that has none. -/
theorem Good.manage (hg : Good b w) {x : CMID} (hi : w.objects i = some (.cmId x)) (hid : x.id = some k) {y : PD}
    (hj : w.objects j = some (.pd y)) (hpd : y.pd = some q) {args : QueueArgs} (hv : args.Valid w)
    {context pd : Nat} {owner : String} {queues : List Nat} (hcheck : args.check b context pd owner = .ok queues)
    (hqp : w.endpointQp k = none) (hroom : w.natives.length + 1 < 2 ^ 32) (haddr : ¬ w.handles.Live p) :
    Good b { w.wrap (args.qp j (some k) (some i) p) ⟨p, .qp, (q :: queues) ++ [k], (args.qp j (some k) (some i) p).bases⟩
      with endpointQp := Function.update w.endpointQp k (some p) } := by
  have hmade : MadeFrom w (args.qp j (some k) (some i) p) ((q :: queues) ++ [k]) := by
    obtain ⟨hneeds, hon⟩ := hv.queues hcheck
    have hi' : w.handles.ptr? i = some k := (ptr?_of_object hi).trans hid
    have hj' : w.handles.ptr? j = some q := (ptr?_of_object hj).trans hpd
    refine ⟨?_, ?_⟩
    · rw [List.map_append, List.map_cons, hneeds]
      simp [QueueArgs.qp, Object.bases, hi', hj']
    · intro l hl
      have hl : l = j ∨ l ∈ [args.sendCq.1, args.recvCq.1] ++ (args.srq.map Prod.fst).toList ∨ l = i := by
        simp only [QueueArgs.qp, Object.bases, List.mem_append, List.mem_cons, List.not_mem_nil, or_false,
          Option.toList_some] at hl ⊢
        tauto
      rcases hl with rfl | hl | rfl
      · exact ⟨_, hj, .qp⟩
      · obtain ⟨z, hz, hz', -⟩ := hon l hl
        exact ⟨z, hz, hz'⟩
      · exact ⟨_, hi, .qpCmId⟩
  have hview : w.view i = some (.cmId (some k) x.context) := by
    simp [World.view, hi, Object.view, hid]
  have hnew : New w (args.qp j (some k) (some i) p)
      ⟨p, .qp, (q :: queues) ++ [k], (args.qp j (some k) (some i) p).bases⟩ := by
    refine ⟨hmade.fits haddr rfl rfl, hg.linked.new hg.view_fresh (fun _ _ h => by cases h) ?_ (fun _ h => by cases h),
      (fun _ _ h => by cases h), (fun _ h => by cases h), hroom⟩
    intro id owner h
    cases h
    exact ⟨i, x.context, rfl, hview⟩
  refine hg.wrap hnew (hg.attached_wrap ?_ fun _ _ h => by cases h) ?_ ?_
  · intro l id c q' hl hq'
    by_cases hk : id = k
    · rw [hk, Function.update_self, Option.some.injEq] at hq'
      -- Only one object holds the endpoint.
      obtain ⟨z, hz, hzid, -⟩ := view_eq_cmId hl
      have hlent : k ∉ w.cmDevices := hg.not_lent hi hid fun h => by cases h
      have hli : l = i := hg.sound.unique l i k hlent (by rw [ptr?_of_object hz, ← hk]; exact hzid)
        (by rw [ptr?_of_object hi]; exact hid)
      exact .inr ⟨by rw [hk, hli]; rfl, by rw [← hq']; rfl⟩
    · rw [Function.update_of_ne hk] at hq'
      exact .inl hq'
  · intro m hm m' hm' hkind hmem
    have hold := hg.endpoint m hm m' hm' hkind hmem
    rw [Function.update_of_ne]
    · exact hold
    · intro hk
      rw [hk, hqp] at hold
      cases hold
  · intro m hm hkind hmem
    obtain ⟨l, hl, z, hz, hzp⟩ := hg.endpoint_base hmade hm hkind hmem
    have hli : l = i := by
      by_contra hli
      have hl : l ∈ (args.qp j none none p).bases := by
        simp only [QueueArgs.qp, Object.bases, List.mem_append, List.mem_cons, List.not_mem_nil, or_false,
          Option.toList_some, Option.toList_none] at hl ⊢
        tauto
      exact hv.not_cmId hj hcheck hl z hz
    rw [hli, hi] at hz
    cases hz
    rw [hid, Option.some.injEq] at hzp
    rw [← hzp, Function.update_self]

theorem Good.cmCreateQp (hg : Good b w) {x : CMID} (hi : w.objects i = some (.cmId x)) {y : PD}
    (hj : w.objects j = some (.pd y)) {args : QueueArgs} (hv : args.Valid w) {rc : Bool} {result : Except Int Nat}
    (hroom : w.natives.length + 1 < 2 ^ 32) (haddr : ∀ p, result = .ok p → ¬ w.handles.Live p) :
    Good b (x.createQp b i j y args rc result errno w).1 := by
  rw [CMID.createQp]
  cases hid : x.id with
  | none => exact hg
  | some id =>
      cases hpd : y.pd with
      | none => exact hg
      | some pd =>
          have hlive : w.isLive (some id) = true := hg.live hi hid
          have huse : Good b (w.use [some id]) := hg.use (by simpa using hlive)
          cases hqp : w.endpointQp id with
          | some qp => simpa only [use_endpointQp, hqp, Option.isSome_some, if_true] using huse
          | none =>
              simp only [use_endpointQp, hqp, Option.isSome_none, Bool.false_eq_true, if_false]
              by_cases hc : y.context ≠ x.context
              · rw [if_pos hc]
                exact huse
              · rw [if_neg hc]
                cases hcheck : args.check b x.context j "this CM context" with
                | error e => exact huse
                | ok queues =>
                    cases rc with
                    | false => exact huse
                    | true =>
                        have hall : ∀ a ∈ some id :: some pd :: queues.map some, (w.use [some id]).isLive a = true := by
                          intro a ha
                          rcases List.mem_cons.mp ha with rfl | ha
                          · exact hlive
                          · rcases List.mem_cons.mp ha with rfl | ha
                            · exact hg.live hj hpd
                            · exact hv.live hg hcheck a ha
                        have hguse := huse.use hall
                        cases result with
                        | error e => exact hguse
                        | ok p =>
                            exact hguse.manage hi hid hj hpd ⟨hv.sendCq, hv.recvCq, hv.srq⟩ hcheck
                              hqp hroom (haddr p rfl)

end Rdma4py.Bindings.Objects
