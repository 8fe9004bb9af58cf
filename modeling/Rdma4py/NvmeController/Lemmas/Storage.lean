import Rdma4py.NvmeController.Lemmas.Encoding
import Rdma4py.NvmeController.Storage
import Rdma4py.NvmeQueue.Lemmas.Handed
import Rdma4py.NvmeQueue.Lemmas.Runs

/-!
# One command, from `execute` to the media

While a call of `execute` lasts, its command is the only one that the target can hold: it alone changes the media. A
response with success means that its bytes have arrived.
-/

namespace Rdma4py.NvmeQueue

variable {w : World}

theorem executeIteration_answers (w : World) (x : Execution) (count : Nat) (now : Int) :
    (executeIteration w x count now).1.record.answers = w.record.answers := by
  have hpoll := (poll_settings w none count).answers
  unfold executeIteration
  split
  · rfl
  split
  · next heq => rwa [heq] at hpoll
  · next heq =>
      rw [heq] at hpoll
      dsimp only
      split
      · exact hpoll
      · exact hpoll

/-- An iteration of `execute`: the request is done, or the poll is taken into account. -/
theorem Settled.iteration (h : Settled w) (x : Execution) (count : Nat) (now : Int) :
    ((w.requests x.request).done = true ∧
      executeIteration w x count now = ({ w with executing := none }, executeResult (w.requests x.request))) ∨
    ((w.requests x.request).done = false ∧ ∃ w', Settled w' ∧ Sheds w w' ∧
      executeIteration w x count now =
        if x.deadline ≤ now then ({ w' with executing := none }, .raised (.timeoutError "NVMe command timed out"))
        else (w', .running)) := by
  have hkeys : Keys w := fun cid r hl => (h.sound.core.keys cid r hl).1
  by_cases hd : (w.requests x.request).done = true
  · exact .inl ⟨hd, by rw [executeIteration, if_pos hd]⟩
  refine .inr ⟨by simpa using hd, ?_⟩
  rcases h.sound.poll none count with ⟨hm, _⟩ | ⟨_, w₁, he, hsound, -⟩
  · cases hm
  have hs := hsound.handedOut w₁.record.polled (w₁.record.discarded ++ w₁.queue.completed)
    (by rw [← List.append_assoc])
  have hsheds := poll_sheds hkeys h.sound.core.opened none count
  rw [he] at hsheds
  refine ⟨_, hs, hsheds.trans (.of_eq rfl rfl rfl rfl), ?_⟩
  rw [executeIteration, if_neg hd, he]

theorem Settled.none_pending {r : RequestId} (h : Settled w)
    (honly : ∀ cid r', w.queue.pending.lookup cid = some r' → r' = r)
    (hd : (w.requests r).done = true) (cid : Nat) (r' : RequestId) : w.queue.pending.lookup cid ≠ some r' := by
  intro hl
  have hopen := (h.sound.core.keys cid r' hl).2.2
  rw [honly cid r' hl, hd] at hopen
  cases hopen

end Rdma4py.NvmeQueue

namespace Rdma4py.NvmeController.Storage

open Rdma4py.Lib
open NvmeQueue (Exn World Outcome RequestId Settled Sheds executeStart executeIteration executeResult packCommandId)

variable {t : Target} {s s' : System} {c command : List UInt8} {m : Media} {r : RequestId} {o : Outcome}

/-! ## What a capsule moves -/

/-- What the target moves for a command; nothing, if the command is none that moves bytes. -/
def Target.copy (t : Target) (c : List UInt8) : Copy Place := ((t.decode c).getD ⟨true, 0, 0, 0, 0⟩).copy

theorem Target.copy_of_decode {x : Transfer} (h : t.decode c = some x) : t.copy c = x.copy := by
  rw [Target.copy, h, Option.getD_some]

theorem Transfer.apart (x : Transfer) : x.copy.Apart := by
  refine ⟨?_, ?_⟩
  · intro i _ j _ h
    cases hx : x.stores <;> simpa [Transfer.copy, hx] using h
  · intro i _ j _
    cases hx : x.stores <;> simp [Transfer.copy, hx]

theorem Transfer.run_within (x : Transfer) (m : Media) : x.copy.Within m (x.run m) := by
  intro p hp
  cases p with
  | disk nsid offset =>
      apply if_neg
      rintro ⟨hstores, rfl, hle, hlt⟩
      apply hp (offset - x.disk) (show offset - x.disk < x.length by omega)
      simp [Transfer.copy, hstores, Nat.add_sub_cancel' hle]
  | host addr =>
      apply if_neg
      rintro ⟨hloads, hle, hlt⟩
      apply hp (addr - x.host) (show addr - x.host < x.length by omega)
      simp [Transfer.copy, hloads, Nat.add_sub_cancel' hle]

/-- A target may move all bytes at once. -/
theorem Transfer.run_done (x : Transfer) (m : Media) : x.copy.Done (x.run m) := by
  intro i hi
  have hi : i < x.length := hi
  cases hx : x.stores <;> simp [Transfer.copy, Transfer.run, hx, hi]

theorem Target.copy_apart (t : Target) (c : List UInt8) : (t.copy c).Apart := Transfer.apart _

/-- The command ID does not tell the target what to move. -/
theorem Target.copy_stamped (t : Target) (h : c.length = 64) (cid : Nat) : t.copy (packCommandId c cid) = t.copy c := by
  have hdecode : t.decode (packCommandId c cid) = t.decode c := by
    unfold Target.decode lbaRange sglRange
    rw [slice_stamped h cid (.inl (by omega)), slice_stamped h cid (.inr (by omega)), slice_stamped h cid (.inr (by omega)),
      slice_stamped h cid (.inr (by omega)), slice_stamped h cid (.inr (by omega)), slice_stamped h cid (.inr (by omega)),
      slice_stamped h cid (.inr (by omega))]
  rw [Target.copy, hdecode, ← Target.copy]

/-! ## States of the queue between the media and its caller -/

theorem passive_sheds {w : World} {e : NvmeQueue.Event} (he : Passive e) : Sheds w (w.step e).1 := by
  cases e with
  | deliver =>
      rw [World.step]
      split <;> exact .of_eq rfl rfl rfl rfl
  | complete i =>
      rw [World.step]
      split <;> exact .of_eq rfl rfl rfl rfl
  | answer i data =>
      rw [World.step]
      split <;> exact .of_eq rfl rfl rfl rfl
  | _ => cases he

/-- No command is pending, so that the target holds no capsule. -/
structure Idle (s : System) : Prop where
  settled : Settled s.io
  executing : s.io.executing = none
  pending : ∀ cid r, s.io.queue.pending.lookup cid ≠ some r

/-- The command of `execute` is the only one that is pending. It alone has changed the media since `m`, and when it was
answered with success, its bytes had arrived. -/
structure Busy (t : Target) (r : RequestId) (c : List UInt8) (m : Media) (s : System) : Prop where
  settled : Settled s.io
  executing : ∀ x, s.io.executing = some x → x.request = r
  only : ∀ cid r', s.io.queue.pending.lookup cid = some r' → r' = r
  capsule : s.io.record.capsule r = c
  within : (t.copy c).Within m s.media
  arrived : ∀ a ∈ s.io.record.answers, a.request = r → (NvmeQueue.Completion.unpack a.data).succeeded = true →
    (t.copy c).Done s.media

theorem Idle.capsules (h : Idle s) : s.io.link.capsules = [] := by
  cases hcapsules : s.io.link.capsules with
  | nil => rfl
  | cons x xs =>
      have hopen := h.settled.sound.core.capsule_open (c := x) (by rw [hcapsules]; exact List.mem_cons_self)
      exact absurd hopen (h.pending _ _)

/-- The capsule that the target holds is the one that is being executed. -/
theorem Busy.held (h : Busy t r c m s) {x : NvmeQueue.Capsule} (hx : x ∈ s.io.link.capsules) :
    x.request = r ∧ x.bytes = c := by
  have hrequest : x.request = r := h.only _ _ (h.settled.sound.core.capsule_open hx)
  refine ⟨hrequest, ?_⟩
  rw [h.settled.sound.core.received x hx, hrequest, h.capsule]

theorem Idle.surroundings {e : Event} (h : Idle s) (he : (surroundings t).Enabled s e) :
    Idle ((surroundings t).next s e) ∧ ((surroundings t).next s e).media = s.media := by
  cases e with
  | link e =>
      obtain ⟨hpassive, henabled, -⟩ := he
      have hsheds : Sheds s.io (s.io.step e).1 := passive_sheds hpassive
      refine ⟨⟨h.settled.step henabled, hsheds.executing.trans h.executing, ?_⟩, rfl⟩
      intro cid r hl
      exact h.pending cid r (hsheds.pending cid r hl)
  | move i media =>
      obtain ⟨x, -, hx, -⟩ := he
      rw [h.capsules] at hx
      cases hx

theorem step_answers {e : NvmeQueue.Event} (he : Passive e) {a : NvmeQueue.Answer} (ha : a ∈ (s.io.step e).1.record.answers) :
    a ∈ s.io.record.answers ∨ ∃ i data x, e = .answer i data ∧ s.io.link.capsules[i]? = some x ∧
      a = ⟨x.request, x.bytes, data⟩ := by
  cases e with
  | deliver =>
      rw [World.step] at ha
      split at ha <;> exact .inl ha
  | complete i =>
      rw [World.step] at ha
      split at ha <;> exact .inl ha
  | answer i data =>
      rw [World.step] at ha
      split at ha
      · next x _ _ hx _ =>
          rcases List.mem_append.mp ha with ha | ha
          · exact .inl ha
          · exact .inr ⟨i, data, x, rfl, hx, List.mem_singleton.mp ha⟩
      · exact .inl ha
  | _ => cases he

theorem Busy.surroundings {e : Event} (h : Busy t r c m s) (he : (surroundings t).Enabled s e) :
    Busy t r c m ((surroundings t).next s e) := by
  cases e with
  | link e =>
      obtain ⟨hpassive, henabled, hhonest⟩ := he
      have hsheds : Sheds s.io (s.io.step e).1 := passive_sheds hpassive
      refine ⟨h.settled.step henabled, ?_, ?_, ?_, h.within, ?_⟩
      · intro x hx
        exact h.executing x (hsheds.executing.symm.trans hx)
      · intro cid r' hl
        exact h.only cid r' (hsheds.pending cid r' hl)
      · exact (congrFun hsheds.capsule r).trans h.capsule
      · intro a ha hr hsuccess
        rcases step_answers hpassive ha with ha | ⟨i, data, x, rfl, hx, rfl⟩
        · exact h.arrived a ha hr hsuccess
        · have hbytes := (h.held (List.mem_of_getElem? hx)).2
          cases hdecode : t.decode c with
          | none =>
              intro i hi
              simp [Target.copy, hdecode, Transfer.copy] at hi
          | some y =>
              rw [Target.copy_of_decode hdecode]
              exact hhonest hsuccess x y hx (by rw [hbytes, hdecode])
  | move i media =>
      obtain ⟨x, y, hx, hdecode, hwithin⟩ := he
      have hmem := List.mem_of_getElem? hx
      obtain ⟨hrequest, hbytes⟩ := h.held hmem
      rw [hbytes] at hdecode
      rw [← Target.copy_of_decode hdecode] at hwithin
      refine ⟨h.settled, h.executing, h.only, h.capsule, h.within.trans hwithin, ?_⟩
      -- What was answered is no longer held, so nothing moves for it.
      intro a ha hr
      have hout := (h.settled.sound.core.answers a ha).2.2.2.2
      rw [hr, ← hrequest] at hout
      exact absurd (List.mem_append_right _ (List.mem_map_of_mem hmem)) hout

/-! ## `execute` -/

/-- How `execute` ends: with its bytes moved, or with an error and no other byte changed. Only a timeout leaves the
command pending. -/
def Ended (t : Target) (c : List UInt8) (m : Media) (o : Outcome) (s : System) : Prop :=
  (∃ response, o = .executed response ∧ Idle s ∧ (t.copy c).Made m s.media) ∨
  ∃ e, o = .raised e ∧ (t.copy c).Within m s.media ∧ ((∀ text, e ≠ .timeoutError text) → Idle s)

theorem Busy.goesOn {x : NvmeQueue.Execution} {count : Nat} {now : Int} {io : World} (h : Busy t r c m s)
    (hi : executeIteration s.io x count now = (io, .running)) : Busy t r c m { s with io := io } := by
  have hanswers : io.record.answers = s.io.record.answers := by
    have := NvmeQueue.executeIteration_answers s.io x count now
    rwa [hi] at this
  rcases h.settled.iteration x count now with ⟨-, heq⟩ | ⟨-, w, hs, hsheds, heq⟩
  · rw [hi] at heq
    rcases NvmeQueue.executeResult_cases (s.io.requests x.request) with ⟨e, hr⟩ | ⟨response, hr⟩ <;> rw [hr] at heq <;> cases heq
  · rw [hi] at heq
    split at heq
    · cases heq
    · cases heq
      refine ⟨hs, ?_, ?_, ?_, h.within, ?_⟩
      · intro y hy
        exact h.executing y (hsheds.executing.symm.trans hy)
      · intro cid r' hl
        exact h.only cid r' (hsheds.pending cid r' hl)
      · exact (congrFun hsheds.capsule r).trans h.capsule
      · intro a ha
        rw [hanswers] at ha
        exact h.arrived a ha

/-- The request is done: its response says how. -/
theorem Busy.finishes (h : Busy t r c m s) (hd : (s.io.requests r).done = true) :
    Ended t c m (executeResult (s.io.requests r)) { s with io := { s.io with executing := none } } := by
  have hnone : ∀ cid r', s.io.queue.pending.lookup cid ≠ some r' :=
    h.settled.none_pending h.only hd
  have hidle : Idle { s with io := { s.io with executing := none } } :=
    ⟨h.settled.same rfl rfl rfl rfl rfl rfl rfl rfl rfl, rfl, hnone⟩
  obtain ⟨response, hresponse⟩ := Option.isSome_iff_exists.mp ((h.settled.sound.done_iff r).mp hd).2
  simp only [executeResult, hresponse]
  cases hstatus : response.raiseForStatus with
  | some e =>
      refine .inr ⟨e, rfl, h.within, fun _ => hidle⟩
  | none =>
      refine .inl ⟨response, rfl, hidle, ?_⟩
      obtain ⟨a, ha, hr, rfl⟩ := h.settled.sound.core.responses r response hresponse
      have hsuccess : (NvmeQueue.Completion.unpack a.data).succeeded = true := by
        by_contra hfailed
        rw [NvmeQueue.Completion.raiseForStatus, if_neg hfailed] at hstatus
        cases hstatus
      exact h.within.made (t.copy_apart c) (h.arrived a ha hr hsuccess)

theorem Busy.loops (hl : Loops t s o s') (h : Busy t r c m s) : Ended t c m o s' := by
  induction hl with
  | waits e he _ ih => exact ih (h.surroundings he)
  | goesOn x count now io _ hi _ ih => exact ih (h.goesOn hi)
  | @ends s x count now io o hx hi ho =>
      obtain rfl := h.executing x hx
      rcases h.settled.iteration x count now with ⟨hd, heq⟩ | ⟨-, w, -, -, heq⟩
      · rw [hi] at heq
        cases heq
        exact h.finishes hd
      · rw [hi] at heq
        split at heq
        · cases heq
          exact .inr ⟨_, rfl, h.within, fun hne => absurd rfl (hne _)⟩
        · cases heq
          exact absurd rfl ho

theorem Idle.begins {owner : Option Nat} {timeout now : Int} {post : Option Exn} {io : World} (h : Idle s)
    (hstart : executeStart s.io command owner timeout now post = (io, .running)) :
    ∃ r cid, command.length = 64 ∧ Busy t r (packCommandId command cid) s.media { s with io := io } := by
  have hs := h.settled.step (e := .execute command owner timeout now post)
    (show s.io.executing.isNone by rw [h.executing]; rfl)
  rw [World.step] at hs
  rw [executeStart] at hs hstart
  rcases hsub : NvmeQueue.submit s.io command owner post with ⟨w, e | r⟩
  · rw [hsub] at hstart
    cases hstart
  · rw [hsub] at hs hstart
    cases hstart
    obtain ⟨hlen, rfl, cid, free, -, rfl⟩ := h.settled.sound.core.submitted hsub
    refine ⟨s.io.nextRequest, cid, hlen, hs, ?_, ?_, ?_, .refl _ _, ?_⟩
    · rintro x hx
      cases hx
      rfl
    · intro cid' r' hl
      have hl' : (s.io.queue.pending.insert cid s.io.nextRequest).lookup cid' = some r' := hl
      by_cases hcid : cid' = cid
      · subst hcid
        rw [AList.lookup_insert] at hl'
        exact (Option.some.inj hl').symm
      · rw [AList.lookup_insert_ne hcid] at hl'
        exact absurd hl' (h.pending cid' r')
    · exact Function.update_self ..
    · intro a ha hr
      have hlt := (h.settled.sound.core.answers a ha).1
      rw [hr] at hlt
      exact absurd hlt (Nat.lt_irrefl _)

theorem Executes.ended (hx : Executes t command s o s') (h : Idle s) : Ended t command s.media o s' := by
  induction hx with
  | waits e he _ ih =>
      obtain ⟨hidle, hmedia⟩ := h.surroundings he
      rw [← hmedia]
      exact ih hidle
  | @refused s owner timeout now post io e hstart =>
      refine .inr ⟨e, rfl, .refl _ _, fun _ => ?_⟩
      have hs := h.settled.submit command owner post
      rw [executeStart] at hstart
      rcases hsub : NvmeQueue.submit s.io command owner post with ⟨w, e' | r⟩
      · rw [hsub] at hs hstart
        cases hstart
        obtain ⟨hp, hexec⟩ := h.settled.sound.core.submit_raised hsub
        refine ⟨hs, hexec.trans h.executing, ?_⟩
        intro cid r
        rw [hp]
        exact h.pending cid r
      · rw [hsub] at hstart
        cases hstart
  | begins owner timeout now post io hstart hl =>
      obtain ⟨r, cid, hlen, hbusy⟩ := h.begins (t := t) hstart
      have hended := hbusy.loops hl
      rwa [Ended, t.copy_stamped hlen] at hended

end Rdma4py.NvmeController.Storage
