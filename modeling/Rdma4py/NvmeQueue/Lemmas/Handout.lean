import Rdma4py.NvmeQueue.Lemmas.Runs

/-!
# Who learns of a finished request

A request leaves `_completed` in the result of the `poll` that finished it. The caller never sees the results of the polls
that `execute` makes.
-/

namespace Rdma4py.NvmeQueue

open Rdma4py.Lib

variable {w w' : World} {r : RequestId} {e : Event}

/-- The entries hold what the request still misses. -/
def CompletedBy (w : World) (es : List Entry) (r : RequestId) : Prop :=
  ((w.requests r).sendComplete = true ∨ r ∈ es.filterMap Entry.sent?) ∧
    ((w.requests r).response.isSome ∨ r ∈ es.filterMap Entry.answered?)

/-- A poll of `execute` takes the last missing completion of a request that `submit` returned. -/
def Swallows (w : World) (e : Event) : Prop :=
  ∃ count now x, e = .iterate count now ∧ w.executing = some x ∧ (w.requests x.request).done = false ∧
    ∃ r ∈ w.record.submitted, (w.requests r).done = false ∧ CompletedBy w (w.link.cq.take (w.pollCount none count)) r

/-- A poll finishes the requests whose missing completions it takes, and hands out these. -/
theorem Settled.polled {es : List Entry} (h : Settled w) (hs : Sound w') (hp : Progressed es w (w'.setCq w.link.cq)) :
    (∀ r, (w'.requests r).done = true ↔ CompletedBy w es r) ∧
      ∀ r, r ∈ w'.queue.completed ↔ (w.requests r).done = false ∧ CompletedBy w es r := by
  have hdone : ∀ r, (w'.requests r).done = true ↔ CompletedBy w es r := by
    intro r
    rw [hs.done_iff]
    exact and_congr (hp.sent r) (hp.answered r)
  have hbefore : ∀ r, (w.requests r).done = true ↔ r ∈ w'.record.polled.flatten ++ w'.record.discarded := by
    intro r
    have hhanded := h.sound.core.handed
    rw [h.completed, List.append_nil] at hhanded
    have hpolled : w'.record.polled = w.record.polled := hp.record.1
    have hdiscarded : w'.record.discarded = w.record.discarded := hp.record.2.1
    rw [hpolled, hdiscarded, ← hhanded.mem_iff, h.sound.core.finished.mem_iff]
  have hnd := hs.core.handed.nodup_iff.mp hs.core.finished.nodup
  refine ⟨hdone, fun r => ⟨fun hr => ?_, fun ⟨hnot, hby⟩ => ?_⟩⟩
  · have hfin : r ∈ w'.record.finished := hs.core.handed.symm.subset (List.mem_append_right _ hr)
    refine ⟨?_, (hdone r).mp ((hs.core.finished.mem_iff r).mp hfin)⟩
    rw [← Bool.not_eq_true, hbefore]
    exact fun hmem => (List.nodup_append'.mp hnd).2.2 hmem hr
  · have hfin : r ∈ w'.record.finished := (hs.core.finished.mem_iff r).mpr ((hdone r).mpr hby)
    refine (List.mem_append.mp (hs.core.handed.subset hfin)).resolve_left fun hmem => ?_
    rw [← hbefore, hnot] at hmem
    cases hmem

theorem submit_record (w : World) (command : List UInt8) (owner : Option Nat) (post : Option Exn) :
    (submit w command owner post).1.record.submitted = w.record.submitted ∧
      (submit w command owner post).1.record.polled = w.record.polled ∧
      (submit w command owner post).1.record.discarded = w.record.discarded ∧
      ∀ r, (submit w command owner post).2 = .ok r → r = w.nextRequest := by
  rw [submit]
  rcases submitWrite_cases w command owner with ⟨free, e, he⟩ | ⟨-, -, cid, free, -, he⟩
  · rw [he]
    exact ⟨rfl, rfl, rfl, fun r hr => by cases hr⟩
  · rw [he]
    cases post with
    | some e => exact ⟨rfl, rfl, rfl, fun r hr => by cases hr⟩
    | none => exact ⟨rfl, rfl, rfl, fun r hr => (Except.ok.inj hr).symm⟩

/-- An event leaves the caller's requests and what `execute` discarded alone, submits a new request, or is a poll of
`execute`, which discards what it finishes. -/
theorem Settled.told (h : Settled w) (hen : w.Enabled e) :
    ((w.step e).1.record.submitted = w.record.submitted ∧ (w.step e).1.record.discarded = w.record.discarded ∧
      ¬ Swallows w e) ∨
    ((w.step e).1.record.submitted = w.record.submitted ++ [w.nextRequest] ∧
      (w.step e).1.record.discarded = w.record.discarded ∧ ¬ Swallows w e) ∨
    (∃ rs, (w.step e).1.record.submitted = w.record.submitted ∧
      (w.step e).1.record.discarded = w.record.discarded ++ rs ∧ (Swallows w e ↔ ∃ r ∈ w.record.submitted, r ∈ rs)) := by
  have hother : (∀ count now, e ≠ .iterate count now) → ¬ Swallows w e := by
    rintro hne ⟨count, now, _, he, _⟩
    exact hne count now he
  cases e with
  | submit command owner post =>
      obtain ⟨hs, hp, hd, hr⟩ := submit_record w command owner post
      have hnot := hother (by simp)
      rw [World.step]
      rcases hsub : NvmeQueue.submit w command owner post with ⟨w', e | r⟩ <;> rw [hsub] at hs hd hr
      · exact Or.inl ⟨hs, hd, hnot⟩
      · refine Or.inr (Or.inl ⟨?_, hd, hnot⟩)
        rw [← hr r rfl]
        exact congrArg (· ++ [r]) hs
  | poll maxEntries count =>
      have hnot := hother (by simp)
      left
      rw [World.step]
      rcases h.sound.poll maxEntries count with ⟨_, e, he⟩ | ⟨_, w', he, _, hp⟩ <;> rw [he]
      · exact ⟨rfl, rfl, hnot⟩
      · exact ⟨hp.record.2.2, hp.record.2.1, hnot⟩
  | execute command owner timeout now post =>
      obtain ⟨hs, _, hd, _⟩ := submit_record w command owner post
      have hnot := hother (by simp)
      left
      rw [World.step, executeStart]
      rcases hsub : NvmeQueue.submit w command owner post with ⟨w', e | r⟩ <;> rw [hsub] at hs hd
      · exact ⟨hs, hd, hnot⟩
      · exact ⟨hs, hd, hnot⟩
  | iterate count now =>
      obtain ⟨x, hx⟩ := Option.isSome_iff_exists.mp hen
      cases hdone : (w.requests x.request).done with
      | true =>
          left
          simp only [World.step, hx, executeIteration, hdone, if_true]
          refine ⟨trivial, trivial, ?_⟩
          rintro ⟨_, _, x', _, hx', hd', _⟩
          obtain rfl := Option.some.inj (hx.symm.trans hx')
          rw [hdone] at hd'
          cases hd'
      | false =>
          rcases h.sound.poll none count with ⟨hm, _⟩ | ⟨_, w', he, hsound, hp⟩
          · cases hm
          · obtain ⟨_, hrs⟩ := h.polled hsound hp
            refine Or.inr (Or.inr ⟨w'.queue.completed, ?_, ?_, ?_⟩)
            · simp only [World.step, hx, executeIteration, hdone, Bool.false_eq_true, if_false, he]
              split <;> exact hp.record.2.2
            · simp only [World.step, hx, executeIteration, hdone, Bool.false_eq_true, if_false, he]
              split <;> exact congrArg (· ++ w'.queue.completed) hp.record.2.1
            · constructor
              · rintro ⟨count', now', x', heq, _, _, r, hr, hd, hby⟩
                obtain ⟨rfl, rfl⟩ := Event.iterate.inj heq
                exact ⟨r, hr, (hrs r).mpr ⟨hd, hby⟩⟩
              · rintro ⟨r, hr, hmem⟩
                exact ⟨count, now, x, rfl, hx, hdone, r, hr, (hrs r).mp hmem⟩
  | deliver =>
      obtain ⟨x, undelivered, hu⟩ := List.exists_cons_of_ne_nil hen
      simp only [World.step, hu]
      exact Or.inl ⟨trivial, trivial, hother (by simp)⟩
  | complete i =>
      have hi : w.link.uncompleted[i]? = some w.link.uncompleted[i] := List.getElem?_eq_getElem hen
      simp only [World.step, hi]
      exact Or.inl ⟨trivial, trivial, hother (by simp)⟩
  | answer i data =>
      obtain ⟨hr, _, hid⟩ := hen
      obtain ⟨wr, recvs, hr⟩ := List.exists_cons_of_ne_nil hr
      obtain ⟨c, hi, _⟩ := Option.map_eq_some_iff.mp hid
      simp only [World.step, hi, hr]
      exact Or.inl ⟨trivial, trivial, hother (by simp)⟩

/-! ## Runs -/

theorem Settled.handed (h : Settled w) :
    (w.record.polled.flatten ++ w.record.discarded).Nodup ∧
      ∀ r, (w.requests r).done = true ↔ r ∈ w.record.polled.flatten ++ w.record.discarded := by
  have hhanded := h.sound.core.handed
  rw [h.completed, List.append_nil] at hhanded
  exact ⟨hhanded.nodup_iff.mp h.sound.core.finished.nodup,
    fun r => by rw [← hhanded.mem_iff, h.sound.core.finished.mem_iff]⟩

/-- No request of the caller was discarded. -/
def Kept (w : World) : Prop := ∀ r ∈ w.record.submitted, r ∉ w.record.discarded

theorem Kept.step (h : Settled w) (hen : w.Enabled e) (hk : Kept w) (hs : ¬ Swallows w e) : Kept (w.step e).1 := by
  intro r hr hd
  rcases h.told hen with ⟨hsub, hdis, _⟩ | ⟨hsub, hdis, _⟩ | ⟨rs, hsub, hdis, hiff⟩ <;> rw [hsub] at hr <;> rw [hdis] at hd
  · exact hk r hr hd
  · rcases List.mem_append.mp hr with hr | hr
    · exact hk r hr hd
    · obtain rfl := List.mem_singleton.mp hr
      have hdone := (h.handed.2 w.nextRequest).mpr (List.mem_append_right _ hd)
      rw [h.sound.core.fresh _ (Nat.le_refl _)] at hdone
      cases hdone
  · rcases List.mem_append.mp hd with hd | hd
    · exact hk r hr hd
    · exact hs (hiff.mpr ⟨r, hr, hd⟩)

theorem Kept.run (hi : w.Initial) (hr : (process.when fun w e => ¬ Swallows w e).Reaches w w') :
    Settled w' ∧ Kept w' := by
  refine Machine.Reaches.invariant (I := fun w => Settled w ∧ Kept w)
    (fun w e h (he : w.Enabled e ∧ ¬ Swallows w e) => ⟨h.1.step he.1, h.2.step h.1 he.1 he.2⟩) hr ⟨.initial hi, ?_⟩
  obtain ⟨_, _, _, _, _, rfl⟩ := hi
  intro r hr
  cases hr

/-- A request of the caller was discarded. -/
def Lost (r : RequestId) (w : World) : Prop := r ∈ w.record.submitted ∧ r ∈ w.record.discarded

theorem Lost.step (h : Settled w) (hen : w.Enabled e) (hl : Lost r w) : Lost r (w.step e).1 := by
  obtain ⟨hr, hd⟩ := hl
  rcases h.told hen with ⟨hsub, hdis, _⟩ | ⟨hsub, hdis, _⟩ | ⟨rs, hsub, hdis, _⟩ <;> rw [Lost, hsub, hdis]
  · exact ⟨hr, hd⟩
  · exact ⟨List.mem_append_left _ hr, hd⟩
  · exact ⟨hr, List.mem_append_left _ hd⟩

/-- A swallowed completion loses a request for good. -/
theorem Swallows.lost (h : Settled w) (hen : w.Enabled e) (hs : Swallows w e) : ∃ r, Lost r (w.step e).1 := by
  rcases h.told hen with ⟨_, _, hnot⟩ | ⟨_, _, hnot⟩ | ⟨rs, hsub, hdis, hiff⟩
  · exact absurd hs hnot
  · exact absurd hs hnot
  · obtain ⟨r, hr, hmem⟩ := hiff.mp hs
    exact ⟨r, by rw [Lost, hsub, hdis]; exact ⟨hr, List.mem_append_right _ hmem⟩⟩

theorem Lost.run (h : Settled w) (hl : Lost r w) (hr : process.Reaches w w') : Settled w' ∧ Lost r w' :=
  Machine.Reaches.invariant (M := process) (I := fun w => Settled w ∧ Lost r w)
    (fun _ _ h he => ⟨h.1.step he, h.2.step h.1 he⟩) hr ⟨h, hl⟩

/-- A discarded request is done, and in no result of `poll`. -/
theorem Lost.never_polled (h : Settled w) (hl : Lost r w) :
    (w.requests r).done = true ∧ w.record.polled.flatten.count r = 0 := by
  obtain ⟨hnd, hdone⟩ := h.handed
  refine ⟨(hdone r).mpr (List.mem_append_right _ hl.2), List.count_eq_zero.mpr fun hmem => ?_⟩
  exact (List.nodup_append'.mp hnd).2.2 hmem hl.2

end Rdma4py.NvmeQueue
