import Rdma4py.NvmeQueue.Lemmas.Steps

/-!
# The events of the link, and whole runs

Delivery, completion and answer each move a token. Between events `_completed` is empty, since every `poll` hands it out.
-/

namespace Rdma4py.NvmeQueue

open Rdma4py.Lib

variable {w w' : World} {r : RequestId} {i : Nat}

theorem perm_eraseIdx {α : Type*} {l : List α} {x : α} (h : l[i]? = some x) : l.Perm (x :: l.eraseIdx i) := by
  obtain ⟨hlt, rfl⟩ := List.getElem?_eq_some_iff.mp h
  exact (List.getElem_cons_eraseIdx_perm hlt).symm

/-! ## The link -/

/-- The oldest SEND reaches the target. -/
def World.deliver (w : World) (x : Send) (undelivered : List Send) : World :=
  { w with link := { w.link with
      undelivered := undelivered
      capsules := w.link.capsules ++ [⟨w.queue.commands.mem.read x.wr.length x.wr.offset, x.request⟩] } }

theorem Sound.deliver {x : Send} {undelivered : List Send} (h : Sound w) (hu : w.link.undelivered = x :: undelivered) :
    Sound (w.deliver x undelivered) := by
  obtain ⟨h, hdone⟩ := h
  have hx : x ∈ w.link.undelivered := by rw [hu]; exact List.mem_cons_self
  have hperm : (w.link.undelivered.map Send.request ++ w.link.capsules.map Capsule.request).Perm
      ((w.deliver x undelivered).link.undelivered.map Send.request ++
        (w.deliver x undelivered).link.capsules.map Capsule.request) := by
    rw [hu, World.deliver, List.map_append, List.map_cons, List.map_cons, List.map_nil, ← List.append_assoc]
    exact (List.perm_append_singleton _ _).symm
  refine ⟨⟨h.depth, h.opened, h.buffers, h.ids, h.keys, h.slots, h.sends, h.awaits.perm (hperm.append_right _), h.recvs,
    fun y hy => ?_, fun c hc => ?_, h.unread, h.answered, fun a ha => ?_, h.responses, h.fresh, h.finished, h.handed⟩,
    hdone⟩
  · refine h.posted y (hy.imp_left fun hy => ?_)
    rw [hu]
    exact List.mem_cons_of_mem _ hy
  · rcases List.mem_append.mp hc with hc | hc
    · exact h.received c hc
    · obtain rfl := List.mem_singleton.mp hc
      have hwr := h.posted x (Or.inl hx)
      show w.queue.commands.mem.read x.wr.length x.wr.offset = w.record.capsule x.request
      rw [hwr]
      exact (h.slots x.request (h.posted_open (Or.inl hx))).1
  · obtain ⟨hlt, hcap, hlen, hid, hout⟩ := h.answers a ha
    exact ⟨hlt, hcap, hlen, hid, fun hmem => hout (hperm.symm.subset hmem)⟩

/-- A SEND is completed. -/
def World.complete (w : World) (i : Nat) (x : Send) : World :=
  { w with link := { w.link with
      uncompleted := w.link.uncompleted.eraseIdx i
      cq := w.link.cq ++ [.send x] } }

theorem Sound.complete {x : Send} (h : Sound w) (hi : w.link.uncompleted[i]? = some x) : Sound (w.complete i x) := by
  obtain ⟨h, hdone⟩ := h
  have hp := perm_eraseIdx hi
  have hsends : w.sending.Perm (w.complete i x).sending := by
    show (w.link.uncompleted.map Send.request ++ w.link.cq.filterMap Entry.sent?).Perm
      ((w.link.uncompleted.eraseIdx i).map Send.request ++ (w.link.cq ++ [Entry.send x]).filterMap Entry.sent?)
    rw [List.filterMap_append, ← List.append_assoc]
    exact ((hp.map Send.request).append_right _).trans (List.perm_append_singleton _ _).symm
  have hawaits : (w.complete i x).awaiting = w.awaiting := by
    simp [World.awaiting, World.complete, Entry.answered?]
  have hrecvs : (w.complete i x).receives = w.receives := by
    simp [World.receives, World.complete, Entry.recv?]
  refine ⟨⟨h.depth, h.opened, h.buffers, h.ids, h.keys, h.slots, h.sends.perm hsends, ?_, ?_, fun y hy => ?_,
    h.received, fun wr n r he => ?_, h.answered, h.answers, h.responses, h.fresh, h.finished, h.handed⟩, hdone⟩
  · rw [hawaits]; exact h.awaits
  · rw [hrecvs]; exact h.recvs
  · have hx : x ∈ w.link.uncompleted := List.mem_of_getElem? hi
    rcases hy with hy | hy | hy
    · exact h.posted y (Or.inl hy)
    · exact h.posted y (Or.inr (Or.inl (List.mem_of_mem_eraseIdx hy)))
    · rcases List.mem_append.mp hy with hy | hy
      · exact h.posted y (Or.inr (Or.inr hy))
      · obtain rfl := Entry.send.inj (List.mem_singleton.mp hy)
        exact h.posted y (Or.inr (Or.inl hx))
  · rcases List.mem_append.mp he with he | he
    · exact h.unread wr n r he
    · cases List.mem_singleton.mp he

/-- The target answers a capsule; the response is written into the oldest receive. -/
def World.answer (w : World) (i : Nat) (c : Capsule) (wr : WR) (recvs : List WR) (data : List UInt8) : World :=
  { w with
      queue := { w.queue with responses := { w.queue.responses with
        mem := w.queue.responses.mem.write data wr.offset } }
      link := { w.link with
        capsules := w.link.capsules.eraseIdx i
        recvs := recvs
        cq := w.link.cq ++ [.response wr data.length c.request] }
      record := { w.record with answers := w.record.answers ++ [⟨c.request, c.bytes, data⟩] } }

theorem Sound.answer {c : Capsule} {wr : WR} {recvs : List WR} {data : List UInt8} (h : Sound w)
    (hi : w.link.capsules[i]? = some c) (hr : w.link.recvs = wr :: recvs) (hlen : data.length = 16)
    (hid : capsuleCommandId c.bytes = (Completion.unpack data).commandId) : Sound (w.answer i c wr recvs data) := by
  obtain ⟨h, hdone⟩ := h
  have hc : c ∈ w.link.capsules := List.mem_of_getElem? hi
  have hp := (perm_eraseIdx hi).map Capsule.request
  have hopen := h.capsule_open hc
  have hcap := h.received c hc
  have hsends : (w.answer i c wr recvs data).sending = w.sending := by
    simp [World.sending, World.answer, Entry.sent?]
  have hawaits : w.awaiting.Perm (w.answer i c wr recvs data).awaiting := by
    show (w.link.undelivered.map Send.request ++ w.link.capsules.map Capsule.request ++
      w.link.cq.filterMap Entry.answered?).Perm (w.link.undelivered.map Send.request ++
        (w.link.capsules.eraseIdx i).map Capsule.request ++
        (w.link.cq ++ [Entry.response wr data.length c.request]).filterMap Entry.answered?)
    rw [List.filterMap_append, ← List.append_assoc]
    refine List.Perm.trans ?_ (List.perm_append_singleton _ _).symm
    exact ((hp.append_left _).append_right _).trans (List.perm_middle.append_right _)
  have hrecvs : w.receives.Perm (w.answer i c wr recvs data).receives := by
    show (w.link.recvs ++ w.link.cq.filterMap Entry.recv?).Perm
      (recvs ++ (w.link.cq ++ [Entry.response wr data.length c.request]).filterMap Entry.recv?)
    rw [hr, List.filterMap_append, ← List.append_assoc]
    exact (List.perm_append_singleton _ _).symm
  -- The receive that is consumed is different from those that hold unread responses.
  have hdisjoint : ∀ wr', wr' ∈ w.link.cq.filterMap Entry.recv? →
      wr'.offset + 16 ≤ wr.offset ∨ wr.offset + 16 ≤ wr'.offset := by
    intro wr' hwr'
    obtain ⟨slot, _, hs⟩ := (h.recvs.mem_iff wr).mp (List.mem_append_left _ (by rw [hr]; exact List.mem_cons_self))
    obtain ⟨slot', _, hs'⟩ := (h.recvs.mem_iff wr').mp (List.mem_append_right _ hwr')
    have hne : slot ≠ slot' := by
      rintro rfl
      have hnd := h.recvs.nodup
      rw [World.receives, hr, List.cons_append, List.nodup_cons] at hnd
      exact hnd.1 (List.mem_append_right _ (hs.trans hs'.symm ▸ hwr'))
    rw [hs, hs', recvWr, recvWr]
    show slot' * 16 + 16 ≤ slot * 16 ∨ slot * 16 + 16 ≤ slot' * 16
    omega
  refine ⟨⟨h.depth, h.opened, h.buffers, h.ids, h.keys, h.slots, ?_, h.awaits.perm hawaits, h.recvs.perm hrecvs,
    fun x hx => ?_, fun c' hc' => h.received c' (List.mem_of_mem_eraseIdx hc'), fun wr' n r he => ?_, ?_,
    fun a ha => ?_, fun r c' hc' => ?_, h.fresh, h.finished, h.handed⟩, hdone⟩
  · rw [hsends]; exact h.sends
  · refine h.posted x (hx.imp_right (Or.imp_right fun hx => ?_))
    rcases List.mem_append.mp hx with hx | hx
    · exact hx
    · cases List.mem_singleton.mp hx
  · rcases List.mem_append.mp he with he | he
    · obtain ⟨hn, a, ha, hreq, hdata⟩ := h.unread wr' n r he
      refine ⟨hn, a, List.mem_append_left _ ha, hreq, Eq.trans ?_ hdata⟩
      refine Memory.read_write_disjoint ?_
      rw [hlen]
      exact hdisjoint wr' (List.mem_filterMap.mpr ⟨_, he, rfl⟩)
    · obtain ⟨rfl, rfl, rfl⟩ := Entry.response.inj (List.mem_singleton.mp he)
      refine ⟨hlen, _, List.mem_append_right _ (List.mem_singleton_self _), rfl, ?_⟩
      have := Memory.read_write_self w.queue.responses.mem data wr'.offset
      rwa [hlen] at this
  · show ((w.record.answers ++ [(⟨c.request, c.bytes, data⟩ : Answer)]).map Answer.request).Nodup
    rw [List.map_append]
    refine (List.perm_append_singleton _ _).nodup_iff.mpr (List.nodup_cons.mpr ⟨fun hmem => ?_, h.answered⟩)
    obtain ⟨a, ha, hreq⟩ := List.mem_map.mp hmem
    exact (h.answers a ha).2.2.2.2 (List.mem_append_right _ (hreq ▸ List.mem_map_of_mem hc))
  · rcases List.mem_append.mp ha with ha | ha
    · obtain ⟨hlt, hcap', hlen', hid', hout⟩ := h.answers a ha
      refine ⟨hlt, hcap', hlen', hid', fun hmem => hout ?_⟩
      refine (List.mem_append.mp hmem).elim (List.mem_append_left _) fun hmem => List.mem_append_right _ ?_
      exact List.map_subset _ (List.eraseIdx_subset) hmem
    · obtain rfl := List.mem_singleton.mp ha
      refine ⟨(h.open_unfinished hopen).1, hcap, hlen, ?_, ?_⟩
      · rw [← hid, hcap]
        exact (h.slots c.request hopen).2
      · have hnd := (h.awaits.nodup.of_append_left).perm (hp.append_left _)
        exact (List.nodup_cons.mp (List.perm_middle.nodup_iff.mp hnd)).1
  · obtain ⟨a, ha, hreq, hdata⟩ := h.responses r c' hc'
    exact ⟨a, List.mem_append_left _ ha, hreq, hdata⟩

/-! ## `poll` and `execute` -/

/-- `poll` raises only for its argument; otherwise it handles the entries that it took. -/
theorem Sound.poll (h : Sound w) (maxEntries : Option Int) (count : Nat) :
    (maxEntries.any (· ≤ 0) = true ∧ ∃ e, poll w maxEntries count = (w, .error e)) ∨
    (maxEntries.any (· ≤ 0) = false ∧ ∃ w', poll w maxEntries count =
        ({ w' with queue := { w'.queue with completed := [] } }, .ok w'.queue.completed) ∧
      Sound w' ∧ Progressed (w.link.cq.take (w.pollCount maxEntries count)) w
        (w'.setCq w.link.cq)) := by
  have hopened : ¬ w.queue.closed = true := by rw [h.core.opened]; decide
  cases hm : maxEntries.any (· ≤ 0) with
  | true => exact Or.inl ⟨rfl, _, by rw [NvmeQueue.poll, if_neg hopened, if_pos hm]⟩
  | false =>
      right
      generalize hn : w.pollCount maxEntries count = n
      have hsound : Sound ((w.reap n).setCq (w.link.cq.take n ++ (w.reap n).link.cq)) := by
        have heq : (w.reap n).setCq (w.link.cq.take n ++ (w.reap n).link.cq) = w := by
          rw [World.reap, World.setCq, List.take_append_drop]
        rw [heq]
        exact h
      obtain ⟨w', he, hsound', hprog⟩ := hsound.handledAll
      refine ⟨rfl, w', ?_, hsound', hprog.sent, hprog.answered, rfl, hprog.record, hprog.executing, hprog.commands⟩
      rw [NvmeQueue.poll, if_neg hopened, if_neg (by rw [hm]; decide)]
      simp only [hn, he]

/-- The invariant between events: nothing waits to be handed out. -/
structure Settled (w : World) : Prop where
  sound : Sound w
  completed : w.queue.completed = []

theorem Settled.same (h : Settled w) (hq : w'.queue = w.queue) (hr : w'.requests = w.requests)
    (hn : w'.nextRequest = w.nextRequest) (hl : w'.link = w.link)
    (hc : w'.record.capsule = w.record.capsule) (ha : w'.record.answers = w.record.answers)
    (hf : w'.record.finished = w.record.finished) (hp : w'.record.polled = w.record.polled)
    (hd : w'.record.discarded = w.record.discarded) : Settled w' := by
  refine ⟨⟨h.sound.core.same hq hr hn hl hc ha hf ?_, ?_⟩, by rw [hq]; exact h.completed⟩
  · rw [hf, hp, hd, hq]; exact h.sound.core.handed
  · rw [hr]; exact h.sound.done_iff

theorem Settled.submit (h : Settled w) (command : List UInt8) (owner : Option Nat) (post : Option Exn) :
    Settled (submit w command owner post).1 := by
  obtain ⟨hsound, hcomp, _⟩ := h.sound.submit command owner post
  exact ⟨hsound, hcomp.trans h.completed⟩

/-- The requests that a poll finished are handed out, to the caller or to `execute`. -/
theorem Sound.handedOut (h : Sound w) (polled : List (List RequestId)) (discarded : List RequestId)
    (hp : (polled.flatten ++ discarded).Perm (w.record.polled.flatten ++ w.record.discarded ++ w.queue.completed)) :
    Settled { w with queue := { w.queue with completed := [] }
                     record := { w.record with polled := polled, discarded := discarded } } := by
  refine ⟨⟨h.core.same rfl rfl rfl rfl rfl rfl rfl ?_, h.done_iff⟩, rfl⟩
  show w.record.finished.Perm (polled.flatten ++ discarded ++ [])
  rw [List.append_nil]
  exact h.core.handed.trans hp.symm

theorem Settled.step {e : Event} (h : Settled w) (hen : w.Enabled e) : Settled (w.step e).1 := by
  cases e with
  | submit command owner post =>
      have hs := h.submit command owner post
      rw [World.step]
      rcases hsub : NvmeQueue.submit w command owner post with ⟨w', e | r⟩ <;> rw [hsub] at hs
      · exact hs
      · exact hs.same rfl rfl rfl rfl rfl rfl rfl rfl rfl
  | poll maxEntries count =>
      rw [World.step]
      rcases h.sound.poll maxEntries count with ⟨_, e, he⟩ | ⟨_, w', he, hsound, _⟩ <;> rw [he]
      · exact h
      · refine hsound.handedOut _ _ ?_
        rw [List.flatten_append, List.flatten_singleton, List.append_assoc, List.append_assoc]
        exact List.perm_append_comm.append_left _
  | execute command owner timeout now post =>
      have hs := h.submit command owner post
      rw [World.step, executeStart]
      rcases hsub : NvmeQueue.submit w command owner post with ⟨w', e | r⟩ <;> rw [hsub] at hs
      · exact hs
      · exact hs.same rfl rfl rfl rfl rfl rfl rfl rfl rfl
  | iterate count now =>
      obtain ⟨x, hx⟩ := Option.isSome_iff_exists.mp hen
      simp only [World.step, hx, executeIteration]
      split
      · exact h.same rfl rfl rfl rfl rfl rfl rfl rfl rfl
      · rcases h.sound.poll none count with ⟨hm, _⟩ | ⟨_, w', he, hsound, _⟩
        · cases hm
        · have hs := hsound.handedOut w'.record.polled (w'.record.discarded ++ w'.queue.completed)
            (by rw [← List.append_assoc])
          rw [he]
          simp only []
          split
          · exact hs.same rfl rfl rfl rfl rfl rfl rfl rfl rfl
          · exact hs
  | deliver =>
      obtain ⟨x, undelivered, hu⟩ := List.exists_cons_of_ne_nil hen
      have hs := h.sound.deliver hu
      simp only [World.step, hu]
      exact ⟨hs, h.completed⟩
  | complete i =>
      have hi : w.link.uncompleted[i]? = some w.link.uncompleted[i] := List.getElem?_eq_getElem hen
      have hs := h.sound.complete hi
      simp only [World.step, hi]
      exact ⟨hs, h.completed⟩
  | answer i data =>
      obtain ⟨hr, hlen, hid⟩ := hen
      obtain ⟨wr, recvs, hr⟩ := List.exists_cons_of_ne_nil hr
      obtain ⟨c, hi, hid⟩ := Option.map_eq_some_iff.mp hid
      have hs := h.sound.answer hi hr hlen hid
      simp only [World.step, hi, hr]
      exact ⟨hs, h.completed⟩

/-! ## Runs -/

theorem Settled.initial (h : w.Initial) : Settled w := by
  obtain ⟨depth, commands, responses, hlo, hhi, rfl⟩ := h
  have hlookup : ∀ r, ¬ (World.initial depth commands responses).Open r := fun r ho => by cases ho
  refine ⟨⟨⟨⟨hlo, hhi⟩, rfl, ⟨rfl, rfl⟩, ?_, fun cid r hl => (by cases hl), fun r ho => absurd ho (hlookup r),
    .nil fun r hr => hlookup r hr.1, .nil fun r hr => hlookup r hr.1, ?_, fun x hx => ?_, fun c hc => (by cases hc),
    fun wr n r he => (by cases he), List.nodup_nil, fun a ha => (by cases ha), fun r c hc => (by cases hc),
    fun r _ => rfl, .nil fun r hr => (by cases hr), .refl _⟩, fun r => ⟨fun hr => (by cases hr), fun hr => ?_⟩⟩, rfl⟩
  · show Enumerates (List.range (depth - 1) ++ []) _
    rw [List.append_nil]
    exact .range _
  · show Enumerates ((List.range depth).map recvWr ++ []) _
    rw [List.append_nil]
    refine ⟨List.nodup_range.map recvWr_injective, fun wr => ?_⟩
    simp only [List.mem_map, List.mem_range]
    exact exists_congr fun slot => and_congr_right fun _ => eq_comm
  · rcases hx with hx | hx | hx <;> cases hx
  · cases hr.1

theorem Settled.run (hi : w.Initial) (hr : process.Reaches w w') : Settled w' :=
  Machine.Reaches.invariant (M := process) (I := Settled) (fun _ _ h he => h.step he) hr (.initial hi)

end Rdma4py.NvmeQueue
