import Rdma4py.NvmeQueue.Lemmas.Handling

/-!
# One completion, and the loop of `poll`

Every completion of the link is accepted. A poll of some entries completes the SENDs and the responses that they
announce, and nothing else.
-/

namespace Rdma4py.NvmeQueue

open Rdma4py.Lib

variable {w w' w'' : World} {r : RequestId} {l es es' : List Entry}

/-! ## One completion -/

/-- The SEND of a request completes: its token is gone. -/
theorem Core.sent {x : Send} (h : Core (w.setCq (.send x :: l))) :
    Core ((w.setCq l).setRequest x.request { w.requests x.request with sendComplete := true }) := by
  have hid : ∀ r', (((w.setCq l).setRequest x.request
      { w.requests x.request with sendComplete := true }).requests r').commandId = (w.requests r').commandId :=
    setRequest_commandId (w := w.setCq l) rfl
  have hdone : ∀ r', (((w.setCq l).setRequest x.request
      { w.requests x.request with sendComplete := true }).requests r').done = (w.requests r').done :=
    setRequest_done (w := w.setCq l) rfl
  have hopen : ∀ r', ((w.setCq l).setRequest x.request { w.requests x.request with sendComplete := true }).Open r' ↔
      w.Open r' := setRequest_open (w := w.setCq l) rfl
  have hresponse : ∀ r', (((w.setCq l).setRequest x.request
      { w.requests x.request with sendComplete := true }).requests r').response = (w.requests r').response := by
    intro r'
    by_cases hr : r' = x.request
    · subst hr; rw [setRequest_self]
    · rw [setRequest_of_ne hr]; rfl
  have hcq : ∀ e, e ∈ l → e ∈ (w.setCq (.send x :: l)).link.cq := fun e he => List.mem_cons_of_mem _ he
  refine ⟨h.depth, h.opened, h.buffers, h.ids, fun cid r' hl => ?_, fun r' ho => ?_, ?_, ?_, h.recvs, fun y hy => ?_,
    h.received, fun wr n r' he => h.unread wr n r' (hcq _ he), h.answered, fun a ha => ?_, fun r' c hc => ?_,
    fun r' hle => (hdone r').trans (h.fresh r' hle), h.finished.congr fun r' => ?_, h.handed⟩
  · rw [hid, hdone]; exact h.keys cid r' hl
  · rw [hid]; exact h.slots r' ((hopen r').mp ho)
  · have htokens : (w.setCq (.send x :: l)).sending.Perm (x.request ::
        ((w.setCq l).setRequest x.request { w.requests x.request with sendComplete := true }).sending) :=
      List.perm_middle
    refine (h.sends.perm htokens).tail.congr fun r' => ?_
    rw [hopen]
    by_cases hr : r' = x.request
    · subst hr; simp [setRequest_self]
    · rw [setRequest_of_ne hr]
      exact ⟨fun hp => hp.1, fun hp => ⟨hp, hr⟩⟩
  · refine h.awaits.congr fun r' => ?_
    rw [hopen, hresponse]
    rfl
  · rw [hid]
    refine h.posted y (hy.imp_right (Or.imp_right (hcq _)))
  · rw [hid]; exact h.answers a ha
  · rw [hresponse] at hc; exact h.responses r' c hc
  · rw [hdone]; rfl

/-- The response of a request is read: its token is gone, and the receive is posted again. -/
theorem Core.responded {slot n : Nat} {c : Completion} (h : Core (w.setCq (.response (recvWr slot) n r :: l)))
    (hc : ∃ a ∈ w.record.answers, a.request = r ∧ Completion.unpack a.data = c) :
    Core (((w.setCq l).repost slot).setRequest r { w.requests r with response := some c }) := by
  have hid : ∀ r', ((((w.setCq l).repost slot).setRequest r
      { w.requests r with response := some c }).requests r').commandId = (w.requests r').commandId :=
    setRequest_commandId (w := (w.setCq l).repost slot) rfl
  have hdone : ∀ r', ((((w.setCq l).repost slot).setRequest r
      { w.requests r with response := some c }).requests r').done = (w.requests r').done :=
    setRequest_done (w := (w.setCq l).repost slot) rfl
  have hopen : ∀ r', (((w.setCq l).repost slot).setRequest r { w.requests r with response := some c }).Open r' ↔
      w.Open r' := setRequest_open (w := (w.setCq l).repost slot) rfl
  have hsent : ∀ r', ((((w.setCq l).repost slot).setRequest r
      { w.requests r with response := some c }).requests r').sendComplete = (w.requests r').sendComplete := by
    intro r'
    by_cases hr : r' = r
    · subst hr; rw [setRequest_self]
    · rw [setRequest_of_ne hr]; rfl
  have hcq : ∀ e, e ∈ l → e ∈ (w.setCq (.response (recvWr slot) n r :: l)).link.cq :=
    fun e he => List.mem_cons_of_mem _ he
  refine ⟨h.depth, h.opened, h.buffers, h.ids, fun cid r' hl => ?_, fun r' ho => ?_, ?_, ?_, ?_, fun y hy => ?_,
    h.received, fun wr n r' he => h.unread wr n r' (hcq _ he), h.answered, fun a ha => ?_, fun r' c' hc' => ?_,
    fun r' hle => (hdone r').trans (h.fresh r' hle), h.finished.congr fun r' => ?_, h.handed⟩
  · rw [hid, hdone]; exact h.keys cid r' hl
  · rw [hid]; exact h.slots r' ((hopen r').mp ho)
  · refine h.sends.congr fun r' => ?_
    rw [hopen, hsent]
    rfl
  · have htokens : (w.setCq (.response (recvWr slot) n r :: l)).awaiting.Perm (r ::
        (((w.setCq l).repost slot).setRequest r { w.requests r with response := some c }).awaiting) :=
      List.perm_middle
    refine (h.awaits.perm htokens).tail.congr fun r' => ?_
    rw [hopen]
    by_cases hr : r' = r
    · subst hr; simp [setRequest_self]
    · rw [setRequest_of_ne hr]
      exact ⟨fun hp => hp.1, fun hp => ⟨hp, hr⟩⟩
  · have htokens : (w.setCq (.response (recvWr slot) n r :: l)).receives =
        (((w.setCq l).repost slot).setRequest r { w.requests r with response := some c }).receives :=
      (List.append_cons w.link.recvs (recvWr slot) (l.filterMap Entry.recv?))
    rw [← htokens]
    exact h.recvs
  · rw [hid]
    exact h.posted y (hy.imp_right (Or.imp_right (hcq _)))
  · rw [hid]; exact h.answers a ha
  · by_cases hr : r' = r
    · subst hr
      rw [setRequest_self] at hc'
      obtain rfl := Option.some.inj hc'
      exact hc
    · rw [setRequest_of_ne hr] at hc'
      exact h.responses r' c' hc'
  · rw [hdone]; rfl

/-! ## What polling changes -/

/-- What the handling of some entries does to the requests; the CQ and the callers' record stay. -/
structure Progressed (es : List Entry) (w w' : World) : Prop where
  sent : ∀ r, (w'.requests r).sendComplete = true ↔
    (w.requests r).sendComplete = true ∨ r ∈ es.filterMap Entry.sent?
  answered : ∀ r, (w'.requests r).response.isSome ↔
    (w.requests r).response.isSome ∨ r ∈ es.filterMap Entry.answered?
  cq : w'.link.cq = w.link.cq
  record : w'.record.polled = w.record.polled ∧ w'.record.discarded = w.record.discarded ∧
    w'.record.submitted = w.record.submitted
  executing : w'.executing = w.executing
  commands : w'.queue.commands = w.queue.commands

theorem Progressed.refl (w : World) : Progressed [] w w :=
  ⟨fun _ => by simp, fun _ => by simp, rfl, ⟨rfl, rfl, rfl⟩, rfl, rfl⟩

theorem Progressed.trans (h : Progressed es w w') (h' : Progressed es' w' w'') : Progressed (es ++ es') w w'' := by
  refine ⟨fun r => ?_, fun r => ?_, h'.cq.trans h.cq, ⟨?_, ?_, ?_⟩, h'.executing.trans h.executing,
    h'.commands.trans h.commands⟩
  · rw [h'.sent, h.sent, List.filterMap_append, List.mem_append, or_assoc]
  · rw [h'.answered, h.answered, List.filterMap_append, List.mem_append, or_assoc]
  · exact h'.record.1.trans h.record.1
  · exact h'.record.2.1.trans h.record.2.1
  · exact h'.record.2.2.trans h.record.2.2

theorem finishIfReady_setCq (w : World) (r : RequestId) (l : List Entry) :
    (finishIfReady w r).setCq l = finishIfReady (w.setCq l) r := by
  rw [finishIfReady_eq, finishIfReady_eq]
  show World.setCq (if (w.requests r).sendComplete ∧ (w.requests r).response.isSome then w.finish r else w) l =
    if (w.requests r).sendComplete ∧ (w.requests r).response.isSome then (w.setCq l).finish r else w.setCq l
  split <;> rfl

theorem finishIfReady_progressed (w : World) (r : RequestId) : Progressed [] w (finishIfReady w r) := by
  rw [finishIfReady_eq]
  split
  · refine ⟨fun r' => ?_, fun r' => ?_, rfl, ⟨rfl, rfl, rfl⟩, rfl, rfl⟩
    · rw [finish_sendComplete]; simp
    · rw [finish_response]; simp
  · exact .refl w

theorem setRequest_sent_progressed (w : World) (x : Send) :
    Progressed [.send x] w (w.setRequest x.request { w.requests x.request with sendComplete := true }) := by
  refine ⟨fun r => ?_, fun r => ?_, rfl, ⟨rfl, rfl, rfl⟩, rfl, rfl⟩ <;>
    by_cases hr : r = x.request <;> simp [World.setRequest, Entry.sent?, Entry.answered?, hr]

theorem setRequest_response_progressed (w : World) (wr : WR) (n slot : Nat) (r : RequestId) (c : Completion) :
    Progressed [.response wr n r] w ((w.repost slot).setRequest r { w.requests r with response := some c }) := by
  refine ⟨fun r' => ?_, fun r' => ?_, rfl, ⟨rfl, rfl, rfl⟩, rfl, rfl⟩ <;>
    by_cases hr : r' = r <;>
      simp [World.setRequest, World.repost, Entry.sent?, Entry.answered?, hr]

/-! ## Every completion is accepted -/

/-- What the loop finds in the slot of a receive. -/
def World.completionIn (w : World) (slot : Nat) : Completion :=
  Completion.unpack (w.queue.responses.mem.read 16 (slot * 16))

theorem receive_sent {wc : WC} (hs : wc.status = none) (ht : wc.wrId &&& sendTag ≠ 0)
    (hl : w.queue.pending.lookup (wc.wrId &&& indexMask) = some r) :
    receive w wc = (finishIfReady (w.setRequest r { w.requests r with sendComplete := true }) r, .handled) := by
  simp only [receive, hs, if_pos ht, hl]

theorem receive_response {wc : WC} {slot : Nat} (hs : wc.status = none) (hsend : wc.wrId &&& sendTag = 0)
    (hrecv : wc.wrId &&& recvTag ≠ 0) (hslot : wc.wrId &&& indexMask = slot) (hlen : 16 ≤ wc.byteLen)
    (hlt : slot < w.queue.depth) (hin : slot * 16 + 16 ≤ w.queue.responses.length) :
    receive w wc = (w, .response slot (w.completionIn slot)) := by
  have hok : ¬ (wc.byteLen < 16 ∨ w.queue.depth ≤ slot) := by omega
  have hread : (w.queue.responses.read 16 (slot * 16)).bind Completion.fromBytes = .ok (w.completionIn slot) := by
    rw [HostBuffer.read, if_neg (by omega)]
    show Completion.fromBytes _ = _
    rw [Completion.fromBytes, if_neg (by rw [Memory.length_read]; omega)]
    rfl
  simp only [receive, hs, hsend, ne_eq, not_true_eq_false, if_false, if_pos hrecv, hslot, if_neg hok, hread]

theorem respond_pending {slot : Nat} {c : Completion} (hl : w.queue.pending.lookup c.commandId = some r) :
    respond w slot c =
      (finishIfReady ((w.repost slot).setRequest r { w.requests r with response := some c }) r, none) := by
  have hl' : (w.repost slot).queue.pending.lookup c.commandId = some r := hl
  simp only [respond, hl']
  rfl

theorem Sound.sent {x : Send} (h : Sound (w.setCq (.send x :: l))) :
    ∃ w', receive w (Entry.send x).wc = (w', .handled) ∧ Sound (w'.setCq l) ∧ Progressed [.send x] w w' := by
  have hopen : w.Open x.request :=
    ((h.core.sends.mem_iff x.request).mp (List.mem_append_right _ List.mem_cons_self)).1
  have hwr := h.core.posted x (Or.inr (Or.inr List.mem_cons_self))
  have hlt : (w.requests x.request).commandId < w.queue.depth - 1 := h.core.commandId_lt hopen
  have h32 : (w.requests x.request).commandId < 2 ^ 32 := by
    have hd : w.queue.depth ≤ 256 := h.core.depth.2
    omega
  have htag : x.wr.wrId &&& sendTag ≠ 0 := by
    rw [hwr]
    exact (and_sendTag h32).trans_ne (by decide)
  have hindex : x.wr.wrId &&& indexMask = (w.requests x.request).commandId := by
    rw [hwr]
    exact and_indexMask (by decide) h32
  have hl : w.queue.pending.lookup (w.requests x.request).commandId = some x.request := hopen
  refine ⟨_, receive_sent rfl htag ((congrArg w.queue.pending.lookup hindex).trans hl), ?_,
    (setRequest_sent_progressed w x).trans (finishIfReady_progressed _ _)⟩
  rw [finishIfReady_setCq]
  refine h.core.sent.finishIfReady (by rw [setRequest_open]; exacts [hopen, rfl]) fun r' hr => ?_
  show ((((w.setCq l).setRequest x.request _).requests r').done = true ↔ _)
  rw [setRequest_of_ne hr]
  exact h.done_iff r'

/-- The response of the first entry is read from the slot of its receive. -/
theorem Sound.read {wr : WR} {n : Nat} (h : Sound (w.setCq (.response wr n r :: l))) :
    ∃ slot, wr = recvWr slot ∧
      receive w (Entry.response wr n r).wc = (w, .response slot (w.completionIn slot)) := by
  obtain ⟨slot, hslot, rfl⟩ := (h.core.recvs.mem_iff wr).mp (List.mem_append_right _ List.mem_cons_self)
  obtain ⟨rfl, -⟩ := h.core.unread (recvWr slot) n r List.mem_cons_self
  have hd : w.queue.depth ≤ 256 := h.core.depth.2
  have hs : slot < w.queue.depth := hslot
  have h32 : slot < 2 ^ 32 := by omega
  have hbuffer : w.queue.responses.length = 16 * w.queue.depth := h.core.buffers.2
  exact ⟨slot, rfl, receive_response rfl ((and_sendTag h32).trans (by decide))
    ((and_recvTag h32).trans_ne (by decide)) (and_indexMask (by decide) h32) (Nat.le_refl 16) hs (by omega)⟩

/-- What lies in the slot of the first entry is the response to its request, which it completes. -/
theorem Sound.responded {slot n : Nat} (h : Sound (w.setCq (.response (recvWr slot) n r :: l))) :
    ∃ w', respond w slot (w.completionIn slot) = (w', none) ∧ Sound (w'.setCq l) ∧
      Progressed [.response (recvWr slot) n r] w w' := by
  have hopen : w.Open r := ((h.core.awaits.mem_iff r).mp (List.mem_append_right _ List.mem_cons_self)).1
  obtain ⟨-, a, ha, hr, hdata⟩ := h.core.unread (recvWr slot) n r List.mem_cons_self
  have hmem : w.completionIn slot = Completion.unpack a.data := congrArg Completion.unpack hdata
  obtain ⟨_, _, -, hid, _⟩ := h.core.answers a ha
  have hl : w.queue.pending.lookup (w.completionIn slot).commandId = some r := by
    rw [hmem, hid, hr]
    exact hopen
  refine ⟨_, respond_pending hl, ?_, (setRequest_response_progressed w _ n slot r _).trans (finishIfReady_progressed _ _)⟩
  rw [finishIfReady_setCq]
  have hc : ∃ a ∈ w.record.answers, a.request = r ∧ Completion.unpack a.data = w.completionIn slot :=
    ⟨a, ha, hr, hmem.symm⟩
  refine (h.core.responded hc).finishIfReady (by rw [setRequest_open]; exacts [hopen, rfl]) fun r' hr => ?_
  show (((((w.setCq l).repost slot).setRequest r _).requests r').done = true ↔ _)
  rw [setRequest_of_ne hr]
  exact h.done_iff r'

theorem Sound.handled {e : Entry} (h : Sound (w.setCq (e :: l))) :
    ∃ w', handle w e.wc = (w', none) ∧ Sound (w'.setCq l) ∧ Progressed [e] w w' := by
  cases e with
  | send x =>
      obtain ⟨w', he, hsound, hprog⟩ := h.sent
      exact ⟨w', by rw [handle, he], hsound, hprog⟩
  | response wr n r =>
      obtain ⟨slot, rfl, he⟩ := h.read
      obtain ⟨w', he', hsound, hprog⟩ := h.responded
      exact ⟨w', by rw [handle, he]; exact he', hsound, hprog⟩

theorem Sound.handledAll (h : Sound (w.setCq (es ++ w.link.cq))) :
    ∃ w', handleAll (es.map Entry.wc) w = (w', none) ∧ Sound w' ∧ Progressed es w w' := by
  induction es generalizing w with
  | nil => exact ⟨w, rfl, h, .refl w⟩
  | cons e es ih =>
      obtain ⟨w₁, he, hsound, hprog⟩ := h.handled
      rw [← hprog.cq] at hsound
      obtain ⟨w₂, hall, hsound₂, hprog₂⟩ := ih hsound
      refine ⟨w₂, ?_, hsound₂, hprog.trans hprog₂⟩
      rw [List.map_cons, handleAll, he]
      exact hall

end Rdma4py.NvmeQueue
