import Rdma4py.NvmeQueue.Lemmas.Sound

/-!
# Polling

What one completion does, and by induction what one `poll` does. The entries that `poll` took from the CQ and has not
handled yet still hold their tokens: the invariant is stated with them at the front of the CQ.
-/

namespace Rdma4py.NvmeQueue

open Rdma4py.Lib

variable {w w' w'' : World} {r : RequestId} {request : Request} {cq l es es' : List Entry}

/-- Replace the CQ. -/
def World.setCq (w : World) (cq : List Entry) : World := { w with link := { w.link with cq := cq } }

/-- `_finish_if_ready` on a request with both completions. -/
def World.finish (w : World) (r : RequestId) : World :=
  { w with
      requests := Function.update w.requests r { w.requests r with done := true }
      queue := { w.queue with
        pending := w.queue.pending.erase (w.requests r).commandId
        free := w.queue.free ++ [(w.requests r).commandId]
        completed := w.queue.completed ++ [r] }
      record := { w.record with finished := w.record.finished ++ [r] } }

theorem finishIfReady_eq (w : World) (r : RequestId) : finishIfReady w r =
    if (w.requests r).sendComplete ∧ (w.requests r).response.isSome then w.finish r else w := rfl

/-! ## Replacing a request -/

theorem setRequest_self (w : World) (r : RequestId) (request : Request) : (w.setRequest r request).requests r = request :=
  Function.update_self ..

theorem setRequest_of_ne {r' : RequestId} (h : r' ≠ r) : (w.setRequest r request).requests r' = w.requests r' :=
  Function.update_of_ne h ..

theorem setRequest_commandId (h : request.commandId = (w.requests r).commandId) (r' : RequestId) :
    ((w.setRequest r request).requests r').commandId = (w.requests r').commandId := by
  by_cases hr : r' = r
  · subst hr; rw [setRequest_self, h]
  · rw [setRequest_of_ne hr]

theorem setRequest_done (h : request.done = (w.requests r).done) (r' : RequestId) :
    ((w.setRequest r request).requests r').done = (w.requests r').done := by
  by_cases hr : r' = r
  · subst hr; rw [setRequest_self, h]
  · rw [setRequest_of_ne hr]

theorem setRequest_open (h : request.commandId = (w.requests r).commandId) (r' : RequestId) :
    (w.setRequest r request).Open r' ↔ w.Open r' := by
  rw [World.Open, World.Open, setRequest_commandId h]
  rfl

/-! ## Finishing -/

theorem finish_commandId (w : World) (r r' : RequestId) :
    ((w.finish r).requests r').commandId = (w.requests r').commandId := by
  by_cases hr : r' = r
  · subst hr; simp [World.finish]
  · simp [World.finish, hr]

theorem finish_sendComplete (w : World) (r r' : RequestId) :
    ((w.finish r).requests r').sendComplete = (w.requests r').sendComplete := by
  by_cases hr : r' = r
  · subst hr; simp [World.finish]
  · simp [World.finish, hr]

theorem finish_response (w : World) (r r' : RequestId) :
    ((w.finish r).requests r').response = (w.requests r').response := by
  by_cases hr : r' = r
  · subst hr; simp [World.finish]
  · simp [World.finish, hr]

theorem finish_done (w : World) (r r' : RequestId) :
    ((w.finish r).requests r').done = true ↔ r' = r ∨ (w.requests r').done = true := by
  by_cases hr : r' = r
  · subst hr; simp [World.finish]
  · simp [World.finish, hr]

/-- The finished request is no longer open. -/
theorem finish_open (ho : w.Open r) (r' : RequestId) : (w.finish r).Open r' ↔ w.Open r' ∧ r' ≠ r := by
  rw [World.Open, finish_commandId]
  show AList.lookup _ (w.queue.pending.erase (w.requests r).commandId) = some r' ↔ _
  by_cases hid : (w.requests r').commandId = (w.requests r).commandId
  · rw [hid, AList.lookup_erase]
    refine ⟨fun h => (by cases h), fun h => absurd (open_inj h.1 ho hid) h.2⟩
  · rw [AList.lookup_erase_ne hid]
    refine ⟨fun h => ⟨h, ?_⟩, fun h => h.1⟩
    rintro rfl
    exact hid rfl

/-- Finishing an open request keeps the tokens. -/
theorem Core.finish (h : Core w) (ho : w.Open r) (hs : (w.requests r).sendComplete = true)
    (hr : (w.requests r).response.isSome) : Core (w.finish r) := by
  have hunfinished := (h.open_unfinished ho).2
  have hother : ∀ P : RequestId → Prop, ¬ P r → ∀ r', w.Open r' ∧ P r' ↔ (w.Open r' ∧ r' ≠ r) ∧ P r' := by
    intro P hP r'
    refine ⟨fun ⟨ho', hp⟩ => ⟨⟨ho', ?_⟩, hp⟩, fun ⟨⟨ho', _⟩, hp⟩ => ⟨ho', hp⟩⟩
    rintro rfl
    exact hP hp
  refine ⟨h.depth, h.opened, h.buffers, ?_, ?_, ?_, ?_, ?_, h.recvs, ?_, h.received, h.unread, h.answered, ?_, ?_, ?_,
    ?_, ?_⟩
  · have hkeys := Dict.keys_perm_of_lookup ho
    refine h.ids.perm ((hkeys.append_left w.queue.free).trans ?_)
    show (w.queue.free ++ (w.requests r).commandId :: AList.keys (w.queue.pending.erase (w.requests r).commandId)).Perm
      (w.queue.free ++ [(w.requests r).commandId] ++ AList.keys (w.queue.pending.erase (w.requests r).commandId))
    rw [List.append_assoc, List.singleton_append]
  · intro cid r' hl
    have hne : cid ≠ (w.requests r).commandId := by
      rintro rfl
      have hnone : (w.queue.pending.erase (w.requests r).commandId).lookup (w.requests r).commandId = none :=
        AList.lookup_erase _ _
      cases hnone.symm.trans hl
    have hl' : w.queue.pending.lookup cid = some r' := (AList.lookup_erase_ne hne).symm.trans hl
    obtain ⟨hid, hlt, hd⟩ := h.keys cid r' hl'
    have hrr : r' ≠ r := by
      rintro rfl
      exact hne hid.symm
    refine ⟨(finish_commandId w r r').trans hid, hlt, ?_⟩
    rw [← Bool.not_eq_true, finish_done, not_or, Bool.not_eq_true]
    exact ⟨hrr, hd⟩
  · intro r' ho'
    rw [finish_commandId]
    exact h.slots r' ((finish_open ho r').mp ho').1
  · refine h.sends.congr fun r' => ?_
    rw [finish_open ho, finish_sendComplete]
    exact hother (fun r' => (w.requests r').sendComplete = false) (by rw [hs]; decide) r'
  · refine h.awaits.congr fun r' => ?_
    rw [finish_open ho, finish_response]
    exact hother (fun r' => (w.requests r').response = none) (Option.isSome_iff_ne_none.mp hr) r'
  · intro x hx
    rw [finish_commandId]
    exact h.posted x hx
  · intro a ha
    rw [finish_commandId]
    exact h.answers a ha
  · intro r' c hc
    rw [finish_response] at hc
    exact h.responses r' c hc
  · intro r' hle
    rw [← Bool.not_eq_true, finish_done, not_or, Bool.not_eq_true]
    refine ⟨?_, h.fresh r' hle⟩
    rintro rfl
    exact absurd (h.open_unfinished ho).1 (Nat.not_lt.mpr hle)
  · have hnot : ¬ (w.requests r).done = true := by rw [hunfinished]; decide
    refine ((h.finished.cons hnot).perm ?_).congr fun r' => (finish_done w r r').symm
    exact (List.perm_append_singleton r _).symm
  · show (w.record.finished ++ [r]).Perm (w.record.polled.flatten ++ w.record.discarded ++ (w.queue.completed ++ [r]))
    rw [← List.append_assoc]
    exact h.handed.append_right [r]

/-- After one completion of `r`, `_finish_if_ready` restores the invariant. -/
theorem Core.finishIfReady (h : Core w) (ho : w.Open r) (hd : ∀ r' ≠ r, (w.requests r').done = true ↔
    (w.requests r').sendComplete = true ∧ (w.requests r').response.isSome) : Sound (finishIfReady w r) := by
  have hunfinished := (h.open_unfinished ho).2
  rw [finishIfReady_eq]
  split
  · next hready =>
      refine ⟨h.finish ho hready.1 hready.2, fun r' => ?_⟩
      rw [finish_done, finish_sendComplete, finish_response]
      by_cases hr : r' = r
      · subst hr; simp [hready]
      · rw [← hd r' hr]; simp [hr]
  · next hnot =>
      refine ⟨h, fun r' => ?_⟩
      by_cases hr : r' = r
      · subst hr; simp only [hunfinished, Bool.false_eq_true, false_iff]; exact hnot
      · exact hd r' hr

end Rdma4py.NvmeQueue
