import Rdma4py.NvmeQueue.Handed
import Rdma4py.NvmeQueue.Lemmas.Effects
import Rdma4py.NvmeQueue.Lemmas.Steps

/-!
# Polls of any completions: the lemmas

The four things that the loop of `poll` does with a completion, and what follows for whole polls and for `execute`.
-/

namespace Rdma4py.NvmeQueue

open Rdma4py.Lib

variable {w w' w'' : World} {x : Handed} {xs : List Handed} {r : RequestId} {e : Exn}

/-- What the loop raises by itself. -/
def Exn.Plain : Exn → Prop
  | .runtimeError _ | .valueError _ | .external _ => True
  | .queueFullError _ | .timeoutError _ | .nvmeStatusError _ => False

/-- What the loop of `poll` does with one completion, and that this is its effect. -/
inductive Handles (w : World) (x : Handed) : World × Option Exn → Prop
  | rejected (e : Exn) (plain : e.Plain)
      (effect : Rejected w.queue.depth w.queue.responses w.tables x w.tables) : Handles w x (w, some e)
  | unknown (slot : Nat) (e : Exn) (plain : e.Plain)
      (effect : Rejected w.queue.depth w.queue.responses w.tables x (w.repost slot).tables) :
      Handles w x (w.repost slot, some e)
  | sent (r : RequestId) (pending : ∃ cid, w.queue.pending.lookup cid = some r)
      (effect : Accepted w.queue.depth w.queue.responses w.tables x
        (finishIfReady (w.setRequest r { w.requests r with sendComplete := true }) r).tables) :
      Handles w x (finishIfReady (w.setRequest r { w.requests r with sendComplete := true }) r, none)
  | answered (slot : Nat) (r : RequestId) (c : Completion) (pending : ∃ cid, w.queue.pending.lookup cid = some r)
      (effect : Accepted w.queue.depth w.queue.responses w.tables x
        (finishIfReady ((w.repost slot).setRequest r { w.requests r with response := some c }) r).tables) :
      Handles w x (finishIfReady ((w.repost slot).setRequest r { w.requests r with response := some c }) r, none)

/-- `_finish_if_ready` settles the request that changed. -/
theorem finishIfReady_settles (w : World) (r : RequestId) (request : Request) :
    w.tables.Settles r request (finishIfReady (w.setRequest r request) r).tables := by
  rw [finishIfReady_eq, setRequest_self]
  split
  next both =>
    have heq : ((w.setRequest r request).finish r).tables =
        { w.tables with
            requests := Function.update w.requests r { request with done := true }
            pending := w.queue.pending.erase request.commandId
            free := w.queue.free ++ [request.commandId] } := by
      simp [World.finish, World.setRequest, World.tables]
    rw [heq]
    exact .done both
  next missing => exact .waits missing

theorem handle_handles (w : World) (x : Handed) : Handles w x (handle w x.wc) := by
  have hfail : x.failure = none → x.wc = ⟨x.wrId, x.byteLen, none⟩ := fun hf => by simp [Handed.wc, hf]
  have hread : ∀ {slot c}, Arrived w.queue.depth w.queue.responses x slot c →
      receive w x.wc = (w, .response slot c) := by
    intro slot c h
    rw [← h.data]
    exact receive_response (by simp [Handed.wc, h.ok]) h.tagged.1 h.tagged.2 h.index h.whole h.lt h.inside
  obtain ⟨u, heffect | heffect⟩ := exists_effect w.queue.depth w.queue.responses w.tables x
  · cases heffect with
    | @sent r _ ok tagged pending settles =>
        have heq : handle w x.wc =
            (finishIfReady (w.setRequest r { w.requests r with sendComplete := true }) r, none) := by
          rw [handle, receive_sent (by simp [Handed.wc, ok]) tagged pending]
        rw [heq]
        exact .sent r ⟨_, pending⟩ (.sent ok tagged pending (finishIfReady_settles w r _))
    | @answered slot c r _ arrived pending settles =>
        have heq : handle w x.wc =
            (finishIfReady ((w.repost slot).setRequest r { w.requests r with response := some c }) r, none) := by
          rw [handle, hread arrived]
          exact respond_pending pending
        rw [heq]
        exact .answered slot r c ⟨_, pending⟩ (.answered arrived pending (finishIfReady_settles (w.repost slot) r _))
  · cases heffect with
    | failed failure =>
        obtain ⟨text, htext⟩ := Option.ne_none_iff_exists'.mp failure
        have heq : handle w x.wc = (w, some (.external text)) := by simp [handle, receive, Handed.wc, htext]
        rw [heq]
        exact .rejected _ trivial (.failed failure)
    | unknownSend ok tagged unknown =>
        have hl : w.queue.pending.lookup (x.wrId &&& indexMask) = none := unknown
        have heq : handle w x.wc = (w, some (.runtimeError "send completion has an unknown command ID")) := by
          rw [hfail ok]
          simp [handle, receive, tagged, hl]
        rw [heq]
        exact .rejected _ trivial (.unknownSend ok tagged unknown)
    | untagged ok tagged =>
        have heq : handle w x.wc = (w, some (.runtimeError "unexpected work completion on NVMe/RDMA CQ")) := by
          simp [handle, receive, hfail ok, tagged]
        rw [heq]
        exact .rejected _ trivial (.untagged ok tagged)
    | invalid ok tagged invalid =>
        by_cases hshort : x.byteLen < 16 ∨ w.queue.depth ≤ x.wrId &&& indexMask
        · have heq : handle w x.wc = (w, some (.runtimeError "invalid NVMe/RDMA response completion")) := by
            simp [handle, receive, hfail ok, tagged, hshort]
          rw [heq]
          exact .rejected _ trivial (.invalid ok tagged invalid)
        · have hlong : w.queue.responses.length < (x.wrId &&& indexMask) * 16 + 16 := by omega
          have heq : handle w x.wc = (w, some (.valueError "read exceeds the host buffer")) := by
            simp [handle, receive, hfail ok, tagged, hshort, HostBuffer.read, hlong, Except.bind]
          rw [heq]
          exact .rejected _ trivial (.invalid ok tagged invalid)
    | @unknownResponse slot c arrived unknown =>
        have hl : (w.repost slot).queue.pending.lookup c.commandId = none := unknown
        have heq : handle w x.wc =
            (w.repost slot, some (.runtimeError "response has an unknown command ID")) := by
          rw [handle, hread arrived]
          simp only [respond, hl]
        rw [heq]
        exact .unknown slot _ trivial (.unknownResponse arrived unknown)

/-! ## One completion -/

/-- Done means both completions. -/
def Both (r : RequestId) (w : World) : Prop :=
  (w.requests r).done = true ↔ (w.requests r).sendComplete = true ∧ (w.requests r).response.isSome

/-- After a change of one request `_finish_if_ready` restores the relation. -/
theorem Both.finishIfReady {request : Request} {r' : RequestId} (h : Both r w)
    (hd : request.done = (w.requests r').done)
    (hm : (w.requests r').sendComplete = true ∧ (w.requests r').response.isSome →
      request.sendComplete = true ∧ request.response.isSome) :
    Both r (finishIfReady (w.setRequest r' request) r') := by
  rw [finishIfReady_eq, setRequest_self]
  by_cases hr : r' = r
  · subst hr
    split
    · next hready =>
        rw [Both, finish_sendComplete, finish_response, finish_done, setRequest_self]
        simp [hready]
    · next hready =>
        rw [Both, setRequest_self, hd]
        refine ⟨fun hdone => absurd (hm (h.mp hdone)) hready, fun hb => absurd hb hready⟩
  · have hne : r ≠ r' := fun heq => hr heq.symm
    split
    · rw [Both, finish_sendComplete, finish_response, finish_done, setRequest_of_ne hne]
      rw [Both] at h
      simpa [hne] using h
    · rw [Both, setRequest_of_ne hne]
      exact h

theorem Both.handle (h : Both r w) (x : Handed) : Both r (handle w x.wc).1 := by
  have hx := handle_handles w x
  generalize NvmeQueue.handle w x.wc = y at hx
  cases hx with
  | rejected e plain => exact h
  | unknown slot e plain => exact h
  | sent r' => exact h.finishIfReady rfl fun hb => ⟨rfl, hb.2⟩
  | answered slot r' c =>
      have h' : Both r (w.repost slot) := h
      exact h'.finishIfReady rfl fun hb => ⟨hb.1, rfl⟩

/-- What the loop raises is its own or that of the verbs layer. -/
theorem handle_plain (h : (handle w x.wc).2 = some e) : e.Plain := by
  have hx := handle_handles w x
  generalize handle w x.wc = y at hx h
  cases hx with
  | rejected e' plain => cases h; exact plain
  | unknown slot e' plain => cases h; exact plain
  | sent => cases h
  | answered => cases h

/-! ## One poll -/

theorem handleAll_cons (w : World) (x : Handed) (xs : List Handed) : handleAll ((x :: xs).map Handed.wc) w =
    match handle w x.wc with
    | (w, some e) => (w, some e)
    | (w, none) => handleAll (xs.map Handed.wc) w := rfl

theorem Both.handleAll (h : Both r w) (xs : List Handed) : Both r (handleAll (xs.map Handed.wc) w).1 := by
  induction xs generalizing w with
  | nil => exact h
  | cons x xs ih =>
      have hx := h.handle x
      rw [handleAll_cons]
      generalize NvmeQueue.handle w x.wc = y at hx ⊢
      obtain ⟨w', _ | e⟩ := y
      · exact ih hx
      · exact hx

theorem handleAll_plain (h : (handleAll (xs.map Handed.wc) w).2 = some e) : e.Plain := by
  induction xs generalizing w with
  | nil => cases h
  | cons x xs ih =>
      have hx : ∀ e, (handle w x.wc).2 = some e → e.Plain := fun e he => handle_plain he
      rw [handleAll_cons] at h
      generalize handle w x.wc = y at hx h
      obtain ⟨w', _ | e'⟩ := y
      · exact ih h
      · exact hx e h

theorem Both.pollHanded (h : Both r w) (xs : List Handed) : Both r (pollHanded w xs).1 := by
  have hall := h.handleAll xs
  rw [NvmeQueue.pollHanded]
  split
  · exact h
  · generalize NvmeQueue.handleAll (xs.map Handed.wc) w = y at hall ⊢
    obtain ⟨w', _ | e⟩ := y
    · exact hall
    · exact hall

theorem pollHanded_plain (h : (pollHanded w xs).2 = .error e) : e.Plain := by
  have hall : ∀ e, (handleAll (xs.map Handed.wc) w).2 = some e → e.Plain := fun e he => handleAll_plain he
  rw [pollHanded] at h
  split at h
  · cases h
  · generalize handleAll (xs.map Handed.wc) w = y at hall h
    obtain ⟨w', _ | e'⟩ := y
    · cases h
    · cases h
      exact hall e rfl

/-! ## What polling leaves -/

/-- Each pending command is pending under its own ID. -/
def Keys (w : World) : Prop := ∀ cid r, w.queue.pending.lookup cid = some r → (w.requests r).commandId = cid

/-- Polling only takes requests out of the table of pending commands, and only those that are done. -/
structure Sheds (w w' : World) : Prop where
  pending : ∀ cid r, w'.queue.pending.lookup cid = some r → w.queue.pending.lookup cid = some r
  kept : ∀ cid r, w.queue.pending.lookup cid = some r →
    w'.queue.pending.lookup cid = some r ∨ (w'.requests r).done = true
  done : ∀ r, (w.requests r).done = true → (w'.requests r).done = true
  commandId : ∀ r, (w'.requests r).commandId = (w.requests r).commandId
  owner : ∀ r, (w'.requests r).dataOwner = (w.requests r).dataOwner
  capsule : w'.record.capsule = w.record.capsule
  executing : w'.executing = w.executing

/-- What polling does not touch may change in between. -/
theorem Sheds.of_eq (hp : w'.queue.pending = w.queue.pending) (hr : w'.requests = w.requests)
    (hc : w'.record.capsule = w.record.capsule) (hx : w'.executing = w.executing) : Sheds w w' := by
  refine ⟨fun _ _ h => ?_, fun _ _ h => .inl ?_, fun r h => ?_, fun r => ?_, fun r => ?_, hc, hx⟩
  · rwa [hp] at h
  · rwa [hp]
  · rwa [hr]
  · rw [hr]
  · rw [hr]

theorem Sheds.refl (w : World) : Sheds w w := .of_eq rfl rfl rfl rfl

theorem Sheds.trans (h : Sheds w w') (h' : Sheds w' w'') : Sheds w w'' := by
  refine ⟨fun cid r hl => h.pending cid r (h'.pending cid r hl), fun cid r hl => ?_, fun r hd => h'.done r (h.done r hd),
    fun r => (h'.commandId r).trans (h.commandId r), fun r => (h'.owner r).trans (h.owner r),
    h'.capsule.trans h.capsule, h'.executing.trans h.executing⟩
  rcases h.kept cid r hl with hl' | hd
  · exact h'.kept cid r hl'
  · exact .inr (h'.done r hd)

theorem Keys.sheds (hk : Keys w) (h : Sheds w w') : Keys w' := fun cid r hl =>
  (h.commandId r).trans (hk cid r (h.pending cid r hl))

theorem setRequest_sheds {request : Request} (hi : request.commandId = (w.requests r).commandId)
    (ho : request.dataOwner = (w.requests r).dataOwner) (hd : request.done = (w.requests r).done) :
    Sheds w (w.setRequest r request) := by
  refine ⟨fun _ _ h => h, fun _ _ h => .inl h, fun r' h => ?_, setRequest_commandId hi, fun r' => ?_, rfl, rfl⟩
  · rw [setRequest_done hd]
    exact h
  · by_cases hr : r' = r
    · subst hr; rw [setRequest_self, ho]
    · rw [setRequest_of_ne hr]

/-- The entry of a finished request is deleted, and no other. -/
theorem finishIfReady_sheds (hk : Keys w) (hr : ∃ cid, w.queue.pending.lookup cid = some r) :
    Sheds w (finishIfReady w r) := by
  obtain ⟨cid, hl⟩ := hr
  have hid := hk cid r hl
  rw [finishIfReady_eq]
  split
  · refine ⟨fun cid' r' hl' => ?_, fun cid' r' hl' => ?_, fun r' hd => (finish_done w r r').mpr (.inr hd),
      finish_commandId w r, fun r' => ?_, rfl, rfl⟩
    · have hl'' : (w.queue.pending.erase (w.requests r).commandId).lookup cid' = some r' := hl'
      by_cases heq : cid' = (w.requests r).commandId
      · rw [heq, AList.lookup_erase] at hl''
        cases hl''
      · rw [AList.lookup_erase_ne heq] at hl''
        exact hl''
    · by_cases heq : cid' = (w.requests r).commandId
      · right
        rw [heq, hid, hl] at hl'
        cases hl'
        exact (finish_done w r r).mpr (.inl rfl)
      · left
        show (w.queue.pending.erase (w.requests r).commandId).lookup cid' = some r'
        rw [AList.lookup_erase_ne heq, hl']
    · by_cases hr : r' = r
      · subst hr; simp [World.finish]
      · simp [World.finish, hr]
  · exact .refl w

theorem handle_sheds (hk : Keys w) (x : Handed) : Sheds w (handle w x.wc).1 := by
  have hx := handle_handles w x
  generalize handle w x.wc = y at hx ⊢
  cases hx with
  | rejected => exact .refl w
  | unknown => exact .of_eq rfl rfl rfl rfl
  | sent r pending =>
      have hset : Sheds w (w.setRequest r { w.requests r with sendComplete := true }) := setRequest_sheds rfl rfl rfl
      exact hset.trans (finishIfReady_sheds (hk.sheds hset) pending)
  | answered slot r c pending =>
      have hset : Sheds (w.repost slot) ((w.repost slot).setRequest r { w.requests r with response := some c }) :=
        setRequest_sheds rfl rfl rfl
      have hkeys : Keys (w.repost slot) := hk
      have hrepost : Sheds w (w.repost slot) := .of_eq rfl rfl rfl rfl
      exact hrepost.trans (hset.trans (finishIfReady_sheds (hkeys.sheds hset) pending))

theorem handleAll_sheds (hk : Keys w) (xs : List Handed) : Sheds w (handleAll (xs.map Handed.wc) w).1 := by
  induction xs generalizing w with
  | nil => exact .refl w
  | cons x xs ih =>
      have hx := handle_sheds hk x
      rw [handleAll_cons]
      generalize handle w x.wc = y at hx ⊢
      obtain ⟨w', _ | e⟩ := y
      · exact hx.trans (ih (hk.sheds hx))
      · exact hx

theorem pollHanded_sheds (hk : Keys w) (xs : List Handed) : Sheds w (pollHanded w xs).1 := by
  have hall := handleAll_sheds hk xs
  rw [pollHanded]
  split
  · exact .refl w
  · generalize handleAll (xs.map Handed.wc) w = y at hall ⊢
    obtain ⟨w', _ | e⟩ := y
    · exact hall.trans (.of_eq rfl rfl rfl rfl)
    · exact hall

theorem poll_sheds (hk : Keys w) (hc : w.queue.closed = false) (maxEntries : Option Int) (count : Nat) :
    Sheds w (poll w maxEntries count).1 := by
  cases hm : maxEntries.any (· ≤ 0) with
  | false =>
      rw [poll_eq w count hc hm]
      have hreap : Sheds w (w.reap (w.pollCount maxEntries count)) := .of_eq rfl rfl rfl rfl
      exact hreap.trans (pollHanded_sheds (hk.sheds hreap) _)
  | true =>
      rw [poll, if_neg (by simp [hc]), if_pos hm]
      exact .refl w

/-! ## What one poll takes -/

/-- What handling completions does not touch. -/
structure SameSettings (w w' : World) : Prop where
  depth : w'.queue.depth = w.queue.depth
  responses : w'.queue.responses = w.queue.responses
  closed : w'.queue.closed = w.queue.closed
  answers : w'.record.answers = w.record.answers
  nextRequest : w'.nextRequest = w.nextRequest

theorem SameSettings.refl (w : World) : SameSettings w w := ⟨rfl, rfl, rfl, rfl, rfl⟩

theorem SameSettings.trans (h : SameSettings w w') (h' : SameSettings w' w'') : SameSettings w w'' :=
  ⟨h'.depth.trans h.depth, h'.responses.trans h.responses, h'.closed.trans h.closed, h'.answers.trans h.answers,
    h'.nextRequest.trans h.nextRequest⟩

theorem finishIfReady_settings (w : World) (r : RequestId) : SameSettings w (finishIfReady w r) := by
  rw [finishIfReady_eq]
  split <;> exact ⟨rfl, rfl, rfl, rfl, rfl⟩

theorem handle_settings (w : World) (x : Handed) : SameSettings w (handle w x.wc).1 := by
  have hx := handle_handles w x
  generalize handle w x.wc = y at hx ⊢
  cases hx with
  | rejected => exact .refl w
  | unknown => exact ⟨rfl, rfl, rfl, rfl, rfl⟩
  | sent r =>
      have hset : SameSettings w (w.setRequest r { w.requests r with sendComplete := true }) := ⟨rfl, rfl, rfl, rfl, rfl⟩
      exact hset.trans (finishIfReady_settings _ r)
  | answered slot r c =>
      have hset : SameSettings w ((w.repost slot).setRequest r { w.requests r with response := some c }) :=
        ⟨rfl, rfl, rfl, rfl, rfl⟩
      exact hset.trans (finishIfReady_settings _ r)

/-- The loop of `poll` takes the completions up to the first that is rejected. -/
theorem handleAll_taken (w : World) (xs : List Handed) :
    Taken w.queue.depth w.queue.responses w.tables xs (handleAll (xs.map Handed.wc) w).2.isSome
      (handleAll (xs.map Handed.wc) w).1.tables ∧
    SameSettings w (handleAll (xs.map Handed.wc) w).1 := by
  induction xs generalizing w with
  | nil => exact ⟨.nil, .refl w⟩
  | cons x xs ih =>
      have hx := handle_handles w x
      have hsame := handle_settings w x
      rw [handleAll_cons]
      generalize handle w x.wc = y at hx hsame ⊢
      cases hx with
      | rejected e plain effect => exact ⟨.rejected effect, hsame⟩
      | unknown slot e plain effect => exact ⟨.rejected effect, hsame⟩
      | sent r pending effect =>
          obtain ⟨htail, hrest⟩ := ih (finishIfReady (w.setRequest r { w.requests r with sendComplete := true }) r)
          rw [hsame.depth, hsame.responses] at htail
          exact ⟨.accepted effect htail, hsame.trans hrest⟩
      | answered slot r c pending effect =>
          obtain ⟨htail, hrest⟩ :=
            ih (finishIfReady ((w.repost slot).setRequest r { w.requests r with response := some c }) r)
          rw [hsame.depth, hsame.responses] at htail
          exact ⟨.accepted effect htail, hsame.trans hrest⟩

/-- One poll: it raises exactly when a completion is rejected. -/
theorem pollHanded_taken (ho : w.queue.closed = false) (xs : List Handed) :
    ∃ raised, Taken w.queue.depth w.queue.responses w.tables xs raised (pollHanded w xs).1.tables ∧
      (raised = true ↔ ∃ e, (pollHanded w xs).2 = .error e) ∧ SameSettings w (pollHanded w xs).1 := by
  obtain ⟨htaken, hsame⟩ := handleAll_taken w xs
  rw [pollHanded, if_neg (by simp [ho])]
  generalize handleAll (xs.map Handed.wc) w = y at htaken hsame ⊢
  obtain ⟨w', _ | e⟩ := y
  · exact ⟨false, htaken, by simp, hsame.depth, hsame.responses, hsame.closed, hsame.answers,
      hsame.nextRequest⟩
  · exact ⟨true, htaken, by simp, hsame⟩

theorem poll_settings (w : World) (maxEntries : Option Int) (count : Nat) :
    SameSettings w (poll w maxEntries count).1 := by
  cases ho : w.queue.closed with
  | true =>
      rw [poll, if_pos ho]
      exact .refl w
  | false =>
      cases hm : maxEntries.any (· ≤ 0) with
      | true =>
          rw [poll, if_neg (by simp [ho]), if_pos hm]
          exact .refl w
      | false =>
          rw [poll_eq w count ho hm]
          have hreap : SameSettings w (w.reap (w.pollCount maxEntries count)) := ⟨rfl, rfl, rfl, rfl, rfl⟩
          have ho' : (w.reap (w.pollCount maxEntries count)).queue.closed = false := ho
          obtain ⟨_, -, -, hsame⟩ :=
            pollHanded_taken ho' ((w.link.cq.take (w.pollCount maxEntries count)).map Entry.handed)
          exact hreap.trans hsame

/-- Polls for which nothing has arrived change none of the tables. -/
theorem pollAgain_tables (w : World) (n : Nat) : (pollAgain n w).tables = w.tables := by
  induction n generalizing w with
  | zero => rfl
  | succ n ih =>
      rw [pollAgain, ih, pollHanded]
      split <;> rfl

/-! ## `submit` in any state -/

/-- A `submit` that raises: older requests stay as they are, and pending commands may only get lost. -/
structure Refused (w w' : World) : Prop where
  pending : ∀ cid r, w'.queue.pending.lookup cid = some r → w.queue.pending.lookup cid = some r
  requests : ∀ r < w.nextRequest, w'.requests r = w.requests r
  capsule : ∀ r < w.nextRequest, w'.record.capsule r = w.record.capsule r
  nextRequest : w.nextRequest ≤ w'.nextRequest
  executing : w'.executing = w.executing
  closed : w'.queue.closed = w.queue.closed

/-- It raises, or it posts a new request. -/
theorem submit_cases (w : World) (command : List UInt8) (owner : Option Nat) (post : Option Exn) :
    (∃ w' e, submit w command owner post = (w', .error e) ∧ Refused w w') ∨
    (w.queue.closed = false ∧ command.length = 64 ∧ ∃ cid free, submit w command owner post =
      ((w.draft cid (packCommandId command cid) { commandId := cid, dataOwner := owner }).post cid free w.nextRequest,
        .ok w.nextRequest)) := by
  rw [submit]
  rcases submitWrite_cases w command owner with ⟨free, e, he⟩ | ⟨hopen, hlen, cid, free, -, he⟩
  · rw [he]
    exact .inl ⟨_, e, rfl, fun _ _ h => h, fun _ _ => rfl, fun _ _ => rfl, Nat.le_refl _, rfl, rfl⟩
  · rw [he]
    cases post with
    | none => exact .inr ⟨hopen, hlen, cid, free, rfl⟩
    | some e =>
        refine .inl ⟨_, e, rfl, fun cid' r hl => ?_, fun r hr => Function.update_of_ne (Nat.ne_of_lt hr) ..,
          fun r hr => Function.update_of_ne (Nat.ne_of_lt hr) .., Nat.le_succ _, rfl, rfl⟩
        have hl' : ((w.queue.pending.insert cid w.nextRequest).erase cid).lookup cid' = some r := hl
        have hne : cid' ≠ cid := by
          rintro rfl
          rw [AList.lookup_erase] at hl'
          cases hl'
        rwa [AList.lookup_erase_ne hne, AList.lookup_insert_ne hne] at hl'

/-! ## `execute` -/

/-- A request is done exactly when it has both completions, by the tables. -/
theorem Both.complete_iff (h : Both r w) : w.tables.Complete r ↔ (w.requests r).done = true := h.symm

/-- A request that is not done misses a completion. -/
theorem Both.truthful (h : Both r w) (hd : (w.requests r).done = false) (o : Outcome) : Truthful r w.tables w o := by
  have hnot : ¬ w.tables.Complete r := by
    rw [h.complete_iff, hd]
    exact Bool.false_ne_true
  exact ⟨fun _ _ => ⟨hnot, hd⟩, fun c hs hc => absurd ⟨hs, Option.isSome_iff_exists.mpr ⟨c, hc⟩⟩ hnot⟩

/-- A request that is done, and an outcome that is not its own. -/
theorem Both.not_truthful (h : Both r w) (hd : (w.requests r).done = true) (he : e.Plain) :
    ¬ Truthful r w.tables w (.raised e) := by
  intro ht
  obtain ⟨hs, hr⟩ := h.mp hd
  obtain ⟨c, hc⟩ := Option.isSome_iff_exists.mp hr
  have heq := ht.response c hs hc
  split at heq
  · cases heq
  · cases heq
    exact he

theorem executeResult_truthful (h : Both r w) (hd : (w.requests r).done = true) :
    Truthful r w.tables w (executeResult (w.requests r)) := by
  obtain ⟨hs, hr⟩ := h.mp hd
  obtain ⟨c, hc⟩ := Option.isSome_iff_exists.mp hr
  have heq : executeResult (w.requests r) = if c.succeeded then .executed c else .raised (.nvmeStatusError c) := by
    rw [executeResult, hc]
    by_cases hok : c.succeeded = true <;> simp [Completion.raiseForStatus, hok]
  refine ⟨fun text ht => ?_, fun c' _ hc' => ?_⟩
  · rw [heq] at ht
    split at ht <;> cases ht
  · have hc' : (w.requests r).response = some c' := hc'
    rw [hc] at hc'
    cases hc'
    exact heq

/-- What one poll of `execute` does to a request that is not done. -/
structure Turned (depth length : Nat) (r : RequestId) (t : Tables) (turn : Turn) (raised : Bool) (w : World) : Prop where
  taken : Taken depth ⟨length, turn.responses⟩ t turn.handed raised w.tables
  depth_eq : w.queue.depth = depth
  length_eq : w.queue.responses.length = length
  opened : w.queue.closed = false
  both : Both r w

theorem pollHanded_turned (h : Both r w) (ho : w.queue.closed = false) (turn : Turn) :
    ∃ raised, Turned w.queue.depth w.queue.responses.length r w.tables turn raised
        (pollHanded (w.arrive turn.responses) turn.handed).1 ∧
      (raised = true ↔ ∃ e, (pollHanded (w.arrive turn.responses) turn.handed).2 = .error e) := by
  have ho' : (w.arrive turn.responses).queue.closed = false := ho
  have h' : Both r (w.arrive turn.responses) := h
  obtain ⟨raised, htaken, hraised, hsame⟩ := pollHanded_taken ho' turn.handed
  have hlength := congrArg HostBuffer.length hsame.responses
  exact ⟨raised, ⟨htaken, hsame.depth, hlength, hsame.closed.trans ho', h'.pollHanded turn.handed⟩, hraised⟩

theorem executeResult_cases (request : Request) :
    (∃ e, executeResult request = .raised e) ∨ ∃ response, executeResult request = .executed response := by
  rw [executeResult]
  cases request.response with
  | none => exact .inl ⟨_, rfl⟩
  | some response =>
      dsimp only
      cases response.raiseForStatus with
      | none => exact .inr ⟨response, rfl⟩
      | some e => exact .inl ⟨e, rfl⟩

/-- An iteration of `execute`: the request is done, or it polls, and it ends if the poll raises or the deadline has
passed. -/
theorem executeTurn_cases {x : Execution} (hk : Keys w) (ho : w.queue.closed = false) (hb : Both x.request w)
    (turn : Turn) :
    ((w.requests x.request).done = true ∧
      executeTurn w x turn = ({ w with executing := none }, executeResult (w.requests x.request))) ∨
    ((w.requests x.request).done = false ∧ ∃ raised w',
      Turned w.queue.depth w.queue.responses.length x.request w.tables turn raised w' ∧ Sheds w w' ∧
      w'.nextRequest = w.nextRequest ∧
      ((raised = true ∨ x.deadline ≤ turn.now) ∧
          (∃ e, executeTurn w x turn = ({ w' with executing := none }, .raised e)) ∨
        ¬ (raised = true ∨ x.deadline ≤ turn.now) ∧ executeTurn w x turn = (w', .running))) := by
  cases hd : (w.requests x.request).done with
  | true => exact .inl ⟨rfl, by rw [executeTurn, if_pos hd]⟩
  | false =>
      obtain ⟨raised, hturned, hraised⟩ := pollHanded_turned hb ho turn
      have harrive : Sheds w (w.arrive turn.responses) := .of_eq rfl rfl rfl rfl
      have hsheds := harrive.trans (pollHanded_sheds (hk.sheds harrive) turn.handed)
      obtain ⟨-, -, -, hsame⟩ := pollHanded_taken (w := w.arrive turn.responses) ho turn.handed
      have hnext : (pollHanded (w.arrive turn.responses) turn.handed).1.nextRequest = w.nextRequest := hsame.nextRequest
      rw [executeTurn, if_neg (by simp [hd])]
      generalize pollHanded (w.arrive turn.responses) turn.handed = y at hturned hraised hsheds hnext ⊢
      obtain ⟨w', e | rs⟩ := y
      · exact .inr ⟨rfl, raised, w', hturned, hsheds, hnext, .inl ⟨.inl (hraised.mpr ⟨e, rfl⟩), e, rfl⟩⟩
      · obtain rfl : raised = false := by simpa using hraised
        refine .inr ⟨rfl, false, w', hturned, hsheds, hnext, ?_⟩
        by_cases hlate : x.deadline ≤ turn.now
        · exact .inl ⟨.inr hlate, _, if_pos hlate⟩
        · exact .inr ⟨by simp [hlate], if_neg hlate⟩

/-- What was taken decides which rule for punctuality applies. -/
theorem punctual_cons_iff {depth length : Nat} {deadline : Int} {t u : Tables} {turn : Turn} {turns : List Turn}
    {raised : Bool} (h : Taken depth ⟨length, turn.responses⟩ t turn.handed raised u) :
    Punctual depth length r deadline t (turn :: turns) ↔
      (raised = true → ¬ u.Complete r) ∧ (raised = false → (deadline ≤ turn.now → ¬ u.Complete r) ∧
        (turn.now < deadline → ¬ u.Complete r → Punctual depth length r deadline u turns)) := by
  constructor
  · intro hp
    cases hp with
    | raises poll missing =>
        obtain ⟨rfl, rfl⟩ := h.unique poll
        exact ⟨fun _ => missing, fun hf => by cases hf⟩
    | late poll missing late =>
        obtain ⟨rfl, rfl⟩ := h.unique poll
        exact ⟨fun hf => (by cases hf), fun _ => ⟨fun _ => missing, fun hlt => by omega⟩⟩
    | finishes poll complete inTime =>
        obtain ⟨rfl, rfl⟩ := h.unique poll
        exact ⟨fun hf => (by cases hf), fun _ => ⟨fun hle => by omega, fun _ hn => absurd complete hn⟩⟩
    | goesOn poll missing inTime rest =>
        obtain ⟨rfl, rfl⟩ := h.unique poll
        exact ⟨fun hf => (by cases hf), fun _ => ⟨fun _ => missing, fun _ _ => rest⟩⟩
  · rintro ⟨hraised, hok⟩
    cases raised with
    | true => exact .raises h (hraised rfl)
    | false =>
        obtain ⟨hlate, hrest⟩ := hok rfl
        by_cases hnow : turn.now < deadline
        · by_cases hc : u.Complete r
          · exact .finishes h hc hnow
          · exact .goesOn h hc hnow (hrest hnow hc)
        · exact .late h (hlate (by omega)) (by omega)

/-- Over all iterations: what the polls have taken decides the outcome exactly when the last of them is punctual. -/
theorem executeLoop_truthful_iff (deadline : Int) (ts : List Turn) (h : Both r w) (ho : w.queue.closed = false)
    (hd : (w.requests r).done = false) :
    ∃ t, Polled w.queue.depth w.queue.responses.length w.tables (ts.take (executeLoop r deadline w ts).2.2) t ∧
      (Truthful r t (executeLoop r deadline w ts).1 (executeLoop r deadline w ts).2.1 ↔
        Punctual w.queue.depth w.queue.responses.length r deadline w.tables ts) := by
  induction ts generalizing w with
  | nil =>
      refine ⟨w.tables, .nil, ?_⟩
      rw [executeLoop, if_neg (by simp [hd])]
      exact iff_of_true (h.truthful hd _) .never
  | cons turn ts ih =>
      rw [executeLoop, if_neg (by simp [hd]), executeTurn, if_neg (by simp [hd])]
      obtain ⟨raised, hturned, hraised⟩ := pollHanded_turned h ho turn
      have hplain : ∀ e, (pollHanded (w.arrive turn.responses) turn.handed).2 = .error e → e.Plain :=
        fun e he => pollHanded_plain he
      generalize pollHanded (w.arrive turn.responses) turn.handed = y at hturned hraised hplain ⊢
      obtain ⟨w', e | rs⟩ := y
      · -- the poll raises, and `execute` with it
        dsimp only
        obtain rfl : raised = true := hraised.mpr ⟨e, rfl⟩
        refine ⟨w'.tables, .cons hturned.taken .nil, ?_⟩
        rw [punctual_cons_iff hturned.taken, hturned.both.complete_iff]
        simp only [Bool.true_eq_false, false_imp_iff, and_true, true_imp_iff]
        have hboth : Both r { w' with executing := none } := hturned.both
        by_cases hd' : (w'.requests r).done = true
        · exact iff_of_false (hboth.not_truthful hd' (hplain e rfl)) fun hn => hn hd'
        · exact iff_of_true (hboth.truthful (by simpa using hd') _) hd'
      · obtain rfl : raised = false := by simpa using hraised
        rw [punctual_cons_iff hturned.taken, hturned.both.complete_iff]
        simp only [Bool.false_eq_true, false_imp_iff, true_and, true_imp_iff]
        by_cases hlate : deadline ≤ turn.now
        · -- the deadline has passed
          have hnow : ¬ turn.now < deadline := by omega
          rw [if_pos hlate]
          simp only [hnow, hlate, false_imp_iff, true_imp_iff, and_true]
          have hboth : Both r { w' with executing := none } := hturned.both
          refine ⟨w'.tables, .cons hturned.taken .nil, fun ht => ?_, fun hn => hboth.truthful (by simpa using hn) _⟩
          have hopen : (w'.requests r).done = false := (ht.timeout _ rfl).2
          rw [hopen]
          exact Bool.false_ne_true
        · have hnow : turn.now < deadline := by omega
          rw [if_neg hlate]
          simp only [hnow, hlate, false_imp_iff, true_imp_iff, true_and]
          by_cases hd' : (w'.requests r).done = true
          · -- the request is done
            have hstop : executeLoop r deadline w' ts = (w', executeResult (w'.requests r), 0) := by
              cases ts <;> simp [executeLoop, hd']
            rw [hstop]
            exact ⟨w'.tables, .cons hturned.taken .nil,
              iff_of_true (executeResult_truthful hturned.both hd') fun hn => absurd hd' hn⟩
          · obtain ⟨t, hpolled, hiff⟩ := ih hturned.both hturned.opened (by simpa using hd')
            rw [hturned.depth_eq, hturned.length_eq] at hpolled hiff
            exact ⟨t, .cons hturned.taken hpolled, hiff.trans ⟨fun hp _ => hp, fun hp => hp hd'⟩⟩

theorem Polled.unique {depth length : Nat} {t u v : Tables} {turns : List Turn} (h : Polled depth length t turns u)
    (h' : Polled depth length t turns v) : u = v := by
  induction h with
  | nil =>
      cases h'
      rfl
  | cons head _ ih =>
      cases h' with
      | cons head' tail' =>
          obtain ⟨-, rfl⟩ := head.unique head'
          exact ih tail'

/-- What a `submit` that returns a request does to the tables. -/
theorem submit_tables {command : List UInt8} {owner : Option Nat} {post : Option Exn} {cid : Nat} {free : List Nat}
    (h : submit w command owner post = (w', .ok r)) (hf : w.queue.free = cid :: free) :
    w'.tables = w.tables.submit cid free r owner ∧ w'.queue.depth = w.queue.depth ∧
      w'.queue.responses = w.queue.responses ∧ w'.queue.closed = false ∧ (w'.requests r).done = false ∧ Both r w' := by
  rw [submit] at h
  rcases submitWrite_cases w command owner with ⟨_, e, he⟩ | ⟨hopen, -, cid', free', hf', he⟩
  · rw [he] at h
    cases h
  · rw [he] at h
    obtain ⟨rfl, rfl⟩ := List.cons.inj (hf.symm.trans hf')
    cases post with
    | some e => cases h
    | none =>
        cases h
        refine ⟨rfl, rfl, rfl, hopen, ?_, ?_⟩
        · simp [World.reserve, World.draft]
        · simp [Both, World.reserve, World.draft]

end Rdma4py.NvmeQueue
