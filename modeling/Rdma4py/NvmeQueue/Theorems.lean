import Rdma4py.NvmeQueue.Lemmas.Handed
import Rdma4py.NvmeQueue.Lemmas.Handout
import Rdma4py.NvmeQueue.Lemmas.Interleaving

/-!
# The theorems about the queue

The queue keeps its identifiers, capsules and receive slots apart, in every interleaving with the link and the target.
Each finished request is handed out once; the caller learns of it unless `execute` was the one to poll. An `execute` tells
the outcome of its request if the poll that finishes it is punctual, and a poll that raises has lost what stood behind the
completion that it rejected.
-/

namespace Rdma4py.NvmeQueue

open Rdma4py.Lib

/-! ## Safety -/

/-- What holds of the queue between any two pieces of its calls. What the thread holds counts: a SEND that it is about to
post, and entries that it has polled and not handled. -/
structure QueueSafe (s : Thread) : Prop where
  /-- Each command ID is free or pending. -/
  ids : Enumerates (s.world.queue.free ++ s.world.queue.pending.keys) (· < s.world.queue.depth - 1)
  /-- A response is what the target answered to the request's own capsule, which it answered once. -/
  responses : ∀ r c, (s.world.requests r).response = some c → ∃ a ∈ s.world.record.answers,
    a.request = r ∧ a.capsule = s.world.record.capsule r ∧ Completion.fromBytes a.data = .ok c
  answered : (s.world.record.answers.map Answer.request).Nodup
  /-- Done means both completions, and then one place: a result of `poll`, or `_completed`. -/
  done : ∀ r, (s.world.requests r).done = true ↔
    (s.world.requests r).sendComplete = true ∧ (s.world.requests r).response.isSome
  completed : Enumerates
    (s.world.record.polled.flatten ++ s.world.record.discarded ++ s.world.queue.completed)
    fun r => (s.world.requests r).done = true
  /-- Each pending command has one SEND until it is completed and one response to come until it is handled. -/
  sending : Enumerates s.view.sending fun r => s.world.Open r ∧ (s.world.requests r).sendComplete = false
  awaiting : Enumerates s.view.awaiting fun r => s.world.Open r ∧ (s.world.requests r).response = none
  /-- The slot of a SEND holds the capsule of its request, and no piece overwrites it. -/
  capsules : ∀ x, x ∈ s.view.link.undelivered ∨ x ∈ s.view.link.uncompleted ∨ .send x ∈ s.view.link.cq →
    s.world.queue.commands.mem.read x.wr.length x.wr.offset = s.world.record.capsule x.request ∧
    ∀ p, pieces.Enabled s p → (pieces.next s p).world.queue.commands.mem.read x.wr.length x.wr.offset =
      s.world.queue.commands.mem.read x.wr.length x.wr.offset
  /-- Each receive slot is posted once, or holds a response that is still to be read. -/
  receives : Enumerates s.view.receives fun wr => ∃ slot < s.world.queue.depth, wr = recvWr slot
  unread : ∀ wr n r, .response wr n r ∈ s.view.link.cq →
    ∃ a ∈ s.world.record.answers, a.request = r ∧ s.world.queue.responses.mem.read wr.length wr.offset = a.data
  /-- There is a receive for every response that can still arrive, and room in the CQ. -/
  room : s.view.link.undelivered.length + s.world.link.capsules.length < s.world.link.recvs.length
  cq : s.view.link.cq.length ≤ 2 * s.world.queue.depth
  /-- `poll` accepts every completion. -/
  accepts : ∀ e es, s.control = .looping (e :: es) → ∀ x, (receive s.world e.wc).2 ≠ .raised x
  reposts : ∀ slot c e es, s.control = .reposting slot c e es → (respond s.world slot c).2 = none

/-- After any pieces of calls, and whatever the link and the target did between them, the queue is safe. -/
theorem queue_safety {s s' : Thread} (hi : s.Initial) (hr : pieces.Reaches s s') : QueueSafe s' := by
  have h := Thread.Safe.run hi hr
  obtain ⟨hcore, hdone⟩ := h.sound
  obtain ⟨hroom, hcq⟩ := hcore.receives_left
  refine ⟨hcore.ids, fun r c hc => ?_, hcore.answered, hdone, hcore.finished.perm hcore.handed, hcore.sends,
    hcore.awaits, fun x hx => ?_, hcore.recvs, fun wr n r he => ?_, hroom, hcq.trans (Nat.mul_le_mul_left 2 (Nat.sub_le ..)),
    fun e es hc => ?_, fun slot c e es hc => ?_⟩
  · obtain ⟨a, ha, hreq, hdata⟩ := hcore.responses r c hc
    obtain ⟨_, hcap, hlen, _⟩ := hcore.answers a ha
    refine ⟨a, ha, hreq, hreq ▸ hcap, ?_⟩
    rw [Completion.fromBytes, if_neg (by omega), hdata]
  · have ho := hcore.posted_open hx
    rw [hcore.posted x hx]
    exact ⟨(hcore.slots x.request ho).1, fun p hen => h.slot_kept hen ho⟩
  · obtain ⟨_, a, ha, hreq, hdata⟩ := hcore.unread wr n r he
    have hmem : wr ∈ s'.view.receives := List.mem_append_right _ (List.mem_filterMap.mpr ⟨_, he, rfl⟩)
    obtain ⟨slot, _, rfl⟩ := (hcore.recvs.mem_iff wr).mp hmem
    exact ⟨a, ha, hreq, hdata⟩
  · have hen : s'.Enabled .entry := by simp [Thread.Enabled, hc]
    exact (h.entry hen).2 e es hc
  · have hen : s'.Enabled .repost := by simp [Thread.Enabled, hc]
    exact (h.repost hen).2 slot c e es hc

/-- One command on a queue of depth 2. Its SEND is completed between the read of its response and the `post_recv` of the
receive. -/
theorem queue_safety_depth_two :
    let s : Thread := ⟨.initial 2 (fun _ => 0) (fun _ => 0), .idle⟩
    let s' := pieces.play s [.submit (List.replicate 64 7) none, .post none, .deliver, .answer 0 (List.replicate 16 0),
      .poll none 1, .entry, .complete 0, .repost, .finish 0, .poll none 1, .entry, .finish 0]
    (s'.world.requests 0).done = true ∧ QueueSafe s' := by
  intro s s'
  have hplays : pieces.Plays s [.submit (List.replicate 64 7) none, .post none, .deliver,
      .answer 0 (List.replicate 16 0), .poll none 1, .entry, .complete 0, .repost, .finish 0, .poll none 1, .entry,
      .finish 0] := by
    decide
  exact ⟨by decide, queue_safety ⟨⟨2, _, _, by decide, by decide, rfl⟩, rfl⟩ hplays.reaches⟩

/-- The machine of whole calls does nothing that the pieces do not do: its calls are uninterrupted sequences of them. -/
theorem calls_in_pieces {w w' : World} (hi : w.Initial) (hr : process.Reaches w w') :
    pieces.Reaches ⟨w, .idle⟩ ⟨w', .idle⟩ := by
  have h : Settled w' ∧ pieces.Reaches ⟨w, .idle⟩ ⟨w', .idle⟩ :=
    hr.invariant (I := fun w' => Settled w' ∧ pieces.Reaches ⟨w, .idle⟩ ⟨w', .idle⟩)
      (fun _ _ h hen => ⟨h.1.step hen, h.2.trans (pieces_event h.1 hen)⟩) ⟨.initial hi, .refl _⟩
  exact h.2

/-! ## Notification -/

/-- While no poll of `execute` takes the last missing completion of a request that `submit` returned, each such request
that is done is in one result of `poll`. The first such poll makes a request that no `poll` ever returns. -/
theorem no_completion_lost {w w' : World} (hi : w.Initial)
    (hr : (process.when fun w e => ¬ Swallows w e).Reaches w w') :
    (∀ r ∈ w'.record.submitted, (w'.requests r).done = true → w'.record.polled.flatten.count r = 1) ∧
    ∀ e, process.Enabled w' e → Swallows w' e → ∃ r, ∀ w'', process.Reaches (process.next w' e) w'' →
      r ∈ w''.record.submitted ∧ (w''.requests r).done = true ∧ w''.record.polled.flatten.count r = 0 := by
  obtain ⟨h, hkept⟩ := Kept.run hi hr
  refine ⟨fun r hsub hdone => ?_, fun e hen hs => ?_⟩
  · obtain ⟨hnd, hiff⟩ := h.handed
    have hmem := (List.mem_append.mp ((hiff r).mp hdone)).resolve_right (hkept r hsub)
    exact List.count_eq_one_of_mem hnd.of_append_left hmem
  · obtain ⟨r, hlost⟩ := hs.lost h hen
    refine ⟨r, fun w'' hr'' => ?_⟩
    obtain ⟨h'', hlost''⟩ := hlost.run (h.step hen) hr''
    exact ⟨hlost''.1, hlost''.never_polled h''⟩

/-- The caller polls for its own request, then executes a second command. -/
theorem no_completion_lost_depth_three :
    let w := World.initial 3 (fun _ => 0) (fun _ => 0)
    let w' := process.play w [.submit (List.replicate 64 7) none none, .deliver, .answer 0 (List.replicate 16 0),
      .complete 0, .poll none 2]
    w'.record.polled.flatten.count 0 = 1 := by
  intro w w'
  have hplays : (process.when fun w e => ¬ Swallows w e).Plays w [.submit (List.replicate 64 7) none none, .deliver,
      .answer 0 (List.replicate 16 0), .complete 0, .poll none 2] := by
    refine ⟨⟨by decide, ?_⟩, ⟨by decide, ?_⟩, ⟨by decide, ?_⟩, ⟨by decide, ?_⟩,
      ⟨by decide, ?_⟩, trivial⟩ <;>
    · rintro ⟨_, _, _, he, _⟩
      cases he
  have hr : (process.when fun w e => ¬ Swallows w e).Reaches w w' := hplays.reaches
  exact (no_completion_lost ⟨3, _, _, by decide, by decide, rfl⟩ hr).1 0 (by decide) (by decide)

/-- Two commands are outstanding, one submitted and one executed, and both complete before `execute` polls: the result of
that poll is thrown away, and the next `poll` of the caller is empty. -/
theorem execute_discards_completions :
    ¬ ∀ w w' : World, w.Initial → process.Reaches w w' → ∀ r ∈ w'.record.submitted, (w'.requests r).done = true →
      w'.record.polled.flatten.count r = 1 := by
  intro h
  have hplays : process.Plays (World.initial 3 (fun _ => 0) (fun _ => 0))
      [.submit (List.replicate 64 7) none none, .execute (List.replicate 64 7) none 30 0 none, .deliver, .deliver,
        .answer 0 (List.replicate 16 0), .answer 0 (List.replicate 12 0 ++ [1, 0, 0, 0]), .complete 0, .complete 0,
        .iterate 4 1, .iterate 0 2, .poll none 4] := by
    decide
  have hcount := h _ _ ⟨3, _, _, by decide, by decide, rfl⟩ hplays.reaches 0 (by decide) (by decide)
  revert hcount
  decide

/-! ## Timeouts -/

/-- An `execute` whose request was submitted times out only while the polls that it made have not taken both completions
of the request, and otherwise tells its response, exactly when the poll that takes the last of them rejects nothing and ends
before the deadline. -/
theorem execute_truthful {w : World} {command : List UInt8} {owner : Option Nat} {post : Option Exn} {r : RequestId}
    {cid : Nat} {free : List Nat} (hs : (submit w command owner post).2 = .ok r) (hf : w.queue.free = cid :: free)
    (timeout now : Int) (turns : List Turn) :
    (∃ t, Polled w.queue.depth w.queue.responses.length (w.tables.submit cid free r owner)
      (turns.take (execute w command owner timeout now post turns).2.2) t) ∧
    ∀ t, Polled w.queue.depth w.queue.responses.length (w.tables.submit cid free r owner)
        (turns.take (execute w command owner timeout now post turns).2.2) t →
      (Truthful r t (execute w command owner timeout now post turns).1
          (execute w command owner timeout now post turns).2.1 ↔
        Punctual w.queue.depth w.queue.responses.length r (now + timeout) (w.tables.submit cid free r owner) turns) := by
  obtain ⟨w₁, hw⟩ : ∃ w₁, submit w command owner post = (w₁, .ok r) := ⟨_, Prod.ext rfl hs⟩
  obtain ⟨htables, hdepth, hresponses, hopen, hdone, hboth⟩ := submit_tables hw hf
  rw [execute, hw]
  obtain ⟨t, hpolled, hiff⟩ := executeLoop_truthful_iff (now + timeout) turns hboth hopen hdone
  rw [htables, hdepth, hresponses] at hpolled hiff
  refine ⟨⟨t, hpolled⟩, fun t' hpolled' => ?_⟩
  rw [hpolled'.unique hpolled]
  exact hiff

/-- The SEND completion and the response of the first command, in one list. -/
def bothCompletions : List Handed := [⟨sendTag, 0, none⟩, ⟨recvTag, 16, none⟩]

/-- They finish the command. -/
theorem taken_bothCompletions :
    ∃ u, Taken 2 ⟨32, fun _ => 0⟩ ((World.initial 2 (fun _ => 0) (fun _ => 0)).tables.submit 0 [] 0 none)
      bothCompletions false u ∧ u.Complete 0 := by
  refine ⟨_, .accepted (.sent rfl (by decide) (show _ = some 0 by decide) (.waits (by decide)))
    (.accepted (.answered ⟨rfl, by decide, rfl, by decide, by decide, by decide, rfl⟩
      (show _ = some 0 by decide) (.done (by decide))) .nil), ?_⟩
  simp [Tables.Complete, Tables.repost]

/-- Both completions arrive in the first poll, one second after the start. -/
theorem execute_truthful_one_second :
    let w := World.initial 2 (fun _ => 0) (fun _ => 0)
    let turn : Turn := ⟨fun _ => 0, bothCompletions, 1⟩
    ∃ t, Truthful 0 t (execute w (List.replicate 64 7) none 30 0 none [turn]).1
      (execute w (List.replicate 64 7) none 30 0 none [turn]).2.1 := by
  intro w turn
  obtain ⟨u, htaken, hcomplete⟩ := taken_bothCompletions
  obtain ⟨⟨t, hpolled⟩, hiff⟩ := execute_truthful (show (submit w (List.replicate 64 7) none none).2 = .ok 0 by decide)
    rfl 30 0 [turn]
  exact ⟨t, (hiff t hpolled).mpr (.finishes htaken hcomplete (by decide))⟩

/-- Both completions arrive in the first poll, and the clock reaches the deadline during that poll: the request is done
and `execute` raises `TimeoutError`. -/
theorem execute_late :
    ¬ ∀ (w : World) (command : List UInt8) (owner : Option Nat) (timeout now : Int) (post : Option Exn)
      (turns : List Turn) (r : RequestId) (cid : Nat) (free : List Nat), (submit w command owner post).2 = .ok r →
      w.queue.free = cid :: free →
      ∀ t, Polled w.queue.depth w.queue.responses.length (w.tables.submit cid free r owner)
        (turns.take (execute w command owner timeout now post turns).2.2) t →
      Truthful r t (execute w command owner timeout now post turns).1
        (execute w command owner timeout now post turns).2.1 := by
  intro h
  obtain ⟨u, htaken, hcomplete⟩ := taken_bothCompletions
  have hpolls : (execute (World.initial 2 (fun _ => 0) (fun _ => 0)) (List.replicate 64 7) none 30 0 none
      [⟨fun _ => 0, bothCompletions, 30⟩]).2.2 = 1 := by decide
  have ht := (h (World.initial 2 (fun _ => 0) (fun _ => 0)) (List.replicate 64 7) none 30 0 none
    [⟨fun _ => 0, bothCompletions, 30⟩] 0 0 [] (by decide) rfl u (by rw [hpolls]; exact .cons htaken .nil)).timeout
    "NVMe command timed out" rfl
  exact ht.1 hcomplete

/-! ## Rejected completions -/

/-- After a poll that raises, and any later polls for which nothing new has arrived, every completion of its list has taken
effect exactly when there was nothing to do behind the one that was rejected. -/
theorem rejected_completion {w : World} {xs : List Handed} {e : Exn} (ho : w.queue.closed = false)
    (he : (pollHanded w xs).2 = .error e) :
    (∃ t, Effects w.queue.depth w.queue.responses w.tables xs t) ∧
    ∀ t, Effects w.queue.depth w.queue.responses w.tables xs t →
      ((∃ n, (pollAgain n (pollHanded w xs).1).tables = t) ↔
        NothingBehind w.queue.depth w.queue.responses w.tables xs) := by
  obtain ⟨raised, htaken, hraised, -⟩ := pollHanded_taken ho xs
  obtain rfl : raised = true := hraised.mpr ⟨e, he⟩
  refine ⟨exists_effects _ _ _ xs, fun t ht => ?_⟩
  simp only [pollAgain_tables, exists_const]
  exact htaken.same_iff ht

/-- A queue of depth 2 with its command pending. -/
def onePending : World := (submit (World.initial 2 (fun _ => 0) (fun _ => 0)) (List.replicate 64 7) none none).1

/-- The rejected completion is the last of its list. -/
theorem rejected_completion_last :
    let xs : List Handed := [⟨sendTag, 0, none⟩, ⟨recvTag, 0, none⟩]
    ∃ t n, Effects 2 onePending.queue.responses onePending.tables xs t ∧
      (pollAgain n (pollHanded onePending xs).1).tables = t := by
  intro xs
  have he : (pollHanded onePending xs).2 = .error (.runtimeError "invalid NVMe/RDMA response completion") := by
    decide
  obtain ⟨⟨t, ht⟩, hiff⟩ := rejected_completion rfl he
  have hnothing : NothingBehind onePending.queue.depth onePending.queue.responses onePending.tables xs :=
    .accepted (.sent rfl (by decide) (show _ = some 0 by decide) (.waits (by decide)))
      (.rejected (.invalid rfl (by decide) (by decide)) (by simp))
  obtain ⟨n, hn⟩ := (hiff t ht).mpr hnothing
  exact ⟨t, n, ht, hn⟩

/-- A short response stands before the SEND completion of a pending command, which is lost. -/
theorem rejected_completion_first :
    ¬ ∀ (w : World) (xs : List Handed) (e : Exn), w.queue.closed = false → (pollHanded w xs).2 = .error e →
      ∀ t, Effects w.queue.depth w.queue.responses w.tables xs t →
        ∃ n, (pollAgain n (pollHanded w xs).1).tables = t := by
  intro h
  have he : (pollHanded onePending [⟨recvTag, 0, none⟩, ⟨sendTag, 0, none⟩]).2 =
      .error (.runtimeError "invalid NVMe/RDMA response completion") := by decide
  have heffects : Effects onePending.queue.depth onePending.queue.responses onePending.tables
      [⟨recvTag, 0, none⟩, ⟨sendTag, 0, none⟩] { onePending.tables with
        requests := Function.update onePending.requests 0 { onePending.requests 0 with sendComplete := true } } :=
    .cons (.inr (.invalid rfl (by decide) (by decide)))
      (.cons (.inl (.sent rfl (by decide) (show _ = some 0 by decide) (.waits (by decide)))) .nil)
  obtain ⟨n, hn⟩ := h onePending _ _ rfl he _ heffects
  rw [pollAgain_tables] at hn
  have hreq := congrArg (fun t => (t.requests 0).sendComplete) hn
  revert hreq
  decide

end Rdma4py.NvmeQueue
