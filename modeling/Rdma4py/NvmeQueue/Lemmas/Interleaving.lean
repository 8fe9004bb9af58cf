import Rdma4py.NvmeQueue.Interleaving
import Rdma4py.NvmeQueue.Lemmas.Runs

/-!
# The invariant between two pieces

What the thread holds keeps its tokens: a SEND that is about to be posted, and entries that were polled and are not handled
yet. The link moves the other tokens meanwhile.
-/

namespace Rdma4py.NvmeQueue

open Rdma4py.Lib

variable {w u : World} {s s' : Thread} {cid : Nat} {free : List Nat} {r : RequestId} {es : List Entry} {i : Nat}

/-- The invariant, for each place where the thread can be. A command that is not posted yet could still be rolled back. -/
inductive Thread.Safe : Thread → Prop
  | idle {w : World} (h : Settled w) : Safe ⟨w, .idle⟩
  | posting {u : World} {cid : Nat} {free : List Nat} {r : RequestId} {deadline : Option Int} (h : Settled u)
      (hf : u.queue.free = cid :: free) (hd : Drafted u cid r) : Safe ⟨u.reserve cid free r, .posting cid r deadline⟩
  | looping {w : World} {es : List Entry} (h : Sound (w.setCq (es ++ w.link.cq))) : Safe ⟨w, .looping es⟩
  | reposting {w : World} {slot n : Nat} {r : RequestId} {es : List Entry}
      (h : Sound (w.setCq (.response (recvWr slot) n r :: es ++ w.link.cq))) :
      Safe ⟨w, .reposting slot (w.completionIn slot) (.response (recvWr slot) n r) es⟩

/-- With what the thread holds, the queue is sound. -/
theorem Thread.Safe.sound (h : s.Safe) : Sound s.view := by
  cases h with
  | idle h =>
      rw [Thread.view]
      simpa [Control.sends, Control.entries] using h.sound
  | posting h hf hd => exact h.sound.post hf hd
  | looping h =>
      rw [Thread.view]
      simpa [Control.sends, Control.entries, World.setCq] using h
  | reposting h =>
      rw [Thread.view]
      simpa [Control.sends, Control.entries, World.setCq] using h

/-! ## The link -/

theorem Drafted.of_answers {answers : List Answer} (h : Drafted u cid r) (hreq : w.requests = u.requests)
    (hnext : w.nextRequest = u.nextRequest) (hmem : w.queue.commands = u.queue.commands)
    (hcap : w.record.capsule = u.record.capsule) (hans : w.record.answers = u.record.answers ++ answers)
    (hnew : ∀ a ∈ answers, a.request ≠ r) : Drafted w cid r := by
  refine ⟨by rw [hreq]; exact h.request, by rw [hnext]; exact h.lt, fun a ha => ?_, by rw [hmem, hcap]; exact h.slot,
    by rw [hcap]; exact h.stamped⟩
  rw [hans] at ha
  rcases List.mem_append.mp ha with ha | ha
  · exact h.unanswered a ha
  · exact hnew a ha

/-- The slot of the entry whose receive is about to be posted is not written to. -/
theorem Core.completionIn_kept {slot n n' : Nat} {l l' : List Entry} {w' : World}
    (h : Core (w.setCq (.response (recvWr slot) n r :: l))) (h' : Core (w'.setCq (.response (recvWr slot) n' r :: l')))
    (hsub : w.record.answers ⊆ w'.record.answers) : w'.completionIn slot = w.completionIn slot := by
  obtain ⟨-, a, ha, hr, hdata⟩ := h.unread (recvWr slot) n r List.mem_cons_self
  obtain ⟨-, a', ha', hr', hdata'⟩ := h'.unread (recvWr slot) n' r List.mem_cons_self
  have heq : a = a' := List.inj_on_of_nodup_map h'.answered (hsub ha) ha' (hr.trans hr'.symm)
  subst heq
  exact congrArg Completion.unpack (hdata'.trans hdata.symm)

theorem Thread.Safe.deliver (h : s.Safe) (hen : s.world.Enabled .deliver) : (s.step .deliver).Safe := by
  obtain ⟨x, undelivered, hu⟩ := List.exists_cons_of_ne_nil hen
  have hstep : s.step .deliver = { s with world := s.world.deliver x undelivered } := by
    simp only [Thread.step, World.step, hu]
    rfl
  rw [hstep]
  cases h with
  | idle h => exact .idle ⟨h.sound.deliver hu, h.completed⟩
  | @posting u _ _ _ deadline h hf hd =>
      have hu : u.link.undelivered = x :: undelivered := hu
      exact .posting (u := u.deliver x undelivered) ⟨h.sound.deliver hu, h.completed⟩ hf
        (hd.of_answers rfl rfl rfl rfl (List.append_nil _).symm (by simp))
  | looping h => exact .looping (h.deliver hu)
  | @reposting w _ _ _ _ h => exact .reposting (w := w.deliver x undelivered) (h.deliver hu)

theorem Thread.Safe.complete (h : s.Safe) (hen : s.world.Enabled (.complete i)) : (s.step (.complete i)).Safe := by
  have hi : s.world.link.uncompleted[i]? = some s.world.link.uncompleted[i] := List.getElem?_eq_getElem hen
  generalize s.world.link.uncompleted[i] = x at hi
  have hstep : s.step (.complete i) = { s with world := s.world.complete i x } := by
    simp only [Thread.step, World.step, hi]
    rfl
  rw [hstep]
  cases h with
  | idle h => exact .idle ⟨h.sound.complete hi, h.completed⟩
  | @posting u _ _ _ deadline h hf hd =>
      have hi : u.link.uncompleted[i]? = some x := hi
      exact .posting (u := u.complete i x) ⟨h.sound.complete hi, h.completed⟩ hf
        (hd.of_answers rfl rfl rfl rfl (List.append_nil _).symm (by simp))
  | looping h => exact .looping (by simpa [World.complete, World.setCq] using h.complete hi)
  | @reposting w slot n r es h =>
      exact .reposting (w := w.complete i x) (by simpa [World.complete, World.setCq] using h.complete hi)

theorem Thread.Safe.answer {data : List UInt8} (h : s.Safe) (hen : s.world.Enabled (.answer i data)) :
    (s.step (.answer i data)).Safe := by
  obtain ⟨hrecvs, hlen, hcommand⟩ := hen
  obtain ⟨wr, recvs, hr⟩ := List.exists_cons_of_ne_nil hrecvs
  obtain ⟨c, hi, hid⟩ := Option.map_eq_some_iff.mp hcommand
  have hstep : s.step (.answer i data) = { s with world := s.world.answer i c wr recvs data } := by
    simp only [Thread.step, World.step, hi, hr]
    rfl
  rw [hstep]
  cases h with
  | idle h => exact .idle ⟨h.sound.answer hi hr hlen hid, h.completed⟩
  | @posting u cid _ r deadline h hf hd =>
      have hi : u.link.capsules[i]? = some c := hi
      have hr : u.link.recvs = wr :: recvs := hr
      refine .posting (u := u.answer i c wr recvs data)
        ⟨h.sound.answer hi hr hlen hid, h.completed⟩ hf (hd.of_answers rfl rfl rfl rfl rfl fun a ha => ?_)
      -- the request is not open yet, so that the target has no capsule of it
      obtain rfl := List.mem_singleton.mp ha
      have hopen := h.sound.core.capsule_open (List.mem_of_getElem? hi)
      rintro rfl
      obtain ⟨owner, hreq⟩ := hd.request
      exact h.sound.core.open_ne_free hf hopen (by rw [hreq])
  | looping h =>
      have ha := h.answer hi hr hlen hid
      exact .looping (by simpa [World.answer, World.setCq] using ha)
  | @reposting w slot n r es h =>
      have ha : Sound ((w.answer i c wr recvs data).setCq
          (.response (recvWr slot) n r :: es ++ (w.answer i c wr recvs data).link.cq)) := by
        simpa [World.answer, World.setCq] using h.answer hi hr hlen hid
      have hkept := Core.completionIn_kept h.core ha.core (List.subset_append_left _ _)
      rw [← hkept]
      exact .reposting ha

/-! ## The pieces -/

theorem Thread.Safe.write {command : List UInt8} {owner : Option Nat} {deadline : Option Int} (h : Settled w) :
    (match submitWrite w command owner with
      | (w, .error _) => (⟨w, .idle⟩ : Thread)
      | (w, .ok (cid, r)) => ⟨w, .posting cid r deadline⟩).Safe := by
  by_cases hrefused : w.queue.free = [] ∨ command.length ≠ 64
  · obtain ⟨e, he⟩ := submitWrite_refused hrefused owner
    rw [he]
    exact .idle h
  · push Not at hrefused
    obtain ⟨hne, hlen⟩ := hrefused
    obtain ⟨cid, free, hf⟩ := List.exists_cons_of_ne_nil hne
    rw [submitWrite_eq h.sound.core hf hlen]
    exact .posting ⟨h.sound.draft owner hf (length_packCommandId hlen cid), h.completed⟩ hf
      (h.sound.core.drafted hf hlen owner)

theorem Thread.Safe.post {raised : Option Exn} (h : s.Safe) (hen : s.Enabled (.post raised)) :
    (s.step (.post raised)).Safe := by
  cases h with
  | @posting u cid free r deadline h hf hd =>
      simp only [Thread.step]
      cases raised with
      | some e =>
          rw [submitPost_some (h.sound.core.free_fresh hf).2 hf]
          exact .idle h
      | none =>
          have hpost : Settled (u.post cid free r) := ⟨h.sound.post hf hd, h.completed⟩
          cases deadline with
          | none => exact .idle (hpost.same rfl rfl rfl rfl rfl rfl rfl rfl rfl)
          | some d => exact .idle (hpost.same rfl rfl rfl rfl rfl rfl rfl rfl rfl)
  | _ => cases hen

theorem Thread.Safe.enter (h : Settled w) (maxEntries : Option Int) (count : Nat) : (w.enter maxEntries count).Safe := by
  rw [World.enter]
  split
  · exact .idle (h.same rfl rfl rfl rfl rfl rfl rfl rfl rfl)
  · refine .looping ?_
    have heq : (w.reap (w.pollCount maxEntries count)).setCq
        (w.link.cq.take (w.pollCount maxEntries count) ++ (w.reap (w.pollCount maxEntries count)).link.cq) = w := by
      rw [World.reap, World.setCq, List.take_append_drop]
    rw [heq]
    exact h.sound

theorem Thread.Safe.iterate {count : Nat} (h : s.Safe) (hen : s.Enabled (.iterate count)) :
    (s.step (.iterate count)).Safe := by
  cases h with
  | @idle w h =>
      obtain ⟨x, hx⟩ : ∃ x, w.executing = some x := Option.isSome_iff_exists.mp hen.2
      simp only [Thread.step, hx]
      split
      · exact .idle (h.same rfl rfl rfl rfl rfl rfl rfl rfl rfl)
      · exact .enter h none count
  | _ => cases hen.1

/-- No entry makes `poll` raise. -/
theorem Thread.Safe.entry (h : s.Safe) (hen : s.Enabled .entry) :
    (s.step .entry).Safe ∧ ∀ e es, s.control = .looping (e :: es) → ∀ x, (receive s.world e.wc).2 ≠ .raised x := by
  cases h with
  | @looping w es h =>
      cases es with
      | nil => cases hen
      | cons e es =>
          cases e with
          | send x =>
              obtain ⟨w', he, hsound, hprog⟩ := h.sent
              rw [← hprog.cq] at hsound
              refine ⟨?_, fun e' es' hc => ?_⟩
              · simp only [Thread.step, he]
                exact .looping hsound
              · cases hc
                simp [he]
          | response wr n r =>
              obtain ⟨slot, rfl, he⟩ := h.read
              refine ⟨?_, fun e' es' hc => ?_⟩
              · simp only [Thread.step, he]
                exact .reposting h
              · cases hc
                simp [he]
  | _ => cases hen

theorem Thread.Safe.repost (h : s.Safe) (hen : s.Enabled .repost) :
    (s.step .repost).Safe ∧
      ∀ slot c e es, s.control = .reposting slot c e es → (respond s.world slot c).2 = none := by
  cases h with
  | reposting h =>
      obtain ⟨w', he, hsound, hprog⟩ := h.responded
      rw [← hprog.cq] at hsound
      refine ⟨?_, fun slot c e es hc => ?_⟩
      · simp only [Thread.step, he]
        exact .looping hsound
      · cases hc
        rw [he]
  | _ => cases hen

theorem Thread.Safe.finish {now : Int} (h : s.Safe) (hen : s.Enabled (.finish now)) : (s.step (.finish now)).Safe := by
  cases h with
  | @looping w es h =>
      cases es with
      | cons e es => cases hen
      | nil =>
          have h : Sound w := h
          simp only [Thread.step, World.handOut]
          split
          · refine .idle (h.handedOut _ _ ?_)
            rw [List.flatten_append, List.flatten_singleton, List.append_assoc, List.append_assoc]
            exact List.perm_append_comm.append_left _
          · have hs := h.handedOut w.record.polled (w.record.discarded ++ w.queue.completed) (by rw [← List.append_assoc])
            exact .idle (hs.same rfl rfl rfl rfl rfl rfl rfl rfl rfl)
  | _ => cases hen

/-- One piece. -/
theorem Thread.Safe.step {p : Piece} (h : s.Safe) (hen : s.Enabled p) : (s.step p).Safe := by
  cases p with
  | submit command owner =>
      cases h with
      | idle h => exact .write h
      | _ => cases hen.1
  | execute command owner timeout now =>
      cases h with
      | idle h => exact .write h
      | _ => cases hen.1
  | post raised => exact h.post hen
  | poll maxEntries count =>
      cases h with
      | idle h => exact .enter h maxEntries count
      | _ => cases hen.1
  | iterate count => exact h.iterate hen
  | entry => exact (h.entry hen).1
  | repost => exact (h.repost hen).1
  | finish now => exact h.finish hen
  | deliver => exact h.deliver hen
  | complete i => exact h.complete hen
  | answer i data => exact h.answer hen

/-! ## Slots of pending commands -/

theorem Core.write_slot (h : Core w) (command : List UInt8) (owner : Option Nat) (ho : w.Open r) :
    (submitWrite w command owner).1.queue.commands.mem.read 64 ((w.requests r).commandId * 64) =
      w.queue.commands.mem.read 64 ((w.requests r).commandId * 64) := by
  by_cases hrefused : w.queue.free = [] ∨ command.length ≠ 64
  · obtain ⟨e, he⟩ := submitWrite_refused hrefused owner
    rw [he]
  · push Not at hrefused
    obtain ⟨cid, free, hf⟩ := List.exists_cons_of_ne_nil hrefused.1
    have hcap : (packCommandId command cid).length = 64 := length_packCommandId hrefused.2 cid
    have hne := h.open_ne_free hf ho
    rw [submitWrite_eq h hf hrefused.2]
    exact Memory.read_write_disjoint (by rw [hcap]; omega)

theorem Control.eq_idle {c : Control} (h : (c matches .idle)) : c = .idle := by
  cases c with
  | idle => rfl
  | _ => cases h

/-- Only the first part of `submit` writes to the capsules. -/
theorem Thread.Safe.commands_kept {p : Piece} (h : s.Safe) (hen : s.Enabled p) :
    (∃ command owner, s.control = .idle ∧
      (s.step p).world.queue.commands = (submitWrite s.world command owner).1.queue.commands) ∨
    (s.step p).world.queue.commands = s.world.queue.commands := by
  have henter : ∀ (w : World) (m : Option Int) count, (w.enter m count).world.queue.commands = w.queue.commands := by
    intro w m count
    rw [World.enter]
    split <;> rfl
  cases p with
  | submit command owner =>
      refine .inl ⟨command, owner, Control.eq_idle hen.1, ?_⟩
      simp only [Thread.step]
      split <;> simp [*]
  | execute command owner timeout now =>
      refine .inl ⟨command, owner, Control.eq_idle hen.1, ?_⟩
      simp only [Thread.step]
      split <;> simp [*]
  | post raised =>
      right
      cases h with
      | @posting u _ _ _ deadline h hf hd => cases raised <;> cases deadline <;> rfl
      | _ => cases hen
  | poll m count => exact .inr (henter s.world m count)
  | iterate count =>
      right
      simp only [Thread.step]
      split
      · split
        · rfl
        · exact henter s.world none count
      · rfl
  | entry =>
      right
      cases h with
      | @looping w es h =>
          cases es with
          | nil => cases hen
          | cons e es =>
              cases e with
              | send x =>
                  obtain ⟨w', he, -, hprog⟩ := h.sent
                  simp only [Thread.step, he]
                  exact hprog.commands
              | response wr n r =>
                  obtain ⟨slot, rfl, he⟩ := h.read
                  simp only [Thread.step, he]
      | _ => cases hen
  | repost =>
      right
      cases h with
      | reposting h =>
          obtain ⟨w', he, -, hprog⟩ := h.responded
          simp only [Thread.step, he]
          exact hprog.commands
      | _ => cases hen
  | finish now =>
      right
      cases h with
      | @looping w es h =>
          cases es with
          | cons e es => cases hen
          | nil =>
              simp only [Thread.step, World.handOut]
              split <;> rfl
      | _ => cases hen
  | deliver =>
      right
      simp only [Thread.step, World.step]
      split <;> rfl
  | complete i =>
      right
      simp only [Thread.step, World.step]
      split <;> rfl
  | answer i data =>
      right
      simp only [Thread.step, World.step]
      split <;> rfl

/-- No piece touches the slot of a pending command. -/
theorem Thread.Safe.slot_kept {p : Piece} (h : s.Safe) (hen : s.Enabled p) (ho : s.world.Open r) :
    (s.step p).world.queue.commands.mem.read 64 ((s.world.requests r).commandId * 64) =
      s.world.queue.commands.mem.read 64 ((s.world.requests r).commandId * 64) := by
  rcases h.commands_kept hen with ⟨command, owner, hidle, heq⟩ | heq
  · rw [heq]
    have hcore : Core s.world := by
      cases h with
      | idle h => exact h.sound.core
      | _ => cases hidle
    exact hcore.write_slot command owner ho
  · rw [heq]

/-! ## Runs -/

theorem Thread.Safe.run (hi : s.Initial) (hr : pieces.Reaches s s') : s'.Safe := by
  refine hr.invariant (I := Thread.Safe) (fun s p h hen => h.step hen) ?_
  obtain ⟨w, control⟩ := s
  obtain ⟨hw, rfl⟩ := hi
  exact .idle (.initial hw)

/-! ## Whole calls -/

theorem pieces_step {s s' : Thread} (p : Piece) (hen : s.Enabled p) (h : s.step p = s') : pieces.Reaches s s' := by
  subst h
  exact (Machine.Reaches.refl s).tail hen

/-- The loop of `poll`, in pieces. -/
theorem pieces_handleAll (h : Sound (w.setCq (es ++ w.link.cq))) :
    pieces.Reaches ⟨w, .looping es⟩ ⟨(handleAll (es.map Entry.wc) w).1, .looping []⟩ := by
  induction es generalizing w with
  | nil => exact .refl _
  | cons e es ih =>
      cases e with
      | send x =>
          obtain ⟨w', he, hsound, hprog⟩ := h.sent
          rw [← hprog.cq] at hsound
          have hentry : pieces.Reaches ⟨w, .looping (.send x :: es)⟩ ⟨w', .looping es⟩ :=
            pieces_step .entry rfl (by simp only [Thread.step, he])
          rw [List.map_cons, handleAll, handle, he]
          exact hentry.trans (ih hsound)
      | response wr n r =>
          obtain ⟨slot, rfl, he⟩ := h.read
          obtain ⟨w', he', hsound, hprog⟩ := h.responded
          rw [← hprog.cq] at hsound
          have hentry : pieces.Reaches ⟨w, .looping (.response (recvWr slot) n r :: es)⟩
              ⟨w, .reposting slot (w.completionIn slot) (.response (recvWr slot) n r) es⟩ :=
            pieces_step .entry rfl (by simp only [Thread.step, he])
          have hrepost : pieces.Reaches
              ⟨w, .reposting slot (w.completionIn slot) (.response (recvWr slot) n r) es⟩ ⟨w', .looping es⟩ :=
            pieces_step .repost rfl (by simp only [Thread.step, he'])
          rw [List.map_cons, handleAll, handle, he]
          simp only [he']
          exact (hentry.trans hrepost).trans (ih hsound)

/-- A `poll` that takes entries, in pieces. -/
theorem pieces_poll (h : Settled w) {maxEntries : Option Int} (count : Nat) (hm : maxEntries.any (· ≤ 0) = false)
    (now : Int) : ∃ w' : World, poll w maxEntries count =
        ({ w' with queue := { w'.queue with completed := [] } }, .ok w'.queue.completed) ∧
      w'.executing = w.executing ∧ pieces.Reaches (w.enter maxEntries count) ⟨w'.handOut now, .idle⟩ := by
  have hopened : ¬ w.queue.closed = true := by rw [h.sound.core.opened]; decide
  have hsound : Sound ((w.reap (w.pollCount maxEntries count)).setCq
      (w.link.cq.take (w.pollCount maxEntries count) ++ (w.reap (w.pollCount maxEntries count)).link.cq)) := by
    rw [World.reap, World.setCq, List.take_append_drop]
    exact h.sound
  obtain ⟨w', he, -, hprog⟩ := hsound.handledAll
  have hloop := pieces_handleAll hsound
  rw [he] at hloop
  refine ⟨w', ?_, hprog.executing, ?_⟩
  · rw [poll, if_neg hopened, if_neg (by rw [hm]; decide)]
    simp only [he]
  · rw [World.enter, if_neg (by rw [hm]; decide)]
    exact hloop.trans (pieces_step (.finish now) rfl rfl)

theorem handOut_none (h : w.executing = none) (now : Int) : w.handOut now =
    { w with
        queue := { w.queue with completed := [] }
        record := { w.record with polled := w.record.polled ++ [w.queue.completed] } } := by
  rw [World.handOut]
  split
  · rfl
  next x hx => simp [h] at hx

theorem handOut_some {x : Execution} (h : w.executing = some x) (now : Int) : w.handOut now =
    { w with
        queue := { w.queue with completed := [] }
        record := { w.record with discarded := w.record.discarded ++ w.queue.completed }
        executing := if x.deadline ≤ now then none else w.executing } := by
  rw [World.handOut]
  split
  next hx => simp [h] at hx
  next y hy =>
    obtain rfl := Option.some.inj (h.symm.trans hy)
    rw [h]

/-- A `submit`, in pieces. -/
theorem pieces_submit (w : World) (command : List UInt8) (owner : Option Nat) (post : Option Exn) (deadline : Option Int)
    {p : Piece} (hen : Thread.Enabled ⟨w, .idle⟩ p)
    (hp : Thread.step ⟨w, .idle⟩ p = match submitWrite w command owner with
      | (w, .error _) => ⟨w, .idle⟩
      | (w, .ok (cid, r)) => ⟨w, .posting cid r deadline⟩) :
    pieces.Reaches ⟨w, .idle⟩ (match submit w command owner post with
      | (w, .error _) => ⟨w, .idle⟩
      | (w, .ok r) => ⟨w.started r deadline, .idle⟩) := by
  have hfirst := pieces_step p hen rfl
  rw [hp] at hfirst
  rw [submit]
  generalize submitWrite w command owner = y at hfirst ⊢
  obtain ⟨w', e | ⟨cid, r⟩⟩ := y
  · exact hfirst
  · exact hfirst.trans (pieces_step (.post post) rfl rfl)

/-- An event of the machine of whole calls, in pieces. -/
theorem pieces_event {e : Event} (h : Settled w) (hen : w.Enabled e) :
    pieces.Reaches ⟨w, .idle⟩ ⟨(w.step e).1, .idle⟩ := by
  cases e with
  | submit command owner post =>
      have hs := pieces_submit w command owner post none (p := .submit command owner) ⟨rfl, hen⟩ rfl
      rw [World.step]
      generalize submit w command owner post = y at hs ⊢
      obtain ⟨w', e | r⟩ := y <;> exact hs
  | execute command owner timeout now post =>
      have hs := pieces_submit w command owner post (some (now + timeout)) (p := .execute command owner timeout now)
        ⟨rfl, hen⟩ rfl
      rw [World.step, executeStart]
      generalize submit w command owner post = y at hs ⊢
      obtain ⟨w', e | r⟩ := y <;> exact hs
  | poll maxEntries count =>
      have hexec : w.executing = none := Option.isNone_iff_eq_none.mp hen
      have hpoll : pieces.Reaches ⟨w, .idle⟩ (w.enter maxEntries count) :=
        pieces_step (.poll maxEntries count) ⟨rfl, hen⟩ rfl
      rw [World.step]
      cases hm : maxEntries.any (· ≤ 0) with
      | true =>
          have hopened : ¬ w.queue.closed = true := by rw [h.sound.core.opened]; decide
          have hself : { w with executing := none } = w := by rw [← hexec]
          rw [World.enter, if_pos hm, World.raise, hself] at hpoll
          rw [NvmeQueue.poll, if_neg hopened, if_pos hm]
          exact hpoll
      | false =>
          obtain ⟨w', he, hexec', hreach⟩ := pieces_poll h count hm 0
          rw [handOut_none (hexec'.trans hexec)] at hreach
          rw [he]
          exact hpoll.trans hreach
  | iterate count now =>
      obtain ⟨x, hx⟩ := Option.isSome_iff_exists.mp hen
      have hiterate := pieces_step (s := ⟨w, .idle⟩) (.iterate count) ⟨rfl, hen⟩ rfl
      simp only [Thread.step, hx] at hiterate
      simp only [World.step, hx, executeIteration]
      by_cases hd : (w.requests x.request).done = true
      · rw [if_pos hd] at hiterate ⊢
        exact hiterate
      · rw [if_neg hd] at hiterate ⊢
        obtain ⟨w', he, hexec, hreach⟩ := pieces_poll h count (show (none : Option Int).any (· ≤ 0) = false from rfl) now
        rw [he]
        rw [handOut_some (hexec.trans hx)] at hreach
        dsimp only
        split
        next hlate =>
          rw [if_pos hlate] at hreach
          exact hiterate.trans hreach
        next hearly =>
          rw [if_neg hearly] at hreach
          exact hiterate.trans hreach
  | deliver => exact pieces_step .deliver hen rfl
  | complete i => exact pieces_step (.complete i) hen rfl
  | answer i data => exact pieces_step (.answer i data) hen rfl

end Rdma4py.NvmeQueue
