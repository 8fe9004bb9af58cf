import Rdma4py.NvmeQueue.Calls

/-!
# The calls in pieces

`submit`, `poll` and `execute`, cut where the link could interfere: before `post_send`, between the iterations of the loop
of `poll`, and there between the read of a response and the `post_recv` of its receive. The link and the target move
between any two pieces. Nothing closes the queue here.
-/

namespace Rdma4py.NvmeQueue

open Rdma4py.Lib

/-- Where the caller's thread is, with the local variables that it still needs. -/
inductive Control
  /-- Between two calls, or between two iterations of `execute`. -/
  | idle
  /-- In `submit`, before `post_send`; `execute` adds its deadline. -/
  | posting (cid : Nat) (r : RequestId) (deadline : Option Int)
  /-- In the loop of `poll`, with the entries that are left. -/
  | looping (entries : List Entry)
  /-- In the loop of `poll`, before `post_recv`; the response was read from the slot. -/
  | reposting (slot : Nat) (completion : Completion) (entry : Entry) (entries : List Entry)

/-- A queue with its surroundings, and the thread of its caller. -/
structure Thread where
  world : World
  control : Control

/-- A piece of a call, or an event of the link. -/
inductive Piece
  | submit (command : List UInt8) (dataOwner : Option Nat)
  | execute (command : List UInt8) (dataOwner : Option Nat) (timeout now : Int)
  /-- `post_send`, and the rest of `submit`. -/
  | post (raised : Option Exn)
  | poll (maxEntries : Option Int) (count : Nat)
  /-- The next iteration of the `execute` in progress. -/
  | iterate (count : Nat)
  /-- The next entry, up to `post_recv`. -/
  | entry
  /-- `post_recv`, and the rest of the iteration. -/
  | repost
  /-- `poll` returns; `execute` reads the clock. -/
  | finish (now : Int)
  | deliver
  | complete (i : Nat)
  | answer (i : Nat) (data : List UInt8)

/-- What may happen next. -/
def Thread.Enabled (s : Thread) : Piece → Prop
  | .submit .. | .execute .. | .poll .. => (s.control matches .idle) ∧ s.world.executing.isNone
  | .iterate _ => (s.control matches .idle) ∧ s.world.executing.isSome
  | .post _ => (s.control matches .posting ..)
  | .entry => (s.control matches .looping (_ :: _))
  | .repost => (s.control matches .reposting ..)
  | .finish _ => (s.control matches .looping [])
  | .deliver => s.world.Enabled .deliver
  | .complete i => s.world.Enabled (.complete i)
  | .answer i data => s.world.Enabled (.answer i data)

instance : DecidableRel Thread.Enabled := fun s p => by
  cases p <;> unfold Thread.Enabled <;> infer_instance

/-- `submit` returns its request, to its caller or to `execute`. -/
def World.started (w : World) (r : RequestId) : Option Int → World
  | none => { w with record := { w.record with submitted := w.record.submitted ++ [r] } }
  | some deadline => { w with executing := some ⟨r, deadline⟩ }

/-- `poll` raises, and an `execute` with it. -/
def World.raise (w : World) : Thread := ⟨{ w with executing := none }, .idle⟩

/-- `poll` up to its loop. -/
def World.enter (w : World) (maxEntries : Option Int) (count : Nat) : Thread :=
  if maxEntries.any (· ≤ 0) then w.raise
  else ⟨w.reap (w.pollCount maxEntries count), .looping (w.link.cq.take (w.pollCount maxEntries count))⟩

/-- `poll` returns and clears `_completed`. `execute` drops the result and compares the clock with its deadline. -/
def World.handOut (w : World) (now : Int) : World :=
  match w.executing with
  | none =>
      { w with
          queue := { w.queue with completed := [] }
          record := { w.record with polled := w.record.polled ++ [w.queue.completed] } }
  | some x =>
      { w with
          queue := { w.queue with completed := [] }
          record := { w.record with discarded := w.record.discarded ++ w.queue.completed }
          executing := if x.deadline ≤ now then none else some x }

/-- The queue and its thread after a piece. -/
def Thread.step (s : Thread) : Piece → Thread
  | .submit command dataOwner =>
      match submitWrite s.world command dataOwner with
      | (w, .error _) => ⟨w, .idle⟩
      | (w, .ok (cid, r)) => ⟨w, .posting cid r none⟩
  | .execute command dataOwner timeout now =>
      match submitWrite s.world command dataOwner with
      | (w, .error _) => ⟨w, .idle⟩
      | (w, .ok (cid, r)) => ⟨w, .posting cid r (some (now + timeout))⟩
  | .post raised =>
      match s.control with
      | .posting cid r deadline =>
          match submitPost s.world cid r raised with
          | (w, .error _) => ⟨w, .idle⟩
          | (w, .ok r) => ⟨w.started r deadline, .idle⟩
      | _ => s
  | .poll maxEntries count => s.world.enter maxEntries count
  | .iterate count =>
      match s.world.executing with
      | some x =>
          if (s.world.requests x.request).done then ⟨{ s.world with executing := none }, .idle⟩
          else s.world.enter none count
      | none => s
  | .entry =>
      match s.control with
      | .looping (e :: es) =>
          match receive s.world e.wc with
          | (w, .raised _) => w.raise
          | (w, .handled) => ⟨w, .looping es⟩
          | (w, .response slot completion) => ⟨w, .reposting slot completion e es⟩
      | _ => s
  | .repost =>
      match s.control with
      | .reposting slot completion _ es =>
          match respond s.world slot completion with
          | (w, some _) => w.raise
          | (w, none) => ⟨w, .looping es⟩
      | _ => s
  | .finish now =>
      match s.control with
      | .looping [] => ⟨s.world.handOut now, .idle⟩
      | _ => s
  | .deliver => { s with world := (s.world.step .deliver).1 }
  | .complete i => { s with world := (s.world.step (.complete i)).1 }
  | .answer i data => { s with world := (s.world.step (.answer i data)).1 }

/-- The pieces and the link as a machine. -/
def pieces : Machine Thread Piece where
  Enabled := Thread.Enabled
  next := Thread.step

instance : DecidableRel pieces.Enabled := inferInstanceAs (DecidableRel Thread.Enabled)

/-- A new queue that nobody has called. -/
def Thread.Initial (s : Thread) : Prop := s.world.Initial ∧ s.control = .idle

/-! ## What the thread holds -/

/-- The SEND that is about to be posted. -/
def Control.sends : Control → List Send
  | .posting cid r _ => [⟨sendWr cid, r⟩]
  | _ => []

/-- The entries that were polled and are not handled yet, with the one whose receive is about to be posted. -/
def Control.entries : Control → List Entry
  | .looping es => es
  | .reposting _ _ e es => e :: es
  | _ => []

/-- The world in which the thread had posted its SEND, and had polled nothing of what it still holds. -/
def Thread.view (s : Thread) : World :=
  { s.world with link := { s.world.link with
      undelivered := s.world.link.undelivered ++ s.control.sends
      uncompleted := s.world.link.uncompleted ++ s.control.sends
      cq := s.control.entries ++ s.world.link.cq } }

end Rdma4py.NvmeQueue
