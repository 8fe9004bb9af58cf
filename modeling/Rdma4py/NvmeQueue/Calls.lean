import Rdma4py.Lib.Machine
import Rdma4py.NvmeQueue.Queue

/-!
# The machine of a queue, its link and its target

One user calls `submit`, `poll` and `execute`; in between, and while `execute` loops, SENDs are delivered in order and
completed in any order, and the target answers the capsules in any order. A response is written into the receive that
was posted first.
-/

namespace Rdma4py.NvmeQueue

open Rdma4py.Lib

/-- An event of the machine. -/
inductive Event
  | submit (command : List UInt8) (dataOwner : Option Nat) (post : Option Exn)
  | poll (maxEntries : Option Int) (count : Nat)
  | execute (command : List UInt8) (dataOwner : Option Nat) (timeout now : Int) (post : Option Exn)
  /-- The next iteration of the `execute` in progress. -/
  | iterate (count : Nat) (now : Int)
  /-- The oldest SEND reaches the target. -/
  | deliver
  /-- A SEND is completed. -/
  | complete (i : Nat)
  /-- The target answers a capsule. -/
  | answer (i : Nat) (data : List UInt8)

/-- What may happen next. The target answers with 16 bytes that carry the command ID of the capsule. -/
def World.Enabled (w : World) : Event → Prop
  | .submit .. | .poll .. | .execute .. => w.executing.isNone
  | .iterate .. => w.executing.isSome
  | .deliver => w.link.undelivered ≠ []
  | .complete i => i < w.link.uncompleted.length
  | .answer i data =>
      w.link.recvs ≠ [] ∧ data.length = 16 ∧
        (w.link.capsules[i]?).map (capsuleCommandId ∘ Capsule.bytes) = some (Completion.unpack data).commandId

instance : DecidableRel World.Enabled
  | w, .submit .. | w, .poll .. | w, .execute .. => inferInstanceAs (Decidable (w.executing.isNone = true))
  | w, .iterate .. => inferInstanceAs (Decidable (w.executing.isSome = true))
  | w, .deliver => inferInstanceAs (Decidable (w.link.undelivered ≠ []))
  | w, .complete i => inferInstanceAs (Decidable (i < w.link.uncompleted.length))
  | w, .answer i data => inferInstanceAs (Decidable (w.link.recvs ≠ [] ∧ data.length = 16 ∧
      (w.link.capsules[i]?).map (capsuleCommandId ∘ Capsule.bytes) = some (Completion.unpack data).commandId))

/-- The world after an event, and how the call ended. -/
def World.step (w : World) : Event → World × Outcome
  | .submit command dataOwner post =>
      match NvmeQueue.submit w command dataOwner post with
      | (w, .error e) => (w, .raised e)
      | (w, .ok r) => ({ w with record := { w.record with submitted := w.record.submitted ++ [r] } }, .submitted r)
  | .poll maxEntries count =>
      match NvmeQueue.poll w maxEntries count with
      | (w, .error e) => (w, .raised e)
      | (w, .ok rs) => ({ w with record := { w.record with polled := w.record.polled ++ [rs] } }, .polled rs)
  | .execute command dataOwner timeout now post => executeStart w command dataOwner timeout now post
  | .iterate count now =>
      match w.executing with
      | some x => executeIteration w x count now
      | none => (w, .running)
  | .deliver =>
      match w.link.undelivered with
      | x :: undelivered =>
          ({ w with link := { w.link with
              undelivered := undelivered
              capsules := w.link.capsules ++
                [⟨w.queue.commands.mem.read x.wr.length x.wr.offset, x.request⟩] } }, .running)
      | [] => (w, .running)
  | .complete i =>
      match w.link.uncompleted[i]? with
      | some x =>
          ({ w with link := { w.link with
              uncompleted := w.link.uncompleted.eraseIdx i
              cq := w.link.cq ++ [.send x] } }, .running)
      | none => (w, .running)
  | .answer i data =>
      match w.link.capsules[i]?, w.link.recvs with
      | some capsule, wr :: recvs =>
          ({ w with
              queue := { w.queue with responses := { w.queue.responses with
                mem := w.queue.responses.mem.write data wr.offset } }
              link := { w.link with
                capsules := w.link.capsules.eraseIdx i
                recvs := recvs
                cq := w.link.cq ++ [.response wr data.length capsule.request] }
              record := { w.record with
                answers := w.record.answers ++ [⟨capsule.request, capsule.bytes, data⟩] } }, .running)
      | _, _ => (w, .running)

/-- The queue and its surroundings as a machine. -/
def process : Machine World Event where
  Enabled := World.Enabled
  next w e := (w.step e).1

instance : DecidableRel process.Enabled := inferInstanceAs (DecidableRel World.Enabled)

/-- A queue as `__init__` leaves it; the contents of its buffers do not matter. -/
def World.initial (depth : Nat) (commands responses : Memory UInt8) : World where
  queue :=
    { depth := depth
      pending := ∅
      completed := []
      free := List.range (depth - 1)
      closed := false
      commands := ⟨64 * (depth - 1), commands⟩
      responses := ⟨16 * depth, responses⟩ }
  requests _ := { commandId := 0, dataOwner := none }
  nextRequest := 0
  link := { recvs := (List.range depth).map recvWr }
  record := {}
  executing := none

/-- The state of a new queue, of a depth that `rdma_cm_request` accepts. -/
def World.Initial (w : World) : Prop :=
  ∃ depth commands responses, 2 ≤ depth ∧ depth ≤ 256 ∧ w = .initial depth commands responses

end Rdma4py.NvmeQueue
