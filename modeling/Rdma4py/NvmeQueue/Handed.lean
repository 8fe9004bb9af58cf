import Rdma4py.NvmeQueue.Calls
import Rdma4py.NvmeQueue.Effects

/-!
# Polls of any completions

`poll` and `execute` where `cq.poll` may hand out completions of every kind, also failed or unknown ones, and where the
target may have written anything into the receive buffers. What they should do is said of the completions alone.
-/

namespace Rdma4py.NvmeQueue

open Rdma4py.Lib

/-- The completion as the loop of `poll` sees it. -/
def Handed.wc (x : Handed) : WC := ⟨x.wrId, x.byteLen, x.failure.map .external⟩

/-- `poll` when `cq.poll` hands out these completions. -/
def pollHanded (w : World) (xs : List Handed) : World × Except Exn (List RequestId) :=
  if w.queue.closed then (w, .ok [])
  else
    match handleAll (xs.map Handed.wc) w with
    | (w, some e) => (w, .error e)
    | (w, none) => ({ w with queue := { w.queue with completed := [] } }, .ok w.queue.completed)

/-- An entry of the link's CQ. -/
def Entry.handed (e : Entry) : Handed := ⟨e.wc.wrId, e.wc.byteLen, none⟩

/-- `poll` of a queue with its link is the case where the entries of the CQ are handed out. -/
theorem poll_eq (w : World) {maxEntries : Option Int} (count : Nat) (hc : w.queue.closed = false)
    (hm : maxEntries.any (· ≤ 0) = false) : poll w maxEntries count =
      pollHanded (w.reap (w.pollCount maxEntries count))
        ((w.link.cq.take (w.pollCount maxEntries count)).map Entry.handed) := by
  have hwc : Handed.wc ∘ Entry.handed = Entry.wc := by
    funext e
    cases e <;> rfl
  have hc' : (w.reap (w.pollCount maxEntries count)).queue.closed = false := hc
  rcases hall : handleAll ((w.link.cq.take (w.pollCount maxEntries count)).map Entry.wc)
      (w.reap (w.pollCount maxEntries count)) with ⟨w', _ | e⟩ <;>
    simp only [poll, pollHanded, hc, hm, hc', Bool.false_eq_true, if_false, List.map_map, hwc, hall]

/-! ## `execute` -/

/-- What an iteration of `execute` meets: the contents of the receive buffers, what `cq.poll` hands out, and what
`time.monotonic()` returns after the poll. -/
structure Turn where
  responses : Memory UInt8
  handed : List Handed
  now : Int

/-- The target has written into the receive buffers. -/
def World.arrive (w : World) (responses : Memory UInt8) : World :=
  { w with queue := { w.queue with responses := { w.queue.responses with mem := responses } } }

/-- An iteration of an `execute` in progress, or its end. -/
def executeTurn (w : World) (x : Execution) (turn : Turn) : World × Outcome :=
  if (w.requests x.request).done then ({ w with executing := none }, executeResult (w.requests x.request))
  else
    match pollHanded (w.arrive turn.responses) turn.handed with
    | (w, .error e) => ({ w with executing := none }, .raised e)
    | (w, .ok _) =>
        if x.deadline ≤ turn.now then ({ w with executing := none }, .raised (.timeoutError "NVMe command timed out"))
        else (w, .running)

/-- `while not request.done`, and the statements after it; the number is that of the polls. -/
def executeLoop (r : RequestId) (deadline : Int) : World → List Turn → World × Outcome × Nat
  | w, [] => (w, if (w.requests r).done then executeResult (w.requests r) else .running, 0)
  | w, t :: ts =>
      if (w.requests r).done then (w, executeResult (w.requests r), 0)
      else
        match executeTurn w ⟨r, deadline⟩ t with
        | (w, .running) =>
            let (w, outcome, polls) := executeLoop r deadline w ts
            (w, outcome, polls + 1)
        | (w, outcome) => (w, outcome, 1)

/-- `execute`. -/
def execute (w : World) (command : List UInt8) (dataOwner : Option Nat) (timeout now : Int) (post : Option Exn)
    (turns : List Turn) : World × Outcome × Nat :=
  match submit w command dataOwner post with
  | (w, .error e) => (w, .raised e, 0)
  | (w, .ok r) => executeLoop r (now + timeout) w turns

/-- The tables after some polls, each of which takes the completions that are handed out to it. -/
inductive Polled (depth length : Nat) : Tables → List Turn → Tables → Prop
  | nil {t : Tables} : Polled depth length t [] t
  | cons {t u v : Tables} {turn : Turn} {turns : List Turn} {raised : Bool}
      (head : Taken depth ⟨length, turn.responses⟩ t turn.handed raised u) (tail : Polled depth length u turns v) :
      Polled depth length t (turn :: turns) v

/-- The outcome is that of the request: a timeout only while it misses a completion and is not done, and the response once
the polls have taken both completions. The tables are those that the polls lead to. -/
structure Truthful (r : RequestId) (t : Tables) (w : World) (o : Outcome) : Prop where
  timeout : ∀ text, o = .raised (.timeoutError text) → ¬ t.Complete r ∧ (w.requests r).done = false
  response : ∀ c, (t.requests r).sendComplete = true → (t.requests r).response = some c →
    o = if c.succeeded then .executed c else .raised (.nvmeStatusError c)

/-- The poll that takes the last missing completion of the request rejects none, and the clock read after it is before the
deadline. -/
inductive Punctual (depth length : Nat) (r : RequestId) (deadline : Int) : Tables → List Turn → Prop
  | never {t : Tables} : Punctual depth length r deadline t []
  | raises {t u : Tables} {turn : Turn} {turns : List Turn}
      (poll : Taken depth ⟨length, turn.responses⟩ t turn.handed true u) (missing : ¬ u.Complete r) :
      Punctual depth length r deadline t (turn :: turns)
  | late {t u : Tables} {turn : Turn} {turns : List Turn}
      (poll : Taken depth ⟨length, turn.responses⟩ t turn.handed false u) (missing : ¬ u.Complete r)
      (late : deadline ≤ turn.now) : Punctual depth length r deadline t (turn :: turns)
  | finishes {t u : Tables} {turn : Turn} {turns : List Turn}
      (poll : Taken depth ⟨length, turn.responses⟩ t turn.handed false u) (complete : u.Complete r)
      (inTime : turn.now < deadline) : Punctual depth length r deadline t (turn :: turns)
  | goesOn {t u : Tables} {turn : Turn} {turns : List Turn}
      (poll : Taken depth ⟨length, turn.responses⟩ t turn.handed false u) (missing : ¬ u.Complete r)
      (inTime : turn.now < deadline) (rest : Punctual depth length r deadline u turns) :
      Punctual depth length r deadline t (turn :: turns)

/-! ## The calls of one queue -/

/-- A call, or an iteration of `execute`, and what `cq.poll` hands out to it. -/
inductive Traffic
  | submit (command : List UInt8) (dataOwner : Option Nat) (post : Option Exn)
  | poll (responses : Memory UInt8) (handed : List Handed)
  | execute (command : List UInt8) (dataOwner : Option Nat) (timeout now : Int) (post : Option Exn)
  | iterate (turn : Turn)

/-- `execute` loops until it ends. -/
def World.Carries (w : World) : Traffic → Prop
  | .iterate _ => w.executing.isSome
  | _ => w.executing.isNone

instance : DecidableRel World.Carries
  | w, .iterate _ => inferInstanceAs (Decidable (w.executing.isSome = true))
  | w, .submit .. | w, .poll .. | w, .execute .. => inferInstanceAs (Decidable (w.executing.isNone = true))

/-- The queue after it, and how it ended. -/
def World.carry (w : World) : Traffic → World × Outcome
  | .submit command dataOwner post =>
      match NvmeQueue.submit w command dataOwner post with
      | (w, .error e) => (w, .raised e)
      | (w, .ok r) => (w, .submitted r)
  | .poll responses handed =>
      match pollHanded (w.arrive responses) handed with
      | (w, .error e) => (w, .raised e)
      | (w, .ok rs) => (w, .polled rs)
  | .execute command dataOwner timeout now post => executeStart w command dataOwner timeout now post
  | .iterate turn =>
      match w.executing with
      | some x => executeTurn w x turn
      | none => (w, .running)

/-- Later polls for which nothing new has arrived. -/
def pollAgain : Nat → World → World
  | 0, w => w
  | n + 1, w => pollAgain n (pollHanded w []).1

end Rdma4py.NvmeQueue
