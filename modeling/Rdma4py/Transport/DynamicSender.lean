import Rdma4py.Lib.Buckets
import Rdma4py.Lib.Machine
import Rdma4py.Transport.Sender

/-!
# The process sender

In process mode the workers of a `TensorSender` share a counter. Each takes the next task under its lock, sends the
stripe of the task with a header of its own, and ends with a terminator when the tasks are used up. A worker may fail at
any point, in the middle of what it sends too.
-/

namespace Rdma4py.Transport

open Lib

namespace Sending

variable (t : Sending)

/-- `stripe_count`. -/
def stripeCount : Nat := (t.source.length + t.stripeBytes - 1) / t.stripeBytes

/-- `task_count`. -/
def taskCount : Nat := t.stripeCount * t.iterations

/-- Where the stripe of a task starts. -/
def taskOffset (task : Nat) : Nat := task % t.stripeCount * t.stripeBytes

/-- Where the stripe of a task ends. -/
def taskStop (task : Nat) : Nat := min (t.taskOffset task + t.stripeBytes) t.source.length

/-- The header of a task. -/
def taskHeader (flow task : Nat) : Header :=
  ⟨magic, t.id.bytes, flow, t.source.length, t.taskOffset task, t.taskStop task - t.taskOffset task⟩

/-- The stripe of a task. -/
def taskPayload (task : Nat) : List UInt8 :=
  sendRange t.source t.chunkBytes (t.taskStop task) (t.taskStop task - t.taskOffset task) (t.taskOffset task)

/-- The header at the end of a flow. -/
def terminator (flow : Nat) : Header := ⟨done, t.id.bytes, flow, t.source.length, 0, 0⟩

end Sending

namespace Dynamic

/-- The counter is a `Value("Q")`: it has 64 bits. -/
def counterSize : Nat := 2 ^ 64

/-- Where a worker stands: before its next claim, with a task to send, with the terminator to send, or at its end. -/
inductive Phase
  | claiming
  | sending (task : Nat)
  | finishing
  | done
  | failed
  deriving DecidableEq, Repr

/-- A worker: where it stands, the tasks that it claimed and those that it sent, newest first, what it has put on its
connection, and `sent_bytes`. -/
structure SendWorker where
  phase : Phase
  claimed : List Nat
  sent : List Nat
  stream : List UInt8
  sentBytes : Nat
  deriving DecidableEq, Repr

/-- The counter and the workers. -/
structure SendState where
  nextTask : Nat
  workers : Nat → SendWorker

def SendState.initial : SendState := ⟨0, fun _ => ⟨.claiming, [], [], [], 0⟩⟩

/-- What the workers do. -/
inductive SendEvent
  | claim (flow : Nat)
  | send (flow : Nat)
  | finish (flow : Nat)
  | fail (flow count : Nat)
  deriving DecidableEq, Repr

variable (t : Sending)

/-- What the worker is about to send. -/
def pendingBytes (flow : Nat) : Phase → List UInt8
  | .sending task =>
      if (t.taskHeader flow task).Fits then (t.taskHeader flow task).pack ++ t.taskPayload task else []
  | .finishing => if (t.terminator flow).Fits then (t.terminator flow).pack else []
  | _ => []

/-- The worker has a task to send, and its header can be packed. -/
def CanSend (flow : Nat) : Phase → Prop
  | .sending task => (t.taskHeader flow task).Fits
  | _ => False

instance (flow : Nat) : (p : Phase) → Decidable (CanSend t flow p)
  | .sending task => inferInstanceAs (Decidable (t.taskHeader flow task).Fits)
  | .claiming => .isFalse id
  | .finishing => .isFalse id
  | .done => .isFalse id
  | .failed => .isFalse id

/-- What the workers can do. They can always fail before their end. -/
def SendEnabled (s : SendState) : SendEvent → Prop
  | .claim flow => flow < t.flows ∧ (s.workers flow).phase = .claiming
  | .send flow => flow < t.flows ∧ CanSend t flow (s.workers flow).phase
  | .finish flow => flow < t.flows ∧ (s.workers flow).phase = .finishing ∧ (t.terminator flow).Fits
  | .fail flow _ => flow < t.flows ∧ (s.workers flow).phase ≠ .done ∧ (s.workers flow).phase ≠ .failed

/-- The worker after it claimed what the counter gave it. -/
def claimTask (task : Nat) (w : SendWorker) : SendWorker :=
  if task < t.taskCount then { w with phase := .sending task, claimed := task :: w.claimed }
  else { w with phase := .finishing }

/-- The claim under the lock: the counter is read and incremented. -/
def claim (flow : Nat) (s : SendState) : SendState where
  nextTask := (s.nextTask + 1) % counterSize
  workers := Function.update s.workers flow (claimTask t s.nextTask (s.workers flow))

/-- One header with its stripe. -/
def sendTask (flow : Nat) (w : SendWorker) : SendWorker :=
  match w.phase with
  | .sending task =>
      { w with
        phase := .claiming
        sent := task :: w.sent
        stream := w.stream ++ pendingBytes t flow w.phase
        sentBytes := w.sentBytes + (t.taskStop task - t.taskOffset task) }
  | _ => w

/-- The terminator. -/
def finish (flow : Nat) (w : SendWorker) : SendWorker :=
  { w with phase := .done, stream := w.stream ++ pendingBytes t flow w.phase }

/-- The worker fails after some of the bytes that it is about to send. -/
def fail (flow count : Nat) (w : SendWorker) : SendWorker :=
  { w with phase := .failed, stream := w.stream ++ (pendingBytes t flow w.phase).take count }

def sendNext (s : SendState) : SendEvent → SendState
  | .claim flow => claim t flow s
  | .send flow => { s with workers := Function.update s.workers flow (sendTask t flow (s.workers flow)) }
  | .finish flow => { s with workers := Function.update s.workers flow (finish t flow (s.workers flow)) }
  | .fail flow count => { s with workers := Function.update s.workers flow (fail t flow count (s.workers flow)) }

def sendMachine : Machine SendState SendEvent := ⟨SendEnabled t, sendNext t⟩

instance (s : SendState) : (e : SendEvent) → Decidable ((sendMachine t).Enabled s e)
  | .claim _ => inferInstanceAs (Decidable (_ ∧ _))
  | .send _ => inferInstanceAs (Decidable (_ ∧ CanSend ..))
  | .finish _ => inferInstanceAs (Decidable (_ ∧ _ ∧ _))
  | .fail .. => inferInstanceAs (Decidable (_ ∧ _ ∧ _))

/-- How `_send_processes` ends, once every worker has: with the bytes sent, or with an exception. -/
def sendReturned (s : SendState) : Option (Except Exn Nat) :=
  if (List.range t.flows).all fun flow => (s.workers flow).phase = .done ∨ (s.workers flow).phase = .failed then
    if (List.range t.flows).any fun flow => (s.workers flow).phase = .failed then
      some (.error (.external "worker failures"))
    else if ((List.range t.flows).map fun flow => (s.workers flow).sentBytes).sum ≠
        t.source.length * t.iterations then
      some (.error (.runtimeError "dynamic tensor workers sent an incomplete transfer"))
    else some (.ok (t.source.length * t.iterations))
  else none

end Dynamic

end Rdma4py.Transport
