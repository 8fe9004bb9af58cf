import Rdma4py.Lib.Dict
import Rdma4py.Lib.Memory
import Rdma4py.NvmeQueue.Protocol

/-!
# The queue and the link to its target

`RDMAQueue` with the objects that it shares: the `Request`s that it hands out, its QP and its CQ. The link holds what was
posted on the QP and has not ended, the capsules at the target, and the entries of the CQ. The record notes what the
code never reads: whose capsule a message carries, what the target answered, which list a request was handed out in.
-/

namespace Rdma4py.NvmeQueue

open Rdma4py.Lib

/-- `_SEND_TAG`. -/
def sendTag : Nat := 1 <<< 63

/-- `_RECV_TAG`. -/
def recvTag : Nat := 1 <<< 62

/-- `_INDEX_MASK`. -/
def indexMask : Nat := (1 <<< 32) - 1

/-- The identity of a `Request` object. -/
abbrev RequestId := Nat

/-! ## Buffers -/

/-- `HostBuffer`: a registered allocation. -/
structure HostBuffer where
  length : Nat
  mem : Memory UInt8

/-- `HostBuffer.write`. -/
def HostBuffer.write (buffer : HostBuffer) (data : List UInt8) (offset : Nat) : Except Exn HostBuffer :=
  if buffer.length < offset + data.length then .error (.valueError "write exceeds the host buffer")
  else .ok { buffer with mem := buffer.mem.write data offset }

/-- `HostBuffer.read`. -/
def HostBuffer.read (buffer : HostBuffer) (length offset : Nat) : Except Exn (List UInt8) :=
  if buffer.length < offset + length then .error (.valueError "read exceeds the host buffer")
  else .ok (buffer.mem.read length offset)

/-! ## Requests and the queue -/

/-- `Request`. -/
structure Request where
  commandId : Nat
  dataOwner : Option Nat
  sendComplete : Bool := false
  response : Option Completion := none
  done : Bool := false

/-- `RDMAQueue`. -/
structure RDMAQueue where
  depth : Nat
  pending : Dict Nat RequestId
  completed : List RequestId
  free : List Nat
  closed : Bool
  commands : HostBuffer
  responses : HostBuffer

/-! ## The link -/

/-- A work request: its ID and the range of the registered buffer. -/
structure WR where
  wrId : Nat
  length : Nat
  offset : Nat
  deriving DecidableEq, Repr

/-- A posted SEND, and the request whose capsule it carries. -/
structure Send where
  wr : WR
  request : RequestId
  deriving DecidableEq, Repr

/-- A capsule that the target received. -/
structure Capsule where
  bytes : List UInt8
  request : RequestId

/-- A completion as `cq.poll` reports it; `status` is what `raise_for_status` raises. -/
structure WC where
  wrId : Nat
  byteLen : Nat
  status : Option Exn

/-- An entry of the CQ: a SEND was completed, or a response arrived in a posted receive. -/
inductive Entry
  | send (x : Send)
  | response (wr : WR) (byteLen : Nat) (request : RequestId)

/-- What `cq.poll` reports for an entry. -/
def Entry.wc : Entry → WC
  | .send x => ⟨x.wr.wrId, 0, none⟩
  | .response wr byteLen _ => ⟨wr.wrId, byteLen, none⟩

/-- The QP and the CQ: SENDs that were not delivered or not completed yet, capsules that were not answered yet, receives
in the order of posting, and entries that were not polled yet. -/
structure Link where
  undelivered : List Send := []
  uncompleted : List Send := []
  capsules : List Capsule := []
  recvs : List WR := []
  cq : List Entry := []

/-- What the target answered to a capsule. -/
structure Answer where
  request : RequestId
  capsule : List UInt8
  data : List UInt8

/-- The record: the capsule of each request, the answers, the requests in the order in which they entered `_completed`,
those that `submit` returned to its caller, the results of the caller's calls of `poll`, and what `execute` polled. -/
structure Record where
  capsule : RequestId → List UInt8 := fun _ => []
  answers : List Answer := []
  finished : List RequestId := []
  submitted : List RequestId := []
  polled : List (List RequestId) := []
  discarded : List RequestId := []

/-- A call of `execute` in progress: its request and its deadline. -/
structure Execution where
  request : RequestId
  deadline : Int

/-- A queue with its requests, its link and the `execute` in progress, if any. -/
structure World where
  queue : RDMAQueue
  requests : RequestId → Request
  nextRequest : RequestId
  link : Link
  record : Record
  executing : Option Execution

/-! ## `submit` -/

/-- The SEND of the capsule in a slot. -/
def sendWr (cid : Nat) : WR := ⟨sendTag ||| cid, 64, cid * 64⟩

/-- `_recv_wr`. -/
def recvWr (slot : Nat) : WR := ⟨recvTag ||| slot, 16, slot * 16⟩

/-- `submit` up to `post_send`: a free command ID is taken, the capsule lies in its slot, and the request is pending. The
record keeps the capsule that the caller's command became. -/
def submitWrite (w : World) (command : List UInt8) (dataOwner : Option Nat) : World × Except Exn (Nat × RequestId) :=
  if w.queue.closed then (w, .error (.runtimeError "NVMe/RDMA queue is closed"))
  else if command.length ≠ 64 then (w, .error (.valueError "an NVMe command capsule must be exactly 64 bytes"))
  else
    match w.queue.free with
    | [] => (w, .error (.queueFullError "NVMe submission queue is full"))
    | cid :: free =>
        let capsule := packCommandId command cid
        match w.queue.commands.write capsule (cid * 64) with
        | .error e => ({ w with queue := { w.queue with free := free } }, .error e)
        | .ok commands =>
            let r := w.nextRequest
            ({ w with
                queue := { w.queue with
                  commands := commands, pending := w.queue.pending.insert cid r, free := free }
                requests := Function.update w.requests r { commandId := cid, dataOwner := dataOwner }
                nextRequest := r + 1
                record := { w.record with capsule := Function.update w.record.capsule r capsule } }, .ok (cid, r))

/-- `post_send`, and what `submit` does when it raises. -/
def submitPost (w : World) (cid : Nat) (r : RequestId) (post : Option Exn) : World × Except Exn RequestId :=
  match post with
  | some e =>
      ({ w with queue := { w.queue with
          pending := w.queue.pending.erase cid
          free := cid :: w.queue.free } }, .error e)
  | none =>
      ({ w with link := { w.link with
          undelivered := w.link.undelivered ++ [⟨sendWr cid, r⟩]
          uncompleted := w.link.uncompleted ++ [⟨sendWr cid, r⟩] } }, .ok r)

/-- `submit`; `post` is what `post_send` raises. -/
def submit (w : World) (command : List UInt8) (dataOwner : Option Nat) (post : Option Exn) :
    World × Except Exn RequestId :=
  match submitWrite w command dataOwner with
  | (w, .error e) => (w, .error e)
  | (w, .ok (cid, r)) => submitPost w cid r post

/-! ## `poll` -/

/-- `_finish_if_ready`. The request is pending under its own command ID, so that `del` finds the key. -/
def finishIfReady (w : World) (r : RequestId) : World :=
  let request := w.requests r
  if request.sendComplete ∧ request.response.isSome then
    { w with
        requests := Function.update w.requests r { request with done := true }
        queue := { w.queue with
          pending := w.queue.pending.erase request.commandId
          free := w.queue.free ++ [request.commandId]
          completed := w.queue.completed ++ [r] }
        record := { w.record with finished := w.record.finished ++ [r] } }
  else w

/-- Replace a request. -/
def World.setRequest (w : World) (r : RequestId) (request : Request) : World :=
  { w with requests := Function.update w.requests r request }

/-- `post_recv(self._recv_wr(slot))`. -/
def World.repost (w : World) (slot : Nat) : World :=
  { w with link := { w.link with recvs := w.link.recvs ++ [recvWr slot] } }

/-- How far the body of the loop of `poll` gets before `post_recv`. -/
inductive Received
  | raised (e : Exn)
  /-- A SEND completion was handled. -/
  | handled
  /-- A response was read from the slot of its receive. -/
  | response (slot : Nat) (completion : Completion)

/-- The body of the loop of `poll` up to `post_recv`. -/
def receive (w : World) (wc : WC) : World × Received :=
  match wc.status with
  | some e => (w, .raised e)
  | none =>
      if wc.wrId &&& sendTag ≠ 0 then
        match w.queue.pending.lookup (wc.wrId &&& indexMask) with
        | none => (w, .raised (.runtimeError "send completion has an unknown command ID"))
        | some r => (finishIfReady (w.setRequest r { w.requests r with sendComplete := true }) r, .handled)
      else if wc.wrId &&& recvTag ≠ 0 then
        let slot := wc.wrId &&& indexMask
        if wc.byteLen < 16 ∨ w.queue.depth ≤ slot then
          (w, .raised (.runtimeError "invalid NVMe/RDMA response completion"))
        else
          match (w.queue.responses.read 16 (slot * 16)).bind Completion.fromBytes with
          | .error e => (w, .raised e)
          | .ok completion => (w, .response slot completion)
      else (w, .raised (.runtimeError "unexpected work completion on NVMe/RDMA CQ"))

/-- The body of the loop of `poll` from `post_recv` on. -/
def respond (w : World) (slot : Nat) (completion : Completion) : World × Option Exn :=
  let w := w.repost slot
  match w.queue.pending.lookup completion.commandId with
  | none => (w, some (.runtimeError "response has an unknown command ID"))
  | some r => (finishIfReady (w.setRequest r { w.requests r with response := some completion }) r, none)

/-- The body of the loop of `poll`. -/
def handle (w : World) (wc : WC) : World × Option Exn :=
  match receive w wc with
  | (w, .raised e) => (w, some e)
  | (w, .handled) => (w, none)
  | (w, .response slot completion) => respond w slot completion

/-- `for wc in self.cq.poll(int(max_entries))`. -/
def handleAll : List WC → World → World × Option Exn
  | [], w => (w, none)
  | wc :: wcs, w =>
      match handle w wc with
      | (w, some e) => (w, some e)
      | (w, none) => handleAll wcs w

/-- How many entries `cq.poll` hands out: at most as many as were asked for. `count` is the provider's choice. -/
def World.pollCount (w : World) (maxEntries : Option Int) (count : Nat) : Nat :=
  min count (maxEntries.getD (2 * w.queue.depth + 1)).toNat

/-- Take entries from the CQ. -/
def World.reap (w : World) (n : Nat) : World := { w with link := { w.link with cq := w.link.cq.drop n } }

/-- `poll`. -/
def poll (w : World) (maxEntries : Option Int) (count : Nat) : World × Except Exn (List RequestId) :=
  if w.queue.closed then (w, .ok [])
  else if maxEntries.any (· ≤ 0) then (w, .error (.valueError "num_entries must be positive"))
  else
    let n := w.pollCount maxEntries count
    match handleAll ((w.link.cq.take n).map Entry.wc) (w.reap n) with
    | (w, some e) => (w, .error e)
    | (w, none) => ({ w with queue := { w.queue with completed := [] } }, .ok w.queue.completed)

/-! ## `execute` -/

/-- How a call, or a stretch of `execute`, ends. -/
inductive Outcome
  | submitted (r : RequestId)
  | polled (rs : List RequestId)
  | executed (response : Completion)
  | raised (e : Exn)
  /-- `execute` is still running, or the event was none of the caller's. -/
  | running

/-- `execute` after its loop. -/
def executeResult (request : Request) : Outcome :=
  match request.response with
  | none => .raised (.runtimeError "NVMe request completed without a response")
  | some response =>
      match response.raiseForStatus with
      | some e => .raised e
      | none => .executed response

/-- `execute` up to its loop: `now` is what `time.monotonic()` returns. -/
def executeStart (w : World) (command : List UInt8) (dataOwner : Option Nat) (timeout now : Int) (post : Option Exn) :
    World × Outcome :=
  match submit w command dataOwner post with
  | (w, .error e) => (w, .raised e)
  | (w, .ok r) => ({ w with executing := some ⟨r, now + timeout⟩ }, .running)

/-- `while not request.done`: one iteration, or the statements after the loop. -/
def executeIteration (w : World) (x : Execution) (count : Nat) (now : Int) : World × Outcome :=
  if (w.requests x.request).done then ({ w with executing := none }, executeResult (w.requests x.request))
  else
    match poll w none count with
    | (w, .error e) => ({ w with executing := none }, .raised e)
    | (w, .ok rs) =>
        let w := { w with record := { w.record with discarded := w.record.discarded ++ rs } }
        if x.deadline ≤ now then ({ w with executing := none }, .raised (.timeoutError "NVMe command timed out"))
        else (w, .running)

end Rdma4py.NvmeQueue
