import Rdma4py.NvmeQueue.Queue

/-!
# What completions mean

A work completion as the data that it consists of, and what it is worth to a queue: a SEND completion is that of the
pending command with its ID, a response is that of the pending command whose ID lies in its receive slot, and everything
else is rejected. Nothing here refers to the code of the queue.
-/

namespace Rdma4py.NvmeQueue

open Rdma4py.Lib

/-- A work completion of any kind; `failure` is the text of what `raise_for_status` raises. -/
structure Handed where
  wrId : Nat
  byteLen : Nat
  failure : Option String
  deriving DecidableEq, Repr

/-! ## Tables -/

/-- The requests, the pending commands, the free command IDs and the posted receives. -/
structure Tables where
  requests : RequestId → Request
  pending : Dict Nat RequestId
  free : List Nat
  recvs : List WR

/-- The tables of a queue. -/
def World.tables (w : World) : Tables := ⟨w.requests, w.queue.pending, w.queue.free, w.link.recvs⟩

namespace Tables

/-- The request has its send completion and its response. -/
def Complete (t : Tables) (r : RequestId) : Prop :=
  (t.requests r).sendComplete = true ∧ (t.requests r).response.isSome

/-- The receive of a slot is posted again. -/
def repost (t : Tables) (slot : Nat) : Tables := { t with recvs := t.recvs ++ [recvWr slot] }

/-- A new request is pending under the first free command ID. -/
def submit (t : Tables) (cid : Nat) (free : List Nat) (r : RequestId) (dataOwner : Option Nat) : Tables :=
  { t with
      requests := Function.update t.requests r { commandId := cid, dataOwner := dataOwner }
      pending := t.pending.insert cid r
      free := free }

/-- A request changes. With both completions it is done, it is not pending any more, and its command ID is free. -/
inductive Settles (t : Tables) (r : RequestId) (request : Request) : Tables → Prop
  | waits (missing : ¬ (request.sendComplete = true ∧ request.response.isSome)) :
      Settles t r request { t with requests := Function.update t.requests r request }
  | done (both : request.sendComplete = true ∧ request.response.isSome) :
      Settles t r request
        { t with
            requests := Function.update t.requests r { request with done := true }
            pending := t.pending.erase request.commandId
            free := t.free ++ [request.commandId] }

end Tables

/-! ## Completions -/

variable (depth : Nat) (responses : HostBuffer)

/-- A response of at least 16 bytes lies in a slot of the receive buffer. -/
structure Arrived (x : Handed) (slot : Nat) (c : Completion) : Prop where
  ok : x.failure = none
  tagged : x.wrId &&& sendTag = 0 ∧ x.wrId &&& recvTag ≠ 0
  index : x.wrId &&& indexMask = slot
  whole : 16 ≤ x.byteLen
  lt : slot < depth
  inside : slot * 16 + 16 ≤ responses.length
  data : Completion.unpack (responses.mem.read 16 (slot * 16)) = c

/-- A completion that counts, and the tables after it: the pending request of a SEND has its send completion, or the
receive of a response is posted again and its pending request has the response. -/
inductive Accepted (t : Tables) (x : Handed) : Tables → Prop
  | sent {r : RequestId} {u : Tables} (ok : x.failure = none) (tagged : x.wrId &&& sendTag ≠ 0)
      (pending : t.pending.lookup (x.wrId &&& indexMask) = some r)
      (settles : t.Settles r { t.requests r with sendComplete := true } u) : Accepted t x u
  | answered {slot : Nat} {c : Completion} {r : RequestId} {u : Tables} (arrived : Arrived depth responses x slot c)
      (pending : t.pending.lookup c.commandId = some r)
      (settles : (t.repost slot).Settles r { t.requests r with response := some c } u) : Accepted t x u

/-- A completion that is rejected, and the tables after it: the receive of a response to no pending command is posted
again, and otherwise nothing changes. -/
inductive Rejected (t : Tables) (x : Handed) : Tables → Prop
  | failed (failure : x.failure ≠ none) : Rejected t x t
  | unknownSend (ok : x.failure = none) (tagged : x.wrId &&& sendTag ≠ 0)
      (unknown : t.pending.lookup (x.wrId &&& indexMask) = none) : Rejected t x t
  | untagged (ok : x.failure = none) (tagged : x.wrId &&& sendTag = 0 ∧ x.wrId &&& recvTag = 0) : Rejected t x t
  | invalid (ok : x.failure = none) (tagged : x.wrId &&& sendTag = 0 ∧ x.wrId &&& recvTag ≠ 0)
      (invalid : x.byteLen < 16 ∨ depth ≤ x.wrId &&& indexMask ∨
        responses.length < (x.wrId &&& indexMask) * 16 + 16) : Rejected t x t
  | unknownResponse {slot : Nat} {c : Completion} (arrived : Arrived depth responses x slot c)
      (unknown : t.pending.lookup c.commandId = none) : Rejected t x (t.repost slot)

/-- What a completion does to the tables. -/
def Effect (t : Tables) (x : Handed) (u : Tables) : Prop :=
  Accepted depth responses t x u ∨ Rejected depth responses t x u

/-- Each completion of a list takes effect in turn. -/
inductive Effects : Tables → List Handed → Tables → Prop
  | nil {t : Tables} : Effects t [] t
  | cons {t u v : Tables} {x : Handed} {xs : List Handed} (head : Effect depth responses t x u) (tail : Effects u xs v) :
      Effects t (x :: xs) v

/-- The completions of a list take effect in turn up to the first that is rejected; whether one is, and the tables then. -/
inductive Taken : Tables → List Handed → Bool → Tables → Prop
  | nil {t : Tables} : Taken t [] false t
  | accepted {t u v : Tables} {x : Handed} {xs : List Handed} {raised : Bool} (head : Accepted depth responses t x u)
      (tail : Taken u xs raised v) : Taken t (x :: xs) raised v
  | rejected {t u : Tables} {x : Handed} {xs : List Handed} (head : Rejected depth responses t x u) :
      Taken t (x :: xs) true u

/-- Behind the first completion that is rejected there is none that would have an effect. -/
inductive NothingBehind : Tables → List Handed → Prop
  | accepted {t u : Tables} {x : Handed} {xs : List Handed} (head : Accepted depth responses t x u)
      (tail : NothingBehind u xs) : NothingBehind t (x :: xs)
  | rejected {t u : Tables} {x : Handed} {xs : List Handed} (head : Rejected depth responses t x u)
      (idle : ∀ y ∈ xs, Effect depth responses u y u) : NothingBehind t (x :: xs)

end Rdma4py.NvmeQueue
