import Rdma4py.Bindings.Exn
import Rdma4py.Bindings.Words

/-!
# `CQEx.poll`

An extended CQ is read in sessions: `ibv_start_poll` and `ibv_next_poll` make an entry the current one, and `ibv_end_poll`
gives the entries back that were. What they return comes from the provider; the entries come in the order of the CQ.
-/

namespace Rdma4py.Bindings

/-- What the provider reports of an entry. There is no `sgid` for a sender with a local address handle. -/
structure Entry where
  wrId : UInt64
  status : Int
  opcode : Int
  vendorErr : UInt32
  byteLen : UInt32
  immData : UInt32
  qpNum : UInt32
  srcQp : UInt32
  wcFlags : UInt32
  sgid : Option (List UInt8)
  unsolicited : Bool

structure WC where
  wrId : UInt64
  status : Int
  opcode : Int
  vendorErr : UInt32
  byteLen : UInt32
  immData : UInt32
  qpNum : UInt32
  srcQp : UInt32
  wcFlags : UInt32
  sgid : Option (List UInt8)
  unsolicited : Bool

/-- A `CQEx` object, where `ecq` says that the CQ was created with EFA's own attributes. -/
structure CQEx where
  isOpen : Bool
  ecq : Bool
  sgid : Bool
  unsolicited : Bool

namespace CQEx

/-- The body of the loop: a `WC` of the current entry. -/
def read (cqx : CQEx) (e : Entry) : WC where
  wrId := e.wrId
  status := e.status
  opcode := e.opcode
  vendorErr := e.vendorErr
  byteLen := e.byteLen
  immData := ntohl e.immData
  qpNum := e.qpNum
  srcQp := e.srcQp
  wcFlags := e.wcFlags
  sgid := if cqx.ecq && cqx.sgid then e.sgid else none
  unsolicited := cqx.ecq && cqx.unsolicited && e.unsolicited

/-- The calls of the provider, with what they return. -/
inductive Call
  | start (rc : Int)
  | next (rc : Int)
  | endPoll

/-- One `poll`, and what the provider returns in it. -/
structure Poll where
  numEntries : Int
  start : Int
  next : Nat → Int
  errno : Int

/-- What the loop did: the entries that it read, and how many of the CQ have been the current one. -/
structure Session where
  out : List WC
  calls : List Call
  current : Nat
  raised : Option Exn

/-- The loop of `poll`, with the number of entries that may follow the current one, the number of calls of
`ibv_next_poll` so far, and the place of the current entry in the CQ. -/
def pollEntries (cqx : CQEx) (queue : Nat → Entry) (p : Poll) : Nat → Nat → Nat → Session
  | 0, _, k => ⟨[cqx.read (queue k)], [], k + 1, none⟩
  | left + 1, i, k =>
      if p.next i = ENOENT then ⟨[cqx.read (queue k)], [.next (p.next i)], k + 1, none⟩
      else if p.next i ≠ 0 then
        ⟨[cqx.read (queue k)], [.next (p.next i)], k + 1,
          some (.efaError "ibv_next_poll" (errorFromRc (p.next i) p.errno) none)⟩
      else
        let s := pollEntries cqx queue p left (i + 1) (k + 1)
        { s with out := cqx.read (queue k) :: s.out, calls := .next (p.next i) :: s.calls }

/-- What has happened to a CQ: the entries that have been the current one, the calls of the provider, and the results of
`poll` with their limits. -/
structure History where
  current : Nat
  calls : List Call
  results : List (Int × Except Exn (List WC))

namespace History

def empty : History := ⟨0, [], []⟩

/-- The completions that `poll` has returned. -/
def returned (h : History) : List WC := h.results.flatMap fun r => r.2.toOption.getD []

end History

/-- `poll`. The session ends whether the loop raises or not. -/
def poll (cqx : CQEx) (queue : Nat → Entry) (h : History) (p : Poll) : History :=
  if !cqx.isOpen then
    { h with results := h.results ++ [(p.numEntries, .error (.efaError "completion queue is closed" EBADF none))] }
  else if p.numEntries ≤ 0 then
    { h with results := h.results ++ [(p.numEntries, .error (.valueError "num_entries must be positive"))] }
  else if p.start = ENOENT then
    { h with calls := h.calls ++ [.start p.start], results := h.results ++ [(p.numEntries, .ok [])] }
  else if p.start ≠ 0 then
    { h with
      calls := h.calls ++ [.start p.start]
      results := h.results ++
        [(p.numEntries, .error (.efaError "ibv_start_poll" (errorFromRc p.start p.errno) none))] }
  else
    let s := pollEntries cqx queue p (p.numEntries - 1).toNat 0 h.current
    { current := s.current
      calls := h.calls ++ .start p.start :: s.calls ++ [.endPoll]
      results := h.results ++ [(p.numEntries, match s.raised with
        | none => .ok s.out
        | some e => .error e)] }

/-- A sequence of calls of `poll`. -/
def polls (cqx : CQEx) (queue : Nat → Entry) (ps : List Poll) : History := ps.foldl (poll cqx queue) .empty

end CQEx

end Rdma4py.Bindings
