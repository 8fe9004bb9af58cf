import Mathlib.Logic.Function.Basic
import Rdma4py.Endpoint.Wire
import Rdma4py.Lib.PySame
import Rdma4py.ProcessGroup.Framing
import Rdma4py.ProcessGroup.Group

/-!
# The members of a reconfiguration

All members run `_reconfigure` with the same list and the same number, and try again when an attempt fails. Connections
are reliable, and a listener yields them in the order in which they were established; a connection that nobody accepts
waits in the backlog, with whatever was sent on it. Strangers connect too, and send anything but a message of the
previous rank with the number. A single member returns before it creates lanes, so that there are two or more.

An attempt may fail at any moment before it is committed, and a receive may raise although the bytes are there.
-/

namespace Rdma4py.ProcessGroup.Rendezvous

open Lib Control

/-- What the members have in common. A rank is a position in the list of handles. -/
structure Setting where
  dumps : PyValue → List UInt8
  loads : List UInt8 → Option PyValue
  parse : PyStr → Option Int
  uuid : Int
  handles : List PyStr
  qps : Nat
  /-- The buffers of a rank. -/
  buffers : Nat → Buffers
  /-- `local_qp_info` of a lane of a rank. -/
  info : Nat → Nat → QPInfo

/-- The lanes of an attempt. -/
structure Lanes where
  outgoing : List Nat
  incoming : List Nat
  deriving DecidableEq, Repr

/-- The local variables of an attempt whose messages were read. Connections are numbered. -/
structure Joined where
  lanes : Lanes
  nextSocket : Nat
  prevSocket : Nat
  nextInfos : List QPInfo
  prevInfos : List QPInfo
  nextBuffers : Buffers
  deriving DecidableEq, Repr

/-- The calls of `connect_rc`: a lane, and the QP to which it is connected. -/
def Joined.connected (a : Joined) : List (Nat × QPInfo) :=
  a.lanes.outgoing.zip a.nextInfos ++ a.lanes.incoming.zip a.prevInfos

namespace Setting

variable (S : Setting)

def size : Nat := S.handles.length

def json : Json PyValue := ⟨S.dumps, S.loads, PyValue.isDict⟩

def handle (rank : Nat) : PyStr := S.handles.getD rank []

/-- `(rank + 1) % size`. -/
def next (rank : Nat) : Nat := (rank + 1) % S.size

/-- `(rank - 1) % size`. -/
def prev (rank : Nat) : Nat := (((rank : Int) - 1) % S.size).toNat

/-- `_create_lanes`. -/
def lanesFrom (created : Nat) : Lanes := ⟨(Group.createLanes S.qps created).1, (Group.createLanes S.qps created).2⟩

/-! ## Messages -/

/-- `_lane_infos`. -/
def laneInfos (rank : Nat) (lanes : List Nat) : PyValue := .list (lanes.map fun lane => (S.info rank lane).toDict)

/-- `_buffer_info`. -/
def bufferInfo (rank : Nat) : PyValue :=
  .dict [(pyStr "work_addr", .int (S.buffers rank).workAddr), (pyStr "work_rkey", .int (S.buffers rank).workRkey),
    (pyStr "scratch_addr", .int (S.buffers rank).scratchAddr), (pyStr "scratch_rkey", .int (S.buffers rank).scratchRkey)]

def request (rank : Nat) (lanes : Lanes) : PyValue :=
  .dict [(pyStr "uuid", .int S.uuid), (pyStr "handle", .str (S.handle rank)),
    (pyStr "outgoing", S.laneInfos rank lanes.outgoing), (pyStr "buffers", S.bufferInfo rank)]

def response (rank : Nat) (lanes : Lanes) : PyValue :=
  .dict [(pyStr "uuid", .int S.uuid), (pyStr "handle", .str (S.handle rank)),
    (pyStr "incoming", S.laneInfos rank lanes.incoming), (pyStr "buffers", S.bufferInfo rank)]

/-- The message has the number of the reconfiguration and the handle. -/
def matching (handle : PyStr) : PyValue → Bool
  | .dict items => (PyValue.get items "uuid").eqInt S.uuid && (PyValue.get items "handle").eqStr handle
  | _ => false

/-- An exception that nothing catches on the way. -/
def uncaught {α : Type} (x : Except PyExn α) : Except Raised α := x.mapError .uncaught

/-- `[_qp_info_from_dict(value) for value in message[key]]`. -/
def infosOf (message : PyValue) (key : String) : Except Raised (List QPInfo) := do
  let value ← uncaught (message.getItem key)
  let values ← uncaught value.iterate
  values.mapM (qpInfoFromDict S.parse)

/-- `next_buffers`. -/
def buffersOf (message : PyValue) : Except Raised Buffers := do
  let buffers ← uncaught (message.getItem "buffers")
  return {
    workAddr := ← uncaught (intItem S.parse buffers "work_addr")
    workRkey := ← uncaught (intItem S.parse buffers "work_rkey")
    scratchAddr := ← uncaught (intItem S.parse buffers "scratch_addr")
    scratchRkey := ← uncaught (intItem S.parse buffers "scratch_rkey") }

/-- What an attempt makes of the request of the previous rank and the response of the next one. -/
def join (rank : Nat) (lanes : Lanes) (nextSocket prevSocket : Nat) (request response : PyValue) :
    Except Raised Joined := do
  if S.matching (S.handle (S.next rank)) response = false then
    throw (.reconfigureError "next peer returned mismatched reconfigure data")
  let nextInfos ← S.infosOf response "incoming"
  let prevInfos ← S.infosOf request "outgoing"
  if nextInfos.length ≠ S.qps ∨ prevInfos.length ≠ S.qps then
    throw (.reconfigureError "peer returned the wrong number of QPs")
  let nextBuffers ← S.buffersOf response
  return ⟨lanes, nextSocket, prevSocket, nextInfos, prevInfos, nextBuffers⟩

end Setting

/-! ## The world -/

/-- A connection: the rank that dialed it, if it is a member in this reconfiguration, the rank that listens, and what was
sent in both directions. -/
structure Conn where
  dialer : Option Nat
  target : Nat
  up : List UInt8
  down : List UInt8
  deriving DecidableEq, Repr

/-- Where a member is. Before an attempt and after a failed one it is idle. -/
inductive Phase
  | idle
  | dialing (lanes : Lanes)
  | sending (lanes : Lanes) (next : Nat)
  | accepting (lanes : Lanes) (next : Nat)
  /-- `_recv_frame` in `_accept_member`. -/
  | reading (lanes : Lanes) (next socket : Nat)
  | responding (lanes : Lanes) (next prev : Nat) (request : PyValue)
  | waiting (lanes : Lanes) (next prev : Nat) (request : PyValue)
  | joining (attempt : Joined)
  /-- The number is used up. -/
  | done (attempt : Joined)

/-- The phase of every rank, the number of lanes that it created, the connections and their number, and the backlogs. -/
structure World where
  phase : Nat → Phase
  created : Nat → Nat
  conns : Nat → Conn
  count : Nat
  backlog : Nat → List Nat

/-- No attempt has started, and nothing is connected. -/
structure World.Initial (w : World) : Prop where
  phase : ∀ rank, w.phase rank = .idle
  count : w.count = 0
  backlog : ∀ rank, w.backlog rank = []

namespace World

def setPhase (w : World) (rank : Nat) (p : Phase) : World := { w with phase := Function.update w.phase rank p }

/-- A connection is established. -/
def connect (w : World) (conn : Conn) : World :=
  { w with
    conns := Function.update w.conns w.count conn
    count := w.count + 1
    backlog := Function.update w.backlog conn.target (w.backlog conn.target ++ [w.count]) }

/-- The listener yields its oldest connection. -/
def popBacklog (w : World) (rank : Nat) : World :=
  { w with backlog := Function.update w.backlog rank (w.backlog rank).tail }

def setUp (w : World) (c : Nat) (bytes : List UInt8) : World :=
  { w with conns := Function.update w.conns c { w.conns c with up := bytes } }

def setDown (w : World) (c : Nat) (bytes : List UInt8) : World :=
  { w with conns := Function.update w.conns c { w.conns c with down := bytes } }

end World

/-! ## The machine -/

/-- What happens. A stream is what a connection has delivered; a send that breaks has sent some bytes. -/
inductive Event
  | start (rank : Nat)
  | dial (rank : Nat)
  | sendRequest (rank : Nat) (broken : Option Nat)
  | accept (rank : Nat)
  | take (rank : Nat) (s : Stream)
  /-- A timeout or a broken connection in `_accept_member`. -/
  | skip (rank : Nat)
  | sendResponse (rank : Nat) (broken : Option Nat)
  | receive (rank : Nat) (s : Stream)
  | commit (rank : Nat)
  | fail (rank : Nat)
  /-- A reconfiguration with another number accepts a connection and closes it. -/
  | drop (rank : Nat)
  | stray (target : Nat) (up : List UInt8)

variable (S : Setting)

/-- Nothing that a connection can deliver of the bytes is a message of the previous rank in this reconfiguration. -/
def Harmless (target : Nat) (up : List UInt8) : Prop :=
  ∀ s : Stream, s.bytes <+: up → ∀ message, (recvFrame S.json s).1 = .ok message →
    S.matching (S.handle (S.prev target)) message = false

def Enabled (w : World) : Event → Prop
  | .start rank => 2 ≤ S.size ∧ rank < S.size ∧ w.phase rank = .idle
  | .dial rank => ∃ lanes, w.phase rank = .dialing lanes
  | .sendRequest rank _ => ∃ lanes c, w.phase rank = .sending lanes c
  | .accept rank => (∃ lanes c, w.phase rank = .accepting lanes c) ∧ w.backlog rank ≠ []
  | .take rank s => ∃ lanes c socket, w.phase rank = .reading lanes c socket ∧ s.bytes <+: (w.conns socket).up
  | .skip rank => ∃ lanes c socket, w.phase rank = .reading lanes c socket
  | .sendResponse rank _ => ∃ lanes c p request, w.phase rank = .responding lanes c p request
  | .receive rank s => ∃ lanes c p request, w.phase rank = .waiting lanes c p request ∧ s.bytes <+: (w.conns c).down
  | .commit rank => ∃ a, w.phase rank = .joining a
  | .fail rank => ∀ a, w.phase rank ≠ .done a
  | .drop rank => (w.phase rank = .idle ∨ ∃ a, w.phase rank = .done a) ∧ w.backlog rank ≠ []
  | .stray target up => Harmless S target up

/-- `_send_frame` on a connection that may break: the bytes that were sent, and whether it raises. -/
def send (message : PyValue) (broken : Option Nat) (sent : List UInt8) : List UInt8 × Bool :=
  match broken, sendFrame S.json message sent with
  | none, (.ok (), bytes) => (bytes, true)
  | none, (.error _, bytes) => (bytes, false)
  | some n, (_, bytes) => (bytes.take (sent.length + n), false)

def next (w : World) : Event → World
  | .start rank =>
      { w.setPhase rank (.dialing (S.lanesFrom (w.created rank))) with
        created := Function.update w.created rank (w.created rank + 2 * S.qps) }
  | .dial rank =>
      match w.phase rank with
      | .dialing lanes => (w.connect ⟨some rank, S.next rank, [], []⟩).setPhase rank (.sending lanes w.count)
      | _ => w
  | .sendRequest rank broken =>
      match w.phase rank with
      | .sending lanes c =>
          let (bytes, ok) := send S (S.request rank lanes) broken (w.conns c).up
          (w.setUp c bytes).setPhase rank (if ok then .accepting lanes c else .idle)
      | _ => w
  | .accept rank =>
      match w.phase rank, w.backlog rank with
      | .accepting lanes c, socket :: _ => (w.popBacklog rank).setPhase rank (.reading lanes c socket)
      | _, _ => w
  | .take rank s =>
      match w.phase rank with
      | .reading lanes c socket =>
          match (recvFrame S.json s).1 with
          | .ok message =>
              if S.matching (S.handle (S.prev rank)) message then w.setPhase rank (.responding lanes c socket message)
              else w.setPhase rank (.accepting lanes c)
          | .error _ => w.setPhase rank (.accepting lanes c)
      | _ => w
  | .skip rank =>
      match w.phase rank with
      | .reading lanes c _ => w.setPhase rank (.accepting lanes c)
      | _ => w
  | .sendResponse rank broken =>
      match w.phase rank with
      | .responding lanes c p request =>
          let (bytes, ok) := send S (S.response rank lanes) broken (w.conns p).down
          (w.setDown p bytes).setPhase rank (if ok then .waiting lanes c p request else .idle)
      | _ => w
  | .receive rank s =>
      match w.phase rank with
      | .waiting lanes c p request =>
          match (recvFrame S.json s).1 with
          | .error _ => w.setPhase rank .idle
          | .ok response =>
              match S.join rank lanes c p request response with
              | .error _ => w.setPhase rank .idle
              | .ok a => w.setPhase rank (.joining a)
      | _ => w
  | .commit rank =>
      match w.phase rank with
      | .joining a => w.setPhase rank (.done a)
      | _ => w
  | .fail rank => w.setPhase rank .idle
  | .drop rank => w.popBacklog rank
  | .stray target up => w.connect ⟨none, target, up, []⟩

/-- The members and their network. -/
def process : Machine World Event := ⟨Enabled S, next S⟩

end Rdma4py.ProcessGroup.Rendezvous
