import Rdma4py.Lib.Bytes
import Rdma4py.Lib.Stream
import Rdma4py.ProcessGroup.Tensor

/-!
# Frames of the reconfiguration

`_send_frame`, `_recv_exact` and `_recv_frame`: a message is JSON text behind its length in four bytes. The JSON module is
a parameter. `sendall` does not fail, and a connection ends with the bytes that it has delivered.
-/

namespace Rdma4py.ProcessGroup

open Lib

/-- `json` and the text codec on the values of a type: `dumps` with `encode`, and `decode` with `loads`, which may raise. -/
structure Json (Value : Type*) where
  dumps : Value → List UInt8
  loads : List UInt8 → Option Value
  isDict : Value → Bool

/-- `_MAX_FRAME`. -/
def maxFrame : Nat := 16 * 1024 * 1024

def tooLarge : Exn := .reconfigureError "reconfigure message is too large"

def peerClosed : Exn := .reconfigureError "peer closed the reconfigure connection"

/-- `_recv_exact`, with what it leaves of the stream. -/
def recvExact (count : Nat) (s : Stream) : Except Exn (List UInt8) × Stream :=
  if count = 0 then (.ok [], s)
  else if (s.recv count).1 = [] then (.error peerClosed, (s.recv count).2)
  else
    match recvExact (count - (s.recv count).1.length) (s.recv count).2 with
    | (.ok parts, rest) => (.ok ((s.recv count).1 ++ parts), rest)
    | (.error e, rest) => (.error e, rest)
termination_by count
decreasing_by
  have := List.length_pos_iff.mpr ‹¬ (s.recv count).1 = []›
  omega

variable {Value : Type*} (json : Json Value)

/-- `_send_frame`, with what was sent on the connection before and what has been sent afterwards. -/
def sendFrame (value : Value) (sent : List UInt8) : Except Exn Unit × List UInt8 :=
  let payload := json.dumps value
  if maxFrame < payload.length then (.error tooLarge, sent) else (.ok (), sent ++ (beBytes 4 payload.length ++ payload))

/-- `_recv_frame` once the size is known. -/
def recvPayload (size : Nat) (s : Stream) : Except Exn Value × Stream :=
  if maxFrame < size then (.error tooLarge, s)
  else
    match recvExact size s with
    | (.error e, rest) => (.error e, rest)
    | (.ok payload, rest) =>
        match json.loads payload with
        | none => (.error (.reconfigureError "peer sent malformed reconfigure data"), rest)
        | some value =>
            if json.isDict value then (.ok value, rest)
            else (.error (.reconfigureError "peer reconfigure data must be an object"), rest)

/-- `_recv_frame`. -/
def recvFrame (s : Stream) : Except Exn Value × Stream :=
  match recvExact 4 s with
  | (.error e, rest) => (.error e, rest)
  | (.ok header, rest) => recvPayload json (beNat header) rest

/-! ## Several frames -/

/-- One `_send_frame` after the other. -/
def sendFrames : List Value → List UInt8 → Except Exn Unit × List UInt8
  | [], sent => (.ok (), sent)
  | value :: values, sent =>
      match sendFrame json value sent with
      | (.ok (), sent) => sendFrames values sent
      | (.error e, sent) => (.error e, sent)

/-- One `_recv_frame` after the other. -/
def recvFrames : Nat → Stream → Except Exn (List Value) × Stream
  | 0, s => (.ok [], s)
  | n + 1, s =>
      match recvFrame json s with
      | (.error e, rest) => (.error e, rest)
      | (.ok value, rest) =>
          match recvFrames n rest with
          | (.ok values, rest) => (.ok (value :: values), rest)
          | (.error e, rest) => (.error e, rest)

end Rdma4py.ProcessGroup
