import Rdma4py.Lib.OrChain
import Rdma4py.Lib.PyValue
import Rdma4py.ProcessGroup.Members

/-!
# Control data of the peers

`_decode_handle` and `_qp_info_from_dict` on everything that JSON text can decode to. The fields have the types that the
peer gave them; the checks are the comparisons of the source.
-/

namespace Rdma4py.ProcessGroup.Control

open Lib

/-- What leaves a decoder: its own exception, or one that it does not catch. -/
inductive Raised
  | reconfigureError (text : String)
  | uncaught (e : PyExn)
  deriving DecidableEq, Repr

/-! ## Handles -/

/-- `_Member`. Nothing checks the types of the fields of a data class. -/
structure Member where
  raw : PyStr
  stableRank : PyValue
  nonce : PyValue
  host : PyValue
  port : PyValue
  hca : PyValue
  ibPort : PyValue
  gidIndex : PyValue
  gid : PyValue
  maxBytes : PyValue
  qps : PyValue
  numSms : PyValue

/-- `required`. -/
def required : List String :=
  ["stable_rank", "nonce", "host", "port", "hca", "ib_port", "gid_index", "gid", "max_bytes", "qps", "num_sms"]

/-- `_Member(raw=handle, **value)`; without a value for some parameter there is none. -/
def memberOf (handle : PyStr) (value : List (PyStr × PyValue)) : Option Member := do
  return {
    raw := handle
    stableRank := ← PyValue.lookup value "stable_rank"
    nonce := ← PyValue.lookup value "nonce"
    host := ← PyValue.lookup value "host"
    port := ← PyValue.lookup value "port"
    hca := ← PyValue.lookup value "hca"
    ibPort := ← PyValue.lookup value "ib_port"
    gidIndex := ← PyValue.lookup value "gid_index"
    gid := ← PyValue.lookup value "gid"
    maxBytes := ← PyValue.lookup value "max_bytes"
    qps := ← PyValue.lookup value "qps"
    numSms := ← PyValue.lookup value "num_sms" }

namespace Member

/-- `not 0 < member.port < 65536`. -/
def portCheck (port : PyValue) : Except PyExn Bool :=
  match port.gt 0 with
  | .error e => .error e
  | .ok false => .ok true
  | .ok true => (port.lt 65536).map (!·)

/-- The operands of the `or` in `_decode_handle`. -/
def checks (member : Member) : List (Except PyExn Bool) :=
  [member.stableRank.lt 0,
   .ok (!member.nonce.truth),
   .ok (!member.host.truth),
   portCheck member.port,
   member.ibPort.le 0,
   member.gidIndex.lt 0,
   member.gid.len.map (decide <| · ≠ 32),
   member.maxBytes.le 0,
   member.qps.le 0,
   member.numSms.le 0]

/-- `_decode_handle` after its first `try` block. -/
def validate (member : Member) : Except Raised Member :=
  match orChain member.checks with
  | .error e => .error (.uncaught e)
  | .ok true => .error (.reconfigureError "invalid values in ibverbs all-reduce handle")
  | .ok false =>
      match member.gid.toBytes with
      | .ok _ => .ok member
      | .error .valueError => .error (.reconfigureError "invalid GID in ibverbs all-reduce handle")
      | .error e => .error (.uncaught e)

end Member

/-- `_decode_handle`; `decode` is what base64 and JSON make of the rest of the string, unless they raise. -/
def decodeHandle (decode : PyStr → Option PyValue) (handle : PyStr) : Except Raised Member :=
  if (pyStr handlePrefix).isPrefixOf handle = false then
    .error (.reconfigureError "invalid ibverbs all-reduce reconfigure handle")
  else
    match decode (handle.drop (pyStr handlePrefix).length) with
    | some (.dict value) =>
        if PyValue.hasKeys value required = false then
          .error (.reconfigureError "malformed ibverbs all-reduce handle")
        else
          match memberOf handle value with
          | none => .error (.reconfigureError "malformed ibverbs all-reduce handle")
          | some member => member.validate
    | _ => .error (.reconfigureError "malformed ibverbs all-reduce handle")

/-! ## QP information -/

/-- `QPInfo`. -/
structure QPInfo where
  qpNum : Int
  psn : Int
  lid : Int
  gid : List Nat
  port : Int
  mtu : Int
  deriving DecidableEq, Repr

/-- `QPInfo.__post_init__`; its conversions change nothing here. -/
def QPInfo.postInit (info : QPInfo) : Except PyExn QPInfo :=
  if info.gid.length ≠ 16 then .error .valueError
  else if ¬ (0 ≤ info.qpNum ∧ info.qpNum ≤ 0xFFFFFF) then .error .valueError
  else if ¬ (0 ≤ info.psn ∧ info.psn ≤ 0xFFFFFF) then .error .valueError
  else if ¬ (0 ≤ info.lid ∧ info.lid ≤ 0xFFFF) then .error .valueError
  else if ¬ (1 ≤ info.port ∧ info.port ≤ 0xFF) then .error .valueError
  else if ¬ (1 ≤ info.mtu ∧ info.mtu ≤ 5) then .error .valueError
  else .ok info

/-- `int(value[key])`. -/
def intItem (parse : PyStr → Option Int) (value : PyValue) (key : String) : Except PyExn Int := do
  (← value.getItem key).toInt parse

/-- `bytes.fromhex(value[key])`. -/
def bytesItem (value : PyValue) (key : String) : Except PyExn (List Nat) := do
  (← value.getItem key).toBytes

/-- The `try` block of `_qp_info_from_dict`. -/
def qpInfoTry (parse : PyStr → Option Int) (value : PyValue) : Except PyExn QPInfo := do
  let qpNum ← intItem parse value "qp_num"
  let psn ← intItem parse value "psn"
  let lid ← intItem parse value "lid"
  let gid ← bytesItem value "gid"
  let port ← intItem parse value "port"
  let mtu ← intItem parse value "mtu"
  QPInfo.postInit ⟨qpNum, psn, lid, gid, port, mtu⟩

/-- `_qp_info_from_dict`; `parse` is `int` on strings, which raises `ValueError` where it gives nothing. -/
def qpInfoFromDict (parse : PyStr → Option Int) (value : PyValue) : Except Raised QPInfo :=
  match qpInfoTry parse value with
  | .ok info => .ok info
  | .error .keyError | .error .typeError | .error .valueError =>
      .error (.reconfigureError "invalid QP information from peer")
  | .error .overflowError => .error (.uncaught .overflowError)

end Rdma4py.ProcessGroup.Control
