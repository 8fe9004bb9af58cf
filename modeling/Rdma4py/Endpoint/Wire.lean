import Rdma4py.Lib.Struct
import Rdma4py.ProcessGroup.ControlData

/-!
# Endpoints on the wire

`QPInfo` and `EndpointInfo` in their fixed formats, and the dictionary in which `_reconfigure` sends a `QPInfo`.
-/

namespace Rdma4py

open Lib

namespace ProcessGroup.Control

/-! ## `QPInfo` -/

/-- A value of the type `bytes`. -/
def IsBytes (bytes : List Nat) : Prop := ∀ b ∈ bytes, b < 256

instance (bytes : List Nat) : Decidable (IsBytes bytes) := inferInstanceAs (Decidable (∀ b ∈ bytes, b < 256))

namespace QPInfo

/-- `!IIH16sBB`. -/
abbrev format : List Struct.Code := [.uint 4, .uint 4, .uint 2, .str 16, .uint 1, .uint 1]

def values (info : QPInfo) : Struct.Values format :=
  (info.qpNum, info.psn, info.lid, info.gid.map UInt8.ofNat, info.port, info.mtu, ())

def ofValues (v : Struct.Values format) : QPInfo where
  qpNum := v.1
  psn := v.2.1
  lid := v.2.2.1
  gid := v.2.2.2.1.map UInt8.toNat
  port := v.2.2.2.2.1
  mtu := v.2.2.2.2.2.1

/-- `QPInfo.to_bytes`. -/
def toBytes (info : QPInfo) : Option (List UInt8) := Struct.pack format info.values

/-- `QPInfo.from_bytes`. -/
def fromBytes (data : List UInt8) : Except PyExn QPInfo :=
  if data.length ≠ Struct.size format then .error .valueError else (ofValues (Struct.unpack format data)).postInit

/-- `_qp_info_dict`. -/
def toDict (info : QPInfo) : PyValue :=
  .dict [(pyStr "qp_num", .int info.qpNum), (pyStr "psn", .int info.psn), (pyStr "lid", .int info.lid),
    (pyStr "gid", .str (PyValue.hex info.gid)), (pyStr "port", .int info.port), (pyStr "mtu", .int info.mtu)]

end QPInfo

end ProcessGroup.Control

namespace Efa

/-! ## `EndpointInfo` -/

/-- `EndpointInfo`. -/
structure EndpointInfo where
  gid : List UInt8
  qpNum : Int
  qkey : Int
  deriving DecidableEq, Repr

namespace EndpointInfo

/-- `EndpointInfo.__post_init__`; its conversions change nothing here. -/
def postInit (info : EndpointInfo) : Except PyExn EndpointInfo :=
  if info.gid.length ≠ 16 then .error .valueError
  else if ¬ (0 ≤ info.qpNum ∧ info.qpNum ≤ 0xFFFFFF) then .error .valueError
  else if ¬ (0 ≤ info.qkey ∧ info.qkey ≤ 0xFFFFFFFF) then .error .valueError
  else .ok info

/-- `!16sII`. -/
abbrev format : List Struct.Code := [.str 16, .uint 4, .uint 4]

def values (info : EndpointInfo) : Struct.Values format := (info.gid, info.qpNum, info.qkey, ())

def ofValues (v : Struct.Values format) : EndpointInfo := ⟨v.1, v.2.1, v.2.2.1⟩

/-- `EndpointInfo.to_bytes`. -/
def toBytes (info : EndpointInfo) : Option (List UInt8) := Struct.pack format info.values

/-- `EndpointInfo.from_bytes`. -/
def fromBytes (data : List UInt8) : Except PyExn EndpointInfo :=
  if data.length ≠ Struct.size format then .error .valueError else (ofValues (Struct.unpack format data)).postInit

end EndpointInfo

end Efa

end Rdma4py
