import Rdma4py.Lib.Fields
import Rdma4py.NvmeQueue.Protocol

/-!
# The builders of commands and connection data

The functions of the protocol module that write the wire records of the initiator. Their arguments are Python integers;
each check raises what the source raises.
-/

namespace Rdma4py.NvmeController

open Rdma4py.Lib
open NvmeQueue (Exn)

/-! ## `struct` -/

/-- `struct.error`. -/
def structError : Exn := .external "struct.error"

/-- `struct.pack` with a little-endian format of unsigned items: the width and the value of each. -/
def pack (items : List (Nat × Int)) : Except Exn (List UInt8) :=
  if ∀ x ∈ items, 0 ≤ x.2 ∧ x.2 < 256 ^ x.1 then .ok (packed (items.map fun x => (x.1, x.2.toNat)))
  else .error structError

/-- `struct.pack_into`. -/
def packInto (bytes : List UInt8) (offset : Nat) (items : List (Nat × Int)) : Except Exn (List UInt8) :=
  (pack items).map (patch bytes offset)

/-! ## Constants -/

/-- `MAX_QUEUE_DEPTH`. -/
def maxQueueDepth : Int := 256

/-- `MAX_KEYED_SGL_LENGTH`. -/
def maxKeyedSglLength : Int := (1 <<< 24) - 1

/-- `OPC_FLUSH`. -/
def opcFlush : Int := 0x00

/-- `OPC_WRITE`. -/
def opcWrite : Int := 0x01

/-- `OPC_READ`. -/
def opcRead : Int := 0x02

/-- `OPC_IDENTIFY`. -/
def opcIdentify : Int := 0x06

/-- `OPC_SET_FEATURES`. -/
def opcSetFeatures : Int := 0x09

/-- `OPC_FABRICS`. -/
def opcFabrics : Int := 0x7F

/-- `FCTYPE_PROPERTY_SET`. -/
def fctypePropertySet : UInt8 := 0x00

/-- `FCTYPE_CONNECT`. -/
def fctypeConnect : UInt8 := 0x01

/-- `FCTYPE_PROPERTY_GET`. -/
def fctypePropertyGet : UInt8 := 0x04

/-- `PSDT_SGL`. -/
def psdtSgl : UInt8 := (1 : UInt8) <<< 6

/-- `KEYED_DATA_BLOCK`. -/
def keyedDataBlock : UInt8 := 0x40

/-! ## Commands -/

/-- What a keyed SGL needs to know of a registered buffer. -/
structure Region where
  addr : Int
  length : Int
  rkey : Int
  deriving DecidableEq, Repr

/-- `_command`. -/
def command (opcode nsid : Int) : Except Exn (List UInt8) := do
  let command ← packInto (List.replicate 64 0) 0 [(1, opcode), (1, psdtSgl.toNat), (2, 0), (4, nsid)]
  return patch command 39 [keyedDataBlock]

/-- `set_keyed_sgl`. -/
def setKeyedSgl (command : List UInt8) (buffer : Region) (length : Option Int) (offset : Int) :
    Except Exn (List UInt8) :=
  let total := buffer.length
  if offset < 0 ∨ total < offset then
    .error (.valueError "data offset is outside the registered memory region")
  else
    let length := length.getD (total - offset)
    if length ≤ 0 ∨ total - offset < length then
      .error (.valueError "data range is outside the registered memory region")
    else if maxKeyedSglLength < length then
      .error (.valueError "one NVMe/RDMA keyed SGL cannot exceed 2**24 - 1 bytes")
    else
      let addr := buffer.addr + offset
      let rkey := buffer.rkey
      if addr < 0 ∨ (1 <<< 64) - 1 < addr then .error (.valueError "data address is outside the uint64 range")
      else if rkey < 0 ∨ (1 <<< 32) - 1 < rkey then .error (.valueError "rkey is outside the uint32 range")
      else
        let command := patch command 1 [command.getD 1 0 ||| psdtSgl]
        let command := patch command 24 (leBytes 8 addr.toNat)
        let command := patch command 32 (leBytes 3 length.toNat)
        let command := patch command 35 (leBytes 4 rkey.toNat)
        .ok (patch command 39 [keyedDataBlock])

/-- `fabrics_connect`. -/
def fabricsConnect (qid depth : Int) (dataBuffer : Region) (katoMs : Int) : Except Exn (List UInt8) := do
  if katoMs < 0 ∨ 0xFFFFFFFF < katoMs then throw (.valueError "kato_ms must fit in uint32")
  let command ← command opcFabrics 0
  let command := patch command 4 [fctypeConnect]
  let command ← setKeyedSgl command dataBuffer (some 1024) 0
  packInto command 40 [(2, 0), (2, qid), (2, depth - 1), (1, 0), (1, 0), (4, katoMs)]

/-- `property_get`. -/
def propertyGet (offset size : Int) : Except Exn (List UInt8) := do
  if size ≠ 4 ∧ size ≠ 8 then throw (.valueError "property size must be 4 or 8 bytes")
  let command ← command opcFabrics 0
  let command := patch command 4 [fctypePropertyGet]
  let command := patch command 40 [if size = 8 then 1 else 0]
  packInto command 44 [(4, offset)]

/-- `property_set`. -/
def propertySet (offset value size : Int) : Except Exn (List UInt8) := do
  if size ≠ 4 ∧ size ≠ 8 then throw (.valueError "property size must be 4 or 8 bytes")
  let command ← command opcFabrics 0
  let command := patch command 4 [fctypePropertySet]
  let command := patch command 40 [if size = 8 then 1 else 0]
  packInto command 44 [(4, offset), (8, value)]

/-- `identify`. -/
def identify (dataBuffer : Region) (nsid : Int) (controller : Bool) : Except Exn (List UInt8) := do
  let command ← command opcIdentify nsid
  let command ← setKeyedSgl command dataBuffer (some 4096) 0
  return patch command 40 [if controller then 1 else 0]

/-- `set_features`. -/
def setFeatures (featureId value : Int) : Except Exn (List UInt8) := do
  let command ← command opcSetFeatures 0
  packInto command 40 [(4, featureId), (4, value)]

/-- `rw_command`. -/
def rwCommand (opcode nsid slba blocks : Int) (buffer : Region) (lbaSize bufferOffset : Int) :
    Except Exn (List UInt8) := do
  if opcode ≠ opcRead ∧ opcode ≠ opcWrite then throw (.valueError "opcode must be READ or WRITE")
  if slba < 0 ∨ (1 <<< 64) - 1 < slba then throw (.valueError "starting LBA is outside the uint64 range")
  if blocks ≤ 0 ∨ 65536 < blocks then throw (.valueError "one NVMe command must contain 1 to 65536 blocks")
  if lbaSize ≤ 0 then throw (.valueError "lba_size must be positive")
  let length := blocks * lbaSize
  let command ← command opcode nsid
  let command ← setKeyedSgl command buffer (some length) bufferOffset
  packInto command 40 [(8, slba), (2, blocks - 1)]

/-! ## Connection data -/

/-- `rdma_cm_request`. -/
def rdmaCmRequest (qid depth controllerId : Int) : Except Exn (List UInt8) := do
  if qid < 0 ∨ 0xFFFF < qid then throw (.valueError "qid must fit in uint16")
  if depth < 2 ∨ maxQueueDepth < depth then throw (.valueError "queue depth must be between 2 and 256")
  let cntlid := if qid ≠ 0 then controllerId else 0
  if cntlid < 0 ∨ 0xFFFF < cntlid then throw (.valueError "controller_id must fit in uint16")
  let record ← pack [(2, 0), (2, qid), (2, depth), (2, depth - 1), (2, cntlid)]
  return record ++ List.replicate 22 0

/-- `value.encode("utf-8")`. -/
def utf8 (value : String) : List UInt8 := value.toUTF8.data.toList

/-- The body of the loop of `connect_data`: check an NQN and store it. -/
def storeNqn (data : List UInt8) (offset : Nat) (value name : String) : Except Exn (List UInt8) :=
  let encoded := utf8 value
  if encoded.length < 11 ∨ 223 < encoded.length ∨ 0 ∈ encoded then
    .error (.valueError (name ++ " must contain 11 to 223 non-NUL UTF-8 bytes"))
  else .ok (patch data offset encoded)

/-- `connect_data`; `hostUuid` is what `UUID.bytes` holds. -/
def connectData (hostUuid : Vector UInt8 16) (subsystemNqn hostNqn : String) (controllerId : Int) :
    Except Exn (List UInt8) := do
  let data := patch (List.replicate 1024 0) 0 hostUuid.toList
  let data ← packInto data 16 [(2, controllerId)]
  let data ← storeNqn data 256 subsystemNqn "subsystem NQN"
  storeNqn data 512 hostNqn "host NQN"

end Rdma4py.NvmeController
