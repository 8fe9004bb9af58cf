import Mathlib.Data.List.Sort
import Rdma4py.ProcessGroup.Tensor

/-!
# Membership

The handles of `_reconfigure` and the checks on them. What base64 and JSON say of a handle is a parameter; the checks on
the values are here.
-/

namespace Rdma4py.ProcessGroup

/-- The fields of an encoded handle. -/
structure Payload where
  stableRank : Int
  nonce : String
  host : String
  port : Int
  hca : String
  ibPort : Int
  gidIndex : Int
  gid : String
  maxBytes : Int
  qps : Int
  numSms : Int
  deriving DecidableEq, Repr

/-- `_Member`. -/
structure Member extends Payload where
  raw : String
  deriving DecidableEq, Repr

def handlePrefix : String := "ibverbs-allreduce-v1:"

/-- A hexadecimal digit. -/
def isHex (c : Char) : Bool := c.isDigit || ('a' ≤ c && c ≤ 'f') || ('A' ≤ c && c ≤ 'F')

/-- The whitespace that `bytes.fromhex` skips between two bytes. -/
def isBlank (c : Char) : Bool := c = ' ' || c = '\t' || c = '\n' || c = '\r' || c = '\x0b' || c = '\x0c'

/-- Whether `bytes.fromhex` accepts the characters. -/
def fromhex : List Char → Bool
  | [] => true
  | [c] => isBlank c
  | c :: d :: cs => if isBlank c then fromhex (d :: cs) else isHex c && isHex d && fromhex cs

/-- `_decode_handle`; `payload` is what base64 and JSON make of the rest of the string, if it has the required fields. -/
def decodeHandle (payload : String → Option Payload) (handle : String) : Except Exn Member :=
  if handle.startsWith handlePrefix = false then
    .error (.reconfigureError "invalid ibverbs all-reduce reconfigure handle")
  else
    match payload ((handle.drop handlePrefix.length).toString) with
    | none => .error (.reconfigureError "malformed ibverbs all-reduce handle")
    | some p =>
        if p.stableRank < 0 ∨ p.nonce = "" ∨ p.host = "" ∨ ¬ (0 < p.port ∧ p.port < 65536) ∨ p.ibPort ≤ 0 ∨
            p.gidIndex < 0 ∨ p.gid.length ≠ 32 ∨ p.maxBytes ≤ 0 ∨ p.qps ≤ 0 ∨ p.numSms ≤ 0 then
          .error (.reconfigureError "invalid values in ibverbs all-reduce handle")
        else if fromhex p.gid.toList = false then
          .error (.reconfigureError "invalid GID in ibverbs all-reduce handle")
        else .ok { p with raw := handle }

/-- The argument `handles`: its elements, or what raises while they are listed, and whether it is a list or a tuple. -/
structure Handles where
  ordered : Bool
  elements : Except Exn (List String)

/-- The order of `members.sort`. -/
def Member.Before (a b : Member) : Prop := a.stableRank < b.stableRank ∨ (a.stableRank = b.stableRank ∧ a.raw ≤ b.raw)

instance : DecidableRel Member.Before := fun _ _ => inferInstanceAs (Decidable (_ ∨ _))

/-- What is fixed when a group is created. -/
structure Config where
  payload : String → Option Payload
  handle : String
  qps : Nat
  numSms : Nat
  maxBytes : Nat
  timeout : Duration
  workPtr : Nat

/-- The check of one member against the group. -/
def checkMember (cfg : Config) (member : Member) : Except Exn Unit :=
  if member.qps ≠ cfg.qps ∨ member.numSms ≠ cfg.numSms then
    .error (.reconfigureError "all members must use identical qps and num_sms")
  else if member.maxBytes ≠ cfg.maxBytes then
    .error (.reconfigureError "all members must use identical staging-buffer capacities")
  else .ok ()

/-- The checks of `_reconfigure` on the handles; the members in the order of their ranks. -/
def checkHandles (cfg : Config) (handles : Handles) : Except Exn (List Member) := do
  let raw ← handles.elements
  if raw.isEmpty then throw (.reconfigureError "reconfigure requires at least one handle")
  if ¬ raw.Nodup then throw (.reconfigureError "reconfigure handles must be unique")
  let members ← raw.mapM (decodeHandle cfg.payload)
  let members := if handles.ordered then members else members.insertionSort Member.Before
  if members.countP (·.raw = cfg.handle) ≠ 1 then
    throw (.reconfigureError "local handle is not in the new communicator")
  if ¬ (members.map (·.stableRank)).Nodup then throw (.reconfigureError "stable ranks must be unique")
  members.forM (checkMember cfg)
  return members

end Rdma4py.ProcessGroup
