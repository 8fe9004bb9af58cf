import Rdma4py.Lib.Bytes

/-!
# The wire formats that the queue reads and writes

The completion queue entry of 16 bytes, and the command ID in the capsule of 64 bytes.
-/

namespace Rdma4py.NvmeQueue

open Rdma4py.Lib

/-- `Completion`: a decoded completion queue entry. -/
structure Completion where
  result : Nat
  sqHead : Nat
  sqId : Nat
  commandId : Nat
  statusField : Nat
  deriving DecidableEq, Repr

namespace Completion

/-- `struct.unpack_from("<QHHHH", data)`. -/
def unpack (data : List UInt8) : Completion where
  result := leNat (data.take 8)
  sqHead := leNat ((data.drop 8).take 2)
  sqId := leNat ((data.drop 10).take 2)
  commandId := leNat ((data.drop 12).take 2)
  statusField := leNat ((data.drop 14).take 2)

/-- The bytes of an entry. -/
def pack (c : Completion) : List UInt8 :=
  leBytes 8 c.result ++ leBytes 2 c.sqHead ++ leBytes 2 c.sqId ++ leBytes 2 c.commandId ++ leBytes 2 c.statusField

/-- `status`. -/
def status (c : Completion) : Nat := c.statusField >>> 1

/-- `status_code`. -/
def statusCode (c : Completion) : Nat := c.status &&& 0xFF

/-- `status_type`. -/
def statusType (c : Completion) : Nat := (c.status >>> 8) &&& 0x7

/-- `do_not_retry`. -/
def doNotRetry (c : Completion) : Bool := c.status &&& (1 <<< 14) ≠ 0

/-- `succeeded`. -/
def succeeded (c : Completion) : Bool := c.status &&& 0x7FF = 0

theorem length_pack (c : Completion) : c.pack.length = 16 := by simp [pack]

/-- The fields fit their formats. -/
structure Fits (c : Completion) : Prop where
  result : c.result < 256 ^ 8
  sqHead : c.sqHead < 256 ^ 2
  sqId : c.sqId < 256 ^ 2
  commandId : c.commandId < 256 ^ 2
  statusField : c.statusField < 256 ^ 2

/-- Decoding an encoded entry gives it back. -/
theorem unpack_pack {c : Completion} (h : c.Fits) : unpack c.pack = c := by
  have h₈ : c.pack.drop 8 = leBytes 2 c.sqHead ++ (leBytes 2 c.sqId ++ (leBytes 2 c.commandId ++ leBytes 2 c.statusField)) := by
    simp only [pack, List.append_assoc]
    exact List.drop_left' (length_leBytes 8 _)
  have h₁₀ : c.pack.drop 10 = leBytes 2 c.sqId ++ (leBytes 2 c.commandId ++ leBytes 2 c.statusField) := by
    rw [← List.drop_drop (i := 2) (j := 8), h₈]
    exact List.drop_left' (length_leBytes 2 _)
  have h₁₂ : c.pack.drop 12 = leBytes 2 c.commandId ++ leBytes 2 c.statusField := by
    rw [← List.drop_drop (i := 2) (j := 10), h₁₀]
    exact List.drop_left' (length_leBytes 2 _)
  have h₁₄ : c.pack.drop 14 = leBytes 2 c.statusField := by
    rw [← List.drop_drop (i := 2) (j := 12), h₁₂]
    exact List.drop_left' (length_leBytes 2 _)
  have htake : c.pack.take 8 = leBytes 8 c.result := by
    simp only [pack, List.append_assoc]
    exact List.take_left' (length_leBytes 8 _)
  rw [unpack, htake, h₈, h₁₀, h₁₂, h₁₄, List.take_left' (length_leBytes 2 _), List.take_left' (length_leBytes 2 _),
    List.take_left' (length_leBytes 2 _), List.take_of_length_le (length_leBytes 2 _).le, leNat_leBytes_of_lt h.result,
    leNat_leBytes_of_lt h.sqHead, leNat_leBytes_of_lt h.sqId, leNat_leBytes_of_lt h.commandId,
    leNat_leBytes_of_lt h.statusField]

end Completion

/-- What a method of the queue raises. -/
inductive Exn
  | runtimeError (text : String)
  | valueError (text : String)
  | queueFullError (text : String)
  | timeoutError (text : String)
  | nvmeStatusError (completion : Completion)
  /-- An exception of the verbs layer, or of `struct`. -/
  | external (text : String)
  deriving DecidableEq, Repr

/-- `Completion.from_bytes`. -/
def Completion.fromBytes (data : List UInt8) : Except Exn Completion :=
  if data.length < 16 then .error (.valueError "an NVMe completion must be at least 16 bytes")
  else .ok (unpack data)

/-- `Completion.raise_for_status`. -/
def Completion.raiseForStatus (c : Completion) : Option Exn :=
  if c.succeeded then none else some (.nvmeStatusError c)

/-- Two hexadecimal digits of a byte, as `%02x` prints it. -/
def hexByte (n : Nat) : String := String.ofList (List.leftpad 2 '0' (Nat.toDigits 16 n))

/-- The text of an exception. -/
def Exn.text : Exn → String
  | .runtimeError text | .valueError text | .queueFullError text | .timeoutError text | .external text => text
  | .nvmeStatusError c =>
      "NVMe command " ++ toString c.commandId ++ " failed: SCT=" ++ toString c.statusType ++ " SC=0x" ++
        hexByte c.statusCode ++ (if c.doNotRetry then " DNR" else "")

/-! ## The command capsule -/

/-- The length of a command capsule. -/
def capsuleLength : Nat := 64

/-- `struct.pack_into("<H", capsule, 2, cid)`. -/
def packCommandId (capsule : List UInt8) (cid : Nat) : List UInt8 :=
  capsule.take 2 ++ leBytes 2 cid ++ capsule.drop 4

/-- The command ID that the target finds in a capsule. -/
def capsuleCommandId (capsule : List UInt8) : Nat := leNat ((capsule.drop 2).take 2)

theorem length_packCommandId {capsule : List UInt8} (h : capsule.length = capsuleLength) (cid : Nat) :
    (packCommandId capsule cid).length = capsuleLength := by
  simp only [packCommandId, List.length_append, List.length_take, List.length_drop, length_leBytes, capsuleLength] at h ⊢
  omega

/-- The target finds the ID that the queue packed. -/
theorem capsuleCommandId_pack {capsule : List UInt8} (h : capsule.length = capsuleLength) {cid : Nat} (hc : cid < 2 ^ 16) :
    capsuleCommandId (packCommandId capsule cid) = cid := by
  have htake : (capsule.take 2).length = 2 := by simp only [List.length_take, capsuleLength] at h ⊢; omega
  rw [capsuleCommandId, packCommandId, List.append_assoc, List.drop_left' htake,
    List.take_left' (length_leBytes 2 cid), leNat_leBytes_of_lt hc]

end Rdma4py.NvmeQueue
