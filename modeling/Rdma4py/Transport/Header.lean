import Rdma4py.Lib.Fields

/-!
# The headers of the tensor transport

`_HEADER` is `struct.Struct("!8s16sIQQQ")`. What the senders put on a connection are headers and pieces of the tensor.
-/

namespace Rdma4py.Transport

open Lib

/-- The exceptions of the transport, with their texts. -/
inductive Exn
  | valueError (text : String)
  | runtimeError (text : String)
  | structError
  | connectionReset
  | external (text : String)
  deriving DecidableEq, Repr

/-- `_MAGIC`. -/
def magic : List UInt8 := [0x54, 0x45, 0x4E, 0x53, 0x4F, 0x52, 0x30, 0x31]

/-- `_DONE`. -/
def done : List UInt8 := [0x54, 0x45, 0x4E, 0x44, 0x30, 0x30, 0x30, 0x31]

/-- What `secrets.token_bytes(16)` returns. -/
@[ext]
structure TransferId where
  bytes : List UInt8
  length_eq : bytes.length = 16
  deriving DecidableEq

/-- Sixteen zero bytes. -/
def TransferId.zero : TransferId := ⟨List.replicate 16 0, List.length_replicate⟩

/-- The fields of a header. -/
structure Header where
  magic : List UInt8
  transferId : List UInt8
  flow : Nat
  total : Nat
  offset : Nat
  nbytes : Nat
  deriving DecidableEq, Repr

/-- `_HEADER.size`. -/
def headerSize : Nat := 52

/-- The numbers have room in their fields; `pack` raises `struct.error` otherwise. -/
def Header.Fits (h : Header) : Prop := h.flow < 2 ^ 32 ∧ h.total < 2 ^ 64 ∧ h.offset < 2 ^ 64 ∧ h.nbytes < 2 ^ 64

instance (h : Header) : Decidable h.Fits := inferInstanceAs (Decidable (_ ∧ _ ∧ _ ∧ _))

/-- `_HEADER.pack` of numbers that fit. -/
def Header.pack (h : Header) : List UInt8 :=
  h.magic ++ h.transferId ++ beBytes 4 h.flow ++ beBytes 8 h.total ++ beBytes 8 h.offset ++ beBytes 8 h.nbytes

/-- `_HEADER.unpack`. -/
def Header.unpack (bytes : List UInt8) : Header where
  magic := slice bytes 0 8
  transferId := slice bytes 8 16
  flow := beNat (slice bytes 24 4)
  total := beNat (slice bytes 28 8)
  offset := beNat (slice bytes 36 8)
  nbytes := beNat (slice bytes 44 8)

/-- The byte strings of the header have the lengths of the format. -/
structure Header.Formed (h : Header) : Prop where
  magic : h.magic.length = 8
  transferId : h.transferId.length = 16
  fits : h.Fits

theorem Header.length_pack {h : Header} (hf : h.Formed) : h.pack.length = headerSize := by
  simp [Header.pack, hf.magic, hf.transferId, headerSize]

/-- The slice that stands between a prefix and a suffix. -/
theorem slice_between {bytes : List UInt8} (front field back : List UInt8) (h : bytes = front ++ (field ++ back))
    {o w : Nat} (ho : front.length = o) (hw : field.length = w) : slice bytes o w = field := by
  subst ho hw
  simp [slice, h]

/-- Unpacking reads back what was packed. -/
theorem Header.unpack_pack {h : Header} (hf : h.Formed) : Header.unpack h.pack = h := by
  obtain ⟨magic, transferId, flow, total, offset, nbytes⟩ := h
  obtain ⟨hm, hid, hflow, htotal, hoffset, hnbytes⟩ := hf
  simp only at hm hid hflow htotal hoffset hnbytes
  have hpack : Header.pack ⟨magic, transferId, flow, total, offset, nbytes⟩ = magic ++ (transferId ++
      (beBytes 4 flow ++ (beBytes 8 total ++ (beBytes 8 offset ++ (beBytes 8 nbytes ++ []))))) := by
    simp [Header.pack]
  simp only [Header.unpack, Header.mk.injEq]
  refine ⟨?_, ?_, ?_, ?_, ?_, ?_⟩
  · exact slice_between [] magic _ hpack rfl hm
  · exact slice_between magic transferId _ hpack hm hid
  · rw [slice_between (magic ++ transferId) (beBytes 4 flow) (beBytes 8 total ++ beBytes 8 offset ++ beBytes 8 nbytes)
      (by simp [hpack]) (by simp [hm, hid]) (by simp)]
    exact beNat_beBytes_of_lt hflow
  · rw [slice_between (magic ++ transferId ++ beBytes 4 flow) (beBytes 8 total)
      (beBytes 8 offset ++ beBytes 8 nbytes) (by simp [hpack]) (by simp [hm, hid]) (by simp)]
    exact beNat_beBytes_of_lt htotal
  · rw [slice_between (magic ++ transferId ++ beBytes 4 flow ++ beBytes 8 total) (beBytes 8 offset)
      (beBytes 8 nbytes) (by simp [hpack]) (by simp [hm, hid]) (by simp)]
    exact beNat_beBytes_of_lt hoffset
  · rw [slice_between (magic ++ transferId ++ beBytes 4 flow ++ beBytes 8 total ++ beBytes 8 offset)
      (beBytes 8 nbytes) [] (by simp [hpack]) (by simp [hm, hid]) (by simp)]
    exact beNat_beBytes_of_lt hnbytes

end Rdma4py.Transport
