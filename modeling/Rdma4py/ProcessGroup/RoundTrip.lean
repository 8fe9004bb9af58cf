import Rdma4py.ProcessGroup.Lemmas.Framing

/-!
# Round trip of the frames

What is sent is received, however TCP cuts it, and nothing else is.
-/

namespace Rdma4py.ProcessGroup

open Lib

/-- **Framing.** If JSON text reads back as the object that it was written from: the objects that are sent are received in
order, from every cut of the stream, and nothing behind the last frame is consumed. A message of more than 16 MiB is
refused with nothing sent, and received no further than its size. A stream that ends within a frame raises. -/
theorem frames_round_trip {Value : Type*} (json : Json Value)
    (hjson : ∀ value, json.isDict value = true → json.loads (json.dumps value) = some value) :
    (∀ values : List Value, (∀ value ∈ values, json.isDict value = true ∧ (json.dumps value).length ≤ maxFrame) →
      ∃ sent, sendFrames json values [] = (.ok (), sent) ∧
        (∀ (s : Stream) (rest : List UInt8), s.bytes = sent ++ rest →
          ∃ s', recvFrames json values.length s = (.ok values, s') ∧ s'.bytes = rest) ∧
        ∀ s : Stream, s.bytes <+: sent → s.bytes ≠ sent →
          ∃ text s', recvFrames json values.length s = (.error (.reconfigureError text), s')) ∧
    (∀ value sent, maxFrame < (json.dumps value).length →
      ∃ text, sendFrame json value sent = (.error (.reconfigureError text), sent)) ∧
    (∀ (size : Nat) (s : Stream) (rest : List UInt8), maxFrame < size → size < 2 ^ 32 → s.bytes = beBytes 4 size ++ rest →
      ∃ text s', recvFrame json s = (.error (.reconfigureError text), s') ∧ s'.bytes = rest) ∧
    ∀ s : Stream, Truncated s.bytes → ∃ text s', recvFrame json s = (.error (.reconfigureError text), s') := by
  refine ⟨?_, ?_, ?_, ?_⟩
  · intro values hvalues
    have hsendable : ∀ value ∈ values, Sendable json value := by
      intro value hvalue
      obtain ⟨hdict, hlength⟩ := hvalues value hvalue
      exact ⟨hdict, hjson value hdict, hlength⟩
    refine ⟨frames json values, sendFrames_ok hsendable [], ?_, ?_⟩
    · intro s rest hbytes
      exact recvFrames_ok hsendable hbytes
    · intro s hfront hne
      obtain ⟨s', hs'⟩ := recvFrames_truncated hsendable hfront hne
      exact ⟨_, s', hs'⟩
  · intro value sent hlarge
    exact ⟨_, if_pos hlarge⟩
  · intro size s rest hlarge hsize hbytes
    obtain ⟨s', hs', hrest⟩ := recvFrame_tooLarge json hlarge hsize hbytes
    exact ⟨_, s', hs', hrest⟩
  · intro s htruncated
    obtain ⟨s', hs'⟩ := recvFrame_truncated json htruncated
    exact ⟨_, s', hs'⟩

/-! ## Two messages -/

/-- `{"a":1}` and `{}`. -/
def twoObjects : Json Bool where
  dumps value := if value then [0x7B, 0x22, 0x61, 0x22, 0x3A, 0x31, 0x7D] else [0x7B, 0x7D]
  loads text :=
    if text = [0x7B, 0x22, 0x61, 0x22, 0x3A, 0x31, 0x7D] then some true
    else if text = [0x7B, 0x7D] then some false
    else none
  isDict _ := true

/-- Both frames and one byte more, cut within the first size and within the first payload. -/
def cutStream : Stream :=
  [⟨[0, 0, 0], List.cons_ne_nil _ _⟩, ⟨[7, 0x7B, 0x22, 0x61], List.cons_ne_nil _ _⟩,
    ⟨[0x22, 0x3A, 0x31, 0x7D, 0, 0, 0, 2, 0x7B, 0x7D, 0xFF], List.cons_ne_nil _ _⟩]

theorem frames_round_trip_two :
    ∃ s', recvFrames twoObjects 2 cutStream = (.ok [true, false], s') ∧ s'.bytes = [0xFF] := by
  obtain ⟨hvalues, -⟩ := frames_round_trip twoObjects (by decide)
  obtain ⟨sent, hsent, hreceive, -⟩ := hvalues [true, false] (by decide)
  obtain rfl : _ = sent := congrArg Prod.snd hsent
  exact hreceive cutStream [0xFF] (by decide)

end Rdma4py.ProcessGroup
