import Mathlib.Data.List.Basic

/-!
# Byte streams

A stream comes in pieces, none of them empty. A call that receives gets the next piece, or its front if the piece is
larger than what was asked for. Behind the last piece the stream has ended, and a call gets nothing.
-/

namespace Rdma4py.Lib

/-- Bytes that arrive together. -/
structure Segment where
  bytes : List UInt8
  ne_nil : bytes ≠ []
  deriving DecidableEq, Repr

/-- What is still to be received. -/
abbrev Stream := List Segment

namespace Stream

/-- The bytes of the stream. -/
def bytes (s : Stream) : List UInt8 := s.flatMap Segment.bytes

@[simp] theorem bytes_nil : bytes [] = [] := rfl

@[simp] theorem bytes_cons (segment : Segment) (s : Stream) : bytes (segment :: s) = segment.bytes ++ bytes s := rfl

/-- `recv(count)`. -/
def recv (count : Nat) : Stream → List UInt8 × Stream
  | [] => ([], [])
  | segment :: s =>
      if h : count < segment.bytes.length then
        (segment.bytes.take count, ⟨segment.bytes.drop count, by simpa using h⟩ :: s)
      else (segment.bytes, s)

variable {s : Stream} {count : Nat}

/-- Nothing is lost and nothing is reordered. -/
theorem recv_append (count : Nat) (s : Stream) : (recv count s).1 ++ bytes (recv count s).2 = bytes s := by
  cases s with
  | nil => rfl
  | cons segment s =>
      by_cases h : count < segment.bytes.length
      · simp only [recv, dif_pos h, bytes_cons]
        rw [← List.append_assoc, List.take_append_drop]
      · simp only [recv, dif_neg h, bytes_cons]

theorem length_recv_le (count : Nat) (s : Stream) : (recv count s).1.length ≤ count := by
  cases s with
  | nil => exact Nat.zero_le _
  | cons segment s =>
      by_cases h : count < segment.bytes.length
      · simp only [recv, dif_pos h]
        exact List.length_take_le ..
      · simp only [recv, dif_neg h]
        exact Nat.not_lt.mp h

/-- Only a stream that has ended gives nothing. -/
theorem recv_eq_nil_iff (hcount : 0 < count) : (recv count s).1 = [] ↔ bytes s = [] := by
  cases s with
  | nil => simp [recv]
  | cons segment s =>
      have hne := segment.ne_nil
      by_cases h : count < segment.bytes.length
      · simp [recv, h, hne, Nat.ne_of_gt hcount]
      · simp [recv, h, hne]

end Stream

end Rdma4py.Lib
