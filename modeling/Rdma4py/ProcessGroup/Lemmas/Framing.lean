import Rdma4py.ProcessGroup.Framing

/-!
# Reading frames

However the stream is cut, the bytes that are asked for are the next ones.
-/

namespace Rdma4py.ProcessGroup

open Lib

variable {s : Stream} {count : Nat} {rest : List UInt8}

/-! ## `_recv_exact` -/

/-- The bytes that are asked for, and nothing behind them. -/
theorem recvExact_ok (h : count ≤ s.bytes.length) :
    ∃ s', recvExact count s = (.ok (s.bytes.take count), s') ∧ s'.bytes = s.bytes.drop count := by
  induction count using Nat.strong_induction_on generalizing s with
  | _ count ih =>
      rw [recvExact]
      by_cases hzero : count = 0
      · exact ⟨s, by simp [hzero], by simp [hzero]⟩
      have hsplit := Stream.recv_append count s
      have hle := Stream.length_recv_le count s
      have hne : (s.recv count).1 ≠ [] := by
        rw [Ne, Stream.recv_eq_nil_iff (Nat.pos_of_ne_zero hzero), ← List.length_eq_zero_iff]
        omega
      have hpos := List.length_pos_iff.mpr hne
      rw [if_neg hzero, if_neg hne]
      rw [← hsplit, List.length_append] at h
      obtain ⟨s', hs', hbytes⟩ := ih (count - (s.recv count).1.length) (by omega) (s := (s.recv count).2) (by omega)
      refine ⟨s', ?_, ?_⟩
      · rw [hs', ← hsplit, List.take_append, List.take_of_length_le hle]
      · rw [hbytes, ← hsplit, List.drop_append, List.drop_of_length_le hle, List.nil_append]

/-- A stream that ends too early. -/
theorem recvExact_closed (h : s.bytes.length < count) : ∃ s', recvExact count s = (.error peerClosed, s') := by
  induction count using Nat.strong_induction_on generalizing s with
  | _ count ih =>
      rw [recvExact, if_neg (by omega)]
      by_cases hnil : (s.recv count).1 = []
      · exact ⟨_, if_pos hnil⟩
      have hsplit := Stream.recv_append count s
      have hpos := List.length_pos_iff.mpr hnil
      rw [← hsplit, List.length_append] at h
      obtain ⟨s', hs'⟩ := ih (count - (s.recv count).1.length) (by omega) (s := (s.recv count).2) (by omega)
      exact ⟨s', by rw [if_neg hnil, hs']⟩

/-! ## One frame -/

variable {Value : Type*} {json : Json Value} {value : Value} {values : List Value}

/-- What `_send_frame` sends. -/
def frame (json : Json Value) (value : Value) : List UInt8 :=
  beBytes 4 (json.dumps value).length ++ json.dumps value

theorem sendFrame_ok (h : (json.dumps value).length ≤ maxFrame) (sent : List UInt8) :
    sendFrame json value sent = (.ok (), sent ++ frame json value) := by
  rw [sendFrame, if_neg (Nat.not_lt.mpr h)]
  rfl

/-- After the four bytes of a size, the payload is read, or refused unread. -/
theorem recvFrame_of_size (json : Json Value) {size : Nat} (hsize : size < 2 ^ 32) (h : s.bytes = beBytes 4 size ++ rest) :
    ∃ s', recvFrame json s = recvPayload json size s' ∧ s'.bytes = rest := by
  have hheader : 4 ≤ s.bytes.length := by
    rw [h, List.length_append, length_beBytes]
    omega
  obtain ⟨s', hs', hbytes⟩ := recvExact_ok hheader
  have hsize' : size < 256 ^ 4 := by omega
  have hlength : (beBytes 4 size).length = 4 := length_beBytes ..
  rw [h, List.take_left' hlength] at hs'
  rw [h, List.drop_left' hlength] at hbytes
  refine ⟨s', ?_, hbytes⟩
  rw [recvFrame, hs']
  exact congrArg (recvPayload json · s') (beNat_beBytes_of_lt hsize')

theorem recvFrame_tooLarge (json : Json Value) {size : Nat} (hlarge : maxFrame < size) (hsize : size < 2 ^ 32)
    (h : s.bytes = beBytes 4 size ++ rest) : ∃ s', recvFrame json s = (.error tooLarge, s') ∧ s'.bytes = rest := by
  obtain ⟨s', hs', hbytes⟩ := recvFrame_of_size json hsize h
  exact ⟨s', by rw [hs', recvPayload, if_pos hlarge], hbytes⟩

theorem recvFrame_ok (hdict : json.isDict value = true) (hloads : json.loads (json.dumps value) = some value)
    (hlength : (json.dumps value).length ≤ maxFrame) (h : s.bytes = frame json value ++ rest) :
    ∃ s', recvFrame json s = (.ok value, s') ∧ s'.bytes = rest := by
  have hsize : (json.dumps value).length < 2 ^ 32 := Nat.lt_of_le_of_lt hlength (by decide)
  rw [frame, List.append_assoc] at h
  obtain ⟨s', hs', hbytes⟩ := recvFrame_of_size json hsize h
  have hpayload : (json.dumps value).length ≤ s'.bytes.length := by
    rw [hbytes, List.length_append]
    omega
  obtain ⟨s'', hs'', hbytes'⟩ := recvExact_ok hpayload
  rw [hbytes, List.take_left' rfl] at hs''
  rw [hbytes, List.drop_left' rfl] at hbytes'
  refine ⟨s'', ?_, hbytes'⟩
  rw [hs', recvPayload, if_neg (Nat.not_lt.mpr hlength), hs'']
  simp [hloads, hdict]

/-! ## Truncation -/

/-- The bytes end before the frame that they begin with. -/
def Truncated (bytes : List UInt8) : Prop :=
  bytes.length < 4 ∨ beNat (bytes.take 4) ≤ maxFrame ∧ bytes.length < 4 + beNat (bytes.take 4)

theorem recvFrame_truncated (json : Json Value) (h : Truncated s.bytes) : ∃ s', recvFrame json s = (.error peerClosed, s') := by
  by_cases hheader : s.bytes.length < 4
  · obtain ⟨s', hs'⟩ := recvExact_closed hheader
    exact ⟨s', by rw [recvFrame, hs']⟩
  obtain ⟨hlarge, hshort⟩ := h.resolve_left hheader
  obtain ⟨s', hs', hbytes⟩ := recvExact_ok (Nat.not_lt.mp hheader)
  have hlength : s'.bytes.length < beNat (s.bytes.take 4) := by
    rw [hbytes, List.length_drop]
    omega
  obtain ⟨s'', hs''⟩ := recvExact_closed hlength
  refine ⟨s'', ?_⟩
  rw [recvFrame, hs']
  change recvPayload json (beNat (s.bytes.take 4)) s' = _
  rw [recvPayload, if_neg (Nat.not_lt.mpr hlarge), hs'']

/-- A front of a frame is truncated. -/
theorem truncated_of_prefix {bytes : List UInt8} (hlength : (json.dumps value).length ≤ maxFrame)
    (h : bytes <+: frame json value) (hne : bytes ≠ frame json value) : Truncated bytes := by
  have hshort : bytes.length < (frame json value).length := by
    by_contra hle
    exact hne (h.eq_of_length_le (Nat.not_lt.mp hle))
  rw [Truncated]
  by_cases hheader : bytes.length < 4
  · exact .inl hheader
  have htake : bytes.take 4 = beBytes 4 (json.dumps value).length := by
    obtain ⟨back, hback⟩ := h
    have := congrArg (List.take 4) hback
    rw [List.take_append_of_le_length (Nat.not_lt.mp hheader), frame, List.take_left' (length_beBytes ..)] at this
    exact this
  have hsize : (json.dumps value).length < 256 ^ 4 := Nat.lt_of_le_of_lt hlength (by decide)
  rw [htake, beNat_beBytes_of_lt hsize]
  rw [frame, List.length_append, length_beBytes] at hshort
  exact .inr ⟨hlength, hshort⟩

/-! ## Several frames -/

/-- A message that can be sent and read back. -/
structure Sendable (json : Json Value) (value : Value) : Prop where
  isDict : json.isDict value = true
  loads : json.loads (json.dumps value) = some value
  length : (json.dumps value).length ≤ maxFrame

/-- The bytes of the messages, one frame behind the other. -/
def frames (json : Json Value) (values : List Value) : List UInt8 := values.flatMap (frame json)

theorem sendFrames_ok (h : ∀ value ∈ values, Sendable json value) (sent : List UInt8) :
    sendFrames json values sent = (.ok (), sent ++ frames json values) := by
  induction values generalizing sent with
  | nil => simp [sendFrames, frames]
  | cons value values ih =>
      obtain ⟨hvalue, hvalues⟩ := List.forall_mem_cons.mp h
      rw [sendFrames, sendFrame_ok hvalue.length]
      dsimp only
      rw [ih hvalues, frames, frames, List.flatMap_cons, List.append_assoc]

theorem recvFrames_ok (h : ∀ value ∈ values, Sendable json value) (hbytes : s.bytes = frames json values ++ rest) :
    ∃ s', recvFrames json values.length s = (.ok values, s') ∧ s'.bytes = rest := by
  induction values generalizing s with
  | nil => exact ⟨s, rfl, hbytes⟩
  | cons value values ih =>
      obtain ⟨hvalue, hvalues⟩ := List.forall_mem_cons.mp h
      rw [frames, List.flatMap_cons, List.append_assoc] at hbytes
      obtain ⟨s', hs', hbytes'⟩ := recvFrame_ok hvalue.isDict hvalue.loads hvalue.length hbytes
      obtain ⟨s'', hs'', hrest⟩ := ih hvalues hbytes'
      exact ⟨s'', by simp [recvFrames, hs', hs''], hrest⟩

/-- The frames that are complete are read, and the next call raises. -/
theorem recvFrames_truncated (h : ∀ value ∈ values, Sendable json value) (hfront : s.bytes <+: frames json values)
    (hne : s.bytes ≠ frames json values) : ∃ s', recvFrames json values.length s = (.error peerClosed, s') := by
  induction values generalizing s with
  | nil => exact absurd (List.prefix_nil.mp hfront) hne
  | cons value values ih =>
      obtain ⟨hvalue, hvalues⟩ := List.forall_mem_cons.mp h
      rw [frames, List.flatMap_cons] at hfront hne
      by_cases hcomplete : frame json value <+: s.bytes
      · obtain ⟨rest, hrest⟩ := hcomplete
        obtain ⟨s', hs', hbytes⟩ := recvFrame_ok hvalue.isDict hvalue.loads hvalue.length hrest.symm
        rw [← hrest] at hfront hne
        obtain ⟨s'', hs''⟩ := ih hvalues (hbytes ▸ (List.prefix_append_right_inj _).mp hfront)
          (fun heq => hne (by rw [← hbytes, heq]; rfl))
        exact ⟨s'', by simp [recvFrames, hs', hs'']⟩
      · have hshort : s.bytes <+: frame json value := by
          refine List.prefix_of_prefix_length_le hfront (List.prefix_append ..) ?_
          by_contra hle
          exact hcomplete (List.prefix_of_prefix_length_le (List.prefix_append ..) hfront (by omega))
        have htruncated := truncated_of_prefix hvalue.length hshort fun heq => hcomplete (heq ▸ List.prefix_refl _)
        obtain ⟨s', hs'⟩ := recvFrame_truncated json htruncated
        exact ⟨s', by simp [recvFrames, hs']⟩

end Rdma4py.ProcessGroup
