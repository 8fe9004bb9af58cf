import Rdma4py.Lib.Fields

/-!
# Fixed formats

A format of `struct` in network byte order: unsigned numbers of given widths and byte strings of given lengths. Unpacking
what was packed gives the values back, and packing what was unpacked gives the bytes back.
-/

namespace Rdma4py.Lib

namespace Struct

/-- A format character. -/
inductive Code
  /-- `B`, `H`, `I` or `Q`, by the number of bytes. -/
  | uint (width : Nat)
  /-- `s` with its count. -/
  | str (width : Nat)
  deriving DecidableEq, Repr

/-- The bytes of a field. -/
def Code.width : Code → Nat
  | uint width | str width => width

/-- The Python value of a field. -/
abbrev Code.Value : Code → Type
  | uint _ => Int
  | str _ => List UInt8

/-- The values of all fields. -/
abbrev Values : List Code → Type
  | [] => Unit
  | c :: cs => c.Value × Values cs

/-- `calcsize`. -/
def size : List Code → Nat
  | [] => 0
  | c :: cs => c.width + size cs

/-- A number that does not fit raises `struct.error`. A byte string is cut off or filled up with zeros. -/
def Code.pack : (c : Code) → c.Value → Option (List UInt8)
  | uint width, n => if 0 ≤ n ∧ n < 256 ^ width then some (beBytes width n.toNat) else none
  | str width, bs => some (bs.take width ++ List.replicate (width - bs.length) 0)

def Code.unpack : (c : Code) → List UInt8 → c.Value
  | uint _, bytes => (beNat bytes : Int)
  | str _, bytes => bytes

/-- `pack`. -/
def pack : (format : List Code) → Values format → Option (List UInt8)
  | [], () => some []
  | c :: cs, (v, vs) => do
      let field ← c.pack v
      let rest ← pack cs vs
      return field ++ rest

/-- `unpack` of as many bytes as the format has. -/
def unpack : (format : List Code) → List UInt8 → Values format
  | [], _ => ()
  | c :: cs, bytes => (c.unpack (bytes.take c.width), unpack cs (bytes.drop c.width))

/-- The value is one that the field can hold. -/
def Code.Fits : (c : Code) → c.Value → Prop
  | uint width, n => 0 ≤ n ∧ n < 256 ^ width
  | str width, bs => bs.length = width

/-- Every value is one that its field can hold. -/
def Fits : (format : List Code) → Values format → Prop
  | [], () => True
  | c :: cs, (v, vs) => c.Fits v ∧ Fits cs vs

/-! ## One field -/

theorem beNat_beBytes_toNat {width : Nat} {n : Int} (h : 0 ≤ n ∧ n < 256 ^ width) :
    (beNat (beBytes width n.toNat) : Int) = n := by
  obtain ⟨k, rfl⟩ := Int.eq_ofNat_of_zero_le h.1
  have hlt : k < 256 ^ width := by exact_mod_cast h.2
  rw [Int.toNat_natCast, beNat_beBytes_of_lt hlt]

theorem Code.exists_pack {c : Code} {v : c.Value} (h : c.Fits v) :
    ∃ field, c.pack v = some field ∧ field.length = c.width ∧ c.unpack field = v := by
  cases c with
  | uint width => exact ⟨beBytes width (Int.toNat v), if_pos h, length_beBytes .., beNat_beBytes_toNat h⟩
  | str width =>
      have hlen : List.length v = width := h
      refine ⟨v, ?_, hlen, rfl⟩
      simp [Code.pack, hlen, List.take_of_length_le (Nat.le_of_eq hlen)]

theorem Code.pack_unpack {c : Code} {bytes : List UInt8} (h : bytes.length = c.width) :
    c.Fits (c.unpack bytes) ∧ c.pack (c.unpack bytes) = some bytes := by
  cases c with
  | uint width =>
      have hlen : bytes.length = width := h
      have hlt := beNat_lt bytes
      rw [hlen] at hlt
      have hfits : 0 ≤ (beNat bytes : Int) ∧ (beNat bytes : Int) < 256 ^ width :=
        ⟨Int.natCast_nonneg _, by exact_mod_cast hlt⟩
      refine ⟨hfits, (if_pos hfits).trans ?_⟩
      rw [← hlen]
      exact congrArg some (beBytes_beNat bytes)
  | str width =>
      have hlen : bytes.length = width := h
      refine ⟨hlen, ?_⟩
      simp [Code.pack, Code.unpack, hlen, List.take_of_length_le (Nat.le_of_eq hlen)]

/-! ## All fields -/

/-- Values that fit are packed, into as many bytes as the format has, and read back. -/
theorem exists_pack {format : List Code} {vs : Values format} (h : Fits format vs) :
    ∃ bytes, pack format vs = some bytes ∧ bytes.length = size format ∧ unpack format bytes = vs := by
  induction format with
  | nil => exact ⟨[], rfl, rfl, rfl⟩
  | cons c cs ih =>
      obtain ⟨v, vs⟩ := vs
      obtain ⟨field, hfield, hwidth, hv⟩ := Code.exists_pack h.1
      obtain ⟨rest, hrest, hsize, hvs⟩ := ih h.2
      refine ⟨field ++ rest, by simp [pack, hfield, hrest], by simp [size, hwidth, hsize], ?_⟩
      simp [unpack, ← hwidth, hv, hvs]

/-- As many bytes as the format has are the packed form of what they unpack to. -/
theorem pack_unpack {format : List Code} {bytes : List UInt8} (h : bytes.length = size format) :
    Fits format (unpack format bytes) ∧ pack format (unpack format bytes) = some bytes := by
  induction format generalizing bytes with
  | nil =>
      obtain rfl := List.length_eq_zero_iff.mp h
      exact ⟨trivial, rfl⟩
  | cons c cs ih =>
      have hsize : bytes.length = c.width + size cs := h
      have htake : (bytes.take c.width).length = c.width := by
        rw [List.length_take]
        omega
      have hdrop : (bytes.drop c.width).length = size cs := by
        rw [List.length_drop]
        omega
      obtain ⟨hfits, hfield⟩ := Code.pack_unpack htake
      obtain ⟨hrest, hpack⟩ := ih hdrop
      exact ⟨⟨hfits, hrest⟩, by simp [pack, unpack, hfield, hpack]⟩

end Struct

end Rdma4py.Lib
