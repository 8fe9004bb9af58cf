import Rdma4py.Lib.Bytes

/-!
# C values

What the Cython modules make of Python's values when they assign them to C variables.
-/

namespace Rdma4py.Bindings

open Lib

/-- `htonl` on a little-endian host: in memory, the result has the bytes of `x` from the most significant one on. -/
def htonl (x : UInt32) : UInt32 := .ofNat (leNat (beBytes 4 x.toNat))

/-- `ntohl`: the other direction swaps the same bytes. -/
def ntohl (x : UInt32) : UInt32 := htonl x

/-- A length that is assigned to a C `int`. -/
def cInt (n : Nat) : Int32 := Int32.ofNat n

/-- A C `int` that is passed as a `size_t`. -/
def cSize (n : Int32) : UInt64 := n.toInt64.toUInt64

/-- `for i in range(n)` of a C `int` goes over so many numbers. -/
def cRange (n : Int32) : Nat := n.toInt.toNat

/-- An `SGE` object, or a `struct ibv_sge`. -/
structure SGE where
  addr : UInt64
  length : UInt32
  lkey : UInt32
  deriving DecidableEq, Repr

/-- An `AH` object. A closed one has no pointer. -/
structure AH where
  ah : Option UInt64
  deriving DecidableEq, Repr

/-! ## Work requests -/

def WR_RDMA_WRITE : Int := 0
def WR_RDMA_WRITE_WITH_IMM : Int := 1
def WR_SEND : Int := 2
def WR_SEND_WITH_IMM : Int := 3
def WR_RDMA_READ : Int := 4
def WR_ATOMIC_CMP_AND_SWP : Int := 5
def WR_ATOMIC_FETCH_AND_ADD : Int := 6

def SEND_INLINE : UInt32 := 8

end Rdma4py.Bindings
