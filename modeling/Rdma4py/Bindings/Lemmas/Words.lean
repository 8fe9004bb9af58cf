import Mathlib.Algebra.Order.Ring.Int
import Rdma4py.Bindings.Words

/-!
# C values: lengths

A length below `2 ** 31` keeps its value in a C `int`.
-/

namespace Rdma4py.Bindings

open Lib

variable {n : Nat}

theorem toInt_cInt_of_lt (h : n < 2 ^ 31) : (cInt n).toInt = n := Int32.toInt_ofNat_of_lt h

theorem cRange_cInt_of_lt (h : n < 2 ^ 31) : cRange (cInt n) = n := by
  rw [cRange, toInt_cInt_of_lt h]
  rfl

theorem cRange_lt (n : Int32) : cRange n < 2 ^ 31 := by
  have := n.toInt_lt
  rw [cRange]
  omega

theorem cInt_eq_zero_iff (h : n < 2 ^ 31) : cInt n = 0 ↔ n = 0 := by
  rw [← Int32.toInt_inj, toInt_cInt_of_lt h, Int32.toInt_zero]
  omega

theorem toNat_cSize_of_lt (h : n < 2 ^ 31) : (cSize (cInt n)).toNat = n := by
  have hnonneg : 0 ≤ (cInt n).toInt64 := by
    rw [Int64.le_iff_toInt_le, Int32.toInt_toInt64, toInt_cInt_of_lt h, Int64.toInt_zero]
    omega
  rw [cSize, Int64.toNat_toUInt64_of_le hnonneg, Int64.toNatClampNeg, Int32.toInt_toInt64, toInt_cInt_of_lt h]
  rfl

/-- The comparison of a length with a small number. -/
theorem lt_cInt_iff {k : Nat} (hk : k < 2 ^ 31) (h : n < 2 ^ 31) : cInt k < cInt n ↔ k < n := by
  rw [Int32.lt_iff_toInt_lt, toInt_cInt_of_lt hk, toInt_cInt_of_lt h]
  omega

/-- What `htonl` returns is in network order in memory. -/
theorem leBytes_htonl (x : UInt32) : leBytes 4 (htonl x).toNat = beBytes 4 x.toNat := by
  have hlen : (beBytes 4 x.toNat).length = 4 := length_beBytes 4 x.toNat
  have hlt := leNat_lt (beBytes 4 x.toNat)
  rw [hlen] at hlt
  rw [htonl, UInt32.toNat_ofNat_of_lt' (by simpa [UInt32.size] using hlt)]
  have h := leBytes_leNat (beBytes 4 x.toNat)
  rwa [hlen] at h

end Rdma4py.Bindings
