import Rdma4py.Lib.Tiling
import Rdma4py.NvmeController.Lemmas.Encoding
import Rdma4py.NvmeController.Namespace

/-!
# How a transfer is split

The loop keeps its three cursors together: each iteration issues one command, and what is left is again a range of the
namespace and of the buffer.
-/

namespace Rdma4py.NvmeController

open Rdma4py.Lib
open NvmeQueue (Exn)

variable {ns : Namespace} {buffer : Region} {opcode maxBlocks remaining offset lba : Int} {execute : Nat → Option Exn}

/-! ## What the target reads in a command -/

/-- The first block and the number of blocks. -/
def lbaRange (c : List UInt8) : Nat × Nat := (leNat (slice c 40 8), leNat (slice c 48 2) + 1)

/-- The address and the length of the keyed SGL. -/
def sglRange (c : List UInt8) : Nat × Nat := (leNat (slice c 24 8), leNat (slice c 32 3))

/-- A command of a transfer, as the target reads it. -/
structure Transfers (ns : Namespace) (opcode : Int) (buffer : Region) (c : List UInt8) : Prop where
  length : c.length = 64
  opcode : (leNat (slice c 0 1) : Int) = opcode
  nsid : (leNat (slice c 4 4) : Int) = ns.nsid
  rkey : (leNat (slice c 35 4) : Int) = buffer.rkey
  blocks : 1 ≤ (lbaRange c).2 ∧ (lbaRange c).2 ≤ 65536
  bytes : ((sglRange c).2 : Int) = (lbaRange c).2 * ns.lbaSize
  limit : ((sglRange c).2 : Int) ≤ ns.maxTransferBytes

/-- The commands cover the blocks and the bytes of a transfer, in order, without a gap and without an overlap. -/
structure Covers (ns : Namespace) (opcode : Int) (buffer : Region) (lba blocks offset : Int) (cs : List (List UInt8)) :
    Prop where
  each : ∀ c ∈ cs, Transfers ns opcode buffer c
  lbas : Tiles lba.toNat (cs.map lbaRange) (lba + blocks).toNat
  bytes : Tiles (buffer.addr + offset).toNat (cs.map sglRange) (buffer.addr + offset + blocks * ns.lbaSize).toNat

/-! ## The loop -/

/-- What is left to transfer lies in the namespace and in the buffer. -/
structure Room (ns : Namespace) (opcode : Int) (buffer : Region) (maxBlocks remaining offset lba : Int) : Prop where
  known : opcode = opcRead ∨ opcode = opcWrite
  nsid : 0 ≤ ns.nsid ∧ ns.nsid < 2 ^ 32
  addr : 0 ≤ buffer.addr ∧ buffer.addr + buffer.length ≤ 2 ^ 64
  rkey : 0 ≤ buffer.rkey ∧ buffer.rkey < 2 ^ 32
  lbaSize : 0 < ns.lbaSize
  max : 0 < maxBlocks ∧ maxBlocks ≤ 65536
  limit : maxBlocks * ns.lbaSize ≤ ns.maxTransferBytes ∧ ns.maxTransferBytes < 2 ^ 24
  left : 0 ≤ remaining
  lbas : 0 ≤ lba ∧ lba + remaining < 2 ^ 64
  bytes : 0 ≤ offset ∧ offset + remaining * ns.lbaSize ≤ buffer.length

theorem Room.fits (h : Room ns opcode buffer maxBlocks remaining offset lba) (hr : remaining ≠ 0) :
    RwFits opcode ns.nsid lba (min remaining maxBlocks) buffer ns.lbaSize offset := by
  obtain ⟨hop, hnsid, haddr, hrkey, hsize, hmax, hlimit, hrem, hlba, hoff⟩ := h
  have hcount : 0 < min remaining maxBlocks := by omega
  have hpos : 0 < min remaining maxBlocks * ns.lbaSize := Int.mul_pos hcount hsize
  have hle : min remaining maxBlocks * ns.lbaSize ≤ maxBlocks * ns.lbaSize :=
    Int.mul_le_mul_of_nonneg_right (by omega) hsize.le
  have hle' : min remaining maxBlocks * ns.lbaSize ≤ remaining * ns.lbaSize :=
    Int.mul_le_mul_of_nonneg_right (by omega) hsize.le
  exact ⟨hop, hnsid.1, hnsid.2, hlba.1, by omega, hcount, by omega, hsize,
    ⟨hoff.1, hpos, by omega, by omega, by omega, by omega, hrkey.1, hrkey.2⟩⟩

theorem Room.next (h : Room ns opcode buffer maxBlocks remaining offset lba) (hr : remaining ≠ 0) :
    Room ns opcode buffer maxBlocks (remaining - min remaining maxBlocks)
      (offset + min remaining maxBlocks * ns.lbaSize) (lba + min remaining maxBlocks) := by
  have hfits := h.fits hr
  obtain ⟨hop, hnsid, haddr, hrkey, hsize, hmax, hlimit, hrem, hlba, hoff⟩ := h
  have hsplit : (remaining - min remaining maxBlocks) * ns.lbaSize =
      remaining * ns.lbaSize - min remaining maxBlocks * ns.lbaSize := Int.sub_mul ..
  have := hfits.sgl.nonempty
  exact ⟨hop, hnsid, haddr, hrkey, hsize, hmax, hlimit, by omega, by omega, by omega⟩

theorem Room.transfers {c : List UInt8} (h : Room ns opcode buffer maxBlocks remaining offset lba)
    (hc : rwCommand opcode ns.nsid lba (min remaining maxBlocks) buffer ns.lbaSize offset = .ok c) :
    Transfers ns opcode buffer c ∧ lbaRange c = (lba.toNat, (min remaining maxBlocks).toNat) ∧
      sglRange c = ((buffer.addr + offset).toNat, (min remaining maxBlocks * ns.lbaSize).toNat) := by
  obtain ⟨hfits, henc⟩ := rwCommand_encodes hc
  have hlen := henc.reads.length
  have hop := henc.reads.read (0, 1, opcode) (by simp)
  have hnsid := henc.reads.read (4, 4, ns.nsid) (by simp)
  have haddr := henc.reads.read (24, 8, buffer.addr + offset) (by simp)
  have hlength := henc.reads.read (32, 3, min remaining maxBlocks * ns.lbaSize) (by simp)
  have hrkey := henc.reads.read (35, 4, buffer.rkey) (by simp)
  have hslba := henc.reads.read (40, 8, lba) (by simp)
  have hnlb := henc.reads.read (48, 2, min remaining maxBlocks - 1) (by simp)
  have hpos := hfits.blocks_pos
  have hle := hfits.blocks_le
  have hlbas : lbaRange c = (lba.toNat, (min remaining maxBlocks).toNat) := by
    simp only [lbaRange, Prod.mk.injEq] at hslba hnlb ⊢
    omega
  have hbytes : sglRange c = ((buffer.addr + offset).toNat, (min remaining maxBlocks * ns.lbaSize).toNat) := by
    simp only [sglRange, Prod.mk.injEq] at haddr hlength ⊢
    omega
  have hmul : min remaining maxBlocks * ns.lbaSize ≤ maxBlocks * ns.lbaSize :=
    Int.mul_le_mul_of_nonneg_right (by omega) h.lbaSize.le
  have hsgl := hfits.sgl.nonempty
  refine ⟨⟨hlen, hop, hnsid, hrkey, ?_, ?_, ?_⟩, hlbas, hbytes⟩
  · rw [hlbas]; simp only; omega
  · rw [hlbas, hbytes]
    simp only [Int.toNat_of_nonneg hpos.le, Int.toNat_of_nonneg hsgl.le]
  · have := h.limit.1
    rw [hbytes]; simp only; omega

/-- One command, then the rest. -/
theorem Room.covers {c : List UInt8} {cs : List (List UInt8)} (h : Room ns opcode buffer maxBlocks remaining offset lba)
    (hr : remaining ≠ 0)
    (hc : rwCommand opcode ns.nsid lba (min remaining maxBlocks) buffer ns.lbaSize offset = .ok c)
    (hcs : Covers ns opcode buffer (lba + min remaining maxBlocks) (remaining - min remaining maxBlocks)
      (offset + min remaining maxBlocks * ns.lbaSize) cs) : Covers ns opcode buffer lba remaining offset (c :: cs) := by
  obtain ⟨htr, hlbas, hbytes⟩ := h.transfers hc
  have hfits := h.fits hr
  obtain ⟨hop, hnsid, haddr, hrkey, hsize, hmax, hlimit, hrem, hlba, hoff⟩ := h
  have hpos := hfits.blocks_pos
  have hsgl := hfits.sgl.nonempty
  obtain ⟨heach, hl, hb⟩ := hcs
  refine ⟨fun d hd => ?_, ?_, ?_⟩
  · rcases List.mem_cons.mp hd with rfl | hd
    · exact htr
    · exact heach d hd
  · rw [List.map_cons, hlbas]
    refine ⟨rfl, by simp only; omega, ?_⟩
    rw [show (lba + min remaining maxBlocks).toNat = lba.toNat + (min remaining maxBlocks).toNat by omega,
      show lba + min remaining maxBlocks + (remaining - min remaining maxBlocks) = lba + remaining by omega] at hl
    exact hl
  · have hsplit : (remaining - min remaining maxBlocks) * ns.lbaSize =
        remaining * ns.lbaSize - min remaining maxBlocks * ns.lbaSize := Int.sub_mul ..
    rw [List.map_cons, hbytes]
    refine ⟨rfl, by simp only; omega, ?_⟩
    rw [show (buffer.addr + (offset + min remaining maxBlocks * ns.lbaSize)).toNat =
        (buffer.addr + offset).toNat + (min remaining maxBlocks * ns.lbaSize).toNat by omega, hsplit,
      show buffer.addr + (offset + min remaining maxBlocks * ns.lbaSize) +
          (remaining * ns.lbaSize - min remaining maxBlocks * ns.lbaSize) =
        buffer.addr + offset + remaining * ns.lbaSize by omega] at hb
    exact hb

/-- The synchronization and the flush issue no command. -/
theorem surround_issued (gpu : Bool) (opcode : Int) (actions : List Action) (result : Except Exn Unit) :
    issued (surround (if gpu ∧ opcode = opcWrite then [.synchronize] else [])
      (if gpu ∧ opcode = opcRead then [.flushGpudirectWrites] else []) (actions, result)).1 = issued actions ∧
    (surround (if gpu ∧ opcode = opcWrite then [.synchronize] else [])
      (if gpu ∧ opcode = opcRead then [.flushGpudirectWrites] else []) (actions, result)).2 = result := by
  cases result with
  | error e =>
      refine ⟨?_, rfl⟩
      simp only [surround, issued]
      split <;> simp [Action.command?, List.filterMap_cons]
  | ok u =>
      refine ⟨?_, rfl⟩
      simp only [surround, issued]
      split <;> split <;> simp [Action.command?, List.filterMap_cons]

/-- How a loop ends: all commands were executed, or one `execute` raised. -/
def Ends (execute : Nat → Option Exn) (k : Nat) (cs done : List (List UInt8)) (result : Except Exn Unit) : Prop :=
  (result = .ok () ∧ done = cs ∧ ∀ i < cs.length, execute (k + i) = none) ∨
  ∃ j e, j < cs.length ∧ execute (k + j) = some e ∧ (∀ i < j, execute (k + i) = none) ∧ result = .error e ∧
    done = cs.take (j + 1)

theorem transferLoop_mono {fuel fuel' k : Nat} {x : List Action × Except Exn Unit} (hle : fuel ≤ fuel')
    (h : transferLoop ns opcode buffer maxBlocks execute fuel k remaining offset lba = some x) :
    transferLoop ns opcode buffer maxBlocks execute fuel' k remaining offset lba = some x := by
  induction fuel generalizing fuel' k remaining offset lba x with
  | zero => simp [transferLoop] at h
  | succ fuel ih =>
      obtain ⟨fuel', rfl⟩ : ∃ n, fuel' = n + 1 := ⟨fuel' - 1, by omega⟩
      rw [transferLoop] at h ⊢
      by_cases hr : remaining = 0
      · rw [if_pos hr] at h ⊢
        exact h
      rw [if_neg hr] at h ⊢
      cases hc : rwCommand opcode ns.nsid lba (min remaining maxBlocks) buffer ns.lbaSize offset with
      | error e => simpa only [hc] using h
      | ok command =>
          cases he : execute k with
          | some e => simpa only [hc, he] using h
          | none =>
              simp only [hc, he] at h ⊢
              obtain ⟨y, hy, hx⟩ := Option.map_eq_some_iff.mp h
              rw [ih (by omega) hy, Option.map_some, hx]

/-- The loop terminates, and covers what remains. -/
theorem transferLoop_covers (execute : Nat → Option Exn) (fuel k : Nat)
    (h : Room ns opcode buffer maxBlocks remaining offset lba) (hf : remaining < fuel) : ∃ cs actions result,
      transferLoop ns opcode buffer maxBlocks execute fuel k remaining offset lba = some (actions, result) ∧
      Covers ns opcode buffer lba remaining offset cs ∧ Ends execute k cs (issued actions) result := by
  induction fuel generalizing k remaining offset lba with
  | zero => have := h.left; omega
  | succ fuel ih =>
      by_cases hr : remaining = 0
      · subst hr
        exact ⟨[], [], .ok (), by simp [transferLoop], ⟨by simp, by simp [Tiles], by simp [Tiles]⟩,
          .inl ⟨rfl, rfl, by simp⟩⟩
      obtain ⟨c, hc⟩ := (h.fits hr).accepted
      have hpos := (h.fits hr).blocks_pos
      have hrem := h.left
      obtain ⟨cs, actions, result, hloop, hcov, hends⟩ := ih (k + 1) (h.next hr) (by omega)
      have hall := h.covers hr hc hcov
      cases he : execute k with
      | some e =>
          exact ⟨c :: cs, [.execute c], .error e, by simp [transferLoop, hr, hc, he], hall,
            .inr ⟨0, e, by simp, by simpa using he, by simp, rfl, rfl⟩⟩
      | none =>
          refine ⟨c :: cs, .execute c :: actions, result, by simp [transferLoop, hr, hc, he, hloop], hall, ?_⟩
          have hissued : issued (.execute c :: actions) = c :: issued actions := rfl
          rw [hissued]
          rcases hends with ⟨rfl, hdone, hnone⟩ | ⟨j, e, hj, hje, hnone, rfl, hdone⟩
          · refine .inl ⟨rfl, by rw [hdone], fun i hi => ?_⟩
            rcases i with - | i
            · exact he
            · rw [show k + (i + 1) = k + 1 + i by omega]
              exact hnone i (by simpa using hi)
          · refine .inr ⟨j + 1, e, by simpa using hj, ?_, fun i hi => ?_, rfl, by rw [hdone]; rfl⟩
            · rw [show k + (j + 1) = k + 1 + j by omega]
              exact hje
            · rcases i with - | i
              · exact he
              · rw [show k + (i + 1) = k + 1 + i by omega]
                exact hnone i (by omega)

end Rdma4py.NvmeController
