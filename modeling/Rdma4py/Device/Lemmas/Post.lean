import Mathlib.Tactic.Common
import Rdma4py.Device.Post
import Rdma4py.Lib.Tiling

/-!
# The chunks of a transfer

The loop over the chunks prepares one slot after the other, and its chunks tile the transfer.
-/

namespace Rdma4py.Device

open Lib

variable {max base length : Nat}

theorem u64_of_lt {n : Nat} (h : n < 2 ^ 64) : u64 n = n := Nat.mod_eq_of_lt h

theorem u32_of_lt {n : Nat} (h : n < 2 ^ 32) : u32 n = n := Nat.mod_eq_of_lt h

/-- What `PostsExactly` asks of the pieces: displacements and lengths. -/
def pieces (max length : Nat) : List (Nat × Nat) :=
  (pyRange 0 length max).map fun d => (d, min max (length - d))

theorem chunkCount_eq (hlen : length + max ≤ 2 ^ 64) :
    chunkCount max length = (length + max - 1) / max := by
  rw [chunkCount, u64_of_lt (by omega)]

theorem length_pieces (hlen : length + max ≤ 2 ^ 64) :
    (pieces max length).length = chunkCount max length := by
  rw [chunkCount_eq hlen]
  simp [pieces, pyRange]

theorem getElem_pieces {i : Nat} (hi : i < (pieces max length).length) :
    (pieces max length)[i] = (i * max, min max (length - i * max)) := by
  simp [pieces, pyRange, Nat.mul_comm]

/-- The calls for the chunks from `i` on. -/
theorem postChunks_eq (wqe : Nat → Nat → Bool → Wqe) (base : Nat) (hmax : 0 < max) (hmax32 : max < 2 ^ 32)
    (hlen : length + max ≤ 2 ^ 64) (left i last : Nat) (hi : i + left = chunkCount max length) :
    postChunks wqe max base (chunkCount max length) left i (length - i * max) last =
      (if left = 0 then last else u64 (base + (i + left - 1)),
        (List.range' i left).map fun j =>
          .prepare (u64 (base + j)) (wqe (j * max) (min max (length - j * max)) (j + 1 = chunkCount max length))) := by
  induction left generalizing i last with
  | zero => rfl
  | succ left ih =>
      have hcount := chunkCount_eq hlen
      have hbound : chunkCount max length * max ≤ length + max - 1 := by
        rw [hcount]
        exact Nat.div_mul_le_self _ _
      have hi' : (i + 1) * max ≤ length + max - 1 := Nat.le_trans (Nat.mul_le_mul_right _ (by omega)) hbound
      rw [Nat.succ_mul] at hi'
      have hle : chunkCount max length ≤ chunkCount max length * max := Nat.le_mul_of_pos_right _ hmax
      have hbytes : u32 (if length - i * max > max then max else length - i * max) = min max (length - i * max) := by
        rw [u32_of_lt (by split <;> omega)]
        split <;> omega
      have hrest : u64 (length - i * max + 2 ^ 64 - min max (length - i * max)) = length - (i + 1) * max := by
        rw [Nat.succ_mul, u64]
        omega
      rw [postChunks, hbytes, hrest, ih (i + 1) (u64 (base + i)) (by omega), u64_of_lt (n := i * max) (by omega),
        u64_of_lt (n := i + 1) (by omega)]
      have hlast : (if left = 0 then u64 (base + i) else u64 (base + (i + 1 + left - 1))) = u64 (base + (i + (left + 1) - 1)) := by
        split
        · next h => rw [h]; rfl
        · congr 2
          omega
      simp only [hlast, Nat.succ_ne_zero, if_false, List.range'_succ, List.map_cons]

/-- The data entries of a transfer, one for each piece. -/
def dataEntries (wqe : Nat → Nat → Bool → Wqe) (ps : List (Nat × Nat)) : List Wqe :=
  ps.mapIdx fun i p => wqe p.1 p.2 (i + 1 = ps.length)

/-- The calls that prepare, mark and submit entries in the slots from `base` on. -/
def postOps (base : Nat) (wqes : List Wqe) : List Op :=
  .reserve wqes.length :: ((wqes.mapIdx fun i wqe => .prepare ((base + i) % 2 ^ 64) wqe) ++
    [.markReady base ((base + (wqes.length - 1)) % 2 ^ 64), .submit ((base + wqes.length) % 2 ^ 64)])

/-- The entry of `post_rdma` for the `bytes` bytes at a displacement, which is the same in the two memories. Only the last
one carries the immediate, and the opcode for it. -/
inductive RdmaEntry (v : Variant) (remote local' : Addr) (immediate displacement bytes : Nat) : Prop → Wqe → Prop
  | read {last : Prop} (hread : v.isRead = true) :
      RdmaEntry v remote local' immediate displacement bytes last
        (.read ((remote.addr + displacement) % 2 ^ 64) remote.key ((local'.addr + displacement) % 2 ^ 64) local'.key bytes)
  | write {last : Prop} (hread : v.isRead = false) (himm : ¬ (v.withImm = true ∧ last)) :
      RdmaEntry v remote local' immediate displacement bytes last
        (.write .rdmaWrite 0 ((remote.addr + displacement) % 2 ^ 64) remote.key
          ((local'.addr + displacement) % 2 ^ 64) local'.key bytes)
  | writeImm {last : Prop} (hread : v.isRead = false) (himm : v.withImm = true ∧ last) :
      RdmaEntry v remote local' immediate displacement bytes last
        (.write .rdmaWriteImm immediate ((remote.addr + displacement) % 2 ^ 64) remote.key
          ((local'.addr + displacement) % 2 ^ 64) local'.key bytes)

/-- The entry of `post_send` for the `bytes` bytes at a displacement. -/
inductive SendEntry (local' : Addr) (displacement bytes : Nat) : Prop → Wqe → Prop
  | send {last : Prop} : SendEntry local' displacement bytes last
      (.send ((local'.addr + displacement) % 2 ^ 64) local'.key bytes)

theorem wqe_rdmaEntry (v : Variant) (remote local' : Addr) (immediate displacement bytes : Nat) (last : Prop)
    [Decidable last] :
    RdmaEntry v remote local' immediate displacement bytes last (v.wqe remote local' immediate displacement bytes last) := by
  rw [Variant.wqe]
  cases hread : v.isRead with
  | true =>
      rw [if_pos rfl]
      exact .read hread
  | false =>
      rw [if_neg Bool.false_ne_true]
      by_cases himm : v.withImm = true ∧ last
      · simpa [himm, u64] using RdmaEntry.writeImm hread himm
      · have hcond : (v.withImm && decide last) = false := by simpa using himm
        simpa [hcond, u64] using RdmaEntry.write hread himm

theorem sendWqe_sendEntry (local' : Addr) (displacement bytes : Nat) (last : Prop) [Decidable last] :
    SendEntry local' displacement bytes last (sendWqe local' displacement bytes last) := .send

/-- The slots from `base` on are reserved, prepared, marked and submitted in order: one with the data of each piece of the
transfer and one for each entry of `rest`, and the ticket is the last of them. -/
structure PostsExactly (max base length : Nat) (Entry : Nat → Nat → Prop → Wqe → Prop) (rest : List Wqe) (p : Posting)
    (ps : List (Nat × Nat)) (data : List Wqe) : Prop where
  tiles : Tiles 0 ps length
  bounded : ∀ q ∈ ps, q.2 ≤ max
  count : data.length = ps.length
  entry : ∀ i q w, ps[i]? = some q → data[i]? = some w → Entry q.1 q.2 (i + 1 = ps.length) w
  distinct : (data ++ rest).length < 2 ^ 64
  ops : p.ops = postOps base (data ++ rest)
  ticket : p.ticket = (base + ((data ++ rest).length - 1)) % 2 ^ 64

theorem u64_succ (n : Nat) : u64 (u64 n + 1) = u64 (n + 1) := by
  simp [u64, Nat.add_mod]

theorem mapIdx_append_singleton {α β : Type} (f : Nat → α → β) (l : List α) (a : α) :
    (l ++ [a]).mapIdx f = l.mapIdx f ++ [f l.length a] := by
  simp [List.mapIdx_append]

/-- The chunks in the slots from `base` on are the pieces of the transfer. -/
theorem postChunks_pieces (wqe : Nat → Nat → Bool → Wqe) (base : Nat) (hmax : 0 < max) (hmax32 : max < 2 ^ 32)
    (hpos : 0 < length) (hlen : length + max ≤ 2 ^ 64) :
    postChunks wqe max base (chunkCount max length) (chunkCount max length) 0 length base =
      (u64 (base + ((pieces max length).length - 1)),
        (dataEntries wqe (pieces max length)).mapIdx fun i w => .prepare (u64 (base + i)) w) := by
  have hloop := postChunks_eq wqe base hmax hmax32 hlen (chunkCount max length) 0 base (by omega)
  have hcount : chunkCount max length ≠ 0 := by
    rw [chunkCount_eq hlen]
    exact Nat.ne_of_gt (Nat.div_pos (by omega) hmax)
  rw [Nat.zero_mul, Nat.sub_zero, if_neg hcount, Nat.zero_add] at hloop
  rw [hloop, length_pieces hlen, Prod.mk.injEq]
  refine ⟨rfl, ?_⟩
  apply List.ext_getElem
  · simp [dataEntries, length_pieces hlen]
  · intro i h _
    have hi : i < (pieces max length).length := by
      rw [length_pieces hlen]
      simpa using h
    simp [dataEntries, getElem_pieces hi, length_pieces hlen]

theorem pieces_tiles (hmax : 0 < max) : Tiles 0 (pieces max length) length := tiles_pyRange hmax (Nat.zero_le _)

theorem pieces_bounded : ∀ q ∈ pieces max length, q.2 ≤ max := by
  intro q hq
  obtain ⟨d, -, rfl⟩ := List.mem_map.mp hq
  exact Nat.min_le_left _ _

theorem length_dataEntries (wqe : Nat → Nat → Bool → Wqe) (ps : List (Nat × Nat)) :
    (dataEntries wqe ps).length = ps.length := by
  simp [dataEntries]

theorem dataEntries_entry {wqe : Nat → Nat → Bool → Wqe} {Entry : Nat → Nat → Prop → Wqe → Prop}
    (hwqe : ∀ d bytes (last : Prop) [Decidable last], Entry d bytes last (wqe d bytes last)) (ps : List (Nat × Nat)) :
    ∀ i q w, ps[i]? = some q → (dataEntries wqe ps)[i]? = some w → Entry q.1 q.2 (i + 1 = ps.length) w := by
  intro i q w hq hw
  simp only [dataEntries, List.getElem?_mapIdx, hq, Option.map_some, Option.some.injEq] at hw
  subst hw
  exact hwqe q.1 q.2 (i + 1 = ps.length)

/-- There are no more chunks than bytes. -/
theorem chunkCount_le (hmax : 0 < max) (hpos : 0 < length) (hlen : length + max ≤ 2 ^ 64) :
    0 < chunkCount max length ∧ chunkCount max length ≤ length := by
  rw [chunkCount_eq hlen]
  refine ⟨Nat.div_pos (by omega) hmax, Nat.div_le_of_le_mul ?_⟩
  obtain ⟨m, rfl⟩ := Nat.exists_eq_succ_of_ne_zero (Nat.ne_of_gt hmax)
  obtain ⟨l, rfl⟩ := Nat.exists_eq_succ_of_ne_zero (Nat.ne_of_gt hpos)
  rw [Nat.succ_mul, Nat.mul_succ]
  omega

/-- `post_rdma`, unless the number of slots overflows. -/
theorem postRdma_posts (v : Variant) (hmax : 0 < max) (hmax32 : max < 2 ^ 32) (hpos : 0 < length)
    (hlen : length + max ≤ 2 ^ 64) (hslots : v.withMcst = true → chunkCount max length + 1 < 2 ^ 64) (base : Nat)
    (remote local' dump : Addr) (immediate : Nat) :
    PostsExactly max base length (RdmaEntry v remote local' immediate)
      (if v.withMcst then [.dump dump.addr dump.key 1] else [])
      (postRdma v max base remote local' length dump immediate) (pieces max length)
      (dataEntries (v.wqe remote local' immediate) (pieces max length)) := by
  have hcount := length_pieces hlen
  have hdata := length_dataEntries (v.wqe remote local' immediate) (pieces max length)
  have hentry := dataEntries_entry (fun d bytes last _ => wqe_rdmaEntry v remote local' immediate d bytes last) (pieces max length)
  obtain ⟨hchunks, hle⟩ := chunkCount_le hmax hpos hlen
  have hrun := postChunks_pieces (v.wqe remote local' immediate) base hmax hmax32 hpos hlen
  cases hm : v.withMcst with
  | false =>
      refine ⟨pieces_tiles hmax, pieces_bounded, hdata, hentry, ?_, ?_, ?_⟩
      · simp only [Bool.false_eq_true, if_false, List.append_nil, hdata, hcount]
        omega
      · simp only [postRdma, hm, Bool.false_eq_true, if_false, hrun, postOps, List.append_nil, hdata, hcount, u64_succ,
          Nat.add_zero]
        rw [u64_of_lt (by omega), show base + (chunkCount max length - 1) + 1 = base + chunkCount max length by omega]
        rfl
      · simp only [postRdma, hm, Bool.false_eq_true, if_false, hrun, List.append_nil, hdata]
        rfl
  | true =>
      have hslots := hslots hm
      refine ⟨pieces_tiles hmax, pieces_bounded, hdata, hentry, ?_, ?_, ?_⟩
      · simp only [if_true, List.length_append, hdata, hcount, List.length_singleton]
        exact hslots
      · simp only [postRdma, hm, if_true, hrun, postOps, mapIdx_append_singleton, List.length_append, hdata,
          List.length_singleton, hcount, Nat.add_sub_cancel, u64_succ, Nat.add_assoc]
        rw [u64_of_lt hslots]
        rfl
      · simp only [postRdma, hm, if_true, List.length_append, hdata, List.length_singleton, hcount, Nat.add_sub_cancel]
        rfl

theorem postSend_posts (hmax : 0 < max) (hmax32 : max < 2 ^ 32) (hpos : 0 < length) (hlen : length + max ≤ 2 ^ 64)
    (base : Nat) (local' : Addr) :
    PostsExactly max base length (SendEntry local') [] (postSend max base local' length) (pieces max length)
      (dataEntries (sendWqe local') (pieces max length)) := by
  have hcount := length_pieces hlen
  have hdata := length_dataEntries (sendWqe local') (pieces max length)
  obtain ⟨hchunks, hle⟩ := chunkCount_le hmax hpos hlen
  have hrun := postChunks_pieces (sendWqe local') base hmax hmax32 hpos hlen
  refine ⟨pieces_tiles hmax, pieces_bounded, hdata, ?_, ?_, ?_, ?_⟩
  · exact dataEntries_entry (fun d bytes last _ => sendWqe_sendEntry local' d bytes last) (pieces max length)
  · simp only [List.append_nil, hdata, hcount]
    omega
  · simp only [postSend, hrun, postOps, List.append_nil, hdata, hcount, u64_succ]
    rw [show base + (chunkCount max length - 1) + 1 = base + chunkCount max length by omega]
    rfl
  · simp only [postSend, hrun, List.append_nil, hdata]
    rfl

end Rdma4py.Device
