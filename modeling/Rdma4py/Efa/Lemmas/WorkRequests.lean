import Rdma4py.Efa.WorkRequests
import Rdma4py.Lib.Outcome
import Rdma4py.Lib.Tiling

/-!
# The loop over the chunks

Each turn appends one work request for the next chunk, and the rest of the range is cut in the same way.
-/

namespace Rdma4py.Efa

open Lib

/-! ## Fields -/

/-- The integer fits an unsigned field. -/
def Fits (bits : Nat) (n : Int) : Prop := 0 ≤ n ∧ n < 2 ^ bits

theorem unsigned_ok {bits : Nat} {n : Int} (h : Fits bits n) : unsigned bits n = .ok n.toNat := if_pos h

theorem unsigned_eq_ok {bits : Nat} {n : Int} {v : Nat} (h : unsigned bits n = .ok v) : Fits bits n := by
  unfold unsigned at h
  split at h
  · assumption
  · cases h

/-- The attributes of the destination fit their fields. -/
def Reachable (dest : Option Peer) : Prop := ∀ peer ∈ dest, Fits 32 peer.qpNum ∧ Fits 32 peer.qkey

/-- The fields of a work request to the destination. -/
structure SendWR.To (wr : SendWR) (dest : Option Peer) : Prop where
  ah : wr.ah = dest.map Peer.ah
  remoteQpn : (wr.remoteQpn : Int) = dest.elim 0 Peer.qpNum
  remoteQkey : (wr.remoteQkey : Int) = dest.elim 0 Peer.qkey

theorem SendWR.init_ok {wrId remoteAddr rkey : Int} {dest : Option Peer} (hid : Fits 64 wrId)
    (hremote : Fits 64 remoteAddr) (hrkey : Fits 32 rkey) (hdest : Reachable dest) (sgList : List SGE) (opcode : Opcode)
    (sendFlags : Nat) : ∃ wr, SendWR.init wrId sgList opcode sendFlags remoteAddr rkey dest = .ok wr ∧
      (wr.wrId : Int) = wrId ∧ wr.sgList = sgList ∧ wr.opcode = opcode ∧ wr.sendFlags = sendFlags ∧
        (wr.remoteAddr : Int) = remoteAddr ∧ (wr.rkey : Int) = rkey ∧ wr.To dest := by
  unfold SendWR.init
  rw [unsigned_ok hid, unsigned_ok hremote, unsigned_ok hrkey]
  cases dest with
  | none =>
      exact ⟨_, rfl, Int.toNat_of_nonneg hid.1, rfl, rfl, rfl, Int.toNat_of_nonneg hremote.1,
        Int.toNat_of_nonneg hrkey.1, rfl, rfl, rfl⟩
  | some peer =>
      obtain ⟨hqpn, hqkey⟩ := hdest peer rfl
      simp only [unsigned_ok hqpn, unsigned_ok hqkey]
      exact ⟨_, rfl, Int.toNat_of_nonneg hid.1, rfl, rfl, rfl, Int.toNat_of_nonneg hremote.1,
        Int.toNat_of_nonneg hrkey.1, rfl, Int.toNat_of_nonneg hqpn.1, Int.toNat_of_nonneg hqkey.1⟩

theorem SendWR.of_init_ok {wrId remoteAddr rkey : Int} {sgList : List SGE} {opcode : Opcode} {sendFlags : Nat}
    {dest : Option Peer} {wr : SendWR} (h : SendWR.init wrId sgList opcode sendFlags remoteAddr rkey dest = .ok wr) :
    Fits 64 wrId ∧ Fits 32 rkey ∧ Reachable dest := by
  simp only [SendWR.init, bind_eq, bind_eq_ok] at h
  obtain ⟨_, hid, _, -, _, hrkey, hdest⟩ := h
  refine ⟨unsigned_eq_ok hid, unsigned_eq_ok hrkey, ?_⟩
  intro peer hpeer
  obtain rfl := Option.mem_def.mp hpeer
  simp only [bind_eq_ok] at hdest
  obtain ⟨_, hqpn, _, hqkey, -⟩ := hdest
  exact ⟨unsigned_eq_ok hqpn, unsigned_eq_ok hqkey⟩

theorem SGE.init_ok {target length lkey : Int} (htarget : Fits 64 target) (hlength : Fits 32 length)
    (hlkey : Fits 32 lkey) : SGE.init target length lkey 0 = .ok ⟨target.toNat, length.toNat, lkey.toNat⟩ := by
  unfold Fits at *
  unfold SGE.init
  rw [if_neg (by omega), if_neg (by omega), if_neg (by omega), if_neg (by omega), if_neg (by omega), Int.add_zero]

/-! ## The number of chunks -/

/-- The length over the size of a chunk, rounded up. -/
def chunkCount (length chunk : Int) : Int := (length + chunk - 1) / chunk

theorem chunkCount_zero {chunk : Int} (h : 0 < chunk) : chunkCount 0 chunk = 0 :=
  Int.ediv_eq_zero_of_lt (by omega) (by omega)

/-- One chunk and those of what it leaves. -/
theorem chunkCount_step {length chunk : Int} (h : 0 < chunk) (hlength : 0 < length) :
    chunkCount length chunk = 1 + chunkCount (length - min chunk length) chunk := by
  rcases Int.le_total chunk length with hle | hle
  · have hsplit : length + chunk - 1 = length - chunk + chunk - 1 + 1 * chunk := by omega
    rw [Int.min_eq_left hle, chunkCount, hsplit, Int.add_mul_ediv_right _ _ (by omega), Int.add_comm]
    rfl
  · have hsplit : length + chunk - 1 = length - 1 + 1 * chunk := by omega
    rw [Int.min_eq_right hle, Int.sub_self, chunkCount_zero h, chunkCount, hsplit,
      Int.add_mul_ediv_right _ _ (by omega), Int.ediv_eq_zero_of_lt (by omega) (by omega)]
    rfl

/-! ## The loop -/

/-- The local range of a work request, as an offset and a length. -/
def SendWR.ranges (wr : SendWR) : List (Nat × Nat) := wr.sgList.map fun sge => (sge.addr, sge.length)

/-- What every work request of a transfer is. -/
structure SendWR.Of (wr : SendWR) (opcode : Opcode) (mr : MR) (dest : Option Peer) (remoteAddr rkey offset chunk : Int) :
    Prop where
  range : ∃ sge, wr.sgList = [sge] ∧ 1 ≤ sge.length ∧ (sge.length : Int) ≤ chunk ∧ sge.lkey = mr.lkey ∧
    (wr.remoteAddr : Int) - sge.addr = remoteAddr - (mr.addr + offset)
  opcode : wr.opcode = opcode
  sendFlags : wr.sendFlags = signaled
  rkey : (wr.rkey : Int) = rkey
  destination : wr.To dest

/-- The values that the fields of the work requests have room for. -/
structure Transfer.Bounded (t : Transfer) : Prop where
  offset : 0 ≤ t.offset
  length : t.offset + t.length ≤ t.mr.length
  chunk : t.chunk < 2 ^ 32
  remoteAddr : 0 ≤ t.remoteAddr ∧ t.remoteAddr + t.length ≤ 2 ^ 64
  wrId : 0 ≤ t.wrId ∧ t.wrId + chunkCount t.length t.chunk ≤ 2 ^ 64
  rkey : Fits 32 t.rkey
  dest : Reachable t.dest

variable {t : Transfer} {pos : Int} {wrs : List SendWR}

/-- A chunk that begins inside of the range. -/
theorem Transfer.Bounded.turn (h : t.Bounded) (wrs : List SendWR) (hpos : 0 ≤ pos) (hlt : pos < t.length)
    (hid : t.wrId + wrs.length < 2 ^ 64) :
    ∃ sge wr, SGE.init (t.mr.addr + t.offset + pos) (min t.chunk (t.length - pos)) t.mr.lkey 0 = .ok sge ∧
      SendWR.init (t.wrId + wrs.length) [sge] t.opcode signaled (t.remoteAddr + pos) t.rkey t.dest = .ok wr ∧
      (wr.wrId : Int) = t.wrId + wrs.length ∧
      wr.ranges = [((t.mr.addr + t.offset + pos).toNat, (min t.chunk (t.length - pos)).toNat)] ∧
      wr.Of t.opcode t.mr t.dest t.remoteAddr t.rkey t.offset t.chunk := by
  have hchunk := t.chunk_pos
  have hsmall := h.chunk
  have hoffset := h.offset
  have hlength := h.length
  have hfits := t.mr.fits
  have hlkey := t.mr.lkey_lt
  obtain ⟨hremote, hremote'⟩ := h.remoteAddr
  have hids := h.wrId.1
  have htarget : Fits 64 (t.mr.addr + t.offset + pos) := ⟨by omega, by omega⟩
  have hlen : Fits 32 (min t.chunk (t.length - pos)) := ⟨by omega, by omega⟩
  have hkey : Fits 32 t.mr.lkey := ⟨by omega, by omega⟩
  have hid' : Fits 64 (t.wrId + wrs.length) := ⟨by omega, hid⟩
  have hremote'' : Fits 64 (t.remoteAddr + pos) := ⟨by omega, by omega⟩
  have hsge := SGE.init_ok htarget hlen hkey
  obtain ⟨wr, hwr, hwrId, hsg, hopcode, hflags, haddr, hrkey, hto⟩ :=
    SendWR.init_ok hid' hremote'' h.rkey h.dest
      [⟨(t.mr.addr + t.offset + pos).toNat, (min t.chunk (t.length - pos)).toNat, (t.mr.lkey : Int).toNat⟩] t.opcode signaled
  refine ⟨_, wr, hsge, hwr, hwrId, by rw [SendWR.ranges, hsg]; rfl, ⟨?_, hopcode, hflags, hrkey, hto⟩⟩
  exact ⟨_, hsg, by dsimp only; omega, by dsimp only; omega, rfl, by rw [haddr]; dsimp only; omega⟩

/-- The work requests for the rest of the range. -/
structure Transfer.Slices (t : Transfer) (pos : Int) (first : Int) (wrs : List SendWR) : Prop where
  count : (wrs.length : Int) = chunkCount (t.length - pos) t.chunk
  tiles : Tiles (t.mr.addr + t.offset + pos).toNat (wrs.flatMap SendWR.ranges) (t.mr.addr + t.offset + t.length).toNat
  ids : ∀ (i : Nat) wr, wrs[i]? = some wr → (wr.wrId : Int) = first + i
  each : ∀ wr ∈ wrs, wr.Of t.opcode t.mr t.dest t.remoteAddr t.rkey t.offset t.chunk

theorem Transfer.loop_ok (h : t.Bounded) (wrs : List SendWR) (hpos : 0 ≤ pos) (hle : pos ≤ t.length)
    (hid : t.wrId + wrs.length + chunkCount (t.length - pos) t.chunk ≤ 2 ^ 64) :
    ∃ new, t.loop pos wrs = .ok (wrs ++ new) ∧ t.Slices pos (t.wrId + wrs.length) new := by
  have hchunk := t.chunk_pos
  have hoffset := h.offset
  -- on the rest of the range
  induction hn : (t.length - pos).toNat using Nat.strong_induction_on generalizing pos wrs with
  | _ n ih =>
      rw [Transfer.loop]
      rcases Int.lt_or_eq_of_le hle with hlt | rfl
      · rw [if_pos hlt]
        have hstep := chunkCount_step hchunk (show 0 < t.length - pos by omega)
        have hrest : 0 ≤ chunkCount (t.length - pos - min t.chunk (t.length - pos)) t.chunk :=
          Int.ediv_nonneg (by omega) hchunk.le
        obtain ⟨sge, wr, hsge, hwr, hwrId, hranges, hof⟩ := h.turn wrs hpos hlt (by omega)
        have hlength : ((wrs ++ [wr]).length : Int) = wrs.length + 1 := by simp
        have hpos' : 0 ≤ pos + min t.chunk (t.length - pos) := by omega
        have hle' : pos + min t.chunk (t.length - pos) ≤ t.length := by omega
        obtain ⟨new, hnew, hslices⟩ := ih _ (by omega) (wrs ++ [wr]) hpos' hle' (by rw [hlength, ← Int.sub_sub]; omega) rfl
        have hend : t.mr.addr + t.offset + pos + min t.chunk (t.length - pos) =
            t.mr.addr + t.offset + (pos + min t.chunk (t.length - pos)) := by omega
        refine ⟨wr :: new, ?_, ?_, ?_, ?_, ?_⟩
        · simp only [hsge, hwr, bind_eq, Except.bind, hnew, List.append_assoc, List.singleton_append]
        · have hcount := hslices.count
          rw [← Int.sub_sub] at hcount
          rw [List.length_cons]
          push_cast
          omega
        · rw [List.flatMap_cons, hranges]
          refine ⟨rfl, by dsimp only; omega, ?_⟩
          have htiles := hslices.tiles
          rw [← hend, Int.toNat_add (by omega) (by omega)] at htiles
          exact htiles
        · intro i wr' hi
          cases i with
          | zero =>
              obtain rfl := Option.some.inj hi
              rw [hwrId]
              simp
          | succ i =>
              have := hslices.ids i wr' hi
              rw [hlength] at this
              push_cast
              omega
        · exact List.forall_mem_cons.mpr ⟨hof, hslices.each⟩
      · rw [if_neg (Int.lt_irrefl _)]
        refine ⟨[], by rw [List.append_nil], ?_, rfl, by simp, by simp⟩
        rw [Int.sub_self, chunkCount_zero hchunk]
        rfl

/-- A loop that ends has made its first work request. -/
theorem Transfer.of_loop_ok (hlength : 0 < t.length) (h : t.loop 0 [] = .ok wrs) :
    0 ≤ t.wrId ∧ Fits 32 t.rkey ∧ Reachable t.dest := by
  rw [Transfer.loop, if_pos hlength] at h
  simp only [bind_eq, bind_eq_ok] at h
  obtain ⟨_, -, wr, hwr, -⟩ := h
  obtain ⟨hid, hrkey, hdest⟩ := SendWR.of_init_ok hwr
  have := hid.1
  exact ⟨by simpa using this, hrkey, hdest⟩

end Rdma4py.Efa
