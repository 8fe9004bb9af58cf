import Rdma4py.Efa.Lemmas.WorkRequests

/-!
# Bulk transfers: results

The work requests of a read or a write cut its range, or there are none.
-/

namespace Rdma4py.Efa

open Lib

/-- `write_wrs` or `read_wrs`. -/
def wrsOf : Opcode → MR → Option Peer → Int → Int → Option Int → Int → Int → Int → Except Exn (List SendWR)
  | .rdmaWrite => writeWrs
  | .rdmaRead => readWrs

theorem wrsOf_eq (opcode : Opcode) : wrsOf opcode = chunkedRdmaWrs opcode := by
  cases opcode <;> rfl

/-- Arguments for which no list is returned. -/
def Refused (mr : MR) (dest : Option Peer) (rkey length offset chunk wrId : Int) : Prop :=
  chunk ≤ 0 ∨ length ≤ 0 ∨ (offset < 0 ∨ mr.length < offset + length) ∨ wrId < 0 ∨ ¬ Fits 32 rkey ∨ ¬ Reachable dest

theorem not_ok_of_refused {opcode : Opcode} {mr : MR} {dest : Option Peer} {remoteAddr rkey offset chunk wrId : Int}
    {length : Option Int} (h : Refused mr dest rkey (length.getD (mr.length - offset)) offset chunk wrId)
    (wrs : List SendWR) : chunkedRdmaWrs opcode mr dest remoteAddr rkey length offset chunk wrId ≠ .ok wrs := by
  intro hok
  unfold chunkedRdmaWrs at hok
  dsimp only at hok
  split at hok
  · cases hok
  split at hok
  · cases hok
  · have hloop := Transfer.of_loop_ok (by dsimp only; omega) hok
    obtain ⟨hid, hrkey, hdest⟩ := hloop
    rcases h with h | h | h | h | h | h
    · omega
    · omega
    · omega
    · exact absurd hid (Int.not_le.mpr h)
    · exact h hrkey
    · exact h hdest

theorem chunkedRdmaWrs_ok {t : Transfer} {length : Option Int} (hlength : length.getD (t.mr.length - t.offset) = t.length)
    (hpos : 0 < t.length) (h : t.Bounded) :
    ∃ wrs, chunkedRdmaWrs t.opcode t.mr t.dest t.remoteAddr t.rkey length t.offset t.chunk t.wrId = .ok wrs ∧
      t.Slices 0 t.wrId wrs := by
  have hchunk := t.chunk_pos
  have hoffset := h.offset
  have hrange := h.length
  have hids := h.wrId.2
  obtain ⟨wrs, hwrs, hslices⟩ := Transfer.loop_ok h [] (Int.le_refl 0) hpos.le (by simpa using hids)
  refine ⟨wrs, ?_, by simpa using hslices⟩
  simp only [chunkedRdmaWrs, hlength]
  rw [dif_neg (by omega), if_neg (by omega)]
  exact hwrs

/-- **Bulk transfers.** No list is returned for a chunk that is not positive, a range that is empty or not inside the
memory region, a negative request identifier, or a key or a destination that does not fit its fields. Otherwise, where
the remote addresses and the request identifiers have 64 bits and a chunk has 32, the work requests cut the range in
order. -/
theorem bulk_transfer :
    (∀ opcode mr dest remoteAddr rkey length offset chunk wrId,
      Refused mr dest rkey (length.getD (mr.length - offset)) offset chunk wrId →
        ∃ e, wrsOf opcode mr dest remoteAddr rkey length offset chunk wrId = .error e) ∧
    ∀ (t : Transfer) (length : Option Int), length.getD (t.mr.length - t.offset) = t.length → 0 < t.length → t.Bounded →
      ∃ wrs, wrsOf t.opcode t.mr t.dest t.remoteAddr t.rkey length t.offset t.chunk t.wrId = .ok wrs ∧
        t.Slices 0 t.wrId wrs := by
  constructor
  · intro opcode mr dest remoteAddr rkey length offset chunk wrId h
    rw [wrsOf_eq]
    cases hwrs : chunkedRdmaWrs opcode mr dest remoteAddr rkey length offset chunk wrId with
    | error e => exact ⟨e, rfl⟩
    | ok wrs => exact absurd hwrs (not_ok_of_refused h wrs)
  · intro t length hlength hpos h
    rw [wrsOf_eq]
    exact chunkedRdmaWrs_ok hlength hpos h

/-! ## A region of one thousand bytes -/

def thousand : MR := ⟨0x1000, 1000, 0xAB, by decide, by decide⟩

/-- All of the region but its first hundred bytes. -/
def readThousand : Transfer :=
  ⟨.rdmaRead, thousand, some ⟨1, 5, 6⟩, 0x9000, 1, 900, 100, 500, 7, by decide⟩

theorem bulk_transfer_thousand :
    ∃ wrs, readWrs thousand (some ⟨1, 5, 6⟩) 0x9000 1 none 100 500 7 = .ok wrs ∧ readThousand.Slices 0 7 wrs := by
  have hdest : Reachable (some ⟨1, 5, 6⟩) := by
    rintro peer hpeer
    obtain rfl := Option.some.inj hpeer
    exact ⟨by unfold Fits; decide, by unfold Fits; decide⟩
  have hbounded : readThousand.Bounded :=
    ⟨by decide, by decide, by decide, by decide, by decide, by unfold Fits; decide, hdest⟩
  exact bulk_transfer.2 readThousand none rfl (by decide) hbounded

/-- A negative request identifier is in the bounds, and raises. -/
theorem bulk_transfer_negative :
    (0x9000 + 900 ≤ (2 : Int) ^ 64 ∧ -1 + chunkCount 900 500 ≤ 2 ^ 64 ∧ (500 : Int) < 2 ^ 32) ∧
      readWrs thousand (some ⟨1, 5, 6⟩) 0x9000 1 none 100 500 (-1) = .error .overflowError := by
  refine ⟨by decide, ?_⟩
  simp only [readWrs, chunkedRdmaWrs]
  rw [dif_neg (by decide), if_neg (by decide), Transfer.loop, if_pos (by decide)]
  rfl

end Rdma4py.Efa
