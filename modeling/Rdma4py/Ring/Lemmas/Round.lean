import Rdma4py.Ring.Lemmas.Layout
import Rdma4py.Ring.Round

/-!
# Owners and stages

A chunk goes round the ring twice: first its sum grows from rank to rank, then the result is handed on. The stage of a
rank for a chunk is the number of additions after which the sum passes the rank.
-/

namespace Rdma4py.Ring

theorem mod_cases {x w : Nat} (h : x < 3 * w) :
    x < w ∧ x % w = x ∨ (w ≤ x ∧ x < 2 * w) ∧ x % w = x - w ∨ 2 * w ≤ x ∧ x % w = x - 2 * w := by
  rcases Nat.lt_or_ge x w with hlt | hge
  · exact .inl ⟨hlt, Nat.mod_eq_of_lt hlt⟩
  rcases Nat.lt_or_ge x (2 * w) with hlt | hge'
  · refine .inr (.inl ⟨⟨hge, hlt⟩, ?_⟩)
    rw [Nat.mod_eq_sub_mod hge, Nat.mod_eq_of_lt (by omega)]
  · refine .inr (.inr ⟨hge', ?_⟩)
    rw [Nat.mod_eq_sub_mod hge, Nat.mod_eq_sub_mod (by omega), Nat.mod_eq_of_lt (by omega)]
    omega

/-- The additions that come before the rank's own, for a chunk of this owner. -/
def stage (world rank owner : Nat) : Nat := (rank + 2 * world - owner - 1) % world

section Stage

variable {w r c : Nat}

theorem stage_lt (hr : r < w) : stage w r c < w := Nat.mod_lt _ (by omega)

/-- The rank of a stage. -/
theorem rank_of_stage (hr : r < w) (hc : c < w) : (c + 1 + stage w r c) % w = r := by
  have hs := stage_lt (c := c) hr
  rw [stage] at *
  have h₁ := mod_cases (x := r + 2 * w - c - 1) (w := w) (by omega)
  have h₂ := mod_cases (x := c + 1 + (r + 2 * w - c - 1) % w) (w := w) (by omega)
  omega

/-- The next rank adds next. -/
theorem stage_next (hr : r < w) (hc : c < w) :
    stage w ((r + 1) % w) c = if stage w r c + 1 = w then 0 else stage w r c + 1 := by
  have h₀ := mod_cases (x := r + 1) (w := w) (by omega)
  have h₁ := mod_cases (x := r + 2 * w - c - 1) (w := w) (by omega)
  have h₂ := mod_cases (x := (r + 1) % w + 2 * w - c - 1) (w := w) (by omega)
  unfold stage
  split <;> omega

end Stage

namespace Launch

variable {l : Launch} {rank owner round channel iteration slot : Nat}

theorem period_pos (l : Launch) : 0 < l.period := by
  have := l.two_le_world
  rw [period]
  omega

/-! ## Rounds, iterations and slots -/

theorem iteration_slot (l : Launch) (round : Nat) : l.iteration round * l.period + l.slot round = round :=
  Nat.div_add_mod' ..

theorem slot_lt (l : Launch) (round : Nat) : l.slot round < l.period := Nat.mod_lt _ l.period_pos

theorem iteration_eq_of (h : slot < l.period) : l.iteration (iteration * l.period + slot) = iteration :=
  eq_div_of_bounds (by omega) (by omega)

theorem slot_eq_of (h : slot < l.period) : l.slot (iteration * l.period + slot) = slot := by
  have := l.iteration_slot (iteration * l.period + slot)
  rw [iteration_eq_of h] at this
  omega

/-- Numbers that differ in the iteration differ. -/
theorem iteration_slot_inj {iteration' slot' : Nat} (h : slot < l.period) (h' : slot' < l.period)
    (heq : iteration * l.period + slot = iteration' * l.period + slot') : iteration = iteration' ∧ slot = slot' := by
  have h₁ : l.iteration (iteration * l.period + slot) = iteration := iteration_eq_of h
  have h₂ : l.slot (iteration * l.period + slot) = slot := slot_eq_of h
  rw [heq, iteration_eq_of h'] at h₁
  rw [heq, slot_eq_of h'] at h₂
  exact ⟨h₁.symm, h₂.symm⟩

theorem active_of_lt_rounds (h : round < l.rounds channel) : channel < l.activeChannels := by
  unfold rounds at h
  split at h
  · assumption
  · omega

theorem running_of_lt_rounds (h : round < l.rounds channel) : l.iteration round < l.iterations channel := by
  rw [rounds, if_pos (active_of_lt_rounds h)] at h
  exact (Nat.div_lt_iff_lt_mul l.period_pos).mpr h

theorem lt_rounds_iff (h : slot < l.period) :
    iteration * l.period + slot < l.rounds channel ↔ channel < l.activeChannels ∧ iteration < l.iterations channel := by
  constructor
  · intro hlt
    have := running_of_lt_rounds hlt
    rw [iteration_eq_of h] at this
    exact ⟨active_of_lt_rounds hlt, this⟩
  · rintro ⟨hactive, hrunning⟩
    rw [rounds, if_pos hactive]
    have := Nat.mul_le_mul_right l.period (Nat.succ_le_of_lt hrunning)
    rw [Nat.succ_mul] at this
    omega

/-! ## Owners -/

theorem sent_eq_iff_of_scatters (hs : l.Scatters round) (hr : rank < l.world) (hc : owner < l.world) :
    l.sent rank round = owner ↔ stage l.world rank owner = l.slot round := by
  rw [sent, step, if_pos hs, sendOwner]
  rw [Scatters] at hs
  have h₁ := mod_cases (x := rank + l.world - (l.slot round + 1)) (w := l.world) (by omega)
  have h₂ := mod_cases (x := rank + 2 * l.world - owner - 1) (w := l.world) (by omega)
  rw [stage]
  omega

theorem received_eq_iff (hs : l.Scatters round) (hr : rank < l.world) (hc : owner < l.world) :
    l.received rank round = owner ↔ stage l.world rank owner = l.slot round + 1 := by
  rw [received, step, if_pos hs, recvOwner]
  rw [Scatters] at hs
  have h₁ := mod_cases (x := rank + 2 * l.world - (l.slot round + 1) - 1) (w := l.world) (by omega)
  have h₂ := mod_cases (x := rank + 2 * l.world - owner - 1) (w := l.world) (by omega)
  rw [stage]
  omega

/-- In the all-gather, the stage of the receiver counts the steps. -/
theorem sent_eq_iff_of_gathers (hs : ¬ l.Scatters round) (hr : rank < l.world) (hc : owner < l.world) :
    l.sent rank round = owner ↔ stage l.world ((rank + 1) % l.world) owner = l.slot round - (l.world - 1) := by
  have hlt := l.slot_lt round
  have hw := l.two_le_world
  rw [sent, step, if_neg hs, sendOwner]
  rw [Scatters] at hs
  rw [period] at hlt
  have h₁ := mod_cases (x := rank + l.world - (l.slot round - (l.world - 1))) (w := l.world) (by omega)
  have h₂ := mod_cases (x := (rank + 1) % l.world + 2 * l.world - owner - 1) (w := l.world)
    (by have := Nat.mod_lt (rank + 1) l.world_pos; omega)
  have h₃ := mod_cases (x := rank + 1) (w := l.world) (by omega)
  rw [stage]
  omega

/-- The receiver adds what the sender sends. -/
theorem received_next (rank : Nat) (hs : l.Scatters round) (hr : rank < l.world) :
    l.received ((rank + 1) % l.world) round = l.sent rank round := by
  rw [received, sent, step, if_pos hs, recvOwner, sendOwner]
  rw [Scatters] at hs
  have h₁ := mod_cases (x := rank + 1) (w := l.world) (by omega)
  have h₂ := mod_cases (x := (rank + 1) % l.world + 2 * l.world - (l.slot round + 1) - 1) (w := l.world) (by omega)
  have h₃ := mod_cases (x := rank + l.world - (l.slot round + 1)) (w := l.world) (by omega)
  omega

theorem sent_lt (l : Launch) (rank round : Nat) : l.sent rank round < l.world := Nat.mod_lt _ l.world_pos

theorem received_lt (l : Launch) (rank round : Nat) : l.received rank round < l.world := Nat.mod_lt _ l.world_pos

/-! ## What a message covers -/

/-- The bytes of a range of elements. -/
theorem byte_in_range (start length byte : Nat) {s : Nat} (hs : 0 < s) :
    start * s ≤ byte ∧ byte < start * s + length * s ↔ start ≤ byte / s ∧ byte / s < start + length := by
  rw [← Nat.add_mul, Nat.le_div_iff_mul_le hs, Nat.div_lt_iff_lt_mul hs]

theorem message_covers (rank : Nat) (into : Buffer) (byte : Nat) (h : round < l.rounds channel) :
    (l.message rank channel round).Covers into byte ↔
      into = l.buffer round ∧ l.InChunk channel (l.iteration round) (l.sent rank round) (byte / l.itemsize) := by
  have hrange := byte_in_range (l.chunkElement channel (l.iteration round) (l.sent rank round))
    (l.chunkLength channel (l.iteration round) (l.sent rank round)) byte l.itemsize_pos
  unfold message
  dsimp only
  split
  · simp only [Message.Covers, hrange, eq_comm (a := into)]
    refine and_congr_right fun _ => ⟨fun ⟨h₁, h₂⟩ => ?_, fun hin => ⟨hin.lower, hin.upper⟩⟩
    exact ⟨active_of_lt_rounds h, running_of_lt_rounds h, l.sent_lt .., h₁, h₂⟩
  · simp only [Message.Covers, false_iff]
    rintro ⟨-, hin⟩
    have := hin.lower
    have := hin.upper
    omega

theorem reduces_iff {element : Nat} (h : round < l.rounds channel) :
    l.Reduces rank channel round element ↔
      l.Scatters round ∧ l.InChunk channel (l.iteration round) (l.received rank round) element :=
  ⟨fun ⟨hs, h₁, h₂⟩ => ⟨hs, active_of_lt_rounds h, running_of_lt_rounds h, l.received_lt .., h₁, h₂⟩,
    fun ⟨hs, hin⟩ => ⟨hs, hin.lower, hin.upper⟩⟩

/-- A rank reduces a chunk in the round before its stage is reached. -/
theorem reduces_iff_stage {element : Nat} (hin : l.InChunk channel iteration owner element)
    (hround : round < l.rounds channel) (hs : l.Scatters round) (hr : rank < l.world) :
    l.Reduces rank channel round element ↔ iteration * l.period + stage l.world rank owner = round + 1 := by
  have hcut := l.iteration_slot round
  have hstage := stage_lt (c := owner) hr
  have hworld := l.two_le_world
  have hperiod : stage l.world rank owner < l.period := by
    rw [period]
    omega
  rw [reduces_iff hround]
  constructor
  · rintro ⟨-, hin'⟩
    obtain ⟨-, rfl, rfl⟩ := hin.unique hin'
    have := (received_eq_iff hs hr hin.ranked).mp rfl
    omega
  · intro heq
    have hslot : l.slot round + 1 < l.period := by
      rw [Scatters] at hs
      rw [period]
      omega
    have heq' : iteration * l.period + stage l.world rank owner = l.iteration round * l.period + (l.slot round + 1) := by
      omega
    obtain ⟨rfl, hslot'⟩ := iteration_slot_inj hperiod hslot heq'
    exact ⟨hs, (received_eq_iff hs hr hin.ranked).mpr hslot' ▸ hin⟩

end Launch

end Rdma4py.Ring
