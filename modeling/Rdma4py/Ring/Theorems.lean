import Rdma4py.Ring.Lemmas.Progress
import Rdma4py.Ring.Lemmas.Writes

/-!
# The ring all-reduce

What a successful rank holds, what a write cannot destroy, and that the ranks do not wait for each other forever.
-/

namespace Rdma4py.Ring

open Lib

namespace Communicator

variable {β : Type*} {C : Communicator β} {s : State β} {rank channel iteration owner byte : Nat}

/-! ## The result -/

/-- At the end of a channel every byte of its chunks holds the result. -/
theorem result_of_ended (hcounts : C.Counts s) (hcontents : C.Contents s) (hrank : rank < C.world)
    (hstarted : s.started rank ≠ 0) (hround : (s.channels rank channel).round = C.rounds (s.started rank) channel)
    (hin : (C.current s rank).InChunk channel iteration owner (byte / (C.current s rank).itemsize)) :
    s.work rank byte = C.partialSum (s.started rank) owner (C.world - 1) byte := by
  have hholds := hcontents.work rank hrank hstarted _ _ _ _ hin
  have howner := hin.ranked
  rw [current_world] at howner
  have hstage := stage_lt (c := owner) hrank
  have hend : ∀ slot < (C.current s rank).period, iteration * (C.current s rank).period + slot <
      (s.channels rank channel).round := fun slot hslot => by
    rw [hround, rounds_of_ne_zero hstarted]
    exact (Launch.lt_rounds_iff hslot).mpr ⟨hin.active, hin.running⟩
  have hdelivered := position_le_delivered hcounts hrank channel
  rw [position] at hdelivered
  have hworld := C.two_le_world
  have hperiod : (C.current s rank).period = 2 * (C.world - 1) := by rw [Launch.period, current_world]
  by_cases hlast : stage C.world rank owner < C.world - 1
  · refine hholds.result ⟨hlast, .inl ?_⟩
    have := hend ((C.current s rank).world - 1 + stage C.world rank owner) (by rw [current_world]; omega)
    rw [Launch.arrival]
    omega
  · have hadded := hend (stage C.world rank owner) (by omega)
    have hsum := hholds.sum (fun h => hlast h.1) (.inr (.inl (Nat.le_of_lt hadded)))
    rwa [show stage C.world rank owner = C.world - 1 by omega] at hsum

/-- The result of an element, on a rank all of whose channels have ended with status 0. -/
theorem element_of_succeeded (hcounts : C.Counts s) (hcontents : C.Contents s) (hrank : rank < C.world)
    (hstarted : s.started rank ≠ 0) (hsucceeded : C.Succeeded s rank) {index : Nat}
    (hin : (C.current s rank).InChunk channel iteration owner index) :
    element (s.work rank) (C.current s rank).itemsize index =
      ringSum (C.add (s.started rank)) C.world owner
        (fun rank' => element (C.input (s.started rank) rank') (C.current s rank).itemsize index) (C.world - 1) := by
  have hround := rounds_of_succeeded hcounts hrank hsucceeded channel
  have hbyte : ∀ byte, byte / (C.current s rank).itemsize = index →
      s.work rank byte = C.partialSum (s.started rank) owner (C.world - 1) byte := fun byte h =>
    result_of_ended hcounts hcontents hrank hstarted hround (h ▸ hin)
  rw [element_congr hbyte]
  exact C.element_partialSum (s.started rank) owner (C.world - 1) index

end Communicator

/-- **Ring all-reduce.** In every run of the ranks and the network, with any timeouts and any number of collectives, a
rank all of whose channels have ended with status 0 holds at each element the sum of its chunk's owner, so successful
ranks hold the same bits. No write lands on a byte that the receiver still has to send or reduce before the receive that
the write belongs to, and none in the work buffer of a rank that has finished. -/
theorem ring_allreduce {β : Type*} (C : Communicator β) {work scratch : Nat → Memory β} {s : State β}
    (h : C.machine.Reaches (Communicator.initial work scratch) s) :
    (∀ rank < C.world, s.started rank ≠ 0 → C.Succeeded s rank →
      ∀ index < (C.current s rank).count, ∃ channel iteration owner,
        (C.current s rank).InChunk channel iteration owner index ∧
          element (s.work rank) (C.current s rank).itemsize index =
            ringSum (C.add (s.started rank)) C.world owner
              (fun rank' => element (C.input (s.started rank) rank') (C.current s rank).itemsize index)
              (C.world - 1)) ∧
      (∀ k, k ≠ 0 → ∀ rank < C.world, ∀ rank' < C.world, s.started rank = k → s.started rank' = k →
        C.Succeeded s rank → C.Succeeded s rank' →
          ∀ byte < (C.launch k).count * (C.launch k).itemsize, s.work rank byte = s.work rank' byte) ∧
        ∀ rank channel byte, C.Enabled s (.place rank channel byte) →
          ∀ m ∈ (s.messages rank channel)[s.delivered rank channel]?,
            (m.Covers .work byte →
              ¬ C.Succeeded s rank ∧
                (∀ channel' round, C.StillSends s rank channel' round byte →
                  channel' = channel ∧ s.delivered rank channel < C.base (s.started rank) channel + round) ∧
                  ∀ channel' round, ¬ C.StillReduces s rank channel' round byte) ∧
              (m.Covers .scratch byte → ∀ channel' round, C.StillReduces s rank channel' round byte →
                channel' = channel ∧ s.delivered rank channel = C.base (s.started rank) channel + round) := by
  have hcounts := Communicator.counts_of_reaches h
  have hcontents := Communicator.contents_of_reaches h
  refine ⟨fun rank hrank hstarted hsucceeded index hindex => ?_, ?_, ?_⟩
  · obtain ⟨channel, iteration, owner, hin⟩ := Launch.exists_inChunk hindex
    exact ⟨channel, iteration, owner, hin,
      Communicator.element_of_succeeded hcounts hcontents hrank hstarted hsucceeded hin⟩
  · rintro k hk rank hrank rank' hrank' rfl hsame hsucceeded hsucceeded' byte hbyte
    obtain ⟨channel, iteration, owner, hin⟩ :=
      Launch.exists_inChunk ((Nat.div_lt_iff_lt_mul (C.current s rank).itemsize_pos).mpr hbyte)
    have hin' : (C.current s rank').InChunk channel iteration owner (byte / (C.current s rank').itemsize) := by
      rwa [Communicator.current, hsame]
    rw [Communicator.result_of_ended hcounts hcontents hrank hk
        (Communicator.rounds_of_succeeded hcounts hrank hsucceeded channel) hin,
      Communicator.result_of_ended hcounts hcontents hrank' (hsame ▸ hk)
        (Communicator.rounds_of_succeeded hcounts hrank' hsucceeded' channel) hin', hsame]
  · intro rank channel byte he m hm
    obtain ⟨sender, hsender, rfl⟩ := Communicator.exists_nextRank he.1
    have hwrites := Communicator.writes_next hcounts hsender he
    obtain ⟨-, -, hround, hmessage⟩ := Communicator.outstanding hcounts hsender channel hwrites.posted
    obtain rfl := Option.some.inj (hmessage.symm.trans hm)
    have hcovers := fun into => Launch.message_covers sender into byte
      (Communicator.lt_current_rounds hround)
    refine ⟨fun hwork => ?_, fun hscratch channel' round hreduces => ?_⟩
    · have hgathers : ¬ (C.current s sender).Scatters (s.channels sender channel).round := fun hscatters => by
        have := ((hcovers .work).mp hwork).1
        rw [Launch.buffer, if_pos hscatters] at this
        cases this
      refine ⟨fun hsucceeded => ?_, fun channel' round hsends => ?_, fun channel' round => ?_⟩
      · exact Communicator.not_succeeded hcounts hwrites hgathers hsucceeded
      · exact Communicator.not_stillSends hcounts hsender hwrites hgathers hsends
      · exact Communicator.not_stillReduces hcounts hsender hwrites hgathers channel' round
    · have hscatters : (C.current s sender).Scatters (s.channels sender channel).round := by
        by_contra hgathers
        have := ((hcovers .scratch).mp hscratch).1
        rw [Launch.buffer, if_neg hgathers] at this
        cases this
      exact Communicator.stillReduces_scratch hcounts hsender hwrites hscatters hreduces

/-! ## A run of two ranks -/

/-- One element of one byte. -/
def pairLaunch : Launch := ⟨1, 1, 1, 2, Nat.one_pos, Nat.one_pos, Nat.one_pos, by decide⟩

theorem pairLaunch_world (_ : Nat) : pairLaunch.world = 2 := rfl

/-- Two ranks, with an operation that does not commute. -/
def pair : Communicator Nat :=
  ⟨2, fun _ => pairLaunch, pairLaunch_world, fun _ a b i => 10 * a i + b i, fun _ rank _ => rank + 1⟩

def pairStart : State Nat := Communicator.initial (fun _ _ => 0) fun _ _ => 0

/-- The first rank adds, and sends the result. -/
def pairRun : List Event :=
  [.start 0, .start 1, .postRecv 0 0, .postRecv 1 0, .postSend 1 0, .postSend 0 0, .place 0 0 0, .deliver 0 0,
    .deliver 1 0, .waitSend 0 0, .waitSend 1 0, .waitRecv 0 0, .waitRecv 1 0, .reduce 0 0 0, .advance 0 0, .advance 1 0,
    .postRecv 0 0, .postRecv 1 0, .postSend 0 0, .postSend 1 0, .place 1 0 0, .deliver 1 0, .deliver 0 0,
    .waitSend 0 0, .waitSend 1 0, .waitRecv 0 0, .waitRecv 1 0]

def pairEnd : State Nat := pair.machine.play pairStart pairRun

theorem pairEnd_reached : pair.machine.Reaches pairStart pairEnd := by
  have hplays : pair.untimed.Plays pairStart pairRun := by decide
  exact hplays.reaches.of_when

/-- Both ranks hold `10 * 1 + 2`. -/
theorem ring_allreduce_pair : pairEnd.work 0 0 = pairEnd.work 1 0 ∧ pairEnd.work 0 0 = 12 := by
  obtain ⟨-, hsame, -⟩ := ring_allreduce pair pairEnd_reached
  have hranks : 0 < pair.world ∧ 1 < pair.world := by decide
  have hstarted : pairEnd.started 0 = 1 ∧ pairEnd.started 1 = 1 := by decide
  have hsucceeded : pair.Succeeded pairEnd 0 ∧ pair.Succeeded pairEnd 1 := by decide
  have hbyte : 0 < (pair.launch 1).count * (pair.launch 1).itemsize := by decide
  have hvalue : pairEnd.work 0 0 = 12 := by decide
  exact ⟨hsame 1 Nat.one_ne_zero 0 hranks.1 1 hranks.2 hstarted.1 hstarted.2 hsucceeded.1 hsucceeded.2 0 hbyte, hvalue⟩

/-! ## No deadlock -/

/-- **The ring never deadlocks.** In every run without timeouts, while a channel of a collective that all ranks have
launched is unfinished, some channel can take a step, after steps of the network alone. For each collective, every rank
posts one receive and one message for each round of a channel, so a channel whose two ends have finished has no receive
left. At any time at most one receive and one message of a queue pair is outstanding. -/
theorem ring_progress {β : Type*} (C : Communicator β) {work scratch : Nat → Memory β} {s : State β}
    (h : C.untimed.Reaches (Communicator.initial work scratch) s) :
    (∀ rank < C.world, ∀ channel, (s.channels rank channel).round < C.rounds (s.started rank) channel →
      (∀ rank' < C.world, s.started rank ≤ s.started rank') →
        ∃ t, C.network.Reaches s t ∧ ∃ e : Event, e.OfChannel ∧ C.Enabled t e) ∧
      (∀ rank < C.world, ∀ channel, (s.channels rank channel).round = C.rounds (s.started rank) channel →
        s.receives rank channel = C.base (s.started rank + 1) channel ∧
          (s.messages (C.nextRank rank) channel).length = C.base (s.started rank + 1) channel ∧
            (s.started (C.nextRank rank) = s.started rank →
              (s.channels (C.nextRank rank) channel).round = C.rounds (s.started rank) channel →
                s.delivered (C.nextRank rank) channel = s.receives (C.nextRank rank) channel)) ∧
        ∀ rank < C.world, ∀ channel, s.receives rank channel ≤ s.delivered rank channel + 1 ∧
          (s.messages rank channel).length ≤ s.delivered rank channel + 1 := by
  have hcounts := Communicator.counts_of_reaches (Machine.Reaches.of_when h)
  have hnever := Communicator.not_failed h
  refine ⟨fun rank hrank channel hround hall => ?_, ?_, ?_⟩
  · exact Communicator.exists_step hcounts hnever ⟨hrank, hnever rank channel, hround⟩ hall
  · intro rank hrank channel hround
    have hended := Communicator.posted_of_ended hcounts hrank hround
    refine ⟨hended.1, hended.2, fun hstarted hround' => ?_⟩
    have hnext := C.nextRank_lt rank
    have hended' := Communicator.posted_of_ended hcounts hnext (hstarted.symm ▸ hround')
    have hcounted := hcounts _ hnext channel
    have hle := hcounted.received_le
    have hge := hcounted.le_received
    rw [hstarted, Communicator.base, hround'] at *
    omega
  · intro rank hrank channel
    obtain ⟨sender, hsender, rfl⟩ := Communicator.exists_nextRank hrank
    have hr := (hcounts _ hrank channel).receives_eq
    have hr' := (hcounts _ hrank channel).le_received
    have hm := (hcounts _ hsender channel).messages_eq
    have hm' := (hcounts _ hsender channel).le_acknowledged
    constructor
    · split at hr <;> omega
    · split at hm <;> omega

/-- The state when both ranks have launched. -/
def pairLaunched : State Nat := pair.machine.play pairStart [.start 0, .start 1]

theorem ring_progress_pair :
    ∃ t, pair.network.Reaches pairLaunched t ∧ ∃ e : Event, e.OfChannel ∧ pair.Enabled t e := by
  have hplays : pair.untimed.Plays pairStart [.start 0, .start 1] := by decide
  obtain ⟨hstep, -⟩ := ring_progress pair (s := pairLaunched) hplays.reaches
  have hrank : 0 < pair.world := by decide
  have hround : (pairLaunched.channels 0 0).round < pair.rounds (pairLaunched.started 0) 0 := by decide
  have hall : ∀ rank < pair.world, pairLaunched.started 0 ≤ pairLaunched.started rank := by decide
  exact hstep 0 hrank 0 hround hall

end Rdma4py.Ring
