import Rdma4py.Ring.Lemmas.Contents

/-!
# What the network writes

A write takes the byte of the message that the sender's round posted. It lands where the receiver expects it.
-/

namespace Rdma4py.Ring

open Lib

namespace Communicator

variable {β : Type*} {C : Communicator β} {s s' : State β} {e : Event} {rank channel iteration owner byte k : Nat}

/-! ## Writes -/

/-- The network writes one byte of the message of the sender's round. -/
structure Writes (C : Communicator β) (s s' : State β) (rank channel byte : Nat) : Prop where
  started : s'.started = s.started
  channels : s'.channels = s.channels
  messages : s'.messages = s.messages
  delivered : s'.delivered = s.delivered
  placed : s'.placed = set₂ s.placed (C.nextRank rank) channel
    (Function.update (s.placed (C.nextRank rank) channel) byte true)
  posted : s.delivered (C.nextRank rank) channel < (s.messages (C.nextRank rank) channel).length
  position : s.delivered (C.nextRank rank) channel = C.position s rank channel
  round_lt : (s.channels rank channel).round < C.rounds (s.started rank) channel
  chunk : (C.current s rank).InChunk channel ((C.current s rank).iteration (s.channels rank channel).round)
    ((C.current s rank).sent rank (s.channels rank channel).round) (byte / (C.current s rank).itemsize)
  scatter : (C.current s rank).Scatters (s.channels rank channel).round →
    s'.work = s.work ∧ s'.scratch = Function.update s.scratch (C.nextRank rank)
      (Function.update (s.scratch (C.nextRank rank)) byte (s.work rank byte))
  gather : ¬ (C.current s rank).Scatters (s.channels rank channel).round →
    s'.scratch = s.scratch ∧ s'.work = Function.update s.work (C.nextRank rank)
      (Function.update (s.work (C.nextRank rank)) byte (s.work rank byte))

theorem writes_next (hcounts : C.Counts s) (hrank : rank < C.world)
    (he : C.Enabled s (.place (C.nextRank rank) channel byte)) :
    C.Writes s (C.next s (.place (C.nextRank rank) channel byte)) rank channel byte := by
  obtain ⟨-, -, m, hm, hcovers⟩ := he
  obtain ⟨hlt, -⟩ := List.getElem?_eq_some_iff.mp hm
  obtain ⟨hposition, -, hround, hmessage⟩ := outstanding hcounts hrank channel hlt
  obtain rfl := Option.some.inj (hmessage.symm.trans hm)
  have hcover := fun into => Launch.message_covers rank into byte (lt_current_rounds hround)
  have hin := ((hcover .work).mp · |>.2) |> fun f => hcovers.elim f ((hcover .scratch).mp · |>.2)
  have hput := (hcover _).mpr ⟨rfl, hin⟩
  cases hcase : (C.current s rank).message rank channel (s.channels rank channel).round with
  | send =>
      rw [hcase] at hput
      exact hput.elim
  | put into offset length =>
      rw [hcase] at hput hmessage
      obtain ⟨hinto, -⟩ := hput
      cases into with
      | work =>
          have hgathers : ¬ (C.current s rank).Scatters (s.channels rank channel).round := fun h => by
            rw [Launch.buffer, if_pos h] at hinto
            cases hinto
          simp only [next, hmessage, prevRank_nextRank hrank]
          exact ⟨rfl, rfl, rfl, rfl, rfl, hlt, hposition, hround, hin, fun h => absurd h hgathers, fun _ => ⟨rfl, rfl⟩⟩
      | scratch =>
          have hscatters : (C.current s rank).Scatters (s.channels rank channel).round := by
            by_contra h
            rw [Launch.buffer, if_neg h] at hinto
            cases hinto
          simp only [next, hmessage, prevRank_nextRank hrank]
          exact ⟨rfl, rfl, rfl, rfl, rfl, hlt, hposition, hround, hin, fun _ => ⟨rfl, rfl⟩, fun h => absurd hscatters h⟩

namespace Writes

variable {channel' byte' number rank' : Nat}

theorem arrived (h : C.Writes s s' rank channel byte) :
    Arrived s' rank' channel' number byte' ↔ Arrived s rank' channel' number byte' ∨
      ((rank' = C.nextRank rank ∧ channel' = channel ∧ byte' = byte) ∧ number = s.delivered rank' channel') := by
  rw [Arrived, Arrived, h.delivered, h.placed, set₂_apply]
  by_cases hcase : rank' = C.nextRank rank ∧ channel' = channel
  · obtain ⟨rfl, rfl⟩ := hcase
    by_cases hbyte : byte' = byte
    · subst hbyte
      simp only [and_self, reduceIte, Function.update_self, and_true, true_and]
      omega
    · simp [hbyte]
  · simp only [hcase, reduceIte]
    refine ⟨.inl, fun h => h.resolve_right fun hnew => hcase ?_⟩
    exact ⟨hnew.1.1, hnew.1.2.1⟩

theorem hasResult (h : C.Writes s s' rank channel byte) :
    C.HasResult s' rank' channel' iteration owner byte' ↔
      stage C.world rank' owner < C.world - 1 ∧
        Arrived s' rank' channel' (C.base (s.started rank') channel' +
          (C.current s rank').arrival iteration (stage C.world rank' owner)) byte' := by
  rw [HasResult, current, h.started]
  rfl

theorem fresh (h : C.Writes s s' rank channel byte) (hfresh : C.Fresh s) : C.Fresh s' := by
  intro rank' hrank' channel' byte' hbyte
  rw [h.placed, set₂_apply] at hbyte
  rw [h.delivered, h.messages]
  split at hbyte
  next hcase =>
    obtain ⟨rfl, rfl⟩ := hcase
    exact h.posted
  · exact hfresh rank' hrank' channel' byte' hbyte

end Writes

/-- Where the receiver of an outstanding message of the all-gather stands. -/
theorem started_of_gathers (hcounts : C.Counts s)
    (hposition : s.delivered (C.nextRank rank) channel = C.position s rank channel)
    (hround : (s.channels rank channel).round < C.rounds (s.started rank) channel)
    (hgathers : ¬ (C.current s rank).Scatters (s.channels rank channel).round) :
    s.started (C.nextRank rank) = s.started rank := by
  have hslot := (C.current s rank).iteration_slot (s.channels rank channel).round
  have hworld := C.two_le_world
  rw [Launch.Scatters, current_world] at hgathers
  have hle := delivered_le hcounts (C.nextRank_lt rank) channel
  have hge := position_le_delivered hcounts (C.nextRank_lt rank) channel
  rw [position] at hposition hge
  refine Nat.le_antisymm ?_ ?_
  · by_contra hlt
    have := base_mono (C := C) (Nat.not_le.mp hlt) channel
    rw [base] at this
    omega
  · by_contra hlt
    have hlt' : s.started (C.nextRank rank) + 1 ≤ s.started rank := Nat.not_le.mp hlt
    have := base_mono (C := C) hlt' channel
    omega

/-- A chunk that the rank hands on has its result. -/
theorem arrival_of_gathers {l : Launch} {round : Nat} (hrank : rank < l.world) (hgathers : ¬ l.Scatters round) :
    stage l.world ((rank + 1) % l.world) (l.sent rank round) < l.world - 1 ∧
      l.arrival (l.iteration round) (stage l.world ((rank + 1) % l.world) (l.sent rank round)) = round := by
  have hstage := (Launch.sent_eq_iff_of_gathers hgathers hrank (l.sent_lt rank round)).mp rfl
  have hcut := l.iteration_slot round
  have hlt := l.slot_lt round
  rw [Launch.Scatters] at hgathers
  rw [Launch.period] at hlt
  refine ⟨by omega, ?_⟩
  rw [Launch.arrival, hstage]
  omega

theorem sends_of_arrival {l : Launch} {round : Nat} (hrank : rank < l.world) (howner : owner < l.world)
    (hstage : stage l.world ((rank + 1) % l.world) owner < l.world - 1)
    (harrival : l.arrival iteration (stage l.world ((rank + 1) % l.world) owner) = round) :
    l.iteration round = iteration ∧ l.sent rank round = owner := by
  subst harrival
  refine ⟨Launch.iteration_arrival hstage, ?_⟩
  rw [Launch.sent_eq_iff_of_gathers (Launch.not_scatters_arrival hstage) hrank howner, Launch.slot_arrival hstage]
  omega

theorem hasResult_ne {round k : Nat} (hround : round < C.rounds k channel) (hscatters : (C.launch k).Scatters round)
    (hne : s.started rank ≠ 0)
    (hin : (C.current s rank).InChunk channel iteration owner (byte / (C.current s rank).itemsize))
    (hstage : stage C.world rank owner < C.world - 1) :
    C.base (s.started rank) channel + (C.current s rank).arrival iteration (stage C.world rank owner) ≠
      C.base k channel + round := by
  intro heq
  rw [← C.current_world s rank] at hstage
  have hlt := Launch.arrival_lt_rounds hstage hin.active hin.running
  rw [← current_world C s rank] at heq
  rw [current, ← rounds_of_ne_zero hne] at hlt
  obtain ⟨rfl, hround'⟩ := base_inj hlt hround heq
  rw [← hround'] at hscatters
  exact Launch.not_scatters_arrival hstage hscatters

theorem le_started_of_posted (hcounts : C.Counts s) (hrank : rank < C.world) {round : Nat}
    (hposted : C.base k channel + round < (s.messages (C.nextRank rank) channel).length) : k ≤ s.started rank := by
  have hcounted := hcounts rank hrank channel
  have hmessages : (s.messages (C.nextRank rank) channel).length ≤ C.base (s.started rank + 1) channel := by
    have h₁ := hcounted.messages_eq
    have h₂ := hcounted.round_le
    have h₃ := hcounted.busy
    rw [base]
    split at h₁
    · omega
    next hphase =>
      have := h₃ (not_or.mp hphase).1
      omega
  by_contra hlt
  have hlt' : s.started rank + 1 ≤ k := Nat.not_le.mp hlt
  have := base_mono (C := C) hlt' channel
  omega

/-- Two messages of the reduce-scatter that both have to wait in the same byte are one message. -/
theorem scatters_unique (hcounts : C.Counts s) (hrank : rank < C.world)
    (hposition : s.delivered (C.nextRank rank) channel = C.position s rank channel)
    (hround : (s.channels rank channel).round < C.rounds (s.started rank) channel)
    (hscatters : (C.current s rank).Scatters (s.channels rank channel).round)
    (hin : (C.current s rank).InChunk channel ((C.current s rank).iteration (s.channels rank channel).round)
      ((C.current s rank).sent rank (s.channels rank channel).round) (byte / (C.current s rank).itemsize))
    {channel' round' : Nat} (hround' : round' < C.rounds k channel') (hscatters' : (C.launch k).Scatters round')
    (hle : C.position s (C.nextRank rank) channel' ≤ C.base k channel' + round')
    (hin' : (C.launch k).InChunk channel' ((C.launch k).iteration round') ((C.launch k).sent rank round')
      (byte / (C.launch k).itemsize))
    (hk : k ≤ s.started rank) : k = s.started rank ∧ channel' = channel ∧ round' = (s.channels rank channel).round := by
  rcases Nat.lt_or_eq_of_le hk with hlt | rfl
  · -- the sender has ended that collective, so the receiver has added the chunk
    have hbase := base_mono (C := C) (Nat.succ_le_of_lt hlt) channel'
    have hmore : round' + 1 < C.rounds k channel' := by
      have hcut := (C.launch k).iteration_slot round'
      have hworld := (C.launch k).two_le_world
      have hlt := lt_launch_rounds hround'
      rw [Launch.Scatters] at hscatters'
      have hslot : (C.launch k).slot round' + 1 < (C.launch k).period := by
        rw [Launch.period]
        omega
      have := (Launch.lt_rounds_iff hslot).mpr ⟨Launch.active_of_lt_rounds hlt, Launch.running_of_lt_rounds hlt⟩
      rw [rounds_of_ne_zero (ne_zero_of_lt_rounds hround')]
      omega
    have h₁ := position_le_acknowledged hcounts hrank channel'
    have h₂ := delivered_le_succ hcounts (C.nextRank_lt rank) channel'
    rw [base] at hbase
    rw [position] at h₁
    omega
  · obtain ⟨rfl, hiteration, howner⟩ := hin'.unique hin
    have hrank' : rank < (C.launch (s.started rank)).world := by rwa [C.world_eq]
    have hstage := (Launch.sent_eq_iff_of_scatters hscatters' hrank' (Launch.sent_lt ..)).mp rfl
    have hstage' := (Launch.sent_eq_iff_of_scatters hscatters hrank' (Launch.sent_lt ..)).mp rfl
    have hslot : (C.launch (s.started rank)).slot round' =
        (C.current s rank).slot (s.channels rank channel').round := by
      rw [← hstage, ← hstage', ← howner]
      rfl
    have h₁ := (C.launch (s.started rank)).iteration_slot round'
    have h₂ := (C.current s rank).iteration_slot (s.channels rank channel').round
    refine ⟨rfl, rfl, ?_⟩
    rw [← h₁, ← h₂, hiteration, hslot]
    rfl

theorem Contents.scatter (hcounts : C.Counts s) (hcontents : C.Contents s) (hrank : rank < C.world)
    (h : C.Writes s s' rank channel byte)
    (hscatters : (C.current s rank).Scatters (s.channels rank channel).round) : C.Contents s' := by
  have hsum := sends_sum hcounts hcontents hrank h.position h.round_lt hscatters h.chunk
  obtain ⟨hwork, hscratch⟩ := h.scatter hscatters
  refine ⟨h.fresh hcontents.fresh, fun rank' hrank' => ?_, fun rank' hrank' => ?_⟩
  · refine WorkHolds.of_started (s := s) (by rw [h.started]) fun hne channel' iteration owner byte' hin' => ?_
    rw [h.channels, hwork]
    refine (hcontents.work rank' hrank' hne _ _ _ _ hin').congr rfl ?_ Iff.rfl
    refine h.hasResult.trans (and_congr_right fun hstage => h.arrived.trans (or_iff_left ?_))
    rintro ⟨⟨rfl, rfl, rfl⟩, heq⟩
    exact hasResult_ne h.round_lt hscatters hne hin' hstage (heq.trans h.position)
  · intro k channel' round' byte' hround' hscatters' hle hin' harrived
    rw [position, h.started, h.channels] at hle
    have hold := hcontents.scratch rank' hrank' k channel' round' byte' hround' hscatters' hle hin'
    have harrived' := h.arrived.mp harrived
    by_cases hcase : rank' = rank ∧ byte' = byte
    · obtain ⟨rfl, rfl⟩ := hcase
      have hposted : C.base k channel' + round' < (s.messages (C.nextRank rank') channel').length := by
        rcases harrived' with (h' | ⟨h', hplaced⟩) | ⟨⟨-, rfl, -⟩, h'⟩
        · exact Nat.lt_of_lt_of_le h' (hcounts rank' hrank' channel').acknowledged_le
        · exact h' ▸ hcontents.fresh _ (C.nextRank_lt rank') channel' byte' hplaced
        · exact h' ▸ h.posted
      obtain ⟨rfl, rfl, rfl⟩ := scatters_unique hcounts hrank h.position h.round_lt hscatters h.chunk hround' hscatters'
        hle hin' (le_started_of_posted hcounts hrank' hposted)
      rw [hscratch, Function.update_self, Function.update_self]
      exact hsum
    · have hsame : s'.scratch (C.nextRank rank') byte' = s.scratch (C.nextRank rank') byte' := by
        by_cases hnext : C.nextRank rank' = C.nextRank rank
        · obtain rfl := nextRank_inj hrank' hrank hnext
          have hbyte : byte' ≠ byte := fun h => hcase ⟨rfl, h⟩
          simp [hscratch, hbyte]
        · simp [hscratch, hnext]
      rw [hsame]
      refine hold (harrived'.resolve_right ?_)
      rintro ⟨⟨hnext, -, hbyte⟩, -⟩
      exact hcase ⟨nextRank_inj hrank' hrank hnext, hbyte⟩

theorem Contents.gather (hcounts : C.Counts s) (hcontents : C.Contents s) (hrank : rank < C.world)
    (h : C.Writes s s' rank channel byte)
    (hgathers : ¬ (C.current s rank).Scatters (s.channels rank channel).round) : C.Contents s' := by
  have hresult := sends_result hcounts hcontents hrank h.round_lt hgathers h.chunk
  have hstarted := started_of_gathers hcounts h.position h.round_lt hgathers
  have harrival := arrival_of_gathers (l := C.current s rank) (by rwa [current_world]) hgathers
  rw [current_world, ← nextRank] at harrival
  obtain ⟨hscratch, hwork⟩ := h.gather hgathers
  refine ⟨h.fresh hcontents.fresh, fun rank' hrank' => ?_, fun rank' hrank' => ?_⟩
  · refine WorkHolds.of_started (s := s) (by rw [h.started]) fun hne channel' iteration owner byte' hin' => ?_
    have hold := hcontents.work rank' hrank' hne _ _ _ _ hin'
    rw [h.channels]
    by_cases hcase : rank' = C.nextRank rank ∧ byte' = byte
    · obtain ⟨rfl, rfl⟩ := hcase
      have hcurrent : C.current s (C.nextRank rank) = C.current s rank := by rw [current, current, hstarted]
      rw [hcurrent] at hin'
      obtain ⟨rfl, rfl, rfl⟩ := hin'.unique h.chunk
      have hhas : C.HasResult s' (C.nextRank rank) channel' ((C.current s rank).iteration (s.channels rank channel').round)
          ((C.current s rank).sent rank (s.channels rank channel').round) byte' := by
        refine h.hasResult.mpr ⟨harrival.1, h.arrived.mpr (.inr ⟨⟨rfl, rfl, rfl⟩, ?_⟩)⟩
        rw [hcurrent, harrival.2, hstarted, h.position, position]
      refine ⟨fun _ => ?_, fun h => absurd hhas h, fun h => absurd hhas h⟩
      simpa [hwork, hstarted] using hresult
    · have hsame : s'.work rank' byte' = s.work rank' byte' := by
        by_cases hnext : rank' = C.nextRank rank
        · subst hnext
          have hbyte : byte' ≠ byte := fun h => hcase ⟨rfl, h⟩
          simp [hwork, hbyte]
        · simp [hwork, hnext]
      refine hold.congr hsame ?_ Iff.rfl
      refine h.hasResult.trans (and_congr_right fun _ => h.arrived.trans (or_iff_left ?_))
      exact fun hnew => hcase ⟨hnew.1.1, hnew.1.2.2⟩
  · intro k channel' round' byte' hround' hscatters' hle hin' harrived
    rw [position, h.started, h.channels] at hle
    rw [hscratch]
    refine hcontents.scratch rank' hrank' k channel' round' byte' hround' hscatters' hle hin' ?_
    refine (h.arrived.mp harrived).resolve_right ?_
    rintro ⟨⟨hnext, rfl, -⟩, hnumber⟩
    rw [hnext, h.position, position] at hnumber
    obtain ⟨rfl, rfl⟩ := base_inj hround' h.round_lt hnumber
    exact hgathers hscatters'

/-! ## Completions -/

theorem placed_of_allPlaced {m : Message} {placed : Nat → Bool} {into : Buffer} (h : m.AllPlaced placed)
    (hcovers : m.Covers into byte) : placed byte = true := by
  cases m with
  | send => exact hcovers.elim
  | put _ offset length =>
      obtain ⟨-, hlower, hupper⟩ := hcovers
      have := h (byte - offset) (by omega)
      rwa [Nat.add_sub_cancel' hlower] at this

theorem placed_of_deliver (hcounts : C.Counts s) (hrank : rank < C.world)
    (he : C.Enabled s (.deliver (C.nextRank rank) channel)) :
    s.delivered (C.nextRank rank) channel = C.position s rank channel ∧
      (s.channels rank channel).round < C.rounds (s.started rank) channel ∧
        ∀ byte, (C.current s rank).InChunk channel ((C.current s rank).iteration (s.channels rank channel).round)
            ((C.current s rank).sent rank (s.channels rank channel).round) (byte / (C.current s rank).itemsize) →
          s.placed (C.nextRank rank) channel byte = true := by
  obtain ⟨-, -, m, hm, hall⟩ := he
  obtain ⟨hlt, -⟩ := List.getElem?_eq_some_iff.mp hm
  obtain ⟨hposition, -, hround, hmessage⟩ := outstanding hcounts hrank channel hlt
  obtain rfl := Option.some.inj (hmessage.symm.trans hm)
  exact ⟨hposition, hround, fun byte hin =>
    placed_of_allPlaced hall ((Launch.message_covers _ _ _ (lt_current_rounds hround)).mpr ⟨rfl, hin⟩)⟩

theorem arrived_deliver {q number rank' channel' byte' : Nat}
    (h : rank' = q ∧ channel' = channel → number = s.delivered q channel → s.placed q channel byte' = true) :
    Arrived (C.next s (.deliver q channel)) rank' channel' number byte' ↔ Arrived s rank' channel' number byte' := by
  simp only [Arrived, next, set₂_apply]
  split
  next hcase =>
    have hplaced := h hcase
    obtain ⟨rfl, rfl⟩ := hcase
    simp only [reduceCtorEq, and_false, or_false]
    constructor
    · intro hlt
      rcases Nat.lt_or_eq_of_le (Nat.le_of_lt_succ hlt) with hlt | heq
      · exact .inl hlt
      · exact .inr ⟨heq, hplaced heq⟩
    · rintro (hlt | ⟨heq, -⟩)
      · exact Nat.lt_succ_of_lt hlt
      · exact Nat.lt_succ_of_le (Nat.le_of_eq heq)
  · exact Iff.rfl

theorem contents_deliver (hcounts : C.Counts s) (hcontents : C.Contents s) (hrank : rank < C.world)
    (he : C.Enabled s (.deliver (C.nextRank rank) channel)) :
    C.Contents (C.next s (.deliver (C.nextRank rank) channel)) := by
  obtain ⟨hposition, hround, hplaced⟩ := placed_of_deliver hcounts hrank he
  refine ⟨fun rank' hrank' channel' byte' hbyte => ?_, fun rank' hrank' => ?_, fun rank' hrank' => ?_⟩
  · simp only [next, set₂_apply] at hbyte ⊢
    split at hbyte
    · cases hbyte
    next hcase =>
      rw [if_neg hcase]
      exact hcontents.fresh rank' hrank' channel' byte' hbyte
  · refine WorkHolds.of_started (s := s) rfl fun hne channel' iteration owner byte' hin' => ?_
    refine (hcontents.work rank' hrank' hne _ _ _ _ hin').congr rfl ?_ Iff.rfl
    refine and_congr_right fun hstage => arrived_deliver ?_
    rintro ⟨rfl, rfl⟩ hnumber
    rw [hposition, position] at hnumber
    change C.base (s.started (C.nextRank rank)) channel' + (C.current s (C.nextRank rank)).arrival iteration _ = _
      at hnumber
    -- the message that completes is the one that carries the result
    have hgathers : ¬ (C.current s rank).Scatters (s.channels rank channel').round := fun hscatters =>
      hasResult_ne hround hscatters hne hin' hstage hnumber
    have hstarted := started_of_gathers hcounts hposition hround hgathers
    have hcurrent : C.current s (C.nextRank rank) = C.current s rank := by rw [current, current, hstarted]
    rw [hcurrent] at hin' hnumber
    rw [hstarted, Nat.add_left_cancel_iff] at hnumber
    have hworld := C.current_world s rank
    have hnumber' : (C.current s rank).arrival iteration
        (stage (C.current s rank).world ((rank + 1) % (C.current s rank).world) owner) =
          (s.channels rank channel').round := by
      rw [hworld]
      exact hnumber
    obtain ⟨hiteration, howner⟩ := sends_of_arrival (hworld.symm ▸ hrank) hin'.ranked (by rw [hworld]; exact hstage) hnumber'
    exact hplaced _ (hiteration ▸ howner ▸ hin')
  · intro k channel' round' byte' hround' hscatters' hle hin' harrived
    refine hcontents.scratch rank' hrank' k channel' round' byte' hround' hscatters' hle hin' ?_
    refine (arrived_deliver ?_).mp harrived
    rintro ⟨hnext, rfl⟩ hnumber
    rw [hposition, position] at hnumber
    obtain rfl := nextRank_inj hrank' hrank hnext
    obtain ⟨rfl, rfl⟩ := base_inj hround' hround hnumber
    exact hplaced _ hin'

theorem contents_next (hcounts : C.Counts s) (hcontents : C.Contents s) (he : C.Enabled s e) :
    C.Contents (C.next s e) := by
  cases e with
  | start rank => exact contents_start hcounts hcontents he
  | postRecv rank channel => exact contents_postRecv hcontents he
  | postSend rank channel => exact contents_postSend hcontents he
  | waitSend rank channel => exact contents_waitSend hcontents he
  | waitRecv rank channel => exact contents_waitRecv hcontents he
  | reduce rank channel element => exact contents_reduce hcounts hcontents he
  | advance rank channel => exact contents_advance hcounts hcontents he
  | timeout rank channel => exact contents_timeout hcontents
  | place rank channel byte =>
      obtain ⟨sender, hsender, rfl⟩ := exists_nextRank he.1
      have hwrites := writes_next hcounts hsender he
      by_cases hscatters : (C.current s sender).Scatters (s.channels sender channel).round
      · exact Contents.scatter hcounts hcontents hsender hwrites hscatters
      · exact Contents.gather hcounts hcontents hsender hwrites hscatters
  | deliver rank channel =>
      obtain ⟨sender, hsender, rfl⟩ := exists_nextRank he.1
      exact contents_deliver hcounts hcontents hsender he

theorem contents_initial (C : Communicator β) (work scratch : Nat → Memory β) :
    C.Contents (initial work scratch) where
  fresh := by simp [Fresh, initial]
  work := by simp [WorkHolds, initial]
  scratch := by simp [ScratchHolds, Arrived, initial]

theorem contents_of_reaches {work scratch : Nat → Memory β} (h : C.machine.Reaches (initial work scratch) s) :
    C.Contents s := by
  have hboth := Machine.Reaches.invariant (M := C.machine) (I := fun s => C.Counts s ∧ C.Contents s)
    (fun _ _ hi he => ⟨counts_next hi.1 he, contents_next hi.1 hi.2 he⟩) h
    ⟨counts_initial C work scratch, contents_initial C work scratch⟩
  exact hboth.2

/-! ## No write lands on a byte that is still needed -/

/-- A write into the work buffer belongs to the receiver's collective. -/
theorem Writes.started_le (hcounts : C.Counts s) (h : C.Writes s s' rank channel byte) :
    s.started (C.nextRank rank) ≤ s.started rank := by
  have hge := position_le_delivered hcounts (C.nextRank_lt rank) channel
  have hposition := h.position
  have hround := h.round_lt
  by_contra hlt
  have hlt' : s.started rank + 1 ≤ s.started (C.nextRank rank) := Nat.not_le.mp hlt
  have hbase := base_mono (C := C) hlt' channel
  rw [Communicator.position] at hge hposition
  rw [base] at hbase
  omega

/-- A message that the receiver still has to send from this byte comes after the write. -/
theorem not_stillSends (hcounts : C.Counts s) (hrank : rank < C.world) (h : C.Writes s s' rank channel byte)
    (hgathers : ¬ (C.current s rank).Scatters (s.channels rank channel).round) {channel' round' : Nat}
    (hsends : C.StillSends s (C.nextRank rank) channel' round' byte) :
    channel' = channel ∧
      s.delivered (C.nextRank rank) channel < C.base (s.started (C.nextRank rank)) channel + round' := by
  obtain ⟨hround', ⟨into, hcovers⟩, hdelivered⟩ := hsends
  have hstarted := started_of_gathers hcounts h.position h.round_lt hgathers
  have hcurrent : C.current s (C.nextRank rank) = C.current s rank := by rw [current, current, hstarted]
  have hworld := C.current_world s rank
  have hnext := C.nextRank_lt rank
  obtain ⟨-, hin'⟩ := (Launch.message_covers _ _ _ (lt_current_rounds hround')).mp hcovers
  rw [hcurrent] at hin'
  obtain ⟨rfl, hiteration, howner⟩ := hin'.unique h.chunk
  refine ⟨rfl, ?_⟩
  rw [h.position, position, hstarted]
  have hchunk := h.chunk.ranked
  have hcut := (C.current s rank).iteration_slot (s.channels rank channel').round
  have hcut' := (C.current s rank).iteration_slot round'
  have harrival := arrival_of_gathers (l := C.current s rank) (hworld.symm ▸ hrank) hgathers
  have hstage := (Launch.sent_eq_iff_of_gathers hgathers (hworld.symm ▸ hrank) hchunk).mp rfl
  rw [hworld, ← nextRank] at hstage harrival
  rw [hiteration] at hcut'
  have h₁ := position_le_delivered hcounts hnext channel'
  have h₂ := delivered_le_succ hcounts hnext channel'
  have h₃ := position_le_acknowledged hcounts hnext channel'
  rw [h.position] at h₁ h₂
  rw [hstarted] at hdelivered
  by_cases hscatters : (C.current s rank).Scatters round'
  · have hsent := (Launch.sent_eq_iff_of_scatters hscatters (hworld.symm ▸ hnext) hchunk).mp howner
    rw [hworld, hstage] at hsent
    rw [Launch.Scatters, hworld] at hgathers
    by_contra hle
    -- the ring has two ranks, and the receiver's own message has come back to the sender
    have htwo : C.nextRank (C.nextRank rank) = rank := by
      have h₄ := mod_cases (x := rank + 1) (w := C.world) (by omega)
      have h₅ := mod_cases (x := (rank + 1) % C.world + 1) (w := C.world) (by omega)
      rw [position] at h₂
      rw [nextRank, nextRank]
      omega
    have h₄ := position_le_delivered hcounts hrank channel'
    rw [htwo] at hdelivered
    rw [position] at h₄
    omega
  · have hsent := (Launch.sent_eq_iff_of_gathers hscatters (hworld.symm ▸ hnext) hchunk).mp howner
    have hturn := stage_next (c := (C.current s rank).sent rank (s.channels rank channel').round) hnext (by rwa [← hworld])
    rw [hworld, hturn, if_neg (by omega)] at hsent
    rw [Launch.Scatters, hworld] at hscatters
    omega

/-- The additions that read the byte are over, when its result comes. -/
theorem not_stillReduces (hcounts : C.Counts s) (hrank : rank < C.world) (h : C.Writes s s' rank channel byte)
    (hgathers : ¬ (C.current s rank).Scatters (s.channels rank channel).round) (channel' round' : Nat) :
    ¬ C.StillReduces s (C.nextRank rank) channel' round' byte := by
  rintro ⟨hround', hreduces, hstill⟩
  have hstarted := started_of_gathers hcounts h.position h.round_lt hgathers
  have hcurrent : C.current s (C.nextRank rank) = C.current s rank := by rw [current, current, hstarted]
  have hworld := C.current_world s rank
  have hnext := C.nextRank_lt rank
  obtain ⟨hscatters', hin'⟩ := (Launch.reduces_iff (lt_current_rounds hround')).mp hreduces
  rw [hcurrent] at hin' hscatters'
  obtain ⟨rfl, hiteration, howner⟩ := hin'.unique h.chunk
  have hreceived := (Launch.received_eq_iff hscatters' (hworld.symm ▸ hnext) h.chunk.ranked).mp howner
  have hstage := (Launch.sent_eq_iff_of_gathers hgathers (hworld.symm ▸ hrank) h.chunk.ranked).mp rfl
  have hcut := (C.current s rank).iteration_slot (s.channels rank channel').round
  have hcut' := (C.current s rank).iteration_slot round'
  have hle := delivered_le_succ hcounts hnext channel'
  have htwo := C.two_le_world
  rw [hworld] at hreceived
  rw [hworld, ← nextRank, hreceived] at hstage
  rw [hiteration] at hcut'
  rw [Launch.Scatters, hworld] at hgathers
  rw [h.position, position, position, hstarted] at hle
  exact hstill (.inl (by omega))

/-- The addition that the receiver still has to make with this byte waits for this write. -/
theorem stillReduces_scratch (hcounts : C.Counts s) (hrank : rank < C.world) (h : C.Writes s s' rank channel byte)
    (hscatters : (C.current s rank).Scatters (s.channels rank channel).round) {channel' round' : Nat}
    (hreduces : C.StillReduces s (C.nextRank rank) channel' round' byte) :
    channel' = channel ∧
      s.delivered (C.nextRank rank) channel = C.base (s.started (C.nextRank rank)) channel + round' := by
  obtain ⟨hround', hreduces, hstill⟩ := hreduces
  obtain ⟨hscatters', hin'⟩ := (Launch.reduces_iff (lt_current_rounds hround')).mp hreduces
  have hsent := Launch.received_next rank hscatters' (by rwa [current_world])
  rw [current_world, ← nextRank] at hsent
  rw [hsent] at hin'
  have hle : C.position s (C.nextRank rank) channel' ≤ C.base (s.started (C.nextRank rank)) channel' + round' := by
    rw [position]
    exact Nat.add_le_add_left (Nat.not_lt.mp fun hlt => hstill (.inl hlt)) _
  obtain ⟨hstarted, rfl, rfl⟩ := scatters_unique hcounts hrank h.position h.round_lt hscatters h.chunk hround' hscatters'
    hle hin' (h.started_le hcounts)
  refine ⟨rfl, ?_⟩
  rw [h.position, position, hstarted]

theorem not_succeeded (hcounts : C.Counts s) (h : C.Writes s s' rank channel byte)
    (hgathers : ¬ (C.current s rank).Scatters (s.channels rank channel).round) :
    ¬ C.Succeeded s (C.nextRank rank) := by
  intro hsucceeded
  have hnext := C.nextRank_lt rank
  have hstarted := started_of_gathers hcounts h.position h.round_lt hgathers
  have hround := rounds_of_succeeded hcounts hnext hsucceeded channel
  have hle := position_le_delivered hcounts hnext channel
  have hlt := h.round_lt
  rw [h.position, position, position, hstarted] at hle
  rw [hstarted] at hround
  omega

end Communicator

end Rdma4py.Ring
