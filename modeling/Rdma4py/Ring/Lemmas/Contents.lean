import Rdma4py.Ring.Lemmas.Sums

/-!
# Every step keeps what the buffers hold
-/

namespace Rdma4py.Ring

open Lib

namespace Communicator

variable {β : Type*} {C : Communicator β} {s s' : State β} {e : Event} {rank channel iteration owner byte k : Nat}

theorem Holds.congr {value value' : β} {arrived arrived' added added' : Prop}
    (h : C.Holds k rank owner byte value arrived added) (hvalue : value' = value) (harrived : arrived' ↔ arrived)
    (hadded : added' ↔ added) : C.Holds k rank owner byte value' arrived' added' := by
  subst hvalue
  rwa [propext harrived, propext hadded]

theorem current_world (C : Communicator β) (s : State β) (rank : Nat) : (C.current s rank).world = C.world :=
  C.world_eq _

theorem lt_current_rounds {round : Nat} (h : round < C.rounds (s.started rank) channel) :
    round < (C.current s rank).rounds channel := lt_launch_rounds h

/-! ## The value that a rank sends -/

/-- The receive of the result comes after the message that the rank is sending in the reduce-scatter. -/
theorem not_hasResult_of_scatters (hcounts : C.Counts s) (hfresh : C.Fresh s) (hrank : rank < C.world)
    (hlt : s.delivered (C.nextRank rank) channel = C.position s rank channel)
    (hstage : stage C.world rank owner = (C.current s rank).slot (s.channels rank channel).round) :
    ¬ C.HasResult s rank channel ((C.current s rank).iteration (s.channels rank channel).round) owner byte := by
  rintro ⟨-, harrived⟩
  have hround := (C.current s rank).iteration_slot (s.channels rank channel).round
  have hnumber : C.base (s.started rank) channel +
      (C.current s rank).arrival ((C.current s rank).iteration (s.channels rank channel).round)
        (stage C.world rank owner) = C.position s rank channel + (C.world - 1) := by
    rw [Launch.arrival, current_world, position, hstage]
    omega
  rw [hnumber] at harrived
  have hle := delivered_le_succ hcounts hrank channel
  have hworld := C.two_le_world
  rcases harrived with hbefore | ⟨hnow, hplaced⟩
  · omega
  have hprev := C.prevRank_lt rank
  have hmessages := hfresh rank hrank channel byte hplaced
  have hout := outstanding hcounts hprev channel
  rw [nextRank_prevRank hrank] at hout
  obtain ⟨hposition, -⟩ := hout hmessages
  -- the ring has two ranks, and the previous one is also the next one
  have htwo : C.prevRank rank = C.nextRank rank := by
    have h₁ := mod_cases (x := rank + C.world - 1) (w := C.world) (by omega)
    have h₂ := mod_cases (x := rank + 1) (w := C.world) (by omega)
    rw [prevRank, nextRank]
    omega
  have hnext := position_le_delivered hcounts (C.nextRank_lt rank) channel
  rw [htwo] at hposition
  omega

/-- What a rank sends in the reduce-scatter is its sum. -/
theorem sends_sum (hcounts : C.Counts s) (hcontents : C.Contents s) (hrank : rank < C.world)
    (hlt : s.delivered (C.nextRank rank) channel = C.position s rank channel)
    (hround : (s.channels rank channel).round < C.rounds (s.started rank) channel)
    (hscatters : (C.current s rank).Scatters (s.channels rank channel).round)
    (hin : (C.current s rank).InChunk channel ((C.current s rank).iteration (s.channels rank channel).round)
      ((C.current s rank).sent rank (s.channels rank channel).round) (byte / (C.current s rank).itemsize)) :
    s.work rank byte = C.partialSum (s.started rank) ((C.current s rank).sent rank (s.channels rank channel).round)
      ((C.current s rank).slot (s.channels rank channel).round) byte := by
  have hstage : stage C.world rank ((C.current s rank).sent rank (s.channels rank channel).round) =
      (C.current s rank).slot (s.channels rank channel).round := by
    have := (Launch.sent_eq_iff_of_scatters (l := C.current s rank) hscatters
      (by rwa [current_world]) (Launch.sent_lt ..)).mp rfl
    rwa [current_world] at this
  have hholds := hcontents.work rank hrank (ne_zero_of_lt_rounds hround) _ _ _ _ hin
  rw [← hstage]
  refine hholds.sum (not_hasResult_of_scatters hcounts hcontents.fresh hrank hlt hstage) (.inr (.inl ?_))
  have := (C.current s rank).iteration_slot (s.channels rank channel).round
  omega

/-- What a rank sends in the all-gather is the result. -/
theorem sends_result (hcounts : C.Counts s) (hcontents : C.Contents s) (hrank : rank < C.world)
    (hround : (s.channels rank channel).round < C.rounds (s.started rank) channel)
    (hgathers : ¬ (C.current s rank).Scatters (s.channels rank channel).round)
    (hin : (C.current s rank).InChunk channel ((C.current s rank).iteration (s.channels rank channel).round)
      ((C.current s rank).sent rank (s.channels rank channel).round) (byte / (C.current s rank).itemsize)) :
    s.work rank byte = C.partialSum (s.started rank) ((C.current s rank).sent rank (s.channels rank channel).round)
      (C.world - 1) byte := by
  have hholds := hcontents.work rank hrank (ne_zero_of_lt_rounds hround) _ _ _ _ hin
  have howner := (C.current s rank).sent_lt rank (s.channels rank channel).round
  have hstage := (Launch.sent_eq_iff_of_gathers (l := C.current s rank) hgathers
    (by rwa [current_world]) howner).mp rfl
  rw [current_world] at howner hstage
  have hnext := stage_next hrank howner
  have hlt := stage_lt (c := (C.current s rank).sent rank (s.channels rank channel).round) hrank
  have hcut := (C.current s rank).iteration_slot (s.channels rank channel).round
  have hdelivered := position_le_delivered hcounts hrank channel
  rw [Launch.Scatters, current_world] at hgathers
  rw [position] at hdelivered
  rw [hstage] at hnext
  split at hnext
  next hlast =>
    -- the owner made the last addition itself
    have hnot : ¬ C.HasResult s rank channel ((C.current s rank).iteration (s.channels rank channel).round)
        ((C.current s rank).sent rank (s.channels rank channel).round) byte := fun h => by
      have := h.1
      omega
    have hsum := hholds.sum hnot (.inr (.inl (by omega)))
    rwa [show stage C.world rank _ = C.world - 1 by omega] at hsum
  next hother =>
    refine hholds.result ⟨by omega, .inl ?_⟩
    rw [Launch.arrival, current_world]
    omega

/-! ## Steps that write no memory -/

/-- A rank that stays in its collective. -/
theorem WorkHolds.of_started (hstarted : s'.started rank = s.started rank)
    (h : s.started rank ≠ 0 → ∀ channel iteration owner byte,
      (C.current s rank).InChunk channel iteration owner (byte / (C.current s rank).itemsize) →
        C.Holds (s.started rank) rank owner byte (s'.work rank byte) (C.HasResult s' rank channel iteration owner byte)
          ((s'.channels rank channel).Added (C.current s rank) iteration (stage C.world rank owner)
            (byte / (C.current s rank).itemsize))) : C.WorkHolds s' rank := by
  intro hne channel iteration owner byte hin
  rw [current, hstarted] at hin ⊢
  rw [hstarted] at hne
  exact h hne channel iteration owner byte hin

theorem WorkHolds.congr (h : C.WorkHolds s rank) (hstarted : s'.started rank = s.started rank)
    (hwork : s'.work rank = s.work rank)
    (harrived : ∀ channel iteration owner byte,
      (C.current s rank).InChunk channel iteration owner (byte / (C.current s rank).itemsize) →
        (C.HasResult s' rank channel iteration owner byte ↔ C.HasResult s rank channel iteration owner byte))
    (hadded : ∀ channel iteration owner byte,
      (C.current s rank).InChunk channel iteration owner (byte / (C.current s rank).itemsize) →
        ((s'.channels rank channel).Added (C.current s rank) iteration (stage C.world rank owner)
            (byte / (C.current s rank).itemsize) ↔
          (s.channels rank channel).Added (C.current s rank) iteration (stage C.world rank owner)
            (byte / (C.current s rank).itemsize))) : C.WorkHolds s' rank :=
  .of_started hstarted fun hne _ _ _ byte hin =>
    (h hne _ _ _ _ hin).congr (congrFun hwork byte) (harrived _ _ _ _ hin) (hadded _ _ _ _ hin)

theorem hasResult_congr (hstarted : s'.started rank = s.started rank) (hdelivered : s'.delivered = s.delivered)
    (hplaced : s'.placed = s.placed) :
    C.HasResult s' rank channel iteration owner byte ↔ C.HasResult s rank channel iteration owner byte := by
  simp only [HasResult, Arrived, current, hstarted, hdelivered, hplaced]

theorem ScratchHolds.congr (h : C.ScratchHolds s rank)
    (hscratch : s'.scratch (C.nextRank rank) = s.scratch (C.nextRank rank))
    (hposition : ∀ channel, C.position s (C.nextRank rank) channel ≤ C.position s' (C.nextRank rank) channel)
    (hdelivered : s'.delivered = s.delivered) (hplaced : s'.placed = s.placed) : C.ScratchHolds s' rank := by
  intro k channel round byte hround hscatters hle hin harrived
  rw [hscratch]
  rw [Arrived, hdelivered, hplaced] at harrived
  exact h k channel round byte hround hscatters (Nat.le_trans (hposition channel) hle) hin harrived

/-- A step that only changes one channel and adds what its chunks have added. -/
theorem Contents.of_channel (rank channel : Nat) (hcontents : C.Contents s)
    (hstarted : s'.started = s.started) (hwork : s'.work = s.work)
    (hscratch : s'.scratch = s.scratch) (hdelivered : s'.delivered = s.delivered) (hplaced : s'.placed = s.placed)
    (hmessages : ∀ rank channel, (s.messages rank channel).length ≤ (s'.messages rank channel).length)
    (hother : ∀ rank' channel', ¬ (rank' = rank ∧ channel' = channel) →
      s'.channels rank' channel' = s.channels rank' channel')
    (hround : (s.channels rank channel).round ≤ (s'.channels rank channel).round)
    (hadded : ∀ iteration owner byte,
      (C.current s rank).InChunk channel iteration owner (byte / (C.current s rank).itemsize) →
        ((s'.channels rank channel).Added (C.current s rank) iteration (stage C.world rank owner)
            (byte / (C.current s rank).itemsize) ↔
          (s.channels rank channel).Added (C.current s rank) iteration (stage C.world rank owner)
            (byte / (C.current s rank).itemsize))) : C.Contents s' where
  fresh := fun rank' hrank' channel' byte hbyte => by
    rw [hplaced] at hbyte
    rw [hdelivered]
    exact Nat.lt_of_lt_of_le (hcontents.fresh rank' hrank' channel' byte hbyte) (hmessages rank' channel')
  work := fun rank' hrank' => by
    refine (hcontents.work rank' hrank').congr (by rw [hstarted]) (by rw [hwork])
      (fun _ _ _ _ _ => hasResult_congr (by rw [hstarted]) hdelivered hplaced) fun channel' _ _ _ hin => ?_
    by_cases hcase : rank' = rank ∧ channel' = channel
    · obtain ⟨rfl, rfl⟩ := hcase
      exact hadded _ _ _ hin
    · rw [hother _ _ hcase]
  scratch := fun rank' hrank' => by
    refine (hcontents.scratch rank' hrank').congr (by rw [hscratch]) (fun channel' => ?_) hdelivered hplaced
    rw [position, position, hstarted]
    by_cases hcase : C.nextRank rank' = rank ∧ channel' = channel
    · obtain ⟨rfl, rfl⟩ := hcase
      exact Nat.add_le_add_left hround _
    · rw [hother _ _ hcase]

theorem added_of_phase {c c' : Channel} {l : Launch} {stage element : Nat} (hround : c'.round = c.round)
    (hphase : c.phase ≠ .reducing) (hphase' : c'.phase ≠ .reducing) :
    c'.Added l iteration stage element ↔ c.Added l iteration stage element := by
  simp [Channel.Added, hround, hphase, hphase']

/-- A round of the all-gather adds nothing. -/
theorem added_of_gathers {c : Channel} {l : Launch} {stage element : Nat} (hgathers : ¬ l.Scatters c.round)
    (hphase : c.phase ≠ .reducing) (hstage : stage < l.world) :
    (advanced c).Added l iteration stage element ↔ c.Added l iteration stage element := by
  have hcut := l.iteration_slot c.round
  have hslot := l.slot_lt c.round
  have hworld := l.two_le_world
  have hperiod : stage < l.period := by
    rw [Launch.period]
    omega
  rw [Launch.Scatters] at hgathers
  have hnext : iteration * l.period + stage = c.round + 1 → stage = 0 := fun heq => by
    by_cases hlast : l.slot c.round + 1 = l.period
    · have hfirst : iteration * l.period + stage = (l.iteration c.round + 1) * l.period + 0 := by
        rw [Nat.succ_mul]
        omega
      exact (Launch.iteration_slot_inj hperiod l.period_pos hfirst).2
    · have hnext : iteration * l.period + stage = l.iteration c.round * l.period + (l.slot c.round + 1) := by omega
      have := (Launch.iteration_slot_inj hperiod (by omega) hnext).2
      omega
  simp only [Channel.Added, advanced, hphase, false_and, and_false, or_false, reduceCtorEq]
  omega

/-- A round of the reduce-scatter ends when its elements are reduced. -/
theorem added_of_reduced {c : Channel} {l : Launch} {stage element : Nat} (hphase : c.phase = .reducing)
    (hreduced : iteration * l.period + stage = c.round + 1 → c.reduced element = true) :
    (advanced c).Added l iteration stage element ↔ c.Added l iteration stage element := by
  simp only [Channel.Added, advanced, hphase, true_and, and_false, or_false, reduceCtorEq, false_and]
  constructor
  · rintro (h | h)
    · exact .inl h
    · rcases Nat.lt_or_ge c.round (iteration * l.period + stage) with hlt | hge
      · have heq : iteration * l.period + stage = c.round + 1 := Nat.le_antisymm h hlt
        exact .inr (.inr ⟨heq, hreduced heq⟩)
      · exact .inr (.inl hge)
  · rintro (h | h | ⟨h, -⟩)
    · exact .inl h
    · exact .inr (Nat.le_succ_of_le h)
    · exact .inr (Nat.le_of_eq h)

theorem contents_postRecv (hcontents : C.Contents s) (he : C.Enabled s (.postRecv rank channel)) :
    C.Contents (C.next s (.postRecv rank channel)) := by
  obtain ⟨-, hphase⟩ := he
  refine hcontents.of_channel rank channel rfl rfl rfl rfl rfl (fun _ _ => Nat.le_refl _)
    (fun _ _ hne => by simp [next, hne]) (by simp [next]) fun _ _ _ _ => ?_
  exact added_of_phase (by simp [next]) (by simp [hphase]) (by simp [next])

theorem contents_postSend (hcontents : C.Contents s) (he : C.Enabled s (.postSend rank channel)) :
    C.Contents (C.next s (.postSend rank channel)) := by
  obtain ⟨-, hphase⟩ := he
  refine hcontents.of_channel rank channel rfl rfl rfl rfl rfl (fun rank' channel' => ?_)
    (fun _ _ hne => by simp [next, hne]) (by simp [next]) fun _ _ _ _ => ?_
  · by_cases hcase : rank' = C.nextRank rank ∧ channel' = channel <;> simp [next, hcase]
  · exact added_of_phase (by simp [next]) (by simp [hphase]) (by simp [next])

theorem contents_waitSend (hcontents : C.Contents s) (he : C.Enabled s (.waitSend rank channel)) :
    C.Contents (C.next s (.waitSend rank channel)) := by
  obtain ⟨-, hphase, -⟩ := he
  refine hcontents.of_channel rank channel rfl rfl rfl rfl rfl (fun _ _ => Nat.le_refl _)
    (fun _ _ hne => by simp [next, hne]) (by simp [next]) fun _ _ _ _ => ?_
  exact added_of_phase (by simp [next]) (by simp [hphase]) (by simp [next])

theorem contents_waitRecv (hcontents : C.Contents s) (he : C.Enabled s (.waitRecv rank channel)) :
    C.Contents (C.next s (.waitRecv rank channel)) := by
  obtain ⟨⟨hrank, -, -⟩, hphase, -⟩ := he
  have hstage : ∀ owner, stage C.world rank owner < (C.current s rank).world := fun owner => by
    rw [current_world]
    exact stage_lt hrank
  refine hcontents.of_channel rank channel rfl rfl rfl rfl rfl (fun _ _ => Nat.le_refl _)
    (fun _ _ hne => by simp [next, hne]) ?_ fun _ owner _ _ => ?_
  · simp only [next, set₂_apply, and_self, reduceIte]
    split
    · exact Nat.le_refl _
    · exact Nat.le_succ _
  · simp only [next, set₂_apply, and_self, reduceIte]
    split
    · simp [Channel.Added, hphase]
    next hgathers => exact added_of_gathers hgathers (by simp [hphase]) (hstage owner)

theorem contents_advance (hcounts : C.Counts s) (hcontents : C.Contents s) (he : C.Enabled s (.advance rank channel)) :
    C.Contents (C.next s (.advance rank channel)) := by
  obtain ⟨⟨hrank, -, hround⟩, hphase, hreduced⟩ := he
  have hscatters := (hcounts rank hrank channel).scatters hphase
  refine hcontents.of_channel rank channel rfl rfl rfl rfl rfl (fun _ _ => Nat.le_refl _)
    (fun _ _ hne => by simp [next, hne]) (by simp [next, advanced]) fun iteration owner byte hin => ?_
  simp only [next, set₂_apply, and_self, reduceIte]
  refine added_of_reduced hphase fun heq => hreduced _ hin.lt_count ?_
  rw [← C.current_world s rank] at heq hrank
  exact (Launch.reduces_iff_stage hin (lt_launch_rounds hround) hscatters hrank).mpr heq

theorem contents_timeout (hcontents : C.Contents s) : C.Contents (C.next s (.timeout rank channel)) := by
  refine hcontents.of_channel rank channel rfl rfl rfl rfl rfl (fun _ _ => Nat.le_refl _)
    (fun _ _ hne => by simp [next, hne]) (by simp [next]) fun _ _ _ _ => ?_
  simp [next, Channel.Added]

/-! ## The start of a collective -/

theorem contents_start (hcounts : C.Counts s) (hcontents : C.Contents s) (he : C.Enabled s (.start rank)) :
    C.Contents (C.next s (.start rank)) := by
  obtain ⟨hrank, hsucceeded⟩ := he
  have hrounds := rounds_of_succeeded hcounts hrank hsucceeded
  refine ⟨hcontents.fresh, fun rank' hrank' => ?_, fun rank' hrank' => ?_⟩
  · by_cases hcase : rank' = rank
    · subst hcase
      intro _ channel iteration owner byte hin
      have hstarted : (C.next s (.start rank')).started rank' = s.started rank' + 1 := by simp [next]
      have hcurrent : C.current (C.next s (.start rank')) rank' = C.launch (s.started rank' + 1) := by rw [current, hstarted]
      have hnot : ¬ C.HasResult (C.next s (.start rank')) rank' channel iteration owner byte := by
        rintro ⟨-, harrived⟩
        have hle := delivered_le hcounts hrank' channel
        have hworld := C.two_le_world
        rw [hcurrent, hstarted, Launch.arrival, C.world_eq] at harrived
        rcases harrived with h | ⟨h, -⟩ <;> simp only [next] at h <;> omega
      have hinput : (C.next s (.start rank')).work rank' byte = C.input (s.started rank' + 1) rank' byte := by
        have hlt := (Nat.div_lt_iff_lt_mul (C.current (C.next s (.start rank')) rank').itemsize_pos).mp hin.lt_count
        rw [hcurrent] at hlt
        simp [next, copyIn, hlt]
      rw [hinput, hstarted]
      refine ⟨fun h => absurd h hnot, fun _ hadded => ?_, fun _ _ => rfl⟩
      have howner := hin.ranked
      rw [current_world] at howner
      have hstage : stage C.world rank' owner = 0 := by
        simp only [Channel.Added, next, Function.update_self, Channel.launched, reduceCtorEq, and_false, or_false]
          at hadded
        omega
      rw [hstage, partialSum_zero hrank' howner hstage]
    · refine (hcontents.work rank' hrank').congr (by simp [next, hcase]) (by simp [next, hcase])
        (fun _ _ _ _ _ => hasResult_congr (by simp [next, hcase]) rfl rfl) fun _ _ _ _ _ => by simp [next, hcase]
  · refine (hcontents.scratch rank' hrank').congr rfl (fun channel' => ?_) rfl rfl
    by_cases hcase : C.nextRank rank' = rank
    · subst hcase
      simp [position, next, base, hrounds, Channel.launched]
    · simp [position, next, hcase]

/-! ## The reduction of one element -/

/-- The addend has arrived, and nothing else has been added or written. -/
theorem reduceElement_eq (hcounts : C.Counts s) (hcontents : C.Contents s) {index : Nat} (hrank : rank < C.world)
    (hin : (C.current s rank).InChunk channel iteration owner index) (he : C.Enabled s (.reduce rank channel index)) :
    iteration * (C.current s rank).period + stage C.world rank owner = (s.channels rank channel).round + 1 ∧
      (∀ byte, ¬ C.HasResult s rank channel iteration owner byte) ∧
        ∀ byte, byte / (C.current s rank).itemsize = index →
          C.reduceElement s rank index byte =
            C.partialSum (s.started rank) owner (stage C.world rank owner) byte := by
  obtain ⟨⟨-, -, hround⟩, hphase, hreduces, hreduced⟩ := he
  obtain ⟨p, hp, rfl⟩ := exists_nextRank hrank
  have hcounted := hcounts _ hrank channel
  have hne := ne_zero_of_lt_rounds hround
  have hworld := C.two_le_world
  obtain ⟨hscatters, hin'⟩ := (Launch.reduces_iff (lt_current_rounds hround)).mp hreduces
  obtain ⟨-, rfl, rfl⟩ := hin.unique hin'
  have howner := hin.ranked
  have hstage := (Launch.received_eq_iff hscatters (by rwa [current_world]) howner).mp rfl
  have hsent := Launch.received_next p hscatters (by rwa [current_world])
  rw [current_world] at howner hstage
  rw [current_world, ← nextRank] at hsent
  have hcut := (C.current s (C.nextRank p)).iteration_slot (s.channels (C.nextRank p) channel).round
  have hnot : ∀ byte, ¬ C.HasResult s (C.nextRank p) channel
      ((C.current s (C.nextRank p)).iteration (s.channels (C.nextRank p) channel).round)
      ((C.current s (C.nextRank p)).received (C.nextRank p) (s.channels (C.nextRank p) channel).round) byte := by
    rintro byte ⟨-, harrived⟩
    have hle := delivered_le_succ hcounts hrank channel
    rw [position] at hle
    rw [Launch.arrival, current_world] at harrived
    rcases harrived with h | ⟨h, -⟩ <;> omega
  refine ⟨by omega, hnot, fun byte hbyte => ?_⟩
  subst hbyte
  have hinput : element (s.work (C.nextRank p)) (C.current s (C.nextRank p)).itemsize
      (byte / (C.current s (C.nextRank p)).itemsize) =
        element (C.input (s.started (C.nextRank p)) (C.nextRank p)) (C.current s (C.nextRank p)).itemsize
          (byte / (C.current s (C.nextRank p)).itemsize) := by
    refine element_congr fun byte' hbyte' => ?_
    refine (hcontents.work _ hrank hne _ _ _ byte' (hbyte' ▸ hin)).input (hnot byte') ?_
    rintro (h | h | ⟨-, -, h⟩)
    · omega
    · omega
    · rw [hbyte', hreduced] at h
      cases h
  have haddend : element (s.scratch (C.nextRank p)) (C.current s (C.nextRank p)).itemsize
      (byte / (C.current s (C.nextRank p)).itemsize) =
        element (C.partialSum (s.started (C.nextRank p))
            ((C.current s (C.nextRank p)).received (C.nextRank p) (s.channels (C.nextRank p) channel).round)
            ((C.current s (C.nextRank p)).slot (s.channels (C.nextRank p) channel).round))
          (C.current s (C.nextRank p)).itemsize (byte / (C.current s (C.nextRank p)).itemsize) := by
    refine element_congr fun byte' hbyte' => ?_
    rw [hsent]
    exact hcontents.scratch p hp _ _ _ byte' hround hscatters (Nat.le_refl _) (hbyte' ▸ hsent ▸ hin)
      (.inl (hcounted.lt_received hphase))
  rw [hstage, partialSum_succ hrank howner hstage]
  simp only [reduceElement, reduceIte]
  rw [hinput, haddend]
  rfl

theorem contents_reduce (hcounts : C.Counts s) (hcontents : C.Contents s) {index : Nat}
    (he : C.Enabled s (.reduce rank channel index)) : C.Contents (C.next s (.reduce rank channel index)) := by
  obtain ⟨⟨hrank, -, hround⟩, hphase, hreduces, hreduced⟩ := id he
  refine ⟨hcontents.fresh, fun rank' hrank' => ?_, fun rank' hrank' => ?_⟩
  · by_cases hcase : rank' = rank
    · subst hcase
      refine WorkHolds.of_started (s := s) rfl fun hne channel' iteration owner byte hin => ?_
      have hold := hcontents.work rank' hrank' hne _ _ _ _ hin
      by_cases hbyte : byte / (C.current s rank').itemsize = index
      · subst hbyte
        obtain ⟨-, hin'⟩ := (Launch.reduces_iff (lt_current_rounds hround)).mp hreduces
        obtain ⟨rfl, -, -⟩ := hin.unique hin'
        obtain ⟨hnext, hnot, hvalue⟩ := reduceElement_eq hcounts hcontents hrank hin he
        refine ⟨fun h => absurd h (hnot byte), fun _ _ => ?_, fun _ h => absurd ?_ h⟩
        · simpa [next] using hvalue byte rfl
        · refine .inr (.inr ?_)
          simpa [next, hphase] using hnext
      · refine hold.congr ?_ Iff.rfl ?_
        · simp [next, reduceElement, hbyte]
        · simp only [next, set₂_apply, true_and]
          split
          next heq =>
            subst heq
            simp only [Channel.Added, Function.update_of_ne hbyte]
          · exact Iff.rfl
    · exact (hcontents.work rank' hrank').congr rfl (by simp [next, hcase]) (fun _ _ _ _ _ => Iff.rfl)
        fun _ _ _ _ _ => by simp [next, hcase]
  · refine (hcontents.scratch rank' hrank').congr rfl (fun channel' => ?_) rfl rfl
    by_cases hcase : C.nextRank rank' = rank ∧ channel' = channel <;> simp [position, next, hcase]

end Communicator

end Rdma4py.Ring
