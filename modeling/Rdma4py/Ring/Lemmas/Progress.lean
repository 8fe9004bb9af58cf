import Mathlib.Data.Finset.Max
import Rdma4py.Ring.Lemmas.Counts

/-!
# The least advanced rank can go on

What the least advanced rank waits for is either on its way, or a neighbour that has ended as many rounds can post it.
-/

namespace Rdma4py.Ring

open Lib

namespace Communicator

variable {β : Type*} {C : Communicator β} {s t : State β} {e : Event} {rank channel : Nat}

/-! ## What the network can do alone -/

/-- The state after steps of the network that change no channel. -/
structure Quiet (s t : State β) : Prop where
  started : t.started = s.started
  channels : t.channels = s.channels
  receives : t.receives = s.receives
  messages : t.messages = s.messages

theorem Quiet.trans {u : State β} (h : Quiet s t) (h' : Quiet t u) : Quiet s u :=
  ⟨h'.started.trans h.started, h'.channels.trans h.channels, h'.receives.trans h.receives,
    h'.messages.trans h.messages⟩

theorem exists_placed (hrank : rank < C.world) {into : Buffer} {offset length : Nat}
    (hm : (s.messages rank channel)[s.delivered rank channel]? = some (.put into offset length)) (n : Nat)
    (hn : n ≤ length) : ∃ t, C.network.Reaches s t ∧ Quiet s t ∧ t.delivered = s.delivered ∧
      ∀ i < n, t.placed rank channel (offset + i) = true := by
  induction n with
  | zero => exact ⟨s, .refl s, ⟨rfl, rfl, rfl, rfl⟩, rfl, by simp⟩
  | succ n ih =>
      obtain ⟨t, ht, hquiet, hdelivered, hplaced⟩ := ih (by omega)
      cases hbyte : t.placed rank channel (offset + n) with
      | true =>
          refine ⟨t, ht, hquiet, hdelivered, fun i hi => ?_⟩
          rcases Nat.lt_succ_iff_lt_or_eq.mp hi with hlt | rfl
          · exact hplaced i hlt
          · exact hbyte
      | false =>
          have hm' : (t.messages rank channel)[t.delivered rank channel]? = some (.put into offset length) := by
            rw [hquiet.messages, hdelivered, hm]
          have hcovers : ∀ buffer, (Message.put into offset length).Covers buffer (offset + n) ↔ into = buffer :=
            fun _ => and_iff_left ⟨Nat.le_add_right .., Nat.add_lt_add_left (by omega) _⟩
          have he : C.network.Enabled t (.place rank channel (offset + n)) := by
            refine ⟨⟨hrank, hbyte, _, hm', ?_⟩, trivial⟩
            cases into <;> simp [hcovers]
          obtain ⟨h₁, h₂, h₃, h₄, h₅⟩ := C.place_frame t rank channel (offset + n)
          refine ⟨_, ht.tail he, hquiet.trans ⟨h₁, h₂, h₃, h₄⟩, h₅.trans hdelivered, fun i hi => ?_⟩
          have hnew : (C.next t (.place rank channel (offset + n))).placed rank channel (offset + i) =
              if i = n then true else t.placed rank channel (offset + i) := by
            cases into <;> simp [next, hm', Function.update_apply]
          change (C.next t (.place rank channel (offset + n))).placed rank channel (offset + i) = true
          rw [hnew]
          split
          · rfl
          · exact hplaced i (by omega)

theorem exists_delivered (hrank : rank < C.world) (hreceives : s.delivered rank channel < s.receives rank channel)
    (hmessages : s.delivered rank channel < (s.messages rank channel).length) :
    ∃ t, C.network.Reaches s t ∧ Quiet s t ∧ t.delivered rank channel = s.delivered rank channel + 1 := by
  have hm := List.getElem?_eq_getElem hmessages
  have hplaced : ∃ t, C.network.Reaches s t ∧ Quiet s t ∧ t.delivered = s.delivered ∧
      (s.messages rank channel)[s.delivered rank channel].AllPlaced (t.placed rank channel) := by
    cases hcase : (s.messages rank channel)[s.delivered rank channel] with
    | send => exact ⟨s, .refl s, ⟨rfl, rfl, rfl, rfl⟩, rfl, trivial⟩
    | put into offset length => exact exists_placed hrank (hm.trans (congrArg some hcase)) length (Nat.le_refl _)
  obtain ⟨t, ht, hquiet, hdelivered, hall⟩ := hplaced
  have he : C.network.Enabled t (.deliver rank channel) := by
    refine ⟨⟨hrank, ?_, _, ?_, hall⟩, trivial⟩
    · rwa [hquiet.receives, hdelivered]
    · rw [hquiet.messages, hdelivered]
      exact hm
  refine ⟨_, ht.tail he, hquiet.trans ⟨rfl, rfl, rfl, rfl⟩, ?_⟩
  change (C.next t (.deliver rank channel)).delivered rank channel = _
  simp [next, hdelivered]

/-! ## The least advanced rank -/

/-- A rank on a channel, no other rank has ended fewer rounds. -/
theorem exists_least (hrank : rank < C.world) (channel : Nat) :
    ∃ least < C.world, ∀ rank' < C.world, C.position s least channel ≤ C.position s rank' channel := by
  obtain ⟨least, hleast, hmin⟩ := Finset.exists_min_image (Finset.range C.world)
    (fun rank => C.position s rank channel) ⟨rank, Finset.mem_range.mpr hrank⟩
  exact ⟨least, Finset.mem_range.mp hleast, fun rank' h => hmin rank' (Finset.mem_range.mpr h)⟩

theorem not_failed {work scratch : Nat → Memory β} (h : C.untimed.Reaches (initial work scratch) s) (rank channel : Nat) :
    (s.channels rank channel).failed = false := by
  refine Machine.Reaches.invariant (M := C.untimed)
    (I := fun s => ∀ rank channel, (s.channels rank channel).failed = false) ?_ h (fun _ _ => rfl) rank channel
  rintro s e hs ⟨he, htime⟩ rank' channel'
  change ((C.next s e).channels rank' channel').failed = false
  cases e with
  | timeout rank channel => exact htime.elim
  | start rank =>
      simp only [next, Function.update_apply]
      split
      · rfl
      · exact hs rank' channel'
  | place rank channel byte =>
      rw [(C.place_frame s rank channel byte).2.1]
      exact hs rank' channel'
  | deliver rank channel => exact hs rank' channel'
  | waitRecv rank channel =>
      simp only [next, set₂_apply]
      split
      · split
        · exact hs rank channel
        · exact hs rank channel
      · exact hs rank' channel'
  | _ =>
      simp only [next, set₂_apply, advanced]
      split
      · exact hs _ _
      · exact hs rank' channel'

theorem running_of_le (hnever : ∀ rank channel, (s.channels rank channel).failed = false)
    (hrunning : C.Running s rank channel) {rank' : Nat} (hrank' : rank' < C.world)
    (hstarted : s.started rank ≤ s.started rank') (hle : C.position s rank' channel ≤ C.position s rank channel) :
    s.started rank' = s.started rank ∧ C.Running s rank' channel := by
  obtain ⟨hrank, -, hround⟩ := hrunning
  have hsame : s.started rank' = s.started rank := by
    refine Nat.le_antisymm (Nat.le_of_not_lt fun hlt => ?_) hstarted
    have hlt' : s.started rank + 1 ≤ s.started rank' := hlt
    have := base_mono (C := C) hlt' channel
    rw [position, position] at hle
    rw [base] at this
    omega
  rw [position, position, hsame] at hle
  refine ⟨hsame, hrank', hnever rank' channel, ?_⟩
  rw [hsame]
  omega

theorem enabled_of_idle (hrunning : C.Running s rank channel)
    (hphase : (s.channels rank channel).phase = .ready ∨ (s.channels rank channel).phase = .posted) :
    ∃ e : Event, e.OfChannel ∧ C.Enabled s e := by
  rcases hphase with hphase | hphase
  · exact ⟨.postRecv rank channel, trivial, hrunning, hphase⟩
  · exact ⟨.postSend rank channel, trivial, hrunning, hphase⟩

/-- A rank that has not ended the round of the least advanced rank can post what that one waits for. -/
theorem exists_channel_step (hcounts : C.Counts s) (hnever : ∀ rank channel, (s.channels rank channel).failed = false)
    (hrunning : C.Running s rank channel) (hleast : ∀ rank' < C.world, s.started rank ≤ s.started rank')
    (hmin : ∀ rank' < C.world, C.position s rank channel ≤ C.position s rank' channel) :
    ∃ t, C.network.Reaches s t ∧ ∃ e : Event, e.OfChannel ∧ C.Enabled t e := by
  obtain ⟨hrank, hfailed, hround⟩ := id hrunning
  have hcounted := hcounts rank hrank channel
  have hnext := C.nextRank_lt rank
  cases hphase : (s.channels rank channel).phase with
  | ready => exact ⟨s, .refl s, enabled_of_idle hrunning (.inl hphase)⟩
  | posted => exact ⟨s, .refl s, enabled_of_idle hrunning (.inr hphase)⟩
  | reducing =>
      refine ⟨s, .refl s, ?_⟩
      by_cases hall : ∀ element < (C.current s rank).count,
          (C.current s rank).Reduces rank channel (s.channels rank channel).round element →
            (s.channels rank channel).reduced element = true
      · exact ⟨.advance rank channel, trivial, hrunning, hphase, hall⟩
      · push Not at hall
        obtain ⟨element, -, hreduces, hreduced⟩ := hall
        exact ⟨.reduce rank channel element, trivial, hrunning, hphase, hreduces, by simpa using hreduced⟩
  | sent =>
      have hticket := hcounted.sendTicket_eq hphase
      have hmessages : (s.messages (C.nextRank rank) channel).length = C.position s rank channel + 1 := by
        simpa [hphase, position] using hcounted.messages_eq
      have hwait : ∀ t, Quiet s t → C.position s rank channel < t.delivered (C.nextRank rank) channel →
          C.Enabled t (.waitSend rank channel) := by
        intro t hquiet hlt
        refine ⟨⟨hrank, ?_, ?_⟩, ?_, ?_⟩ <;> rw [hquiet.channels]
        · exact hfailed
        · rwa [hquiet.started]
        · exact hphase
        · exact hticket ▸ hlt
      rcases Nat.lt_or_eq_of_le hcounted.le_acknowledged with hlt | heq
      · exact ⟨s, .refl s, .waitSend rank channel, trivial, hwait s ⟨rfl, rfl, rfl, rfl⟩ hlt⟩
      rw [← position] at heq
      have hreceiver := hcounts _ hnext channel
      by_cases hposted : s.delivered (C.nextRank rank) channel < s.receives (C.nextRank rank) channel
      · obtain ⟨t, ht, hquiet, hdelivered⟩ := exists_delivered hnext hposted (by omega)
        exact ⟨t, ht, .waitSend rank channel, trivial, hwait t hquiet (by omega)⟩
      · have hreceives := hreceiver.receives_eq
        have hle := hmin _ hnext
        rw [← position] at hreceives
        have hready : (s.channels (C.nextRank rank) channel).phase = .ready := by
          by_contra hne
          rw [if_neg hne] at hreceives
          omega
        obtain ⟨-, hrunning'⟩ := running_of_le hnever hrunning hnext (hleast _ hnext) (by omega)
        exact ⟨s, .refl s, enabled_of_idle hrunning' (.inl hready)⟩
  | waiting =>
      have hticket := hcounted.recvTicket_eq (by simp [hphase])
      have hreceives : s.receives rank channel = C.position s rank channel + 1 := by
        simpa [hphase, position] using hcounted.receives_eq
      have hwait : ∀ t, Quiet s t → C.position s rank channel < t.delivered rank channel →
          C.Enabled t (.waitRecv rank channel) := by
        intro t hquiet hlt
        refine ⟨⟨hrank, ?_, ?_⟩, ?_, ?_⟩ <;> rw [hquiet.channels]
        · exact hfailed
        · rwa [hquiet.started]
        · exact hphase
        · exact hticket ▸ hlt
      rcases Nat.lt_or_eq_of_le hcounted.le_received with hlt | heq
      · exact ⟨s, .refl s, .waitRecv rank channel, trivial, hwait s ⟨rfl, rfl, rfl, rfl⟩ hlt⟩
      rw [← position] at heq
      obtain ⟨sender, hsender, rfl⟩ := exists_nextRank hrank
      by_cases hposted : s.delivered (C.nextRank sender) channel < (s.messages (C.nextRank sender) channel).length
      · obtain ⟨t, ht, hquiet, hdelivered⟩ := exists_delivered hrank (by omega) hposted
        exact ⟨t, ht, .waitRecv (C.nextRank sender) channel, trivial, hwait t hquiet (by omega)⟩
      · have hmessages := (hcounts _ hsender channel).messages_eq
        have hle := hmin _ hsender
        rw [← position] at hmessages
        have hidle : (s.channels sender channel).phase = .ready ∨ (s.channels sender channel).phase = .posted := by
          by_contra hne
          rw [if_neg hne] at hmessages
          omega
        obtain ⟨-, hrunning'⟩ := running_of_le hnever hrunning hsender (hleast _ hsender) (by omega)
        exact ⟨s, .refl s, enabled_of_idle hrunning' hidle⟩

/-- While a channel of a collective that all ranks have launched is unfinished, some channel can take a step. -/
theorem exists_step (hcounts : C.Counts s) (hnever : ∀ rank channel, (s.channels rank channel).failed = false)
    (hrunning : C.Running s rank channel) (hall : ∀ rank' < C.world, s.started rank ≤ s.started rank') :
    ∃ t, C.network.Reaches s t ∧ ∃ e : Event, e.OfChannel ∧ C.Enabled t e := by
  obtain ⟨least, hleast, hmin⟩ := exists_least (s := s) hrunning.1 channel
  obtain ⟨hstarted, hrunning'⟩ := running_of_le hnever hrunning hleast (hall least hleast) (hmin rank hrunning.1)
  exact exists_channel_step hcounts hnever hrunning' (hstarted ▸ hall) hmin

end Communicator

end Rdma4py.Ring
