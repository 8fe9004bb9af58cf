import Rdma4py.Ring.Collective
import Rdma4py.Ring.Lemmas.Round

/-!
# Receives, messages and completions

A channel that has ended `n` rounds in all collectives together has posted `n` receives and `n` messages, or one more of
each in its current round.
-/

namespace Rdma4py.Ring

open Lib

/-! ## One channel -/

/-- What a channel has posted and seen complete: `base` rounds belong to the collectives before this one. -/
structure Counted (l : Launch) (base rounds rank channel : Nat) (c : Channel) (receives : Nat)
    (messages : List Message) (received acknowledged : Nat) : Prop where
  round_le : c.round ≤ rounds
  busy : c.phase ≠ .ready → c.round < rounds
  receives_eq : receives = base + c.round + if c.phase = .ready then 0 else 1
  messages_eq : messages.length = base + c.round + if c.phase = .ready ∨ c.phase = .posted then 0 else 1
  recvTicket_eq : c.phase ≠ .ready → c.recvTicket = base + c.round
  sendTicket_eq : c.phase = .sent → c.sendTicket = base + c.round
  message_eq : c.phase ≠ .ready → c.phase ≠ .posted →
    messages[base + c.round]? = some (l.message rank channel c.round)
  le_received : base + c.round ≤ received
  received_le : received ≤ receives
  le_acknowledged : base + c.round ≤ acknowledged
  acknowledged_le : acknowledged ≤ messages.length
  lt_acknowledged : c.phase = .waiting ∨ c.phase = .reducing → base + c.round < acknowledged
  lt_received : c.phase = .reducing → base + c.round < received
  scatters : c.phase = .reducing → l.Scatters c.round

namespace Counted

variable {l : Launch} {base rounds rank channel receives received acknowledged : Nat} {c : Channel}
  {messages : List Message}

theorem postRecv (h : Counted l base rounds rank channel c receives messages received acknowledged)
    (hphase : c.phase = .ready) (hrun : c.round < rounds) :
    Counted l base rounds rank channel { c with phase := .posted, recvTicket := receives } (receives + 1) messages
      received acknowledged := by
  have hr : receives = base + c.round := by simpa [hphase] using h.receives_eq
  have hm : messages.length = base + c.round := by simpa [hphase] using h.messages_eq
  exact
    { h with
      busy := fun _ => hrun
      receives_eq := by simp [hr]
      messages_eq := by simp [hm]
      recvTicket_eq := fun _ => hr
      sendTicket_eq := by simp
      message_eq := by simp
      received_le := Nat.le_succ_of_le h.received_le
      lt_acknowledged := by simp
      lt_received := by simp
      scatters := by simp }

theorem postSend (h : Counted l base rounds rank channel c receives messages received acknowledged)
    (hphase : c.phase = .posted) :
    Counted l base rounds rank channel { c with phase := .sent, sendTicket := messages.length } receives
      (messages ++ [l.message rank channel c.round]) received acknowledged := by
  have hm : messages.length = base + c.round := by simpa [hphase] using h.messages_eq
  exact
    { h with
      busy := fun _ => h.busy (by simp [hphase])
      receives_eq := by simpa [hphase] using h.receives_eq
      messages_eq := by simp [hm]
      recvTicket_eq := fun _ => h.recvTicket_eq (by simp [hphase])
      sendTicket_eq := fun _ => hm
      message_eq := fun _ _ => by simp [← hm]
      acknowledged_le := by
        rw [List.length_append]
        exact Nat.le_add_right_of_le h.acknowledged_le
      lt_acknowledged := by simp
      lt_received := by simp
      scatters := by simp }

theorem waitSend (h : Counted l base rounds rank channel c receives messages received acknowledged)
    (hphase : c.phase = .sent) (hticket : c.sendTicket < acknowledged) :
    Counted l base rounds rank channel { c with phase := .waiting } receives messages received acknowledged :=
  { h with
    busy := fun _ => h.busy (by simp [hphase])
    receives_eq := by simpa [hphase] using h.receives_eq
    messages_eq := by simpa [hphase] using h.messages_eq
    recvTicket_eq := fun _ => h.recvTicket_eq (by simp [hphase])
    sendTicket_eq := by simp
    message_eq := fun _ _ => h.message_eq (by simp [hphase]) (by simp [hphase])
    lt_acknowledged := fun _ => h.sendTicket_eq hphase ▸ hticket
    lt_received := by simp
    scatters := by simp }

/-- The receive of a reduce-scatter step. -/
theorem waitRecv (h : Counted l base rounds rank channel c receives messages received acknowledged)
    (hphase : c.phase = .waiting) (hticket : c.recvTicket < received) (hscatters : l.Scatters c.round) :
    Counted l base rounds rank channel { c with phase := .reducing, reduced := fun _ => false } receives messages
      received acknowledged :=
  { h with
    busy := fun _ => h.busy (by simp [hphase])
    receives_eq := by simpa [hphase] using h.receives_eq
    messages_eq := by simpa [hphase] using h.messages_eq
    recvTicket_eq := fun _ => h.recvTicket_eq (by simp [hphase])
    sendTicket_eq := by simp
    message_eq := fun _ _ => h.message_eq (by simp [hphase]) (by simp [hphase])
    lt_acknowledged := fun _ => h.lt_acknowledged (.inl hphase)
    lt_received := fun _ => h.recvTicket_eq (by simp [hphase]) ▸ hticket
    scatters := fun _ => hscatters }

/-- The end of a round, when its send and its receive have completed. -/
theorem advance (h : Counted l base rounds rank channel c receives messages received acknowledged)
    (hphase : c.phase = .waiting ∨ c.phase = .reducing) (hreceived : base + c.round < received) :
    Counted l base rounds rank channel (Communicator.advanced c) receives messages received acknowledged := by
  have hne : c.phase ≠ .ready ∧ c.phase ≠ .posted := by rcases hphase with h | h <;> simp [h]
  have hr : receives = base + c.round + 1 := by simpa [hne] using h.receives_eq
  have hm : messages.length = base + c.round + 1 := by simpa [hne] using h.messages_eq
  exact
    { h with
      round_le := h.busy hne.1
      busy := by simp [Communicator.advanced]
      receives_eq := by simp [hr, Communicator.advanced, Nat.add_assoc]
      messages_eq := by simp [hm, Communicator.advanced, Nat.add_assoc]
      recvTicket_eq := by simp [Communicator.advanced]
      sendTicket_eq := by simp [Communicator.advanced]
      message_eq := by simp [Communicator.advanced]
      le_received := hreceived
      le_acknowledged := h.lt_acknowledged hphase
      lt_acknowledged := by simp [Communicator.advanced]
      lt_received := by simp [Communicator.advanced]
      scatters := by simp [Communicator.advanced] }

/-- The reduction and a timeout count nothing. -/
theorem congr {c' : Channel} (h : Counted l base rounds rank channel c receives messages received acknowledged)
    (hround : c'.round = c.round) (hphase : c'.phase = c.phase) (hrecv : c'.recvTicket = c.recvTicket)
    (hsend : c'.sendTicket = c.sendTicket) :
    Counted l base rounds rank channel c' receives messages received acknowledged := by
  obtain ⟨round, phase, recvTicket, sendTicket, reduced, failed⟩ := c'
  subst hround hphase hrecv hsend
  exact { h with }

theorem receive (h : Counted l base rounds rank channel c receives messages received acknowledged)
    (hlt : received < receives) :
    Counted l base rounds rank channel c receives messages (received + 1) acknowledged :=
  { h with
    le_received := Nat.le_succ_of_le h.le_received
    received_le := hlt
    lt_received := fun hphase => Nat.lt_succ_of_lt (h.lt_received hphase) }

theorem acknowledge (h : Counted l base rounds rank channel c receives messages received acknowledged)
    (hlt : acknowledged < messages.length) :
    Counted l base rounds rank channel c receives messages received (acknowledged + 1) :=
  { h with
    le_acknowledged := Nat.le_succ_of_le h.le_acknowledged
    acknowledged_le := hlt
    lt_acknowledged := fun hphase => Nat.lt_succ_of_lt (h.lt_acknowledged hphase) }

/-- The next collective goes on where this one ends. -/
theorem launched {l' : Launch} {rounds' : Nat}
    (h : Counted l base rounds rank channel c receives messages received acknowledged) (hround : c.round = rounds) :
    Counted l' (base + rounds) rounds' rank channel .launched receives messages received acknowledged := by
  have hphase : c.phase = .ready := by
    by_contra hne
    exact Nat.lt_irrefl _ (hround ▸ h.busy hne)
  have hr := h.receives_eq
  have hm := h.messages_eq
  simp only [hphase, hround, reduceIte, true_or] at hr hm
  exact
    { h with
      round_le := Nat.zero_le _
      busy := by simp [Channel.launched]
      receives_eq := by simpa [Channel.launched] using hr
      messages_eq := by simpa [Channel.launched] using hm
      recvTicket_eq := by simp [Channel.launched]
      sendTicket_eq := by simp [Channel.launched]
      message_eq := by simp [Channel.launched]
      le_received := hround ▸ h.le_received
      le_acknowledged := hround ▸ h.le_acknowledged
      lt_acknowledged := by simp [Channel.launched]
      lt_received := by simp [Channel.launched]
      scatters := by simp [Channel.launched] }

/-- A message that is outstanding is the one of the round. -/
theorem outstanding (h : Counted l base rounds rank channel c receives messages received acknowledged)
    (hlt : acknowledged < messages.length) :
    acknowledged = base + c.round ∧ c.phase = .sent ∧ c.round < rounds ∧
      messages[acknowledged]? = some (l.message rank channel c.round) := by
  have hm := h.messages_eq
  have hle := h.le_acknowledged
  split at hm
  · omega
  next hphase =>
    obtain ⟨hne, hne'⟩ := not_or.mp hphase
    have heq : acknowledged = base + c.round := by omega
    refine ⟨heq, ?_, h.busy hne, heq ▸ h.message_eq hne hne'⟩
    have hwait : ¬ (c.phase = .waiting ∨ c.phase = .reducing) := fun hw => by
      have := h.lt_acknowledged hw
      omega
    cases hp : c.phase <;> simp_all

end Counted

namespace Communicator

variable {β : Type*} {C : Communicator β} {s : State β} {e : Event} {rank channel : Nat}

/-! ## The ring -/

theorem two_le_world (C : Communicator β) : 2 ≤ C.world := C.world_eq 0 ▸ (C.launch 0).two_le_world

theorem world_pos (C : Communicator β) : 0 < C.world := Nat.lt_of_lt_of_le Nat.two_pos C.two_le_world

theorem nextRank_lt (C : Communicator β) (rank : Nat) : C.nextRank rank < C.world := Nat.mod_lt _ C.world_pos

theorem prevRank_lt (C : Communicator β) (rank : Nat) : C.prevRank rank < C.world := Nat.mod_lt _ C.world_pos

theorem nextRank_prevRank (h : rank < C.world) : C.nextRank (C.prevRank rank) = rank := by
  have h₁ := mod_cases (x := rank + C.world - 1) (w := C.world) (by omega)
  have h₂ := mod_cases (x := (rank + C.world - 1) % C.world + 1) (w := C.world) (by omega)
  rw [nextRank, prevRank]
  omega

theorem prevRank_nextRank (h : rank < C.world) : C.prevRank (C.nextRank rank) = rank := by
  have h₁ := mod_cases (x := rank + 1) (w := C.world) (by omega)
  have h₂ := mod_cases (x := (rank + 1) % C.world + C.world - 1) (w := C.world) (by omega)
  rw [nextRank, prevRank]
  omega

theorem exists_nextRank (h : rank < C.world) : ∃ rank' < C.world, C.nextRank rank' = rank :=
  ⟨C.prevRank rank, C.prevRank_lt rank, nextRank_prevRank h⟩

theorem nextRank_inj {rank' : Nat} (h : rank < C.world) (h' : rank' < C.world)
    (heq : C.nextRank rank = C.nextRank rank') : rank = rank' := by
  rw [← prevRank_nextRank h, heq, prevRank_nextRank h']

/-! ## All channels -/

/-- The rounds that a channel has ended, in all collectives. -/
def position (C : Communicator β) (s : State β) (rank channel : Nat) : Nat :=
  C.base (s.started rank) channel + (s.channels rank channel).round

/-- Every channel has posted what its rounds say. -/
def Counts (C : Communicator β) (s : State β) : Prop :=
  ∀ rank < C.world, ∀ channel,
    Counted (C.current s rank) (C.base (s.started rank) channel) (C.rounds (s.started rank) channel) rank channel
      (s.channels rank channel) (s.receives rank channel) (s.messages (C.nextRank rank) channel)
      (s.delivered rank channel) (s.delivered (C.nextRank rank) channel)

theorem counts_initial (C : Communicator β) (work scratch : Nat → Memory β) : C.Counts (initial work scratch) :=
  fun _ _ _ => by constructor <;> simp [initial, Channel.launched, base]

theorem rounds_of_succeeded (hcounts : C.Counts s) (hrank : rank < C.world) (h : C.Succeeded s rank) (channel : Nat) :
    (s.channels rank channel).round = C.rounds (s.started rank) channel := by
  by_cases hactive : channel < (C.launch (s.started rank)).activeChannels
  · exact (h channel hactive).2
  · have hle := (hcounts rank hrank channel).round_le
    have : C.rounds (s.started rank) channel = 0 := by simp [rounds, Launch.rounds, hactive]
    omega

@[simp] theorem set₂_apply {α : Type*} (f : Nat → Nat → α) (i j : Nat) (v : α) (i' j' : Nat) :
    set₂ f i j v i' j' = if i' = i ∧ j' = j then v else f i' j' := rfl

/-- A step that only changes one channel, and its receives and messages. -/
theorem Counts.of_channel {s' : State β} (rank channel : Nat) (hcounts : C.Counts s) (hstarted : s'.started = s.started)
    (hdelivered : s'.delivered = s.delivered)
    (hother : ∀ rank' < C.world, ∀ channel', ¬ (rank' = rank ∧ channel' = channel) →
      s'.channels rank' channel' = s.channels rank' channel' ∧ s'.receives rank' channel' = s.receives rank' channel' ∧
        s'.messages (C.nextRank rank') channel' = s.messages (C.nextRank rank') channel')
    (hsame : rank < C.world →
      Counted (C.current s rank) (C.base (s.started rank) channel) (C.rounds (s.started rank) channel) rank channel
        (s'.channels rank channel) (s'.receives rank channel) (s'.messages (C.nextRank rank) channel)
        (s.delivered rank channel) (s.delivered (C.nextRank rank) channel)) : C.Counts s' := by
  intro rank' hrank' channel'
  rw [current, hstarted, hdelivered]
  by_cases hcase : rank' = rank ∧ channel' = channel
  · obtain ⟨rfl, rfl⟩ := hcase
    exact hsame hrank'
  · obtain ⟨h₁, h₂, h₃⟩ := hother rank' hrank' channel' hcase
    rw [h₁, h₂, h₃]
    exact hcounts rank' hrank' channel'

theorem place_frame (C : Communicator β) (s : State β) (rank channel byte : Nat) :
    let s' := C.next s (.place rank channel byte)
    s'.started = s.started ∧ s'.channels = s.channels ∧ s'.receives = s.receives ∧ s'.messages = s.messages ∧
      s'.delivered = s.delivered := by
  dsimp only [next]
  split <;> exact ⟨rfl, rfl, rfl, rfl, rfl⟩

/-- Every step keeps the counts. -/
theorem counts_next (hcounts : C.Counts s) (he : C.Enabled s e) : C.Counts (C.next s e) := by
  cases e with
  | start rank =>
      obtain ⟨hrank, hsucceeded⟩ := he
      intro rank' hrank' channel'
      by_cases hcase : rank' = rank
      · subst hcase
        simpa [next, current, base] using
          (hcounts rank' hrank' channel').launched (rounds_of_succeeded hcounts hrank hsucceeded channel')
      · simpa [next, current, hcase] using hcounts rank' hrank' channel'
  | postRecv rank channel =>
      obtain ⟨⟨hrank, -, hround⟩, hphase⟩ := he
      refine hcounts.of_channel rank channel rfl rfl (fun _ _ _ hne => ?_) fun _ => ?_
      · simp [next, hne]
      · simpa [next] using (hcounts rank hrank channel).postRecv hphase hround
  | postSend rank channel =>
      obtain ⟨⟨hrank, -, -⟩, hphase⟩ := he
      refine hcounts.of_channel rank channel rfl rfl (fun rank' hrank' _ hne => ?_) fun _ => ?_
      · have hne' : ∀ {channel' : Nat}, ¬ (rank' = rank ∧ channel' = channel) →
            ¬ (C.nextRank rank' = C.nextRank rank ∧ channel' = channel) :=
          fun hne h => hne ⟨nextRank_inj hrank' hrank h.1, h.2⟩
        simp [next, hne, hne' hne]
      · simpa [next] using (hcounts rank hrank channel).postSend hphase
  | waitSend rank channel =>
      obtain ⟨⟨hrank, -, -⟩, hphase, hticket⟩ := he
      refine hcounts.of_channel rank channel rfl rfl (fun _ _ _ hne => ?_) fun _ => ?_
      · simp [next, hne]
      · simpa [next] using (hcounts rank hrank channel).waitSend hphase hticket
  | waitRecv rank channel =>
      obtain ⟨⟨hrank, -, -⟩, hphase, hticket⟩ := he
      have hcounted := hcounts rank hrank channel
      refine hcounts.of_channel rank channel rfl rfl (fun _ _ _ hne => ?_) fun _ => ?_
      · simp [next, hne]
      by_cases hscatters : (C.current s rank).Scatters (s.channels rank channel).round
      · simpa [next, hscatters] using hcounted.waitRecv hphase hticket hscatters
      · have hreceived := hcounted.recvTicket_eq (by simp [hphase]) ▸ hticket
        simpa [next, hscatters] using hcounted.advance (.inl hphase) hreceived
  | reduce rank channel element =>
      obtain ⟨⟨hrank, -, -⟩, -⟩ := he
      refine hcounts.of_channel rank channel rfl rfl (fun _ _ _ hne => ?_) fun _ => ?_
      · simp [next, hne]
      · simp only [next, set₂_apply, and_self, reduceIte]
        exact (hcounts rank hrank channel).congr rfl rfl rfl rfl
  | advance rank channel =>
      obtain ⟨⟨hrank, -, -⟩, hphase, -⟩ := he
      have hcounted := hcounts rank hrank channel
      refine hcounts.of_channel rank channel rfl rfl (fun _ _ _ hne => ?_) fun _ => ?_
      · simp [next, hne]
      · simpa [next] using hcounted.advance (.inr hphase) (hcounted.lt_received hphase)
  | timeout rank channel =>
      obtain ⟨⟨hrank, -, -⟩, -⟩ := he
      refine hcounts.of_channel rank channel rfl rfl (fun _ _ _ hne => ?_) fun _ => ?_
      · simp [next, hne]
      · simp only [next, set₂_apply, and_self, reduceIte]
        exact (hcounts rank hrank channel).congr rfl rfl rfl rfl
  | place rank channel byte =>
      obtain ⟨h₁, h₂, h₃, h₄, h₅⟩ := C.place_frame s rank channel byte
      intro rank' hrank' channel'
      rw [current, h₁, h₂, h₃, h₄, h₅]
      exact hcounts rank' hrank' channel'
  | deliver rank channel =>
      obtain ⟨hrank, hreceives, m, hm, -⟩ := he
      obtain ⟨hmessages, -⟩ := List.getElem?_eq_some_iff.mp hm
      intro rank' hrank' channel'
      have hcounted := hcounts rank' hrank' channel'
      have hreceived : Counted (C.current s rank') (C.base (s.started rank') channel')
          (C.rounds (s.started rank') channel') rank' channel' (s.channels rank' channel') (s.receives rank' channel')
          (s.messages (C.nextRank rank') channel') ((C.next s (.deliver rank channel)).delivered rank' channel')
          (s.delivered (C.nextRank rank') channel') := by
        by_cases hcase : rank' = rank ∧ channel' = channel
        · obtain ⟨rfl, rfl⟩ := hcase
          simpa [next] using hcounted.receive hreceives
        · simpa [next, hcase] using hcounted
      by_cases hcase : C.nextRank rank' = rank ∧ channel' = channel
      · obtain ⟨rfl, rfl⟩ := hcase
        simpa [next, current] using hreceived.acknowledge hmessages
      · simpa [next, current, hcase] using hreceived

theorem counts_of_reaches {work scratch : Nat → Memory β} (h : C.machine.Reaches (initial work scratch) s) :
    C.Counts s :=
  Machine.Reaches.invariant (M := C.machine) (I := C.Counts) (fun _ _ hi he => counts_next hi he) h
    (counts_initial C work scratch)

/-! ## Where the rounds of the collectives lie -/

theorem base_mono {k k' : Nat} (h : k ≤ k') (channel : Nat) : C.base k channel ≤ C.base k' channel := by
  induction h with
  | refl => exact Nat.le_refl _
  | step _ ih => exact Nat.le_add_right_of_le ih

/-- A round belongs to one collective. -/
theorem base_inj {k k' round round' : Nat} (h : round < C.rounds k channel) (h' : round' < C.rounds k' channel)
    (heq : C.base k channel + round = C.base k' channel + round') : k = k' ∧ round = round' := by
  have hk : k = k' := by
    rcases Nat.lt_trichotomy k k' with hlt | rfl | hlt
    · have := base_mono (C := C) hlt channel
      rw [base] at this
      omega
    · rfl
    · have := base_mono (C := C) hlt channel
      rw [base] at this
      omega
  subst hk
  exact ⟨rfl, Nat.add_left_cancel heq⟩

theorem rounds_of_ne_zero {k : Nat} (h : k ≠ 0) (channel : Nat) : C.rounds k channel = (C.launch k).rounds channel :=
  if_neg h

theorem ne_zero_of_lt_rounds {k round : Nat} (h : round < C.rounds k channel) : k ≠ 0 := by
  rintro rfl
  exact Nat.not_lt_zero _ h

theorem lt_launch_rounds {k round : Nat} (h : round < C.rounds k channel) : round < (C.launch k).rounds channel :=
  rounds_of_ne_zero (ne_zero_of_lt_rounds h) channel ▸ h

/-- Nothing completes before the receiver has posted it. -/
theorem delivered_le (hcounts : C.Counts s) (hrank : rank < C.world) (channel : Nat) :
    s.delivered rank channel ≤ C.base (s.started rank + 1) channel := by
  have h := hcounts rank hrank channel
  have hreceives := h.receives_eq
  have hle := h.received_le
  have hround := h.round_le
  have hbusy := h.busy
  rw [base]
  split at hreceives
  · omega
  next hphase =>
    have := hbusy hphase
    omega

theorem delivered_le_succ (hcounts : C.Counts s) (hrank : rank < C.world) (channel : Nat) :
    s.delivered rank channel ≤ C.position s rank channel + 1 := by
  have h := hcounts rank hrank channel
  have hreceives := h.receives_eq
  have hle := h.received_le
  rw [position]
  split at hreceives <;> omega

theorem position_le_delivered (hcounts : C.Counts s) (hrank : rank < C.world) (channel : Nat) :
    C.position s rank channel ≤ s.delivered rank channel := (hcounts rank hrank channel).le_received

theorem position_le_acknowledged (hcounts : C.Counts s) (hrank : rank < C.world) (channel : Nat) :
    C.position s rank channel ≤ s.delivered (C.nextRank rank) channel := (hcounts rank hrank channel).le_acknowledged

/-- A channel that has ended has posted a receive and a message for each round. -/
theorem posted_of_ended (hcounts : C.Counts s) (hrank : rank < C.world)
    (hround : (s.channels rank channel).round = C.rounds (s.started rank) channel) :
    s.receives rank channel = C.base (s.started rank + 1) channel ∧
      (s.messages (C.nextRank rank) channel).length = C.base (s.started rank + 1) channel := by
  have hcounted := hcounts rank hrank channel
  have hready : (s.channels rank channel).phase = .ready := by
    by_contra hne
    exact Nat.lt_irrefl _ (hround ▸ hcounted.busy hne)
  constructor
  · simpa [hready, hround, base] using hcounted.receives_eq
  · simpa [hready, hround, base] using hcounted.messages_eq

/-- What the network still has to write or complete is the message of the sender's round. -/
theorem outstanding (hcounts : C.Counts s) (hrank : rank < C.world) (channel : Nat)
    (hlt : s.delivered (C.nextRank rank) channel < (s.messages (C.nextRank rank) channel).length) :
    s.delivered (C.nextRank rank) channel = C.position s rank channel ∧
      (s.channels rank channel).phase = .sent ∧
        (s.channels rank channel).round < C.rounds (s.started rank) channel ∧
          (s.messages (C.nextRank rank) channel)[s.delivered (C.nextRank rank) channel]? =
            some ((C.current s rank).message rank channel (s.channels rank channel).round) :=
  (hcounts rank hrank channel).outstanding hlt

end Communicator

end Rdma4py.Ring
