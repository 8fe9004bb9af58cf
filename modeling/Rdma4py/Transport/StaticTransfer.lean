import Rdma4py.Transport.Lemmas.Sender
import Rdma4py.Transport.Lemmas.StaticReceiver

/-!
# Thread senders and a thread receiver

Several transfers may reach the listeners of one receiver. When it returns, one transfer has filled the tensor.
-/

namespace Rdma4py.Transport

open Lib

variable {r : Receiving} {τ : Type*} {senders : τ → Sending}

/-- A connection of one of the senders: one of its flows, and how much of it arrives before the connection ends. -/
structure FlowOf (senders : τ → Sending) where
  transfer : τ
  flow : Nat
  flow_lt : flow < (senders transfer).flows
  delivered : Nat
  reset : Bool

/-- What arrives. -/
def FlowOf.connection (c : FlowOf senders) : Connection :=
  ⟨((senders c.transfer).staticFlow c.flow).take c.delivered, c.reset⟩

namespace Static

/-- A thread that got everything has got it from the flow of its own number, and the ranges agree. -/
theorem Complete.sender {c : FlowOf senders} {flow : Nat} {id : List UInt8} (hn : r.flows ≤ r.nbytes)
    (h : Complete r flow c.connection.data id) :
    (senders c.transfer).staticFlow c.flow ≠ [] ∧ id = (senders c.transfer).id.bytes ∧ c.flow = flow ∧
      (senders c.transfer).source.length = r.nbytes ∧ (senders c.transfer).start flow = r.start flow ∧
      (senders c.transfer).stop flow = r.stop flow ∧ r.iterations ≤ (senders c.transfer).iterations := by
  have hlen := h.accepts.length
  have hdata : c.connection.data = ((senders c.transfer).staticFlow c.flow).take c.delivered := rfl
  have hle : c.connection.data.length ≤ ((senders c.transfer).staticFlow c.flow).length := by
    rw [hdata, List.length_take]
    exact Nat.min_le_right ..
  have hsome : (senders c.transfer).staticFlow c.flow ≠ [] := fun hnil => by
    rw [hnil] at hle
    simp only [headerSize, List.length_nil] at hlen hle
    omega
  have hk : headerSize ≤ c.delivered := by
    rw [hdata, List.length_take] at hlen
    omega
  have hheader := h.accepts.header
  rw [hdata, Sending.unpack_staticFlow hsome hk] at hheader
  simp only [Sending.staticHeader, Receiving.expected, Header.mk.injEq, true_and] at hheader
  obtain ⟨hid, rfl, htotal, hstart, hlength⟩ := hheader
  have hlt := r.start_lt_stop hn c.flow
  have hstop : (senders c.transfer).stop c.flow = r.stop c.flow := by
    rw [hstart] at hlength
    omega
  refine ⟨hsome, hid.symm, rfl, htotal, hstart, hstop, ?_⟩
  have henough := h.enough.trans hle
  rw [Sending.length_staticFlow hsome c.flow_lt, Sending.length, Receiving.length, hstart, hstop] at henough
  exact Nat.le_of_mul_le_mul_right (Nat.le_of_add_le_add_left henough) (by omega)

/-- A thread that is done has filled its range with that of the source. -/
theorem Placed.sender {c : FlowOf senders} {flow : Nat} {id : List UInt8} {tensor : Memory UInt8}
    (hn : r.flows ≤ r.nbytes) (hi : 0 < r.iterations) (h : Complete r flow c.connection.data id)
    (hp : Placed r flow c.connection.data tensor r.iterations (r.start flow)) :
    tensor.read (r.length flow) (r.start flow) =
      slice (senders c.transfer).source (r.start flow) (r.length flow) := by
  obtain ⟨hsome, -, rfl, -, hstart, hstop, hit⟩ := h.sender hn
  have hlength : (senders c.transfer).length c.flow = r.length c.flow := by
    rw [Sending.length, Receiving.length, hstart, hstop]
  have henough := h.enough
  have hmul : (r.iterations - 1 + 1) * r.length c.flow = r.iterations * r.length c.flow := by
    rw [Nat.sub_add_cancel hi]
  rw [Nat.succ_mul] at hmul
  have hread := hp.read hi
  rw [FlowOf.connection, List.length_take] at henough
  rwa [FlowOf.connection, slice_take (by omega), ← hlength, Sending.slice_staticFlow hsome c.flow_lt (by omega),
    hstart, hlength] at hread

/-- **Thread senders and a thread receiver.** The ranges cut a tensor with a byte for every flow without gap or overlap.
If different transfers have different identifiers and the receiver returns, then every flow came from one transfer with
the same ranges and at least as many iterations, the tensor is the source of that transfer, and the reported bytes are
those of the iterations. -/
theorem static_transfer (hid : ∀ a b, (senders a).id = (senders b).id → a = b) (r : Receiving)
    (flows : Nat → FlowOf senders) (tensor : Memory UInt8) (s : State)
    (h : (machine r).Reaches (.initial tensor fun flow => (flows flow).connection) s) :
    (r.flows ≤ r.nbytes → Tiles 0 (rangePieces r.nbytes r.flows) r.nbytes) ∧
      ∀ nbytes, returned r s = some (.ok nbytes) → nbytes = r.nbytes * r.iterations ∧
        ∃ a, (∀ flow < r.flows, (flows flow).transfer = a ∧ (flows flow).flow = flow) ∧
          (senders a).flows = r.flows ∧ r.iterations ≤ (senders a).iterations ∧
          (senders a).source.length = r.nbytes ∧ s.tensor.read r.nbytes 0 = (senders a).source := by
  refine ⟨tiles_ranges r.flows_pos, fun nbytes hret => ?_⟩
  obtain ⟨hn, hi, hbytes, id, hdone⟩ := returned_ok hret
  have hflow : ∀ flow < r.flows, Complete r flow (flows flow).connection.data id ∧
      Placed r flow (flows flow).connection.data s.tensor r.iterations (r.start flow) := fun flow hf => by
    obtain ⟨consumed, -, -, hst⟩ := reaches_inv hn hi h flow
    rw [hdone flow hf] at hst
    exact hst
  refine ⟨hbytes, (flows 0).transfer, ?_⟩
  have hsender := fun flow hf => (hflow flow hf).1.sender hn
  -- the identifier makes it one transfer
  have hsame : ∀ flow < r.flows, (flows flow).transfer = (flows 0).transfer := fun flow hf => by
    refine hid _ _ ?_
    have h₁ := (hsender flow hf).2.1
    have h₂ := (hsender 0 r.flows_pos).2.1
    exact TransferId.ext (h₁.symm.trans h₂)
  have hpos := r.flows_pos
  obtain ⟨-, -, -, htotal, -, -, hiter⟩ := hsender 0 hpos
  -- the last flow makes it the same number of flows
  have hflows : (senders (flows 0).transfer).flows = r.flows := by
    obtain ⟨-, -, hown, -, -, hstop, -⟩ := hsender (r.flows - 1) (by omega)
    have hlt := (flows (r.flows - 1)).flow_lt
    rw [hown, hsame _ (by omega)] at hlt
    rw [hsame _ (by omega), Sending.stop, Receiving.stop, Nat.sub_add_cancel hpos, partitionBound_self hpos,
      htotal] at hstop
    exact flows_eq_of_last hpos (by omega) (by omega) hstop
  refine ⟨fun flow hf => ⟨hsame flow hf, (hsender flow hf).2.2.1⟩, hflows, hiter, htotal, ?_⟩
  rw [← htotal]
  refine read_eq_of_ranges hpos (by omega) fun flow hf => ?_
  have hread := (hflow flow hf).2.sender hn hi (hflow flow hf).1
  rw [hsame flow hf] at hread
  rw [htotal]
  exact hread

/-- Two senders with two bytes over two flows, each sent twice. -/
def twoSenders : Bool → Sending
  | false => ⟨.zero, [7, 8], 2, 1, 1, 2, Nat.two_pos, Nat.one_pos, Nat.one_pos, Nat.two_pos⟩
  | true => ⟨⟨List.replicate 16 1, List.length_replicate⟩, [9, 9], 2, 1, 1, 2, Nat.two_pos, Nat.one_pos, Nat.one_pos,
      Nat.two_pos⟩

theorem two_le_flows (transfer : Bool) : 2 ≤ (twoSenders transfer).flows := by
  cases transfer <;> exact Nat.le_refl 2

/-- A receiver for two bytes over two flows. -/
def twoFlows : Receiving := ⟨2, 2, 1, 1, 1, Nat.two_pos, Nat.one_pos, Nat.one_pos⟩

/-- Each listener gets the flow of its number from the sender that is chosen for it. -/
def chosenFlow (choice : Nat → Bool) (flow : Nat) : FlowOf twoSenders :=
  ⟨choice flow, flow % 2, (Nat.mod_lt flow Nat.two_pos).trans_le (two_le_flows _), 54, false⟩

/-- The receiver after one iteration; the second flow overtakes the first one. -/
def receivedTwo (choice : Nat → Bool) : State :=
  (machine twoFlows).play (.initial (fun _ => 0) fun flow => (chosenFlow choice flow).connection)
    [⟨0, 52⟩, ⟨1, 52⟩, ⟨1, 1⟩, ⟨0, 1⟩]

/-- From one sender, the receiver takes its bytes; when a flow of the other reaches a listener, it does not return. -/
theorem static_transfer_two_flows :
    (receivedTwo fun _ => false).tensor.read 2 0 = [7, 8] ∧
      ∀ nbytes, returned twoFlows (receivedTwo fun flow => flow == 1) ≠ some (.ok nbytes) := by
  have hid : ∀ a b, (twoSenders a).id = (twoSenders b).id → a = b := by decide
  constructor
  · have hs : (machine twoFlows).Plays (.initial (fun _ => 0) fun flow => (chosenFlow (fun _ => false) flow).connection)
        [⟨0, 52⟩, ⟨1, 52⟩, ⟨1, 1⟩, ⟨0, 1⟩] := by decide
    obtain ⟨-, a, hfrom, -, -, -, htensor⟩ :=
      (static_transfer hid twoFlows (chosenFlow fun _ => false) (fun _ => 0) _ hs.reaches).2 2 (by decide)
    obtain rfl : false = a := (hfrom 0 Nat.two_pos).1
    exact htensor
  · intro nbytes hret
    have hs : (machine twoFlows).Plays (.initial (fun _ => 0) fun flow => (chosenFlow (fun flow => flow == 1) flow).connection)
        [⟨0, 52⟩, ⟨1, 52⟩, ⟨1, 1⟩, ⟨0, 1⟩] := by decide
    obtain ⟨-, a, hfrom, -⟩ :=
      (static_transfer hid twoFlows (chosenFlow fun flow => flow == 1) (fun _ => 0) _ hs.reaches).2 nbytes hret
    have hfirst : false = a := (hfrom 0 (by decide)).1
    have hsecond : true = a := (hfrom 1 (by decide)).1
    rw [← hsecond] at hfirst
    cases hfirst

end Static

end Rdma4py.Transport
