import Rdma4py.Transport.Lemmas.MixedModes
import Rdma4py.Transport.Lemmas.ReturnedTensor

/-!
# Different worker modes on the two sides

Both modes use the same magic in their headers. A process receiver never accepts a thread sender. A thread receiver that
asks for more than one iteration can take the headers of a process sender for the tensor.
-/

namespace Rdma4py.Transport

open Lib

/-- **Different worker modes.** A process receiver does not return from the connections of a thread sender, unless the
source foresaw the identifier. A thread receiver that returns from those of a process sender has the source in its tensor
when it has one iteration, its ranges are not the stripes of the sender, or the bytes that can stand where it reads the
last iteration are its range. As long as the counter of the sender does not wrap, this is the only case. -/
theorem mixed_modes (t : Sending) (r : Receiving) :
    (t.Unforeseen → ∀ (flows : Nat → FlowOf fun _ : Unit => t) (mapping : Dynamic.Mapping) (tensor : Memory UInt8)
      (s : Dynamic.State), (Dynamic.machine r).Reaches (.initial mapping tensor fun flow => (flows flow).connection) s →
        ∀ shared nbytes, Dynamic.returned r shared s ≠ some (.ok nbytes)) ∧
      (Static.HoldsWhen t r → Static.Safe t r) ∧
      (Dynamic.NoWrap t → Static.Safe t r → Static.HoldsWhen t r) := by
  refine ⟨fun hid flows mapping tensor s hs shared nbytes hret => ?_, Static.HoldsWhen.safe,
    fun hw h => h.holdsWhen hw⟩
  obtain ⟨-, -, hdone, -⟩ := Dynamic.returned_ok hret
  obtain ⟨id, receivedBytes, hd⟩ := hdone 0 r.flows_pos
  exact Dynamic.static_not_done hid hs 0 id receivedBytes hd

/-- One byte over one flow, sent twice. -/
def oneByteTwice : Sending :=
  ⟨.zero, [7], 1, 1, 1, 2, Nat.one_pos, Nat.one_pos, Nat.one_pos, Nat.two_pos⟩

/-- A receiver of one byte over one flow. -/
def oneByte (iterations : Nat) : Receiving := ⟨1, 1, 1, 1, iterations, Nat.one_pos, Nat.one_pos, Nat.one_pos⟩

/-- The worker sends both stripes and the terminator. -/
def sentTwice : Dynamic.SendState :=
  (Dynamic.sendMachine oneByteTwice).play .initial [.claim 0, .send 0, .claim 0, .send 0, .claim 0, .finish 0]

theorem reaches_sentTwice : (Dynamic.sendMachine oneByteTwice).Reaches .initial sentTwice :=
  Machine.Plays.reaches (show (Dynamic.sendMachine oneByteTwice).Plays .initial
    [.claim 0, .send 0, .claim 0, .send 0, .claim 0, .finish 0] by decide)

/-- The letter at the start of every header, sent twice. -/
def oneLetterTwice : Sending :=
  ⟨.zero, [0x54], 1, 1, 1, 2, Nat.one_pos, Nat.one_pos, Nat.one_pos, Nat.two_pos⟩

/-- The letter is safe, the byte is not; a process receiver never returns. -/
theorem mixed_modes_one_byte :
    Static.NeverCorrupts oneByteTwice (oneByte 1) (fun _ => 0)
        (fun _ => Dynamic.Delivery.connection sentTwice ⟨0, 200, false⟩) ∧
      Static.Safe oneLetterTwice (oneByte 2) ∧ ¬ Static.Safe oneByteTwice (oneByte 2) ∧
      Dynamic.returned (oneByte 2) true ((Dynamic.machine (oneByte 2)).play
        (.initial .shared (fun _ => 0) fun _ => (⟨(), 0, by decide, 54, false⟩ : FlowOf fun _ : Unit => oneByteTwice).connection)
        [.receive 0 52, .receive 0 1]) ≠ some (.ok 2) := by
  refine ⟨(mixed_modes oneByteTwice (oneByte 1)).2.1 (.inl (by decide)) sentTwice reaches_sentTwice _ _,
    (mixed_modes oneLetterTwice (oneByte 2)).2.1 (by decide), fun hsafe => ?_,
    (mixed_modes oneByteTwice (oneByte 2)).1 (by decide)
      (fun _ => ⟨(), 0, by decide, 54, false⟩) .shared (fun _ => 0) _ ?_ true 2⟩
  · exact absurd ((mixed_modes oneByteTwice (oneByte 2)).2.2 (by decide) hsafe) (by decide)
  · exact Machine.Plays.reaches (show (Dynamic.machine (oneByte 2)).Plays _ [.receive 0 52, .receive 0 1] by
      decide)

/-- The second iteration is the first byte of the second header. -/
theorem mixed_modes_corrupt :
    let s := (Static.machine (oneByte 2)).play
      (.initial (fun _ => 0) fun _ => Dynamic.Delivery.connection sentTwice ⟨0, 200, false⟩) [⟨0, 52⟩, ⟨0, 1⟩, ⟨0, 1⟩]
    (Dynamic.sendMachine oneByteTwice).Reaches .initial sentTwice ∧
      (Static.machine (oneByte 2)).Reaches
        (.initial (fun _ => 0) fun _ => Dynamic.Delivery.connection sentTwice ⟨0, 200, false⟩) s ∧
      Static.returned (oneByte 2) s = some (.ok 2) ∧ s.tensor.read 1 0 = [0x54] ∧ oneByteTwice.source = [7] := by
  refine ⟨reaches_sentTwice, ?_, by decide, by decide, rfl⟩
  exact Machine.Plays.reaches (show (Static.machine (oneByte 2)).Plays _ [⟨0, 52⟩, ⟨0, 1⟩, ⟨0, 1⟩] by decide +kernel)

end Rdma4py.Transport
