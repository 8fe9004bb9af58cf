import Rdma4py.Transport.Lemmas.DynamicReceiver
import Rdma4py.Transport.Lemmas.SenderRuns

/-!
# Process senders and a process receiver

The claims share out the tasks as long as the counter does not wrap. A receiver that returns has the source in its tensor.
-/

namespace Rdma4py.Transport

open Lib

namespace Dynamic

variable {t : Sending} {p : SendState}

/-- A connection of one of the workers, and how much of it arrives before the connection ends. -/
structure Delivery where
  sender : Nat
  delivered : Nat
  reset : Bool
  deriving DecidableEq, Repr

/-- What arrives. -/
def Delivery.connection (p : SendState) (d : Delivery) : Connection :=
  ⟨(p.workers d.sender).stream.take d.delivered, d.reset⟩

theorem Delivery.framed (h : (sendMachine t).Reaches .initial p) (d : Delivery) :
    Framed t d.sender (d.connection p).data :=
  (reaches_workersInv h d.sender).1.framed.take d.delivered

/-- **Process senders and a process receiver.** Let the counter have room for a claim of every worker after the last
task. No task is claimed or sent twice. When the sender ends and no worker failed, every task was claimed and sent, and
the check of the sum passes. On the receiver's side no stripe is written twice, and if it returns, the reported bytes are
those of the iterations and a tensor whose pages the workers share is the source. -/
theorem dynamic_transfer (t : Sending) (hw : NoWrap t) (p : SendState) (hp : (sendMachine t).Reaches .initial p) :
    ((claimedTasks t p).Nodup ∧ (sentTasks t p).Nodup ∧ ∀ task ∈ claimedTasks t p, task < t.taskCount) ∧
      (∀ result, (∀ flow < t.flows, (p.workers flow).phase ≠ .failed) → sendReturned t p = some result →
        (claimedTasks t p).Perm (List.range t.taskCount) ∧ (sentTasks t p).Perm (List.range t.taskCount) ∧
          result = .ok (t.source.length * t.iterations)) ∧
      ∀ (r : Receiving) (storage : Storage) (assumeShared : Bool) (deliveries : Nat → Delivery) (tensor : Memory UInt8)
        (s : State), (machine r).Reaches (.initial storage.mapping tensor fun flow => (deliveries flow).connection p) s →
          (s.written.map Prod.snd).Nodup ∧
            ∀ nbytes, returned r (isProcessShared storage || assumeShared) s = some (.ok nbytes) →
              nbytes = t.source.length * r.iterations ∧
                (storage.mapping = .shared → s.tensor.read r.nbytes 0 = t.source) := by
  have hworkers := reaches_workersInv hp
  obtain ⟨claims, hclaims⟩ := reaches_claims hw hp
  have hnodup : (claimedTasks t p).Nodup := hclaims.claimed.nodup_iff.mpr List.nodup_range
  refine ⟨⟨hnodup, ?_, fun task ht => ?_⟩, fun result hn hret => ?_,
    fun r storage assumeShared deliveries tensor s hs => ?_⟩
  · exact hnodup.sublist (sentTasks_sublist hworkers)
  · have := List.mem_range.mp (hclaims.claimed.mem_iff.mp ht)
    omega
  · have hdone := done_of_sendReturned hn hret
    have hclaimed := hclaims.done hdone
    have hsent : (sentTasks t p).Perm (List.range t.taskCount) := by
      rw [hworkers.sentTasks_eq hdone]
      exact hclaimed
    rw [sendReturned_of_done hdone (hworkers.sum_sentBytes hsent)] at hret
    exact ⟨hclaimed, hsent, (Option.some.inj hret).symm⟩
  · have hframed := fun flow => (deliveries flow).framed hp
    have hinv := reaches_inv hframed hs
    refine ⟨(List.nodup_append.mp hinv.placed.nodup).1, fun nbytes hret => ?_⟩
    obtain ⟨htotal, hbytes, htensor⟩ := hinv.returned hret
    exact ⟨htotal ▸ hbytes, htensor⟩

/-- Three bytes in two stripes over two flows. -/
def threeBytes : Sending :=
  ⟨.zero, [7, 8, 9], 2, 1, 2, 1, Nat.two_pos, Nat.one_pos, Nat.two_pos, Nat.one_pos⟩

/-- A receiver for three bytes over two flows. -/
def threeBytesInTwo : Receiving := ⟨3, 2, 2, 2, 1, Nat.two_pos, Nat.two_pos, Nat.two_pos⟩

/-- The second worker claims first; its stripe is placed last. -/
theorem dynamic_transfer_two_flows :
    let p := (sendMachine threeBytes).play .initial
      [.claim 1, .claim 0, .send 0, .send 1, .claim 0, .claim 1, .finish 1, .finish 0]
    ((machine threeBytesInTwo).play (.initial .shared (fun _ => 0) fun flow => Delivery.connection p ⟨flow, 200, false⟩)
      [.receive 0 52, .receive 0 1, .mark 0, .receive 1 52, .receive 1 1, .receive 1 1, .mark 1, .copy 0, .copy 1,
        .receive 0 52, .receive 1 52]).tensor.read 3 0 = [7, 8, 9] := by
  have hp : (sendMachine threeBytes).Plays .initial
      [.claim 1, .claim 0, .send 0, .send 1, .claim 0, .claim 1, .finish 1, .finish 0] := by decide
  obtain ⟨-, -, hreceive⟩ := dynamic_transfer threeBytes (by decide) _ hp.reaches
  intro p
  have hs : (machine threeBytesInTwo).Plays (.initial .shared (fun _ => 0) fun flow => Delivery.connection p ⟨flow, 200, false⟩)
      [.receive 0 52, .receive 0 1, .mark 0, .receive 1 52, .receive 1 1, .receive 1 1, .mark 1, .copy 0, .copy 1,
        .receive 0 52, .receive 1 52] := by decide
  exact ((hreceive threeBytesInTwo .sharedTensor false (fun flow => ⟨flow, 200, false⟩) (fun _ => 0) _ hs.reaches).2 3
    (by decide)).2 rfl

/-! ## A counter that wraps -/

/-- One byte over two flows, as often as the counter has values, but for one. -/
def manyIterations : Sending :=
  ⟨.zero, [7], 2, 1, 1, 2 ^ 64 - 1, Nat.two_pos, Nat.one_pos, Nat.one_pos, by decide⟩

/-- The first worker sends all tasks. Its last claim turns the counter to zero, and the second worker claims the first task
again. -/
theorem exists_claimed_twice : ∃ p, (sendMachine manyIterations).Reaches .initial p ∧
    ¬ (claimedTasks manyIterations p).Nodup := by
  have hcount : manyIterations.taskCount = 2 ^ 64 - 1 := by decide
  have hfits : ∀ task, (manyIterations.taskHeader 0 task).Fits := fun task => by
    have hone : manyIterations.stripeCount = 1 := by decide
    have hoffset : manyIterations.taskOffset task = 0 := by rw [Sending.taskOffset, hone, Nat.mod_one, Nat.zero_mul]
    have hstop : manyIterations.taskStop task = 1 := by
      rw [Sending.taskStop, hoffset]
      rfl
    rw [Sending.taskHeader, hoffset, hstop]
    decide
  have howner : ∀ task < manyIterations.taskCount, 0 < manyIterations.flows ∧ (manyIterations.taskHeader 0 task).Fits :=
    fun task _ => ⟨manyIterations.flows_pos, hfits task⟩
  obtain ⟨p, hp⟩ := exists_scheduled howner hcount.ge (by decide)
  have hnext := hp.nextTask
  have hfirst : (sendMachine manyIterations).Enabled p (.claim 0) := ⟨by decide, hp.phase 0⟩
  have hworker : (claim manyIterations 0 p).workers 1 = p.workers 1 := by simp [claim]
  have hsecond : (sendMachine manyIterations).Enabled (claim manyIterations 0 p) (.claim 1) :=
    ⟨by decide, by rw [hworker]; exact hp.phase 1⟩
  refine ⟨_, (hp.reached.tail hfirst).tail hsecond, fun hnodup => ?_⟩
  have hone : 0 ∈ ((claim manyIterations 1 (claim manyIterations 0 p)).workers 1).claimed := by
    simp [claim, claimTask, hnext, hcount, counterSize]
  have htwo : 0 ∈ ((claim manyIterations 1 (claim manyIterations 0 p)).workers 0).claimed := by
    have hmem : 0 ∈ (p.workers 0).claimed := by
      rw [hp.claimed, List.mem_reverse, tasksOf, List.mem_filter, List.mem_range]
      exact ⟨by decide, by decide⟩
    simpa [claim, claimTask, hnext, hcount] using hmem
  have hflat : claimedTasks manyIterations (claim manyIterations 1 (claim manyIterations 0 p)) =
      ((claim manyIterations 1 (claim manyIterations 0 p)).workers 0).claimed ++
        ((claim manyIterations 1 (claim manyIterations 0 p)).workers 1).claimed := by
    rw [claimedTasks, show manyIterations.flows = 2 from rfl, flat_succ, flat_succ]
    rfl
  exact (List.nodup_append.mp (hflat ▸ hnodup)).2.2 0 htwo 0 hone rfl

/-! ## A destination that the workers copy -/

/-- The byte 7 over one flow. -/
def seven : Sending := ⟨.zero, [7], 1, 1, 1, 1, Nat.one_pos, Nat.one_pos, Nat.one_pos, Nat.one_pos⟩

/-- A receiver for one byte over one flow. -/
def sevenInOne : Receiving := ⟨1, 1, 1, 1, 1, Nat.one_pos, Nat.one_pos, Nat.one_pos⟩

def sentSeven : SendState := (sendMachine seven).play .initial [.claim 0, .send 0, .claim 0, .finish 0]

/-- The worker has the byte, the caller does not. -/
def receivedSeven : State :=
  (machine sevenInOne).play
    (.initial (Storage.mapping (.mmap .copyOnWrite)) (fun _ => 0) fun flow => Delivery.connection sentSeven ⟨flow, 200, false⟩)
    [.receive 0 52, .receive 0 1, .mark 0, .copy 0, .receive 0 52]

/-- A counter that wraps, and a private mapping, which passes for a shared one: the receiver returns, and the caller's byte
is still zero. -/
theorem dynamic_transfer_fails :
    (∃ p, (sendMachine manyIterations).Reaches .initial p ∧ ¬ (claimedTasks manyIterations p).Nodup) ∧
      (sendMachine seven).Reaches .initial sentSeven ∧
      (machine sevenInOne).Reaches (.initial (Storage.mapping (.mmap .copyOnWrite)) (fun _ => 0) fun flow =>
        Delivery.connection sentSeven ⟨flow, 200, false⟩) receivedSeven ∧
      returned sevenInOne (isProcessShared (.mmap .copyOnWrite) || false) receivedSeven = some (.ok 1) ∧
      receivedSeven.tensor.read 1 0 = [0] ∧ seven.source = [7] := by
  refine ⟨exists_claimed_twice, ?_, ?_, by decide, by decide, rfl⟩
  · exact Machine.Plays.reaches (show (sendMachine seven).Plays .initial [.claim 0, .send 0, .claim 0, .finish 0] by
      decide)
  · exact Machine.Plays.reaches (show (machine sevenInOne).Plays _
      [.receive 0 52, .receive 0 1, .mark 0, .copy 0, .receive 0 52] by decide)

end Dynamic

end Rdma4py.Transport
