import Mathlib.Data.Fintype.Prod
import Rdma4py.ReadScheduler.Lemmas.OneQp
import Rdma4py.ReadScheduler.Lemmas.Transfer

/-!
# A batch that ends well moved its bytes

However the chunks are spread over the QPs, in whatever order the NIC moves them and their completions arrive.
-/

namespace Rdma4py.ReadScheduler

open Rdma4py.Lib

variable {π β : Type*}

/-- When a batch ends well, every request of it holds at its targets what its sources held when it was submitted. -/
theorem batch_moves_its_bytes (a : Addressing π) (s : SchedulerId) (b : BatchId) {t t' : Transfers π β}
    {e : TransferEvent π β} (hi : t.world.Initial) (hr : ((transfers a s).when (Reliable a s)).Reaches t t')
    (he : ((transfers a s).when (Reliable a s)).Enabled t' e) (hbefore : ¬ EndedWell s b t'.world)
    (hafter : EndedWell s b ((transfers a s).next t' e).world) :
    ∀ r ∈ (((transfers a s).next t' e).world.batches b).requests,
      (r.copy a).Arrived (((transfers a s).next t' e).submitted b) ((transfers a s).next t' e).memory := by
  have hunder := Underway.run hi hr
  obtain ⟨hen, hrel⟩ := he
  cases e with
  | memory m => exact absurd hafter hbefore
  | process e =>
      have hall := hunder.process hen hrel
      rcases (hall.fares b hafter.submitted).ended hafter with hold | harrived
      · exact absurd hold hbefore
      · exact harrived

/-- Eight bytes of local memory and eight of remote memory. -/
def eightBytes : Addressing (Bool × Fin 8) where
  localByte _ offset := (true, Fin.ofNat 8 offset)
  remoteByte _ addr := (false, Fin.ofNat 8 addr)

/-- The remote bytes count from 1, and the local ones are zero until the first `n` or the last have arrived. -/
def eightBytesRead (front back : Bool) (p : Bool × Fin 8) : Nat :=
  if p.1 = false then p.2.val + 1
  else if p.2.val < 4 then if front then p.2.val + 1 else 0
  else if back then p.2.val + 1 else 0

/-- One QP of depth 2, with 8 bytes to read in chunks of 4: the second chunk is moved and reported before the first. -/
theorem batch_moves_its_bytes_one_qp :
    let t : Transfers (Bool × Fin 8) Nat :=
      ⟨World.fresh (.oneQp 2 4 (by decide) (by decide)), eightBytesRead false false, fun _ => eightBytesRead false false⟩
    let t' := (transfers eightBytes 0).play t [.process (.call 0 (.submit [some (.bytes 8 (by decide))] .none .calm)),
      .memory (eightBytesRead false true), .memory (eightBytesRead true true)]
    let e : TransferEvent (Bool × Fin 8) Nat := .process (.call 0 (.progress 0 (.reports [2, 1])))
    ((((transfers eightBytes 0).next t' e).world.batches 0).done = true) ∧
      ∀ r ∈ (((transfers eightBytes 0).next t' e).world.batches 0).requests,
        (r.copy eightBytes).Arrived (((transfers eightBytes 0).next t' e).submitted 0)
          ((transfers eightBytes 0).next t' e).memory := by
  intro t t' e
  have hseparate : Copy.Separate ([RdmaReadRequest.bytes 8 (by decide)].map (RdmaReadRequest.copy eightBytes)) := by
    constructor
    · intro c hc
      obtain rfl := List.mem_singleton.mp hc
      constructor <;> decide
    · exact List.pairwise_singleton _ _
  have hplays : ((transfers eightBytes 0).when (Reliable eightBytes 0)).Plays t
      [.process (.call 0 (.submit [some (.bytes 8 (by decide))] .none .calm)),
        .memory (eightBytesRead false true), .memory (eightBytesRead true true)] := by
    refine ⟨⟨?_, ?_, ?_, ?_⟩, ⟨.inl ⟨0, 2, ReadChunk.sendWR ⟨0, .bytes 8 (by decide), 4, 4⟩ 2, ?_, ?_, ?_⟩, trivial⟩,
      ⟨.inl ⟨0, 1, ReadChunk.sendWR ⟨0, .bytes 8 (by decide), 0, 4⟩ 1, ?_, ?_, ?_⟩, trivial⟩, trivial⟩
    · change t.world.Enabled (.call 0 _)
      decide
    · intro env q wcs wc wr hpolls
      cases hpolls
    · rintro items oc env requests ⟨⟩ hitems
      obtain rfl : [RdmaReadRequest.bytes 8 (by decide)] = requests := by simpa using hitems
      exact hseparate
    · exact fun _ _ _ _ _ _ => Or.inl (by decide)
    · decide
    · decide
    · exact (by decide : ∀ p : Bool × Fin 8, (∀ i < 4, (true, Fin.ofNat 8 (0 + 4 + i)) ≠ p) →
        eightBytesRead false true p = eightBytesRead false false p)
    · decide
    · decide
    · exact (by decide : ∀ p : Bool × Fin 8, (∀ i < 4, (true, Fin.ofNat 8 (0 + 0 + i)) ≠ p) →
        eightBytesRead true true p = eightBytesRead false true p)
  have hdone : ∀ wrId ∈ [2, 1], ∀ wr ∈ (t'.world.schedulers 0).provider.posted? 0 wrId,
      ∀ i < (wr.copy eightBytes).length,
        t'.memory ((wr.copy eightBytes).target i) = t'.memory ((wr.copy eightBytes).source i) := by decide
  have hnext : ((transfers eightBytes 0).when (Reliable eightBytes 0)).Enabled t' e := by
    refine ⟨(by decide : t'.world.Enabled (.call 0 (.progress 0 (.reports [2, 1])))), ?_, ?_, ?_⟩
    · intro env q wcs wc wr hpolls hpoll hwc _ _ hwr
      obtain rfl : ProgressEnv.reports [2, 1] = env := by simpa [Event.polls] using hpolls
      by_cases hq : q = 0
      · subst hq
        obtain rfl := Except.ok.inj hpoll
        obtain ⟨wrId, hid, rfl⟩ := List.mem_map.mp hwc
        exact hdone wrId hid wr hwr
      · obtain rfl : [] = wcs := by simpa [ProgressEnv.reports, hq] using hpoll
        cases hwc
    · rintro items oc env requests ⟨⟩
    · rintro items oc env requests ⟨⟩
  have hwell : EndedWell 0 0 ((transfers eightBytes 0).next t' e).world :=
    ⟨by decide, by decide, by decide, by decide⟩
  refine ⟨hwell.done, ?_⟩
  apply batch_moves_its_bytes eightBytes 0 0 (World.fresh_initial _) hplays.reaches hnext ?_ hwell
  intro hearly
  exact absurd hearly.done (by decide)

end Rdma4py.ReadScheduler
