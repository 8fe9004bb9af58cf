import Rdma4py.Ring.Lemmas.Round

/-!
# The work of a collective

The chunks of the active channels are disjoint, cover the tensor and are aligned, and the two ends of a queue pair agree
on the chunk of every step.
-/

namespace Rdma4py.Ring

namespace Launch

variable {l : Launch} {rank step owner : Nat}

/-- In the reduce-scatter a rank receives the chunk that its predecessor sends. -/
theorem recvOwner_next (hrank : rank < l.world) (hstep : step < l.world) :
    l.recvOwner ((rank + 1) % l.world) step = l.sendOwner rank step := by
  have hnext := Nat.mod_lt (rank + 1) l.world_pos
  have h₁ := mod_cases (x := rank + 1) (w := l.world) (by omega)
  have h₂ := mod_cases (x := (rank + 1) % l.world + 2 * l.world - step - 1) (w := l.world) (by omega)
  have h₃ := mod_cases (x := rank + l.world - step) (w := l.world) (by omega)
  rw [recvOwner, sendOwner]
  omega

/-- In the all-gather a rank sends on what it has just received. -/
theorem sendOwner_next (hrank : rank < l.world) (hstep : step < l.world) :
    l.sendOwner ((rank + 1) % l.world) (step + 1) = l.sendOwner rank step := by
  have hnext := Nat.mod_lt (rank + 1) l.world_pos
  have h₁ := mod_cases (x := rank + 1) (w := l.world) (by omega)
  have h₂ := mod_cases (x := (rank + 1) % l.world + l.world - (step + 1)) (w := l.world) (by omega)
  have h₃ := mod_cases (x := rank + l.world - step) (w := l.world) (by omega)
  rw [sendOwner, sendOwner]
  omega

/-- The all-gather starts with the chunk that the reduce-scatter has completed. -/
theorem sendOwner_zero (hrank : rank < l.world) : l.sendOwner rank 0 = l.recvOwner rank (l.world - 1) := by
  have hw := l.two_le_world
  have h₁ := mod_cases (x := rank + l.world - 0) (w := l.world) (by omega)
  have h₂ := mod_cases (x := rank + 2 * l.world - (l.world - 1) - 1) (w := l.world) (by omega)
  rw [recvOwner, sendOwner]
  omega

/-- In the all-gather a rank receives all the other chunks. -/
theorem exists_gather_step (hrank : rank < l.world) (howner : owner < l.world) (hne : owner ≠ l.sendOwner rank 0) :
    ∃ step < l.world - 1, owner = l.sendOwner rank (step + 1) := by
  have h₀ := mod_cases (x := rank + l.world - 0) (w := l.world) (by omega)
  rw [sendOwner] at hne
  have hdistance := mod_cases (x := rank + l.world - owner) (w := l.world) (by omega)
  refine ⟨(rank + l.world - owner) % l.world - 1, by omega, ?_⟩
  have h₁ := mod_cases (x := rank + l.world - ((rank + l.world - owner) % l.world - 1 + 1)) (w := l.world) (by omega)
  rw [sendOwner]
  omega

/-! ## The two ends of a queue pair -/

/-- A rank sends the elements of a chunk, and the next rank takes them for the same elements. -/
def SameChunk (l : Launch) (channel iteration sent expected : Nat) : Prop :=
  l.chunkElement channel iteration sent = l.chunkElement channel iteration expected ∧
    l.chunkLength channel iteration sent = l.chunkLength channel iteration expected

theorem SameChunk.of_eq {channel iteration sent expected : Nat} (h : expected = sent) :
    l.SameChunk channel iteration sent expected := by
  rw [h]
  exact ⟨rfl, rfl⟩

end Launch

/-- **Work decomposition.** The chunks of the active channels, iterations and owners are the elements of the tensor, each
once. A chunk has at most the base size and starts at an aligned element, and the chunks of an iteration have room for
what remains of it. A rank expects what its predecessor sends, in the reduce-scatter from the owner of the receive, and
in the all-gather from the chunk that it sends on in the next step: these are all chunks but the one that it starts
with. -/
theorem work_decomposition (l : Launch) (h : l.itemsize = 1 ∨ l.itemsize = 2 ∨ l.itemsize = 4 ∨ l.itemsize = 8) :
    (1 ≤ l.activeChannels ∧ l.activeChannels ≤ l.numSms) ∧
      (∀ channel iteration owner element, l.InChunk channel iteration owner element → element < l.count) ∧
      (∀ element < l.count, ∃ channel iteration owner, l.InChunk channel iteration owner element ∧
        ∀ channel' iteration' owner', l.InChunk channel' iteration' owner' element →
          channel' = channel ∧ iteration' = iteration ∧ owner' = owner) ∧
      (∀ channel iteration, l.chunk channel iteration ≤ l.baseChunk ∧
        min (l.remaining channel iteration) l.loopCount ≤ l.world * l.chunk channel iteration ∧
          ∀ owner, 0 < l.chunkLength channel iteration owner →
            l.alignElements ∣ l.chunkElement channel iteration owner) ∧
      ∀ channel iteration, ∀ rank < l.world,
        (∀ step, 1 ≤ step → step < l.world → l.SameChunk channel iteration (l.sendOwner rank step)
          (l.recvOwner ((rank + 1) % l.world) step)) ∧
        (∀ step < l.world - 1, l.SameChunk channel iteration (l.sendOwner rank step)
          (l.sendOwner ((rank + 1) % l.world) (step + 1))) ∧
        l.sendOwner rank 0 = l.recvOwner rank (l.world - 1) ∧
        ∀ owner < l.world, owner ≠ l.sendOwner rank 0 → ∃ step < l.world - 1, owner = l.sendOwner rank (step + 1) := by
  have hsized : l.Sized := h
  refine ⟨⟨l.activeChannels_pos, l.activeChannels_le⟩, ?_, ?_, ?_, ?_⟩
  · intro channel iteration owner element hin
    exact hin.lt_count
  · intro element helement
    obtain ⟨channel, iteration, owner, hin⟩ := Launch.exists_inChunk helement
    refine ⟨channel, iteration, owner, hin, ?_⟩
    intro channel' iteration' owner' hin'
    exact hin'.unique hin
  · intro channel iteration
    refine ⟨hsized.chunk_le channel iteration, l.min_le_chunks channel iteration, ?_⟩
    intro owner _
    exact hsized.dvd_chunkElement channel iteration owner
  · intro channel iteration rank hrank
    refine ⟨?_, ?_, Launch.sendOwner_zero hrank, ?_⟩
    · intro step _ hstep
      exact .of_eq (Launch.recvOwner_next hrank hstep)
    · intro step hstep
      exact .of_eq (Launch.sendOwner_next hrank (by omega))
    · intro owner howner hne
      exact Launch.exists_gather_step hrank howner hne

/-- Floats over three ranks and five SMs. -/
def fiveSms : Launch := .floats 25000 5 1 (by decide) (by decide)

theorem work_decomposition_floats :
    fiveSms.activeChannels ≤ 5 ∧
      ∀ element < 25000, ∃ channel iteration owner, fiveSms.InChunk channel iteration owner element := by
  obtain ⟨⟨-, hactive⟩, -, hcover, -⟩ := work_decomposition fiveSms (.inr (.inr (.inl rfl)))
  refine ⟨hactive, ?_⟩
  intro element helement
  obtain ⟨channel, iteration, owner, hin, -⟩ := hcover element helement
  exact ⟨channel, iteration, owner, hin⟩

end Rdma4py.Ring
