import Rdma4py.Ring.Layout

/-!
# The chunks cut the tensor

Every element belongs to one chunk of one iteration of one channel.
-/

namespace Rdma4py.Ring

variable {a b k : Nat}

theorem lt_ceilDiv (hb : 0 < b) : k < ceilDiv a b ↔ k * b < a := by
  rw [ceilDiv, Nat.lt_iff_add_one_le, Nat.le_div_iff_mul_le hb, Nat.succ_mul]
  omega

theorem le_ceilDiv_mul (a : Nat) (hb : 0 < b) : a ≤ ceilDiv a b * b := by
  by_contra hlt
  exact Nat.lt_irrefl _ ((lt_ceilDiv hb).mpr (Nat.not_le.mp hlt))

theorem ceilDiv_pos (ha : 0 < a) (hb : 0 < b) : 0 < ceilDiv a b :=
  (lt_ceilDiv hb).mpr (by rwa [Nat.zero_mul])

theorem ceilDiv_le (hb : 0 < b) (h : a ≤ k * b) : ceilDiv a b ≤ k := by
  by_contra hlt
  have := (lt_ceilDiv hb).mp (Nat.not_le.mp hlt)
  omega

/-- The quotient of a number that is `q` times the divisor and less than one divisor more. -/
theorem eq_div_of_bounds {x q d : Nat} (h : q * d ≤ x) (h' : x < q * d + d) : x / d = q :=
  Nat.div_eq_of_lt_le h (by rwa [Nat.succ_mul])

namespace Launch

variable {l : Launch} {channel iteration owner element : Nat}

theorem cellElements_pos (l : Launch) : 0 < l.cellElements := Nat.lt_of_lt_of_le Nat.one_pos (Nat.le_max_left ..)

theorem baseChunk_pos (l : Launch) : 0 < l.baseChunk := Nat.lt_of_lt_of_le Nat.one_pos (Nat.le_max_left ..)

theorem alignElements_pos (l : Launch) : 0 < l.alignElements := Nat.lt_of_lt_of_le Nat.one_pos (Nat.le_max_left ..)

theorem world_pos (l : Launch) : 0 < l.world := Nat.lt_of_lt_of_le Nat.two_pos l.two_le_world

theorem activeChannels_pos (l : Launch) : 0 < l.activeChannels :=
  Nat.lt_min.mpr ⟨l.numSms_pos, Nat.lt_of_lt_of_le Nat.one_pos (Nat.le_max_left ..)⟩

theorem activeChannels_le (l : Launch) : l.activeChannels ≤ l.numSms := Nat.min_le_left ..

theorem loopCount_pos (l : Launch) : 0 < l.loopCount := Nat.mul_pos l.world_pos l.baseChunk_pos

theorem cells_pos (l : Launch) : 0 < l.cells := ceilDiv_pos l.count_pos l.cellElements_pos

theorem cellsPerChannel_pos (l : Launch) : 0 < l.cellsPerChannel := ceilDiv_pos l.cells_pos l.activeChannels_pos

theorem channelElements_pos (l : Launch) : 0 < l.channelElements :=
  Nat.mul_pos l.cellsPerChannel_pos l.cellElements_pos

theorem channelStart_eq (l : Launch) (channel : Nat) : l.channelStart channel = channel * l.channelElements := by
  rw [channelStart, channelElements, Nat.mul_assoc]

/-- The channels have room for the tensor. -/
theorem count_le (l : Launch) : l.count ≤ l.activeChannels * l.channelElements := by
  have hcells := le_ceilDiv_mul l.cells l.activeChannels_pos
  calc l.count ≤ l.cells * l.cellElements := le_ceilDiv_mul l.count l.cellElements_pos
    _ ≤ l.cellsPerChannel * l.activeChannels * l.cellElements := Nat.mul_le_mul_right _ hcells
    _ = l.activeChannels * l.channelElements := by rw [channelElements, Nat.mul_comm l.cellsPerChannel, Nat.mul_assoc]

theorem lt_iterations (l : Launch) (channel iteration : Nat) :
    iteration < l.iterations channel ↔ l.elemOffset iteration < l.channelCount channel :=
  lt_ceilDiv l.loopCount_pos

theorem remaining_pos (h : iteration < l.iterations channel) : 0 < l.remaining channel iteration := by
  have := (l.lt_iterations channel iteration).mp h
  rw [remaining]
  omega

theorem chunk_pos (h : iteration < l.iterations channel) : 0 < l.chunk channel iteration := by
  unfold chunk
  split
  · exact Nat.mul_pos (ceilDiv_pos (ceilDiv_pos (remaining_pos h) l.world_pos) l.alignElements_pos) l.alignElements_pos
  · exact l.baseChunk_pos

/-- The chunks of an iteration have room for what remains, or for a full iteration. -/
theorem min_le_chunks (l : Launch) (channel iteration : Nat) :
    min (l.remaining channel iteration) l.loopCount ≤ l.world * l.chunk channel iteration := by
  unfold chunk
  split
  next hlt =>
    have h₁ := le_ceilDiv_mul (l.remaining channel iteration) l.world_pos
    have h₂ := le_ceilDiv_mul (ceilDiv (l.remaining channel iteration) l.world) l.alignElements_pos
    have h₃ := Nat.mul_le_mul_left l.world h₂
    rw [Nat.mul_comm] at h₁
    omega
  · exact Nat.min_le_right ..

/-- A chunk that has elements lies in its iteration. -/
theorem chunk_within (howner : owner < l.world) (h : element < l.chunkLength channel iteration owner) :
    owner * l.chunk channel iteration + element < min (l.remaining channel iteration) l.loopCount := by
  have hlen : l.chunkLength channel iteration owner ≤ l.chunk channel iteration := Nat.min_le_left ..
  have hrest : l.chunkLength channel iteration owner ≤
      l.remaining channel iteration - owner * l.chunk channel iteration := Nat.min_le_right ..
  by_cases hlast : l.remaining channel iteration < l.loopCount
  · omega
  · have hbase : l.chunk channel iteration = l.baseChunk := if_neg hlast
    have hmul : (owner + 1) * l.baseChunk ≤ l.world * l.baseChunk := Nat.mul_le_mul_right _ howner
    rw [Nat.succ_mul] at hmul
    rw [hbase] at hlen ⊢
    rw [loopCount] at *
    omega

namespace InChunk

/-- The offset in the channel. -/
theorem offset (h : l.InChunk channel iteration owner element) : ∃ x, element = l.channelStart channel + x ∧
    l.elemOffset iteration + owner * l.chunk channel iteration ≤ x ∧ x < l.channelCount channel ∧
      x < l.elemOffset iteration + l.loopCount ∧
        x < l.elemOffset iteration + owner * l.chunk channel iteration + l.chunk channel iteration := by
  obtain ⟨-, hrunning, howner, hlower, hupper⟩ := h
  rw [chunkElement] at hlower hupper
  obtain ⟨y, hy⟩ := Nat.exists_eq_add_of_le hlower
  have hlt : y < l.chunkLength channel iteration owner := by omega
  have hwithin := chunk_within howner hlt
  have hlen : l.chunkLength channel iteration owner ≤ l.chunk channel iteration := Nat.min_le_left ..
  have hrun := (l.lt_iterations channel iteration).mp hrunning
  have hrem : l.remaining channel iteration = l.channelCount channel - l.elemOffset iteration := rfl
  exact ⟨l.elemOffset iteration + owner * l.chunk channel iteration + y, by omega, by omega, by omega, by omega, by omega⟩

theorem lt_count (h : l.InChunk channel iteration owner element) : element < l.count := by
  obtain ⟨x, rfl, -, hx, -, -⟩ := h.offset
  have : l.channelCount channel ≤ l.count - l.channelStart channel := Nat.min_le_left ..
  omega

theorem channel_eq (h : l.InChunk channel iteration owner element) : element / l.channelElements = channel := by
  obtain ⟨x, rfl, -, hx, -, -⟩ := h.offset
  have : l.channelCount channel ≤ l.channelElements := Nat.min_le_right ..
  exact eq_div_of_bounds (by rw [channelStart_eq]; omega) (by rw [channelStart_eq]; omega)

theorem iteration_eq (h : l.InChunk channel iteration owner element) :
    (element - l.channelStart channel) / l.loopCount = iteration := by
  obtain ⟨x, rfl, hlo, -, hhi, -⟩ := h.offset
  rw [Nat.add_sub_cancel_left]
  rw [elemOffset] at hlo hhi
  exact eq_div_of_bounds (by omega) hhi

theorem owner_eq (h : l.InChunk channel iteration owner element) :
    (element - l.channelStart channel - l.elemOffset iteration) / l.chunk channel iteration = owner := by
  obtain ⟨x, rfl, hlo, -, -, hhi⟩ := h.offset
  rw [Nat.add_sub_cancel_left]
  exact eq_div_of_bounds (by omega) (by omega)

/-- An element belongs to one chunk. -/
theorem unique {channel' iteration' owner' : Nat} (h : l.InChunk channel iteration owner element)
    (h' : l.InChunk channel' iteration' owner' element) :
    channel = channel' ∧ iteration = iteration' ∧ owner = owner' := by
  obtain rfl : channel = channel' := h.channel_eq.symm.trans h'.channel_eq
  obtain rfl : iteration = iteration' := h.iteration_eq.symm.trans h'.iteration_eq
  exact ⟨rfl, rfl, h.owner_eq.symm.trans h'.owner_eq⟩

end InChunk

/-- Every element belongs to a chunk. -/
theorem exists_inChunk (h : element < l.count) : ∃ channel iteration owner, l.InChunk channel iteration owner element := by
  have hpos := l.channelElements_pos
  have hdiv := Nat.div_add_mod' element l.channelElements
  have hmod := Nat.mod_lt element hpos
  have hactive : element / l.channelElements < l.activeChannels :=
    (Nat.div_lt_iff_lt_mul hpos).mpr (Nat.lt_of_lt_of_le h l.count_le)
  generalize element / l.channelElements = channel at *
  generalize element % l.channelElements = x at *
  have hx : x < l.channelCount channel := by
    rw [channelCount, channelStart_eq]
    omega
  have hdiv' := Nat.div_add_mod' x l.loopCount
  have hmod' := Nat.mod_lt x l.loopCount_pos
  generalize x / l.loopCount = iteration at *
  generalize x % l.loopCount = y at *
  have hrunning : iteration < l.iterations channel := by
    rw [lt_iterations, elemOffset]
    omega
  have hrem : l.remaining channel iteration = l.channelCount channel - iteration * l.loopCount := rfl
  have hroom := l.min_le_chunks channel iteration
  have hchunk := chunk_pos hrunning
  have hdiv'' := Nat.div_add_mod' y (l.chunk channel iteration)
  have hmod'' := Nat.mod_lt y hchunk
  have howner : y / l.chunk channel iteration < l.world := (Nat.div_lt_iff_lt_mul hchunk).mpr (by omega)
  generalize y / l.chunk channel iteration = owner at *
  refine ⟨channel, iteration, owner, hactive, hrunning, howner, ?_, ?_⟩
  · rw [chunkElement, channelStart_eq, elemOffset]
    omega
  · rw [chunkElement, chunkLength, channelStart_eq, elemOffset]
    omega

/-- The chunk that starts last holds the last element. -/
theorem chunkElement_le {channel' iteration' owner' : Nat} (h : l.InChunk channel iteration owner (l.count - 1))
    (hactive : channel' < l.activeChannels) (hrunning : iteration' < l.iterations channel') (howner : owner' < l.world)
    (hpos : 0 < l.chunkLength channel' iteration' owner') :
    l.chunkElement channel' iteration' owner' ≤ l.chunkElement channel iteration owner := by
  by_contra hlt
  have hin : l.InChunk channel' iteration' owner' (l.chunkElement channel' iteration' owner') :=
    ⟨hactive, hrunning, howner, Nat.le_refl _, Nat.lt_add_of_pos_right hpos⟩
  have hcount := hin.lt_count
  have hupper := h.upper
  have hsame : l.InChunk channel iteration owner (l.chunkElement channel' iteration' owner') :=
    ⟨h.active, h.running, h.ranked, by omega, by omega⟩
  obtain ⟨rfl, rfl, rfl⟩ := hin.unique hsame
  exact hlt (Nat.le_refl _)

/-! ## Sizes that divide each other -/

/-- The sizes of the elements that the kernel knows. -/
def Sized (l : Launch) : Prop := l.itemsize = 1 ∨ l.itemsize = 2 ∨ l.itemsize = 4 ∨ l.itemsize = 8

namespace Sized

theorem baseChunk_mul (h : l.Sized) : l.baseChunk * l.itemsize = simpleChunkBytes := by
  rcases h with h | h | h | h <;> simp [baseChunk, h, simpleChunkBytes]

theorem alignElements_mul (h : l.Sized) : l.alignElements * l.itemsize = 16 := by
  rcases h with h | h | h | h <;> simp [alignElements, h]

theorem cellElements_mul (h : l.Sized) : l.cellElements * l.itemsize = cellBytes := by
  rcases h with h | h | h | h <;> simp [cellElements, h, cellBytes]

theorem baseChunk_eq (h : l.Sized) : l.baseChunk = simpleChunkBytes / 16 * l.alignElements := by
  apply Nat.eq_of_mul_eq_mul_right l.itemsize_pos
  rw [h.baseChunk_mul, Nat.mul_assoc, h.alignElements_mul]
  rfl

theorem cellElements_eq (h : l.Sized) : l.cellElements = cellBytes / 16 * l.alignElements := by
  apply Nat.eq_of_mul_eq_mul_right l.itemsize_pos
  rw [h.cellElements_mul, Nat.mul_assoc, h.alignElements_mul]
  rfl

/-- The chunks of the last iteration are not larger than the others. -/
theorem chunk_le (h : l.Sized) (channel iteration : Nat) : l.chunk channel iteration ≤ l.baseChunk := by
  unfold chunk
  split
  next hlast =>
    have hceil : ceilDiv (l.remaining channel iteration) l.world ≤ l.baseChunk := by
      apply ceilDiv_le l.world_pos
      rw [Nat.mul_comm]
      exact hlast.le
    rw [h.baseChunk_eq] at hceil ⊢
    exact Nat.mul_le_mul_right _ (ceilDiv_le l.alignElements_pos hceil)
  · exact Nat.le_refl _

theorem dvd_chunk (h : l.Sized) (channel iteration : Nat) : l.alignElements ∣ l.chunk channel iteration := by
  unfold chunk
  split
  · exact Nat.dvd_mul_left ..
  · rw [h.baseChunk_eq]
    exact Nat.dvd_mul_left ..

/-- Every chunk starts at an aligned element. -/
theorem dvd_chunkElement (h : l.Sized) (channel iteration owner : Nat) :
    l.alignElements ∣ l.chunkElement channel iteration owner := by
  have hcell : l.alignElements ∣ l.cellElements := h.cellElements_eq ▸ Nat.dvd_mul_left ..
  have hbase : l.alignElements ∣ l.baseChunk := h.baseChunk_eq ▸ Nat.dvd_mul_left ..
  have hstart : l.alignElements ∣ l.channelStart channel := Dvd.dvd.mul_left hcell _
  have hoffset : l.alignElements ∣ l.elemOffset iteration := Dvd.dvd.mul_left (Dvd.dvd.mul_left hbase _) _
  exact Nat.dvd_add (Nat.dvd_add hstart hoffset) (Dvd.dvd.mul_left (h.dvd_chunk channel iteration) _)

end Sized

/-! ## Owners of a step -/

theorem sendOwner_lt (l : Launch) (rank step : Nat) : l.sendOwner rank step < l.world := Nat.mod_lt _ l.world_pos

theorem recvOwner_lt (l : Launch) (rank step : Nat) : l.recvOwner rank step < l.world := Nat.mod_lt _ l.world_pos

end Launch

end Rdma4py.Ring
