import Rdma4py.Ring.Int32
import Rdma4py.Ring.Lemmas.Layout

/-!
# When 32 bits are enough

If an iteration, the last channel and a full channel have less than `2 ** 31` elements, every intermediate result of the
kernel does. What is left is the product of an element and its size.
-/

namespace Rdma4py.Ring

theorem wrap_of_lt {n : Nat} (h : n < 2 ^ 31) : wrap n = n := by
  rw [wrap]
  omega

theorem wrap_eq {x : Int} (h : -2 ^ 31 ≤ x) (h' : x < 2 ^ 31) : wrap x = x := by
  rw [wrap]
  omega

theorem wrap_lt (x : Int) : wrap x < 2 ^ 31 := by
  rw [wrap]
  omega

/-- The sign is lost, not the number. -/
theorem widen_wrap_of_lt {n : Nat} (h : n < 2 ^ 32) : widen (wrap n) = n := by
  rw [wrap, widen]
  omega

/-- A product that does not fit is widened to something else. -/
theorem widen_wrap_ne {n : Nat} (h : 2 ^ 32 ≤ n) : widen (wrap n) ≠ n := by
  rw [widen]
  omega

theorem ceilDiv32_eq {a b : Nat} (hb : 0 < b) (h : a + b < 2 ^ 31) : ceilDiv32 a b = ceilDiv a b := by
  have hsum : wrap ((a : Int) + b) = (a + b : Nat) := by
    rw [← Int.natCast_add]
    exact wrap_of_lt h
  have hpred : ((a + b : Nat) : Int) - 1 = (a + b - 1 : Nat) := by omega
  rw [ceilDiv32, hsum, hpred, wrap_of_lt (by omega), ← Int.ofNat_fdiv, ceilDiv]

namespace Launch

variable {l : Launch} {channel iteration owner : Nat}

/-- What the checks of a collective let through. -/
structure Admitted (l : Launch) : Prop where
  count : l.count < 2 ^ 31
  itemsize : l.itemsize = 1 ∨ l.itemsize = 2 ∨ l.itemsize = 4 ∨ l.itemsize = 8

/-- The three conditions on the numbers of elements. -/
structure Small (l : Launch) : Prop where
  loop : l.loopCount < 2 ^ 31
  start : l.channelStart (l.activeChannels - 1) < 2 ^ 31
  channel : l.channelElements < 2 ^ 31

theorem Admitted.sized (h : l.Admitted) : l.Sized := h.itemsize

theorem Admitted.baseChunk (h : l.Admitted) :
    l.baseChunk = 2097152 ∨ l.baseChunk = 1048576 ∨ l.baseChunk = 524288 ∨ l.baseChunk = 262144 := by
  rcases h.itemsize with hi | hi | hi | hi <;> simp [Launch.baseChunk, hi, simpleChunkBytes]

theorem Admitted.alignElements_le (h : l.Admitted) : l.alignElements ≤ 16 := by
  rcases h.itemsize with hi | hi | hi | hi <;> simp [alignElements, hi]

theorem Small.world (h : l.Small) : l.world < 2 ^ 31 := Nat.lt_of_le_of_lt (Nat.le_mul_of_pos_right _ l.baseChunk_pos) h.loop

theorem Small.baseChunk (h : l.Small) : l.baseChunk < 2 ^ 31 :=
  Nat.lt_of_le_of_lt (Nat.le_mul_of_pos_left _ l.world_pos) h.loop

theorem Small.cellsPerChannel (h : l.Small) : l.cellsPerChannel < 2 ^ 31 :=
  Nat.lt_of_le_of_lt (Nat.le_mul_of_pos_right _ l.cellElements_pos) h.channel

theorem Small.cellElements (h : l.Small) : l.cellElements < 2 ^ 31 :=
  Nat.lt_of_le_of_lt (Nat.le_mul_of_pos_left _ l.cellsPerChannel_pos) h.channel

theorem loopCount32_eq (h : l.Small) : l.loopCount32 = l.loopCount := by
  rw [loopCount32, wrap_of_lt h.world, wrap_of_lt h.baseChunk, ← Int.natCast_mul]
  exact wrap_of_lt h.loop

theorem channelStart_lt (h : l.Small) (hc : channel < l.activeChannels) : l.channelStart channel < 2 ^ 31 := by
  refine Nat.lt_of_le_of_lt ?_ h.start
  rw [channelStart_eq, channelStart_eq]
  exact Nat.mul_le_mul_right _ (by omega)

theorem channelStart32_eq (h : l.Small) (hc : channel < l.activeChannels) :
    l.channelStart32 channel = l.channelStart channel := by
  have hstart := channelStart_lt h hc
  have hproduct : channel * l.cellsPerChannel < 2 ^ 31 :=
    Nat.lt_of_le_of_lt (Nat.le_mul_of_pos_right _ l.cellElements_pos) hstart
  have hchannel : channel < 2 ^ 31 := Nat.lt_of_le_of_lt (Nat.le_mul_of_pos_right _ l.cellsPerChannel_pos) hproduct
  rw [channelStart32, wrap_of_lt hchannel, wrap_of_lt h.cellsPerChannel, ← Int.natCast_mul, wrap_of_lt hproduct,
    wrap_of_lt h.cellElements, ← Int.natCast_mul]
  exact wrap_of_lt hstart

theorem channelCount32_eq (ha : l.Admitted) (h : l.Small) (hc : channel < l.activeChannels) :
    l.channelCount32 channel = min ((l.count : Int) - l.channelStart channel) l.channelElements := by
  have hcount := ha.count
  have hstart := channelStart_lt h hc
  rw [channelCount32, channelStart32_eq h hc, wrap_of_lt ha.count, wrap_of_lt h.cellsPerChannel,
    wrap_of_lt h.cellElements, ← Int.natCast_mul, wrap_eq (by omega) (by omega)]
  exact congrArg _ (wrap_of_lt h.channel)

variable (ha : l.Admitted) (h : l.Small) (hc : channel < l.activeChannels) (hi : iteration < l.iterations channel)

include hi in
/-- An iteration that runs lies in the tensor. -/
theorem offset_lt : l.channelStart channel + l.elemOffset iteration < l.count := by
  have := (l.lt_iterations channel iteration).mp hi
  have : l.channelCount channel ≤ l.count - l.channelStart channel := Nat.min_le_left ..
  omega

include ha h hc hi in
theorem remaining32_eq : l.remaining32 channel (l.elemOffset iteration) = l.remaining channel iteration := by
  have hlt := offset_lt hi
  have hrun := (l.lt_iterations channel iteration).mp hi
  have hcount : l.channelCount32 channel = (l.channelCount channel : Nat) := by
    rw [channelCount32_eq ha h hc, channelCount]
    omega
  have hle : l.channelCount channel ≤ l.channelElements := Nat.min_le_right ..
  have := h.channel
  rw [remaining32, hcount, wrap_eq (by omega) (by omega), remaining]
  omega

include ha h in
theorem local_lt (howner : owner < l.world) : owner * l.chunk channel iteration < 2 ^ 31 :=
  Nat.lt_of_le_of_lt (Nat.mul_le_mul howner.le (ha.sized.chunk_le channel iteration)) h.loop

include ha h hc hi in
theorem chunk32_eq : l.chunk32 channel (l.elemOffset iteration) = l.chunk channel iteration := by
  rw [chunk32, remaining32_eq ha h hc hi, loopCount32_eq h, wrap_of_lt h.world, wrap_of_lt h.baseChunk]
  have hchunk := ha.sized.chunk_le channel iteration
  unfold chunk at hchunk ⊢
  by_cases hlast : l.remaining channel iteration < l.loopCount
  · rw [if_pos (by omega), if_pos hlast]
    rw [if_pos hlast] at hchunk
    have hloop := h.loop
    have hlast' := hlast
    rw [loopCount] at hloop hlast'
    have hsixteen := ha.alignElements_le
    have hsmall : l.baseChunk ≤ 2097152 ∧ l.remaining channel iteration + l.world < 2 ^ 31 := by
      rcases ha.baseChunk with hb | hb | hb | hb <;> rw [hb] at hloop hlast' ⊢ <;> omega
    obtain ⟨hmega, hsum⟩ := hsmall
    have hceil : ceilDiv (l.remaining channel iteration) l.world ≤ l.baseChunk := by
      refine ceilDiv_le l.world_pos ?_
      rw [Nat.mul_comm]
      exact hlast.le
    rw [wrap_of_lt (n := l.alignElements) (by omega), ceilDiv32_eq l.world_pos hsum,
      ceilDiv32_eq l.alignElements_pos (by omega), ← Int.natCast_mul]
    exact wrap_of_lt (by omega)
  · rw [if_neg (by omega), if_neg hlast]

include ha h hc hi in
/-- The elements of the chunks that are not empty are right. -/
theorem element32_eq (howner : owner < l.world) (hpos : 0 < l.chunkLength channel iteration owner) :
    l.element32 channel (l.elemOffset iteration) owner = l.chunkElement channel iteration owner := by
  have hin : l.InChunk channel iteration owner (l.chunkElement channel iteration owner) :=
    ⟨hc, hi, howner, Nat.le_refl _, Nat.lt_add_of_pos_right hpos⟩
  have hlt := hin.lt_count
  have hcount := ha.count
  rw [chunkElement] at hlt
  rw [element32, channelStart32_eq h hc, chunk32_eq ha h hc hi, ← Int.natCast_add, wrap_of_lt (by omega),
    ← Int.natCast_mul, wrap_of_lt (local_lt ha h howner), ← Int.natCast_add]
  exact wrap_of_lt (by omega)

/-! ## Owners -/

include ha h in
theorem world_small : l.world < 2 ^ 14 := by
  have hloop := h.loop
  rw [loopCount] at hloop
  rcases ha.baseChunk with hb | hb | hb | hb <;> rw [hb] at hloop <;> omega

include ha h in
theorem sendOwner32_eq {rank step : Nat} (hr : rank < l.world) (hs : step < l.world) :
    l.sendOwner32 rank step = l.sendOwner rank step := by
  have hw := world_small ha h
  have hdiff : wrap ((rank : Int) - step) = rank - step := wrap_eq (by omega) (by omega)
  have hsum : ((rank : Int) - step) + l.world = (rank + l.world - step : Nat) := by omega
  rw [sendOwner32, wrap_of_lt (by omega), wrap_of_lt (by omega), wrap_of_lt (by omega), hdiff, hsum,
    wrap_of_lt (by omega), ← Int.ofNat_fmod, sendOwner]

include ha h in
theorem recvOwner32_eq {rank step : Nat} (hr : rank < l.world) (hs : step < l.world) :
    l.recvOwner32 rank step = l.recvOwner rank step := by
  have hw := world_small ha h
  have hdiff : wrap ((rank : Int) - step) = rank - step := wrap_eq (by omega) (by omega)
  have hpred : wrap ((rank : Int) - step - 1) = rank - step - 1 := wrap_eq (by omega) (by omega)
  have htwice : wrap (2 * (l.world : Int)) = 2 * l.world := wrap_eq (by omega) (by omega)
  have hsum : ((rank : Int) - step - 1) + 2 * l.world = (rank + 2 * l.world - step - 1 : Nat) := by omega
  rw [recvOwner32, wrap_of_lt (by omega), wrap_of_lt (by omega), wrap_of_lt (by omega), hdiff, hpred, htwice, hsum,
    wrap_of_lt (by omega), ← Int.ofNat_fmod, recvOwner]

/-! ## The condition is what is needed -/

theorem lastChunkElement_eq (hin : l.InChunk channel iteration owner (l.count - 1)) :
    l.lastChunkElement = l.chunkElement channel iteration owner := by
  simp only [lastChunkElement, hin.channel_eq, hin.iteration_eq, hin.owner_eq]

/-- The address of a chunk fits when that of the last one does. -/
theorem addresses_of_fits (ha : l.Admitted) (h : l.Small) (hlast : l.lastChunkElement * l.itemsize < 2 ^ 32)
    (hc : channel < l.activeChannels) (hi : iteration < l.iterations channel) (howner : owner < l.world) :
    l.Addresses channel iteration owner owner := by
  intro hpos
  have helement := element32_eq ha h hc hi howner hpos
  obtain ⟨channel', iteration', owner', hin⟩ := l.exists_inChunk (Nat.sub_lt l.count_pos Nat.one_pos)
  rw [lastChunkElement_eq hin] at hlast
  have hle := Nat.mul_le_mul_right l.itemsize (chunkElement_le hin hc hi howner hpos)
  have hitem : wrap l.itemsize = l.itemsize := wrap_of_lt (by rcases ha.itemsize with hs | hs | hs | hs <;> omega)
  refine ⟨helement, ?_⟩
  rw [byteOffset, helement, hitem, ← Int.natCast_mul]
  exact widen_wrap_of_lt (by omega)

theorem Fits.exact (hf : l.Fits) (ha : l.Admitted) : l.Exact := by
  obtain ⟨hloop, hstart, hchannel, hlast⟩ := hf
  have h : l.Small := ⟨hloop, hstart, hchannel⟩
  refine ⟨loopCount32_eq h, fun _ hc => channelStart32_eq h hc, fun _ hc => channelCount32_eq ha h hc,
    fun channel hc iteration hi rank hr step _ hs => ?_, fun channel hc iteration hi rank hr step hs => ?_⟩
  · rw [sendOwner32_eq ha h hr hs, recvOwner32_eq ha h hr hs]
    exact ⟨addresses_of_fits ha h hlast hc hi (l.sendOwner_lt rank step),
      addresses_of_fits ha h hlast hc hi (l.recvOwner_lt rank step)⟩
  · rw [sendOwner32_eq ha h hr (by omega)]
    exact addresses_of_fits ha h hlast hc hi (l.sendOwner_lt rank step)

/-- Every owner is the owner of what some rank sends first. -/
theorem exists_sender (howner : owner < l.world) : ∃ rank < l.world, l.sendOwner rank 1 = owner := by
  have htwo := l.two_le_world
  rcases Nat.lt_or_ge (owner + 1) l.world with hlt | hge
  · refine ⟨owner + 1, hlt, ?_⟩
    rw [sendOwner, show owner + 1 + l.world - 1 = owner + l.world by omega, Nat.add_mod_right, Nat.mod_eq_of_lt howner]
  · refine ⟨0, l.world_pos, ?_⟩
    rw [sendOwner, Nat.mod_eq_of_lt (by omega)]
    omega

/-- A full channel is not more than the tensor, rounded up to a cell. -/
theorem channelElements_lt (l : Launch) : l.channelElements < l.count + l.cellElements := by
  have hcells : (l.cells - 1) * l.cellElements < l.count :=
    (lt_ceilDiv l.cellElements_pos).mp (Nat.sub_lt l.cells_pos Nat.one_pos)
  have hle : l.cellsPerChannel ≤ l.cells :=
    ceilDiv_le l.activeChannels_pos (Nat.le_mul_of_pos_right _ l.activeChannels_pos)
  have hmul := Nat.mul_le_mul_right l.cellElements hle
  have hsub : l.cells * l.cellElements = (l.cells - 1) * l.cellElements + l.cellElements := by
    rw [← Nat.succ_mul, Nat.succ_eq_add_one, Nat.sub_add_cancel l.cells_pos]
  rw [channelElements]
  omega

/-- A full channel that does not fit turns negative, and the first channel gets nothing to do. -/
theorem Exact.channelElements_lt (he : l.Exact) (ha : l.Admitted) : l.channelElements < 2 ^ 31 := by
  have hcount := ha.count
  have hbound := l.channelElements_lt
  have hcell : l.cellElements ≤ 16384 := Nat.max_le.mpr ⟨by decide, Nat.div_le_self ..⟩
  have hcells : l.cellsPerChannel ≤ l.cells :=
    ceilDiv_le l.activeChannels_pos (Nat.le_mul_of_pos_right _ l.activeChannels_pos)
  have hper : l.cells ≤ l.count := ceilDiv_le l.cellElements_pos (Nat.le_mul_of_pos_right _ l.cellElements_pos)
  have hzero : l.channelStart 0 = 0 := by rw [channelStart_eq, Nat.zero_mul]
  have heq := he.count 0 l.activeChannels_pos
  rw [channelCount32, he.start 0 l.activeChannels_pos, hzero, wrap_of_lt (n := l.cellsPerChannel) (by omega),
    wrap_of_lt (n := l.cellElements) (by omega), ← Int.natCast_mul, ← channelElements] at heq
  by_contra hge
  have hnegative : wrap l.channelElements < 0 := by
    rw [wrap]
    omega
  have := l.count_pos
  omega

theorem Exact.fits (he : l.Exact) (ha : l.Admitted) : l.Fits := by
  have hloop : l.loopCount < 2 ^ 31 := by
    have hlt := wrap_lt (wrap l.world * wrap l.baseChunk)
    rw [← loopCount32, he.loop] at hlt
    exact Int.ofNat_lt.mp hlt
  have hstart : l.channelStart (l.activeChannels - 1) < 2 ^ 31 := by
    have heq := he.start _ (Nat.sub_lt l.activeChannels_pos Nat.one_pos)
    have hlt := wrap_lt (wrap (wrap (l.activeChannels - 1 : Nat) * wrap l.cellsPerChannel) * wrap l.cellElements)
    rw [channelStart32] at heq
    rw [heq] at hlt
    exact Int.ofNat_lt.mp hlt
  have hchannel := he.channelElements_lt ha
  have h : l.Small := ⟨hloop, hstart, hchannel⟩
  refine ⟨hloop, hstart, hchannel, ?_⟩
  -- some rank sends the last chunk
  obtain ⟨channel, iteration, owner, hin⟩ := l.exists_inChunk (Nat.sub_lt l.count_pos Nat.one_pos)
  obtain ⟨rank, hr, hrank⟩ := exists_sender hin.ranked
  have hpos : 0 < l.chunkLength channel iteration owner := by
    have := hin.lower
    have := hin.upper
    omega
  have hsend := (he.reduceScatter channel hin.active iteration hin.running rank hr 1 (Nat.le_refl _) l.two_le_world).1
  rw [hrank] at hsend
  obtain ⟨helement, hbytes⟩ := hsend hpos
  have hitem : wrap l.itemsize = l.itemsize := wrap_of_lt (by rcases ha.itemsize with hs | hs | hs | hs <;> omega)
  rw [byteOffset, helement, hitem, ← Int.natCast_mul] at hbytes
  rw [lastChunkElement_eq hin]
  by_contra hge
  exact widen_wrap_ne (Nat.not_lt.mp hge) hbytes

end Launch

end Rdma4py.Ring
