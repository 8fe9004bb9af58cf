import Mathlib.Algebra.Order.BigOperators.Group.Finset
import Rdma4py.Transport.LastIteration
import Rdma4py.Transport.Lemmas.SenderRuns

/-!
# Where the last iteration is read

Where the ranges are the stripes, a connection is a row of frames of one length. The last iteration is a slice of one of
its stripes and of what stands behind it.
-/

namespace Rdma4py.Transport

open Lib

variable {t : Sending} {r : Receiving} {flow task stripe : Nat} {data tail id : List UInt8} {tasks : List Nat}

/-! ## Ranges that are stripes -/

namespace Static

theorem Aligned.mul_width (h : Aligned t r) : r.flows * r.width = r.nbytes := by
  have hpos := r.flows_pos
  rcases h.stripes with ⟨hone, -⟩ | heq
  · rw [Receiving.width, hone, Nat.one_mul, Nat.div_one]
  · rw [Receiving.width, ← heq, Nat.mul_div_cancel_left _ hpos]

theorem Aligned.width_pos (h : Aligned t r) : 0 < r.width :=
  Nat.div_pos h.enough r.flows_pos

theorem Aligned.start (h : Aligned t r) (flow : Nat) : r.start flow = flow * r.width := by
  rw [Receiving.start, partitionBound, ← h.mul_width, Nat.mul_assoc, Nat.mul_div_cancel_left _ r.flows_pos, Nat.mul_comm]

theorem Aligned.length (h : Aligned t r) (flow : Nat) : r.length flow = r.width := by
  have hstop : r.stop flow = (flow + 1) * r.width := h.start (flow + 1)
  rw [Receiving.length, h.start, hstop, Nat.succ_mul, Nat.add_sub_cancel_left]

theorem Aligned.stripeCount (h : Aligned t r) : t.stripeCount = r.flows := by
  have hs := t.stripeBytes_pos
  have hpos := r.flows_pos
  have hn := h.enough
  rw [Sending.stripeCount, h.total]
  rcases h.stripes with ⟨hone, hle⟩ | heq
  · rw [hone, Nat.div_eq_iff hs]
    omega
  · rw [← heq, Nat.add_sub_assoc hs, Nat.mul_comm, Nat.mul_add_div hs, Nat.div_eq_of_lt (by omega), Nat.add_zero]

theorem Aligned.taskCount (h : Aligned t r) : t.taskCount = r.flows * t.iterations := by
  rw [Sending.taskCount, h.stripeCount]

theorem Aligned.taskOffset (h : Aligned t r) (task : Nat) : t.taskOffset task = task % r.flows * r.width := by
  rw [Sending.taskOffset, h.stripeCount]
  rcases h.stripes with ⟨hone, -⟩ | heq
  · rw [hone, Nat.mod_one, Nat.zero_mul, Nat.zero_mul]
  · rw [Receiving.width, ← heq, Nat.mul_div_cancel_left _ r.flows_pos]

theorem Aligned.taskLength (h : Aligned t r) (task : Nat) : t.taskLength task = r.width := by
  have hlt : task % r.flows < r.flows := Nat.mod_lt _ r.flows_pos
  rw [Sending.taskLength_eq, h.taskOffset, h.total, ← h.mul_width, ← Nat.sub_mul]
  have hmul : r.width ≤ (r.flows - task % r.flows) * r.width := Nat.le_mul_of_pos_left _ (by omega)
  rcases h.stripes with ⟨hone, hle⟩ | heq
  · have hwidth : r.width = r.nbytes := by rw [Receiving.width, hone, Nat.div_one]
    rw [hone, Nat.mod_one, Nat.sub_zero, Nat.one_mul, hwidth]
    exact Nat.min_eq_right hle
  · have hwidth : t.stripeBytes = r.width := by rw [Receiving.width, ← heq, Nat.mul_div_cancel_left _ r.flows_pos]
    rw [hwidth]
    exact Nat.min_eq_left hmul

theorem Aligned.taskPayload (h : Aligned t r) (task : Nat) : t.taskPayload task = range t r (task % r.flows) := by
  rw [Sending.taskPayload_eq, h.taskOffset, h.taskLength, range]

theorem Aligned.length_range (h : Aligned t r) (hs : stripe < r.flows) : (range t r stripe).length = r.width := by
  rw [range, length_slice]
  rw [h.total, ← h.mul_width, ← Nat.succ_mul]
  exact Nat.mul_le_mul_right _ hs

theorem Aligned.taskHeader (h : Aligned t r) (flow task : Nat) :
    t.taskHeader flow task = t.taskHeader flow (task % r.flows) := by
  have hlength : t.taskStop task - t.taskOffset task = t.taskStop (task % r.flows) - t.taskOffset (task % r.flows) :=
    (h.taskLength task).trans (h.taskLength (task % r.flows)).symm
  have hoffset : t.taskOffset task = t.taskOffset (task % r.flows) := by
    rw [h.taskOffset, h.taskOffset, Nat.mod_mod]
  rw [Sending.taskHeader, hlength, hoffset, Sending.taskHeader]

theorem Aligned.frame (h : Aligned t r) (flow task : Nat) :
    t.frame flow task = (t.taskHeader flow (task % r.flows)).pack ++ range t r (task % r.flows) := by
  rw [Sending.frame, h.taskPayload, h.taskHeader]

theorem Aligned.fits (h : Aligned t r) (hf : flow < 2 ^ 32) (task : Nat) : (t.taskHeader flow task).Fits := by
  have hlength := h.taskLength task
  have hlt : task % r.flows < r.flows := Nat.mod_lt _ r.flows_pos
  have hoffset : task % r.flows * r.width ≤ r.nbytes := by
    rw [← h.mul_width]
    exact Nat.mul_le_mul_right _ hlt.le
  have hwidth : r.width ≤ r.nbytes := Nat.div_le_self _ _
  have htotal := h.totalField
  rw [Sending.taskLength] at hlength
  refine ⟨hf, ?_, ?_, ?_⟩
  · show t.source.length < 2 ^ 64
    rw [h.total]
    exact htotal
  · show t.taskOffset task < 2 ^ 64
    rw [h.taskOffset]
    omega
  · show t.taskStop task - t.taskOffset task < 2 ^ 64
    omega

theorem Aligned.terminator_fits (h : Aligned t r) (hf : flow < 2 ^ 32) : (t.terminator flow).Fits := by
  refine ⟨hf, ?_, Nat.two_pow_pos 64, Nat.two_pow_pos 64⟩
  show t.source.length < 2 ^ 64
  rw [h.total]
  exact h.totalField

theorem Aligned.length_header (h : Aligned t r) (hf : flow < 2 ^ 32) (task : Nat) :
    (t.taskHeader flow task).pack.length = headerSize :=
  Header.length_pack (Sending.taskHeader_formed (h.fits hf task))

theorem Aligned.length_frame (h : Aligned t r) (hf : flow < 2 ^ 32) (task : Nat) :
    (t.frame flow task).length = headerSize + r.width := by
  rw [Sending.frame, List.length_append, h.length_header hf, Sending.length_taskPayload, h.taskLength]

theorem Aligned.length_frames (h : Aligned t r) (hf : flow < 2 ^ 32) (tasks : List Nat) :
    (t.frames flow tasks).length = tasks.length * (headerSize + r.width) := by
  induction tasks with
  | nil => simp [Sending.frames]
  | cons task tasks ih =>
      rw [Sending.frames_cons, List.length_append, h.length_frame hf, ih, List.length_cons, Nat.succ_mul, Nat.add_comm]

theorem Aligned.lt_field (h : Aligned t r) (hf : flow < r.flows) : flow < 2 ^ 32 := by
  have := h.flowField
  omega

/-! ## The place of the last iteration -/

theorem turns_shift (r : Receiving) :
    (r.iterations - 1) * r.width = r.turns * (headerSize + r.width) + r.shift := by
  rw [Receiving.turns, Receiving.shift, Nat.mul_comm _ (headerSize + r.width), Nat.div_add_mod]

theorem shift_lt (r : Receiving) : r.shift < headerSize + r.width :=
  Nat.mod_lt _ (Nat.add_pos_left Dynamic.headerSize_pos _)

/-- A slice that ends in the first list does not see the second. -/
theorem slice_append_left {xs ys : List UInt8} {o n : Nat} (h : o + n ≤ xs.length) : slice (xs ++ ys) o n = slice xs o n := by
  rw [slice, slice, List.drop_append_of_le_length (by omega), List.take_append_of_le_length (by simp; omega)]

/-- The bytes behind the header of one frame. -/
theorem Aligned.slice_frames (h : Aligned t r) (hf : flow < 2 ^ 32) (before after : List Nat) (task : Nat)
    (rest : List UInt8) (o n : Nat) :
    slice (t.frames flow (before ++ task :: after) ++ rest)
        (headerSize + (before.length * (headerSize + r.width) + o)) n =
      slice (range t r (task % r.flows) ++ (t.frames flow after ++ rest)) o n := by
  have hfront : (t.frames flow before ++ (t.taskHeader flow (task % r.flows)).pack).length =
      before.length * (headerSize + r.width) + headerSize := by
    rw [List.length_append, h.length_frames hf, h.length_header hf]
  have hsplit : t.frames flow (before ++ task :: after) ++ rest =
      (t.frames flow before ++ (t.taskHeader flow (task % r.flows)).pack) ++
        (range t r (task % r.flows) ++ (t.frames flow after ++ rest)) := by
    rw [Sending.frames_append, Sending.frames_cons, h.frame]
    simp only [List.append_assoc]
  rw [hsplit, show headerSize + (before.length * (headerSize + r.width) + o) =
    (before.length * (headerSize + r.width) + headerSize) + o by omega, ← hfront, ← slice_drop, List.drop_left]

/-! ## What a thread finds there -/

theorem mem_followers {next : List UInt8} : next ∈ followers t r flow ↔
    ((r.turns + 2 ≤ t.iterations ∨ ¬ Dynamic.NoWrap t) ∧
      ∃ stripe < r.flows, (t.taskHeader flow stripe).pack ++ range t r stripe = next) ∨
    (r.shift ≤ headerSize ∧
      (r.turns + 1 = t.iterations ∨ r.turns + 1 < t.iterations ∧ 1 < t.flows ∨ ¬ Dynamic.NoWrap t)) ∧
        next = (t.terminator flow).pack := by
  simp only [followers, List.mem_append, List.mem_ite_nil_right, List.mem_map, List.mem_range, List.mem_singleton]

theorem slice_of_part {xs ys : List UInt8} {o n : Nat} (h : xs <+: ys) (hn : o + n ≤ xs.length) :
    slice xs o n = slice ys o n := by
  rw [List.prefix_iff_eq_take.mp h, slice_take hn]

/-- A thread that gets its iterations gets the stripe where the last one begins. -/
theorem Aligned.turns_lt (h : Aligned t r) (hi : 0 < r.iterations) (hf : flow < r.flows)
    (hdata : data <+: t.frames flow tasks ++ tail) (htail : tail.length ≤ headerSize) (hc : Complete r flow data id) :
    r.turns < tasks.length := by
  have hle := hc.enough.trans hdata.length_le
  rw [h.length, List.length_append, h.length_frames (h.lt_field hf)] at hle
  have hwidth := h.width_pos
  have hplace := turns_shift r
  have hlast : r.iterations * r.width = (r.iterations - 1) * r.width + r.width := by
    rw [← Nat.succ_mul]
    congr 1
    omega
  have hmul : r.turns * (headerSize + r.width) < tasks.length * (headerSize + r.width) := by omega
  exact Nat.lt_of_mul_lt_mul_right hmul

/-- The first stripe on the connection is the range of the flow. -/
theorem Aligned.first (h : Aligned t r) (hf : flow < r.flows) (hdata : data <+: t.frames flow (task :: tasks) ++ tail)
    (hc : Complete r flow data id) : task % r.flows = flow := by
  have hlt := h.lt_field hf
  have hpack := h.length_header hlt task
  have hfront : data.take headerSize = (t.taskHeader flow task).pack := by
    rw [List.prefix_iff_eq_take.mp hdata, List.take_take, Nat.min_eq_left hc.accepts.length, Sending.frames_cons,
      Sending.frame, List.append_assoc, List.append_assoc, ← hpack, List.take_left]
  have hheader := hc.accepts.header
  rw [hfront, Header.unpack_pack (Sending.taskHeader_formed (h.fits hlt task))] at hheader
  have hoffset : t.taskOffset task = r.start flow := congrArg Header.offset hheader
  rw [h.taskOffset, h.start] at hoffset
  exact Nat.eq_of_mul_eq_mul_right h.width_pos hoffset

/-- Where the last iteration begins, and what stands behind. -/
theorem Aligned.window (h : Aligned t r) (hi : 0 < r.iterations) (hf : flow < r.flows)
    (hdata : data <+: t.frames flow tasks ++ tail) (htail : tail.length ≤ headerSize) (hc : Complete r flow data id) :
    ∃ before task after, tasks = before ++ task :: after ∧ before.length = r.turns ∧
      (task % r.flows = flow ∨ 0 < r.turns) ∧
      slice data (headerSize + (r.iterations - 1) * r.length flow) (r.length flow) =
        slice (range t r (task % r.flows) ++ (t.frames flow after ++ tail)) r.shift r.width := by
  have hturns := h.turns_lt hi hf hdata htail hc
  obtain ⟨before, task, after, rfl, hlength⟩ : ∃ before task after, tasks = before ++ task :: after ∧
      before.length = r.turns :=
    ⟨tasks.take r.turns, tasks[r.turns], tasks.drop (r.turns + 1),
      by rw [List.getElem_cons_drop, List.take_append_drop], List.length_take_of_le hturns.le⟩
  refine ⟨before, task, after, rfl, hlength, ?_, ?_⟩
  · rcases Nat.eq_zero_or_pos r.turns with hz | hpos
    · left
      rw [List.length_eq_zero_iff.mp (hlength.trans hz), List.nil_append] at hdata
      exact h.first hf hdata hc
    · exact .inr hpos
  · have hin : headerSize + (r.iterations - 1) * r.length flow + r.length flow ≤ data.length := by
      have henough := hc.enough
      have hlast : r.iterations * r.length flow = (r.iterations - 1) * r.length flow + r.length flow := by
        rw [← Nat.succ_mul]
        congr 1
        omega
      omega
    rw [slice_of_part hdata hin, h.length, turns_shift, ← h.slice_frames (h.lt_field hf), hlength]

/-- Of more stripes behind it, the thread sees the first. -/
theorem Aligned.slice_follower (h : Aligned t r) (hf : flow < 2 ^ 32) (hs : stripe < r.flows) (next : Nat) (rest : List Nat) :
    slice (range t r stripe ++ (t.frames flow (next :: rest) ++ tail)) r.shift r.width =
      slice (range t r stripe ++ ((t.taskHeader flow (next % r.flows)).pack ++ range t r (next % r.flows))) r.shift
        r.width := by
  have hshift := shift_lt r
  rw [Sending.frames_cons, h.frame, List.append_assoc, ← List.append_assoc (range t r stripe), slice_append_left]
  rw [List.length_append, List.length_append, h.length_range hs, h.length_header hf,
    h.length_range (Nat.mod_lt _ r.flows_pos)]
  omega

/-- Where the bytes end in the stripe or in a frame behind it, the condition says what they are. -/
theorem Aligned.window_eq (h : Aligned t r) (hi : 0 < r.iterations) (hf : flow < r.flows)
    (hdata : data <+: t.frames flow tasks ++ tail) (hc : Complete r flow data id)
    (htail : tail = [] ∨ tail = (t.terminator flow).pack)
    (hstripe : r.turns + 1 < tasks.length → r.turns + 2 ≤ t.iterations ∨ ¬ Dynamic.NoWrap t)
    (hlast : tail ≠ [] → r.turns + 1 = tasks.length →
      r.turns + 1 = t.iterations ∨ r.turns + 1 < t.iterations ∧ 1 < t.flows ∨ ¬ Dynamic.NoWrap t)
    (hsome : r.shift = 0 → followers t r flow ≠ [])
    (hok : ∀ stripe < r.flows, stripe = flow ∨ 0 < r.turns → ∀ next ∈ followers t r flow,
      slice (range t r stripe ++ next) r.shift r.width = range t r flow) :
    slice data (headerSize + (r.iterations - 1) * r.length flow) (r.length flow) = range t r flow := by
  have hlt := h.lt_field hf
  have hshift := shift_lt r
  have hpack := Header.length_pack (Sending.terminator_formed (h.terminator_fits hlt))
  have hsize : tail.length ≤ headerSize := by
    rcases htail with rfl | rfl
    · exact Nat.zero_le _
    · exact hpack.le
  obtain ⟨before, task, after, rfl, hbefore, hfirst, hwindow⟩ := h.window hi hf hdata hsize hc
  have hmod : task % r.flows < r.flows := Nat.mod_lt _ r.flows_pos
  have hrange := h.length_range hmod
  rw [hwindow]
  have hroom : r.shift + r.width ≤ ((after.length + 1) * (headerSize + r.width) - headerSize) + tail.length := by
    have hle := hc.enough.trans hdata.length_le
    have hplace := turns_shift r
    have hturn : r.iterations * r.width = (r.iterations - 1) * r.width + r.width := by
      rw [← Nat.succ_mul]
      congr 1
      omega
    rw [h.length, List.length_append, h.length_frames hlt, List.length_append, List.length_cons, hbefore,
      Nat.add_mul] at hle
    omega
  cases after with
  | cons next rest =>
      have hmem : (t.taskHeader flow (next % r.flows)).pack ++ range t r (next % r.flows) ∈ followers t r flow := by
        have hcan := hstripe (by simp [hbefore])
        exact mem_followers.mpr (.inl ⟨hcan, _, Nat.mod_lt _ r.flows_pos, rfl⟩)
      rw [h.slice_follower hlt hmod]
      exact hok _ hmod hfirst _ hmem
  | nil =>
      rcases htail with rfl | rfl
      · -- the last iteration is the whole stripe
        have hz : r.shift = 0 := by
          simp only [List.length_nil, Nat.zero_add, Nat.one_mul] at hroom
          omega
        obtain ⟨next, hnext⟩ := List.exists_mem_of_ne_nil _ (hsome hz)
        have hwhole := hok _ hmod hfirst next hnext
        rw [slice_append_left (by rw [hrange, hz, Nat.zero_add])] at hwhole
        simpa [Sending.frames] using hwhole
      · have hmem : (t.terminator flow).pack ∈ followers t r flow := by
          have hne : (t.terminator flow).pack ≠ [] := List.ne_nil_of_length_pos (by rw [hpack]; exact Dynamic.headerSize_pos)
          have hcan := hlast hne (by simp [hbefore])
          have hin : r.shift ≤ headerSize := by
            rw [hpack] at hroom
            simp only [List.length_nil, Nat.zero_add, Nat.one_mul] at hroom
            omega
          exact mem_followers.mpr (.inr ⟨⟨hin, hcan⟩, rfl⟩)
        exact hok _ hmod hfirst _ hmem

/-! ## Headers that a thread accepts -/

theorem Header.unpack_lt (bytes : List UInt8) : (Header.unpack bytes).flow < 2 ^ 32 ∧ (Header.unpack bytes).total < 2 ^ 64 := by
  have hslice : ∀ o k, (slice bytes o k).length ≤ k := fun o k => by simp [slice]
  refine ⟨(beNat_lt _).trans_le ?_, (beNat_lt _).trans_le ?_⟩
  · exact Nat.pow_le_pow_right (by decide) (hslice 24 4)
  · exact Nat.pow_le_pow_right (by decide) (hslice 28 8)

/-- What a process sender announced to a thread, where the thread accepts it. -/
structure Announced (t : Sending) (r : Receiving) (flow : Nat) (data id : List UInt8) (sender : Nat) : Prop where
  sender : sender = flow
  id : id = t.id.bytes
  total : t.source.length = r.nbytes
  flowField : flow < 2 ^ 32
  totalField : r.nbytes < 2 ^ 64
  stripe : ∃ task, t.taskOffset task = r.start flow ∧ t.taskLength task = r.length flow
  first : 0 < r.iterations → slice data headerSize (r.length flow) = slice t.source (r.start flow) (r.length flow)

theorem Complete.announced {sender : Nat} (h : Complete r flow data id) (hf : Dynamic.Framed t sender data) :
    Announced t r flow data id sender := by
  have hheader := h.accepts.header
  rcases hf.header h.accepts.length with hterm | ⟨task, htask, hrest⟩
  · have := congrArg Header.magic (hterm.symm.trans hheader)
    exact absurd this (show done ≠ magic by decide)
  · have hfield := Header.unpack_lt (data.take headerSize)
    rw [hheader] at hfield
    have hsame := htask.symm.trans hheader
    simp only [Sending.taskHeader, Receiving.expected, Header.mk.injEq, true_and] at hsame
    obtain ⟨hid, hsender, htotal, hoffset, hlength⟩ := hsame
    have hlen : (t.taskPayload task).length = r.length flow := (t.length_taskPayload task).trans hlength
    have hpayload : t.taskPayload task = slice t.source (r.start flow) (r.length flow) := by
      rw [t.taskPayload_eq, hoffset]
      exact congrArg _ hlength
    refine ⟨hsender, hid.symm, htotal, hfield.1, hfield.2, ⟨task, hoffset, hlength⟩, fun hi => ?_⟩
    have hmul : 1 * r.length flow ≤ r.iterations * r.length flow := Nat.mul_le_mul_right _ hi
    have henough := h.enough
    rw [slice, ← hpayload, ← hlen]
    rcases hrest with hcut | ⟨rest, -, heq⟩
    · have hfull : (t.taskPayload task).length ≤ (data.drop headerSize).length := by
        rw [List.length_drop, hlen]
        omega
      rw [hcut.eq_of_length (Nat.le_antisymm hcut.length_le hfull), List.take_length]
    · rw [heq, List.take_left]

/-- Threads that accept what they get have the stripes for their ranges. -/
theorem aligned_of_announced (hn : r.flows ≤ r.nbytes) (hflows : r.flows ≤ t.flows) {data id : Nat → List UInt8}
    {senders : Nat → Nat} (h : ∀ flow < r.flows, Announced t r flow (data flow) (id flow) (senders flow)) :
    Aligned t r := by
  have hpos := r.flows_pos
  have hfirst := h 0 hpos
  have hlast := h (r.flows - 1) (by omega)
  have htotal := hfirst.total
  refine ⟨htotal, hn, hflows, ?_, ?_, hfirst.totalField⟩
  · obtain ⟨task, hoffset, hlength⟩ := hfirst.stripe
    have hstart : r.start 0 = 0 := partitionBound_zero ..
    have hstop : r.stop 0 = r.nbytes / r.flows := by rw [Receiving.stop, partitionBound, Nat.zero_add, Nat.mul_one]
    rw [Sending.taskLength_eq, hoffset, htotal, Receiving.length, hstart, hstop, Nat.sub_zero, Nat.sub_zero] at hlength
    rcases Nat.eq_or_lt_of_le hpos with hone | htwo
    · left
      rw [← hone, Nat.div_one] at hlength
      exact ⟨hone.symm, by omega⟩
    · right
      -- no range is longer than the first, so the last one is not
      obtain ⟨task', hoffset', hlength'⟩ := hlast.stripe
      have hstop' : r.stop (r.flows - 1) = r.nbytes := by
        rw [Receiving.stop, Nat.sub_add_cancel hpos]
        exact partitionBound_self hpos
      rw [Sending.taskLength_eq, hoffset', htotal, Receiving.length, hstop'] at hlength'
      have hless : r.nbytes / r.flows < r.nbytes := Nat.div_lt_self (by omega) htwo
      have hsize : t.stripeBytes = r.nbytes / r.flows := by omega
      have hdiv : r.nbytes / r.flows * r.flows ≤ r.nbytes := Nat.div_mul_le_self ..
      have hlo : r.start (r.flows - 1) * r.flows ≤ r.nbytes * r.flows - r.nbytes := by
        rw [Receiving.start, partitionBound, ← Nat.mul_sub_one]
        exact Nat.div_mul_le_self ..
      have hhi : (r.nbytes - t.stripeBytes) * r.flows ≤ r.start (r.flows - 1) * r.flows :=
        Nat.mul_le_mul_right _ (by omega)
      have hmul : r.nbytes * 1 ≤ r.nbytes * r.flows := Nat.mul_le_mul_left _ hpos
      rw [Nat.sub_mul] at hhi
      rw [← hsize] at hdiv
      rw [Nat.mul_comm]
      omega
  · have := hlast.flowField
    omega

/-! ## How many stripes a sender gives to a flow -/

theorem sum_claimed {p : Dynamic.SendState} {claims : Nat} (h : Dynamic.Claims t p claims) :
    ∑ flow ∈ Finset.range t.flows, (p.workers flow).claimed.length = min claims t.taskCount := by
  have := h.claimed.length_eq
  rw [length_flat, List.length_range] at this
  rw [← this]
  rfl

/-- Where every flow of the receiver has more than so many stripes, the sender has more iterations. -/
theorem Aligned.iterations (h : Aligned t r) {p : Dynamic.SendState} {claims : Nat} (hc : Dynamic.Claims t p claims)
    (hmany : ∀ flow < r.flows, r.turns < (p.workers flow).claimed.length) (hf : flow < r.flows) :
    r.turns + 1 ≤ t.iterations ∧ (r.turns + 1 < (p.workers flow).claimed.length → r.turns + 2 ≤ t.iterations) := by
  have hsub : Finset.range r.flows ⊆ Finset.range t.flows := Finset.range_subset_range.mpr h.flows
  have hall : ∑ f ∈ Finset.range r.flows, (p.workers f).claimed.length ≤ r.flows * t.iterations := by
    calc ∑ f ∈ Finset.range r.flows, (p.workers f).claimed.length
        ≤ ∑ f ∈ Finset.range t.flows, (p.workers f).claimed.length := Finset.sum_le_sum_of_subset hsub
      _ = min claims t.taskCount := sum_claimed hc
      _ ≤ t.taskCount := Nat.min_le_right ..
      _ = r.flows * t.iterations := h.taskCount
  have hconst : ∑ _f ∈ Finset.range r.flows, (r.turns + 1) = r.flows * (r.turns + 1) := by simp
  refine ⟨?_, fun hmore => ?_⟩
  · have hle : r.flows * (r.turns + 1) ≤ r.flows * t.iterations := by
      rw [← hconst]
      exact (Finset.sum_le_sum fun f hf => hmany f (Finset.mem_range.mp hf)).trans hall
    exact Nat.le_of_mul_le_mul_left hle r.flows_pos
  · have hlt : r.flows * (r.turns + 1) < r.flows * t.iterations := by
      rw [← hconst]
      exact (Finset.sum_lt_sum (fun f hf => hmany f (Finset.mem_range.mp hf))
        ⟨flow, Finset.mem_range.mpr hf, hmore⟩).trans_le hall
    exact Nat.lt_of_mul_lt_mul_left hlt

/-- A sender with one worker gives it all stripes. -/
theorem Aligned.iterations_one (h : Aligned t r) {p : Dynamic.SendState} {claims : Nat} (hc : Dynamic.Claims t p claims)
    (hone : t.flows = 1) (hend : t.taskCount ≤ claims) : (p.workers 0).claimed.length = t.iterations := by
  have hsum := sum_claimed hc
  have hflows : r.flows = 1 := by
    have := h.flows
    have := r.flows_pos
    omega
  rw [hone, Finset.sum_range_one, Nat.min_eq_right hend, h.taskCount, hflows, Nat.one_mul] at hsum
  exact hsum

end Static

end Rdma4py.Transport
