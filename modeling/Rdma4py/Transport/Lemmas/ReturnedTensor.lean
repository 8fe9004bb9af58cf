import Rdma4py.Transport.Lemmas.LastIteration
import Rdma4py.Transport.Lemmas.StaticReceiver

/-!
# What a thread receiver returns from a process sender

The last iteration of a thread decides what its range holds. Under the condition it is the range of the source; outside of
it, the tasks can be shared out so that it is not.
-/

namespace Rdma4py.Transport

open Lib

namespace Static

variable {t : Sending} {r : Receiving} {flow : Nat} {tensor : Memory UInt8} {connections : Nat → Connection}

theorem slice_read {m : Memory UInt8} {n o k : Nat} (h : o + k ≤ n) : slice (m.read n 0) o k = m.read k o := by
  refine List.ext_getElem ?_ fun i h₁ h₂ => ?_
  · rw [length_slice (by rw [Memory.length_read]; exact h), Memory.length_read]
  · simp [slice, Memory.read]

theorem read_of_returned {s : State}
    (h : (machine r).Reaches (.initial tensor connections) s) {nbytes : Nat} (hret : returned r s = some (.ok nbytes)) :
    r.flows ≤ r.nbytes ∧ 0 < r.iterations ∧ ∀ flow < r.flows,
      (∃ id, Complete r flow (connections flow).data id) ∧ s.tensor.read (r.length flow) (r.start flow) =
        slice (connections flow).data (headerSize + (r.iterations - 1) * r.length flow) (r.length flow) := by
  obtain ⟨hn, hi, -, id, hdone⟩ := returned_ok hret
  refine ⟨hn, hi, fun flow hflow => ?_⟩
  obtain ⟨consumed, -, -, hst⟩ := reaches_inv hn hi h flow
  rw [hdone flow hflow] at hst
  exact ⟨⟨id, hst.1⟩, hst.2.read hi⟩

/-! ## Under the condition -/

theorem exists_tail {claims : Nat} {claimed : List Nat} {data : List UInt8}
    (h : Dynamic.MayCarry t claims flow claimed data) : ∃ tail, data <+: t.frames flow claimed.reverse ++ tail ∧
      (tail = [] ∨ tail = (t.terminator flow).pack) ∧ (tail ≠ [] → Dynamic.NoWrap t → t.taskCount ≤ claims) := by
  rcases h with h | ⟨hend, h⟩
  · exact ⟨[], by rwa [List.append_nil], .inl rfl, fun hne => absurd rfl hne⟩
  · exact ⟨_, h, .inr rfl, fun _ => hend⟩

/-- The connections of a receiver whose threads all get their iterations. -/
theorem window_eq_of_complete {p : Dynamic.SendState} (hp : (Dynamic.sendMachine t).Reaches .initial p)
    {data : Nat → List UInt8} (ha : Aligned t r) (hi : 0 < r.iterations)
    (hdata : ∀ flow < r.flows, data flow <+: (p.workers flow).stream)
    (hc : ∀ flow < r.flows, ∃ id, Complete r flow (data flow) id)
    (hok : ∀ flow < r.flows, ∀ stripe < r.flows, stripe = flow ∨ 0 < r.turns → ∀ next ∈ followers t r flow,
      slice (range t r stripe ++ next) r.shift r.width = range t r flow) (hflow : flow < r.flows) :
    slice (data flow) (headerSize + (r.iterations - 1) * r.length flow) (r.length flow) = range t r flow := by
  obtain ⟨claims, hcarried⟩ := Dynamic.reaches_carried hp
  have htails : ∀ flow < r.flows, ∃ tail, data flow <+: t.frames flow (p.workers flow).claimed.reverse ++ tail ∧
      (tail = [] ∨ tail = (t.terminator flow).pack) ∧ (tail ≠ [] → Dynamic.NoWrap t → t.taskCount ≤ claims) :=
    fun flow hf => by
      obtain ⟨tail, hpart, htail, hend⟩ := exists_tail (hcarried.carries flow)
      exact ⟨tail, (hdata flow hf).trans hpart, htail, hend⟩
  have hmany : ∀ flow < r.flows, r.turns < (p.workers flow).claimed.length := fun flow hf => by
    obtain ⟨tail, hpart, htail, -⟩ := htails flow hf
    obtain ⟨id, hcomplete⟩ := hc flow hf
    have hsize : tail.length ≤ headerSize := by
      rcases htail with rfl | rfl
      · exact Nat.zero_le _
      · exact (Header.length_pack (Sending.terminator_formed (ha.terminator_fits (ha.lt_field hf)))).le
    have := ha.turns_lt hi hf hpart hsize hcomplete
    rwa [List.length_reverse] at this
  have hiterations : Dynamic.NoWrap t → r.turns + 1 ≤ t.iterations := fun hw =>
    (ha.iterations (hcarried.counted hw) hmany hflow).1
  obtain ⟨tail, hpart, htail, hend⟩ := htails flow hflow
  obtain ⟨id, hcomplete⟩ := hc flow hflow
  refine ha.window_eq hi hflow hpart hcomplete htail (fun hmore => ?_) (fun hne hlast => ?_) (fun hz => ?_)
    (hok flow hflow)
  · by_cases hw : Dynamic.NoWrap t
    · rw [List.length_reverse] at hmore
      exact .inl ((ha.iterations (hcarried.counted hw) hmany hflow).2 hmore)
    · exact .inr hw
  · by_cases hw : Dynamic.NoWrap t
    · rw [List.length_reverse] at hlast
      rcases Nat.eq_or_lt_of_le (hiterations hw) with heq | hlt
      · exact .inl heq
      · refine .inr (.inl ⟨hlt, ?_⟩)
        by_contra hone
        have hflows := ha.flows
        have hsole := ha.iterations_one (hcarried.counted hw) (by have := t.flows_pos; omega) (hend hne hw)
        rw [show flow = 0 by omega] at hlast
        omega
    · exact .inr (.inr hw)
  · by_cases hw : Dynamic.NoWrap t
    · rcases Nat.eq_or_lt_of_le (hiterations hw) with heq | hlt
      · exact List.ne_nil_of_mem (mem_followers.mpr (.inr ⟨⟨hz.trans_le (Nat.zero_le _), .inl heq⟩, rfl⟩))
      · exact List.ne_nil_of_mem (mem_followers.mpr (.inl ⟨.inl hlt, 0, r.flows_pos, rfl⟩))
    · exact List.ne_nil_of_mem (mem_followers.mpr (.inl ⟨.inr hw, 0, r.flows_pos, rfl⟩))

theorem HoldsWhen.safe (h : HoldsWhen t r) : Safe t r := by
  intro p hp deliveries tensor s hs nbytes hret
  obtain ⟨hn, hi, hflows⟩ := read_of_returned hs hret
  have hannounced : ∀ flow < r.flows, ∃ id, Complete r flow ((deliveries flow).connection p).data id ∧
      Announced t r flow ((deliveries flow).connection p).data id (deliveries flow).sender := fun flow hf => by
    obtain ⟨⟨id, hc⟩, -⟩ := hflows flow hf
    exact ⟨id, hc, hc.announced ((deliveries flow).framed hp)⟩
  have hpart : ∀ flow < r.flows, ((deliveries flow).connection p).data <+: (p.workers flow).stream := fun flow hf => by
    obtain ⟨id, -, ha⟩ := hannounced flow hf
    have hsender := ha.sender
    rw [Dynamic.Delivery.connection, hsender]
    exact List.take_prefix _ _
  have htotal : t.source.length = r.nbytes := by
    obtain ⟨id, -, ha⟩ := hannounced 0 r.flows_pos
    exact ha.total
  have hwindow : ∀ flow < r.flows, s.tensor.read (r.length flow) (r.start flow) =
      slice t.source (r.start flow) (r.length flow) := fun flow hflow => by
    rw [(hflows flow hflow).2]
    rcases Nat.lt_or_ge 1 r.iterations with hmore | hone
    · have haligned : Aligned t r := by
        choose! id hid using hannounced
        refine aligned_of_announced hn ?_ fun flow hf => (hid flow hf).2
        -- the workers of the sender are the only ones that send
        obtain ⟨claims, hcarried⟩ := Dynamic.reaches_carried hp
        by_contra hfew
        have hf : t.flows < r.flows := by omega
        have hnone := hcarried.idle t.flows (Nat.le_refl _)
        have hsome := ((hid t.flows hf).1.accepts.length).trans (hpart t.flows hf).length_le
        rw [hnone] at hsome
        exact absurd hsome (by decide)
      have hok := (h.resolve_left (Nat.not_le.mpr hmore)).resolve_left (not_not_intro haligned)
      have hlast := window_eq_of_complete hp haligned hi hpart (fun flow hf => (hflows flow hf).1) hok hflow
      rw [hlast, range, haligned.start, haligned.length]
    · obtain ⟨id, -, ha⟩ := hannounced flow hflow
      rw [show r.iterations - 1 = 0 by omega, Nat.zero_mul, Nat.add_zero]
      exact ha.first hi
  rw [← htotal] at hn ⊢
  refine read_eq_of_ranges r.flows_pos hn fun flow hflow => ?_
  rw [htotal]
  exact hwindow flow hflow

/-! ## Outside of it -/

theorem exists_returned (tensor : Memory UInt8) (connections : Nat → Connection) (hn : r.flows ≤ r.nbytes)
    (hi : 0 < r.iterations) (id : List UInt8)
    (hcomplete : ∀ flow < r.flows, Complete r flow (connections flow).data id) :
    ∃ s, (machine r).Reaches (.initial tensor connections) s ∧ ∃ nbytes, returned r s = some (.ok nbytes) := by
  obtain ⟨s, hs, hend⟩ := exists_end (s := .initial tensor connections) hn hi (initial_inv r tensor connections)
  have hstands := reaches_inv hn hi hs
  refine ⟨s, hs, r.nbytes * r.iterations, returned_of_done hn hi fun flow hflow => (?_ : s.threads flow = .done id)⟩
  obtain ⟨consumed, -, -, hst⟩ := hstands flow
  have hend := hend flow hflow
  cases hthread : s.threads flow with
  | header got => simp [hthread, Thread.ended] at hend
  | payload id iteration position => simp [hthread, Thread.ended] at hend
  | done id =>
      rw [hthread] at hst
      rw [hst.1.accepts.unique (hcomplete flow hflow).accepts]
  | failed e =>
      rw [hthread] at hst
      exact absurd (hcomplete flow hflow) (hst _)

/-- A connection with so many bytes whose first stripe is the range of the flow. -/
theorem Aligned.complete (h : Aligned t r) (hf : flow < r.flows) {data tail : List UInt8} {task : Nat} {tasks : List Nat}
    (hdata : data = t.frames flow (task :: tasks) ++ tail) (htask : task % r.flows = flow)
    (henough : headerSize + r.iterations * r.width ≤ data.length) : Complete r flow data t.id.bytes := by
  have hlt := h.lt_field hf
  have hpack := h.length_header hlt task
  have hheader : t.taskHeader flow task = r.expected flow t.id.bytes := by
    have hlength : t.taskStop task - t.taskOffset task = r.length flow :=
      (h.taskLength task).trans (h.length flow).symm
    rw [Sending.taskHeader, hlength, h.taskOffset, htask, h.total, ← h.start, Receiving.expected, Receiving.length]
  have hfront : data.take headerSize = (t.taskHeader flow task).pack := by
    rw [hdata, Sending.frames_cons, Sending.frame, List.append_assoc, List.append_assoc, ← hpack, List.take_left]
  refine ⟨⟨(Nat.le_add_right ..).trans henough, ?_⟩, by rwa [h.length]⟩
  rw [hfront, Header.unpack_pack (Sending.taskHeader_formed (h.fits hlt task)), hheader]

/-- A safe receiver reads the ranges from a sender that shares out its tasks in rounds: the worker of the flow gets the
targets, and the tasks that are left after the rounds go to another worker. -/
theorem Safe.window (h : Safe t r) (ha : Aligned t r) (hw : Dynamic.NoWrap t) (hi : 1 < r.iterations)
    (hf : flow < r.flows) {rounds other : Nat} {target : Nat → Nat} (htarget : ∀ k, target k < r.flows)
    (hzero : target 0 = flow) (hle : rounds ≤ t.iterations) (hturns : r.turns < rounds)
    (hroom : r.turns + 1 < rounds ∨ r.shift ≤ headerSize) (hother : other < t.flows ∧ other < 2 ^ 32)
    (hrest : rounds = t.iterations ∨ other ≠ flow) :
    slice (t.frames flow ((List.range rounds).map fun j => j * r.flows + target j) ++ (t.terminator flow).pack)
      (headerSize + (r.iterations - 1) * r.width) r.width = range t r flow := by
  have hpos := r.flows_pos
  have hcount : rounds * r.flows ≤ t.taskCount := by
    rw [ha.taskCount, Nat.mul_comm]
    exact Nat.mul_le_mul_left _ hle
  -- the sender
  have howner : ∀ task < t.taskCount, Dynamic.roundOwner r.flows rounds flow target other task < t.flows ∧
      (t.taskHeader (Dynamic.roundOwner r.flows rounds flow target other task) task).Fits := fun task _ => by
    rw [Dynamic.roundOwner]
    split
    · have hlt := Dynamic.swap_lt hf (htarget (task / r.flows)) (Nat.mod_lt task hpos)
      exact ⟨hlt.trans_le ha.flows, ha.fits (ha.lt_field hlt) task⟩
    · exact ⟨hother.1, ha.fits hother.2 task⟩
  obtain ⟨p, hp, hstream⟩ := Dynamic.exists_finished hw howner ha.flows fun f hlt => ha.terminator_fits (ha.lt_field hlt)
  -- the receiver gets everything
  have hcomplete : ∀ f < r.flows, Complete r f (p.workers f).stream t.id.bytes := fun f hlt => by
    obtain ⟨more, htasks, -⟩ := Dynamic.exists_tasksOf other hf htarget hlt hcount
    obtain ⟨rounds, rfl⟩ := Nat.exists_eq_succ_of_ne_zero (Nat.ne_of_gt (Nat.zero_lt_of_lt hturns))
    have hstream := hstream f hlt
    rw [htasks, List.range_succ_eq_map, List.map_cons, List.cons_append] at hstream
    refine ha.complete hlt hstream ?_ ?_
    · rw [hzero, Equiv.swap_self, Equiv.refl_apply, Nat.zero_mul, Nat.zero_add, Nat.mod_eq_of_lt hlt]
    · rw [hstream, List.length_append, ha.length_frames (ha.lt_field hlt),
        Header.length_pack (Sending.terminator_formed (ha.terminator_fits (ha.lt_field hlt)))]
      simp only [List.length_cons, List.length_append, List.length_map, List.length_range]
      have hplace := turns_shift r
      have hshift := shift_lt r
      have hlast : r.iterations * r.width = (r.iterations - 1) * r.width + r.width := by
        rw [← Nat.succ_mul]
        congr 1
        omega
      rcases hroom with hmore | hin
      · have hmul : (r.turns + 2) * (headerSize + r.width) ≤ (rounds + more.length + 1) * (headerSize + r.width) :=
          Nat.mul_le_mul_right _ (by omega)
        rw [Nat.add_mul] at hmul
        omega
      · have hmul : (r.turns + 1) * (headerSize + r.width) ≤ (rounds + more.length + 1) * (headerSize + r.width) :=
          Nat.mul_le_mul_right _ (by omega)
        rw [Nat.add_mul] at hmul
        omega
  -- and so it returns
  obtain ⟨s, hs, nbytes, hret⟩ := exists_returned (fun _ => 0)
    (fun f => Dynamic.Delivery.connection p ⟨f, (p.workers f).stream.length, false⟩) ha.enough
    (Nat.zero_lt_of_lt hi) t.id.bytes fun f hlt => by
      simpa [Dynamic.Delivery.connection] using hcomplete f hlt
  have hsource := h p hp (fun f => ⟨f, (p.workers f).stream.length, false⟩) _ s hs nbytes hret
  obtain ⟨-, -, hflows⟩ := read_of_returned hs hret
  have hread := (hflows flow hf).2
  have hstop : r.stop flow ≤ r.nbytes := partitionBound_le r.flows_pos hf
  have hlt := r.start_lt_stop ha.enough flow
  have hlength : r.stop flow - r.start flow = r.width := ha.length flow
  obtain ⟨more, htasks, hmore⟩ := Dynamic.exists_tasksOf other hf htarget hf hcount
  have hnil : more = [] := hmore (hrest.imp (fun heq => by rw [heq, ha.taskCount, Nat.mul_comm]) id)
  rw [← slice_read (n := r.nbytes) (by rw [ha.length]; omega), hsource, ha.length, ha.start] at hread
  simp only [Dynamic.Delivery.connection, List.take_length, hstream flow hf, htasks, hnil, List.append_nil,
    Equiv.swap_apply_left] at hread
  exact hread.symm

theorem map_range_split (f : Nat → Nat) (k count : Nat) :
    (List.range (k + (count + 1))).map f =
      (List.range k).map f ++ f k :: (List.range count).map fun j => f (k + (j + 1)) := by
  rw [List.range_add, List.map_append, List.range_succ_eq_map, List.map_cons, List.map_cons, List.map_map, List.map_map]
  rfl

theorem Aligned.slice_rounds (h : Aligned t r) (hf : flow < r.flows) (target : Nat → Nat) (count : Nat)
    (tail : List UInt8) (hs : target r.turns < r.flows) :
    slice (t.frames flow ((List.range (r.turns + (count + 1))).map fun j => j * r.flows + target j) ++ tail)
        (headerSize + (r.iterations - 1) * r.width) r.width =
      slice (range t r (target r.turns) ++
        (t.frames flow ((List.range count).map fun j => (r.turns + (j + 1)) * r.flows + target (r.turns + (j + 1))) ++
          tail)) r.shift r.width := by
  have hslice := h.slice_frames (h.lt_field hf) ((List.range r.turns).map fun j => j * r.flows + target j)
    ((List.range count).map fun j => (r.turns + (j + 1)) * r.flows + target (r.turns + (j + 1)))
    (r.turns * r.flows + target r.turns) tail r.shift r.width
  rw [List.length_map, List.length_range, ← turns_shift, Nat.mul_comm r.turns r.flows, Nat.mul_add_mod,
    Nat.mod_eq_of_lt hs] at hslice
  rw [map_range_split, Nat.mul_comm r.turns r.flows]
  exact hslice

theorem Safe.holdsWhen (h : Safe t r) (hw : Dynamic.NoWrap t) : HoldsWhen t r := by
  by_contra hnot
  simp only [HoldsWhen, not_or, not_not] at hnot
  push Not at hnot
  obtain ⟨hi, ha, flow, hf, stripe, hs, hfirst, next, hnext, hother⟩ := hnot
  refine hother ?_
  have hlt := ha.lt_field hf
  have hflows := ha.flows
  rcases mem_followers.mp hnext with ⟨hcan, stripe', hs', rfl⟩ | ⟨⟨hin, hcan⟩, rfl⟩
  · -- every worker of a flow gets one task of each round
    have hcan := hcan.resolve_right (not_not_intro hw)
    obtain ⟨count, hcount⟩ := Nat.exists_eq_add_of_le hcan
    let target := fun k => if k = r.turns then stripe else if k = r.turns + 1 then stripe' else flow
    have htarget : ∀ k, target k < r.flows := fun k => by grind
    have hzero : target 0 = flow := by grind
    have hwindow := h.window ha hw hi hf htarget hzero (Nat.le_refl _) (by omega) (.inl (by omega))
      (show flow < t.flows ∧ flow < 2 ^ 32 from ⟨by omega, hlt⟩) (.inl rfl)
    have hrounds : t.iterations = r.turns + ((count + 1) + 1) := by omega
    have hnow : target r.turns = stripe := if_pos rfl
    have hthen : target (r.turns + (0 + 1)) = stripe' := by grind
    rw [hrounds, ha.slice_rounds hf target _ _ (htarget _), List.range_succ_eq_map, List.map_cons, hnow, hthen,
      ha.slice_follower hlt hs, Nat.mul_comm _ r.flows, Nat.mul_add_mod, Nat.mod_eq_of_lt hs'] at hwindow
    exact hwindow
  · -- after the stripe, the other stripes go to another worker
    have hcan : r.turns + 1 = t.iterations ∨ r.turns + 1 < t.iterations ∧ 1 < t.flows := by tauto
    let target := fun k => if k = r.turns then stripe else flow
    have htarget : ∀ k, target k < r.flows := fun k => by grind
    have hzero : target 0 = flow := by grind
    have hnow : target r.turns = stripe := if_pos rfl
    obtain ⟨other, hworker, hrest⟩ : ∃ other, (other < t.flows ∧ other < 2 ^ 32) ∧
        (r.turns + 1 = t.iterations ∨ other ≠ flow) := by
      rcases hcan with heq | ⟨-, hmany⟩
      · exact ⟨flow, ⟨by omega, hlt⟩, .inl heq⟩
      · by_cases hz : flow = 0
        · exact ⟨1, ⟨hmany, by decide⟩, .inr (by omega)⟩
        · exact ⟨0, ⟨by omega, Nat.two_pow_pos 32⟩, .inr (by omega)⟩
    have hwindow := h.window ha hw hi hf htarget hzero (show r.turns + 1 ≤ t.iterations by omega) (Nat.lt_succ_self _)
      (.inr hin) hworker hrest
    rw [ha.slice_rounds hf target 0 _ (htarget _), hnow] at hwindow
    simpa [Sending.frames] using hwindow

end Static

end Rdma4py.Transport
