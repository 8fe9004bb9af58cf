import Mathlib.Algebra.BigOperators.Ring.List
import Mathlib.Algebra.Order.BigOperators.Group.List
import Mathlib.Algebra.Order.Ring.Nat
import Rdma4py.Transport.Lemmas.Partition
import Rdma4py.Transport.StaticReceiver

/-!
# The thread receiver along a run

Whatever a connection delivers, a thread that is done has found the expected header in the first bytes, and its range of
the tensor holds the bytes of the last iteration. No other thread writes there.
-/

namespace Rdma4py.Transport

open Lib

variable {r : Receiving} {flow : Nat}

namespace Receiving

/-- The length of the range of a flow. -/
def length (r : Receiving) (flow : Nat) : Nat := r.stop flow - r.start flow

theorem start_lt_stop (hn : r.flows ≤ r.nbytes) (flow : Nat) : r.start flow < r.stop flow :=
  partitionBound_lt r.flows_pos hn flow

/-- The header that a flow expects, for some transfer. -/
def expected (r : Receiving) (flow : Nat) (id : List UInt8) : Header :=
  ⟨magic, id, flow, r.nbytes, r.start flow, r.stop flow - r.start flow⟩

end Receiving

namespace Static

variable {s : State} {D : Nat → List UInt8} {id : List UInt8} {iteration position : Nat}

/-- The first bytes of a connection are the expected header. -/
structure Accepts (r : Receiving) (flow : Nat) (data id : List UInt8) : Prop where
  length : headerSize ≤ data.length
  header : Header.unpack (data.take headerSize) = r.expected flow id

/-- The connection has everything that the thread asks for. -/
structure Complete (r : Receiving) (flow : Nat) (data id : List UInt8) : Prop where
  accepts : Accepts r flow data id
  enough : headerSize + r.iterations * r.length flow ≤ data.length

/-- The range of a flow holds the first bytes of one iteration and, behind them, the rest of the one before it. -/
structure Placed (r : Receiving) (flow : Nat) (data : List UInt8) (tensor : Memory UInt8) (iteration position : Nat) :
    Prop where
  current : ∀ i, r.start flow + i < position →
    data[headerSize + iteration * r.length flow + i]? = some (tensor (r.start flow + i))
  previous : ∀ i, position ≤ r.start flow + i → i < r.length flow → 0 < iteration →
    data[headerSize + (iteration - 1) * r.length flow + i]? = some (tensor (r.start flow + i))

/-- How far a thread has come, when its connection has delivered `consumed` of its bytes. -/
def Stands (r : Receiving) (flow : Nat) (data : List UInt8) (tensor : Memory UInt8) (consumed : Nat) : Thread → Prop
  | .header got => got = data.take consumed ∧ consumed < headerSize
  | .payload id iteration position =>
      Accepts r flow data id ∧ iteration < r.iterations ∧ r.start flow ≤ position ∧ position < r.stop flow ∧
        consumed = headerSize + iteration * r.length flow + (position - r.start flow) ∧
        Placed r flow data tensor iteration position
  | .done id => Complete r flow data id ∧ Placed r flow data tensor r.iterations (r.start flow)
  | .failed _ => ∀ id, ¬ Complete r flow data id

/-- The invariant of a flow: `D` is what its connection delivers in all. -/
def Inv (r : Receiving) (D : Nat → List UInt8) (flow : Nat) (s : State) : Prop :=
  ∃ consumed ≤ (D flow).length, (s.connections flow).data = (D flow).drop consumed ∧
    Stands r flow (D flow) s.tensor consumed (s.threads flow)

theorem initial_inv (r : Receiving) (tensor : Memory UInt8) (connections : Nat → Connection) (flow : Nat) :
    Inv r (fun flow => (connections flow).data) flow (.initial tensor connections) :=
  ⟨0, Nat.zero_le _, rfl, rfl, by decide⟩

/-! ## One thread receives -/

variable {data bytes : List UInt8} {tensor : Memory UInt8} {consumed count : Nat} {t : Thread}

theorem Accepts.unique {id' : List UInt8} (h : Accepts r flow data id) (h' : Accepts r flow data id') : id = id' := by
  have := h.header.symm.trans h'.header
  simpa [Receiving.expected] using congrArg Header.transferId this

theorem stands_checkHeader (hn : r.flows ≤ r.nbytes) (hi : 0 < r.iterations) (hl : headerSize ≤ data.length) :
    Stands r flow data tensor headerSize (checkHeader r flow (.unpack (data.take headerSize))) := by
  have hlt := r.start_lt_stop hn flow
  unfold checkHeader
  split
  next heq =>
    simp only [Prod.mk.injEq] at heq
    obtain ⟨hm, hf, ht, ho, hb⟩ := heq
    rw [if_neg (by omega)]
    refine ⟨⟨hl, ?_⟩, hi, Nat.le_refl _, hlt, by simp, ?_, ?_⟩
    · generalize Header.unpack (data.take headerSize) = h at *
      cases h
      simp_all [Receiving.expected]
    · intro i hi
      omega
    · intro i _ _ hz
      omega
  next hne =>
    intro id hc
    rw [hc.accepts.header] at hne
    exact hne rfl

/-- The bytes of one call land behind those of the calls before it. -/
theorem Placed.write (h : Placed r flow data tensor iteration position) (bytes : List UInt8) (hpos : r.start flow ≤ position)
    (hbytes : ∀ i, i < bytes.length →
      data[headerSize + iteration * r.length flow + (position - r.start flow) + i]? = bytes[i]?) :
    Placed r flow data (tensor.write bytes position) iteration (position + bytes.length) := by
  refine ⟨fun i hi => ?_, fun i hi hl hz => ?_⟩
  · rcases Nat.lt_or_ge (r.start flow + i) position with hlt | hge
    · rw [Memory.write_of_outside (.inl hlt)]
      exact h.current i hlt
    · obtain ⟨k, hk⟩ := Nat.exists_eq_add_of_le hge
      have hkl : k < bytes.length := by omega
      have hki : headerSize + iteration * r.length flow + i =
          headerSize + iteration * r.length flow + (position - r.start flow) + k := by omega
      rw [hk, Memory.write_of_lt hkl, hki, hbytes k hkl, List.getElem?_eq_getElem hkl]
  · rw [Memory.write_of_outside (.inr hi)]
    exact h.previous i (by omega) hl hz

/-- A full range is the previous one of the next iteration. -/
theorem Placed.turn (h : Placed r flow data tensor iteration (r.stop flow)) :
    Placed r flow data tensor (iteration + 1) (r.start flow) := by
  refine ⟨fun i hi => by omega, fun i _ hl _ => ?_⟩
  have hlt : r.start flow + i < r.stop flow := by
    rw [Receiving.length] at hl
    omega
  simpa using h.current i hlt

theorem getElem?_take_drop {i : Nat} (hi : i < (data.drop consumed |>.take count).length) :
    data[consumed + i]? = (data.drop consumed |>.take count)[i]? := by
  rw [List.getElem?_take_of_lt (by simp only [List.length_take] at hi; omega), List.getElem?_drop]

theorem Stands.received (h : Stands r flow data tensor consumed t) (hn : r.flows ≤ r.nbytes) (hi : 0 < r.iterations)
    (hw : count ≤ wanted r flow t) (hd : consumed + count ≤ data.length) (ht : t.ended = false) :
    Stands r flow data (placed (data.drop consumed |>.take count) tensor t) (consumed + count)
      (received r flow (data.drop consumed |>.take count) t) := by
  have hlen : (data.drop consumed |>.take count).length = count := by
    simp only [List.length_take, List.length_drop]
    omega
  cases t with
  | header got =>
      obtain ⟨rfl, hc⟩ := h
      have happ : data.take consumed ++ (data.drop consumed |>.take count) = data.take (consumed + count) :=
        List.take_add.symm
      simp only [wanted, List.length_take] at hw
      simp only [placed, Static.received, happ, List.length_take]
      split
      next hlt => exact ⟨rfl, by omega⟩
      next hge =>
        have hfull : consumed + count = headerSize := by omega
        rw [hfull] at hd ⊢
        exact stands_checkHeader hn hi hd
  | payload id iteration position =>
      obtain ⟨hacc, hit, hlo, hhi, hcons, hplaced⟩ := h
      simp only [wanted] at hw
      have hstop : position + count ≤ r.stop flow := by omega
      have hnew : Placed r flow data (tensor.write (data.drop consumed |>.take count) position) iteration
          (position + count) := by
        have := hplaced.write (data.drop consumed |>.take count) hlo fun i hi => by
          rw [← hcons]
          exact getElem?_take_drop hi
        rwa [hlen] at this
      simp only [placed, Static.received, hlen]
      split
      next hlt => exact ⟨hacc, hit, by omega, hlt, by omega, hnew⟩
      next hge =>
        have hfull : position + count = r.stop flow := by omega
        rw [hfull] at hnew
        have hcons' : consumed + count = headerSize + (iteration + 1) * r.length flow := by
          rw [Nat.succ_mul, Receiving.length] at *
          omega
        split
        next hmore =>
          exact ⟨hacc, hmore, Nat.le_refl _, r.start_lt_stop hn flow, by omega, hnew.turn⟩
        next hlast =>
          have hlast : iteration + 1 = r.iterations := by omega
          rw [hlast] at hcons'
          exact ⟨⟨hacc, by omega⟩, hlast ▸ hnew.turn⟩
  | done id => cases ht
  | failed e => cases ht

theorem Stands.starved (h : Stands r flow data tensor consumed t) (hd : data.length ≤ consumed)
    (ht : t.ended = false) (reset : Bool) : Stands r flow data tensor consumed (starved flow reset t) := by
  cases t with
  | header got =>
      intro id hc
      have := h.2
      have := hc.accepts.length
      omega
  | payload id iteration position =>
      obtain ⟨-, hit, hlo, hhi, hcons, -⟩ := h
      intro id hc
      have henough := hc.enough
      have hmul : (iteration + 1) * r.length flow ≤ r.iterations * r.length flow := Nat.mul_le_mul_right _ hit
      rw [Nat.succ_mul] at hmul
      rw [Receiving.length] at *
      omega
  | done id => cases ht
  | failed e => cases ht

/-! ## The other threads -/

/-- A thread only writes in its own range. -/
theorem placed_of_outside (h : Stands r flow data tensor consumed t) (hw : bytes.length ≤ wanted r flow t) {i : Nat}
    (hi : i < r.start flow ∨ r.stop flow ≤ i) : placed bytes tensor t i = tensor i := by
  cases t with
  | payload id iteration position =>
      obtain ⟨-, -, hlo, hhi, -, -⟩ := h
      simp only [wanted] at hw
      exact Memory.write_of_outside (by omega)
  | _ => rfl

theorem Placed.congr {tensor' : Memory UInt8} (h : Placed r flow data tensor iteration position)
    (hp : position ≤ r.stop flow)
    (heq : ∀ i, r.start flow ≤ i → i < r.stop flow → tensor' i = tensor i) :
    Placed r flow data tensor' iteration position := by
  refine ⟨fun i hi => ?_, fun i hi hl hz => ?_⟩
  · rw [heq _ (by omega) (by omega)]
    exact h.current i hi
  · rw [heq _ (by omega) (by rw [Receiving.length] at hl; omega)]
    exact h.previous i hi hl hz

theorem Stands.congr {tensor' : Memory UInt8} (h : Stands r flow data tensor consumed t) (hn : r.flows ≤ r.nbytes)
    (heq : ∀ i, r.start flow ≤ i → i < r.stop flow → tensor' i = tensor i) :
    Stands r flow data tensor' consumed t := by
  cases t with
  | header got => exact h
  | payload id iteration position =>
      obtain ⟨hacc, hit, hlo, hhi, hcons, hplaced⟩ := h
      exact ⟨hacc, hit, hlo, hhi, hcons, hplaced.congr (by omega) heq⟩
  | done id => exact ⟨h.1, h.2.congr (r.start_lt_stop hn flow).le heq⟩
  | failed e => exact h

theorem ranges_apart {flow' i : Nat} (hne : flow' ≠ flow) (hlo : r.start flow ≤ i) (hhi : i < r.stop flow) :
    i < r.start flow' ∨ r.stop flow' ≤ i := by
  rcases Nat.lt_or_gt_of_ne hne with hlt | hgt
  · have : r.stop flow' ≤ r.start flow := partitionBound_mono hlt
    omega
  · have : r.stop flow ≤ r.start flow' := partitionBound_mono hgt
    omega

/-! ## Steps and runs -/

theorem next_of_nil {e : Event} (h : (s.connections e.flow).data = []) : next r s e = { s with
    threads := Function.update s.threads e.flow
      (starved e.flow (s.connections e.flow).reset (s.threads e.flow)) } := by
  simp only [next, h]

theorem next_of_ne_nil {e : Event} (h : (s.connections e.flow).data ≠ []) : next r s e =
    { tensor := placed ((s.connections e.flow).data.take e.count) s.tensor (s.threads e.flow)
      threads := Function.update s.threads e.flow
        (received r e.flow ((s.connections e.flow).data.take e.count) (s.threads e.flow))
      connections := Function.update s.connections e.flow
        { s.connections e.flow with data := (s.connections e.flow).data.drop e.count } } := by
  cases hd : (s.connections e.flow).data with
  | nil => exact absurd hd h
  | cons b bs => simp only [next, hd]

theorem Inv.next (hn : r.flows ≤ r.nbytes) (hi : 0 < r.iterations) (h : ∀ flow, Inv r D flow s) {e : Event}
    (he : Enabled r s e) : ∀ flow, Inv r D flow (next r s e) := by
  obtain ⟨hflow, hrun, hcount⟩ := he
  obtain ⟨consumed, hle, hdata, hst⟩ := h e.flow
  intro flow
  by_cases hnil : (s.connections e.flow).data = []
  · rw [next_of_nil hnil]
    by_cases hf : flow = e.flow
    · subst hf
      have hend : (D e.flow).length ≤ consumed := by
        rw [hdata] at hnil
        simpa using hnil
      exact ⟨consumed, hle, hdata, by simpa using hst.starved hend hrun _⟩
    · obtain ⟨c, hc⟩ := h flow
      exact ⟨c, by simpa [hf] using hc⟩
  · obtain ⟨-, hw, hlen⟩ := hcount.resolve_left hnil
    have hd : consumed + e.count ≤ (D e.flow).length := by
      rw [hdata, List.length_drop] at hlen
      omega
    rw [next_of_ne_nil hnil, hdata]
    by_cases hf : flow = e.flow
    · subst hf
      exact ⟨consumed + e.count, hd, by simp [List.drop_drop], by simpa using hst.received hn hi hw hd hrun⟩
    · obtain ⟨c, hc, hcd, hcs⟩ := h flow
      refine ⟨c, hc, by simpa [hf] using hcd, ?_⟩
      simp only [Function.update_of_ne hf]
      refine hcs.congr hn fun i hlo hhi => placed_of_outside hst ?_ (ranges_apart (Ne.symm hf) hlo hhi)
      simp only [List.length_take]
      omega

theorem reaches_inv (hn : r.flows ≤ r.nbytes) (hi : 0 < r.iterations) {connections : Nat → Connection}
    (h : (machine r).Reaches (.initial tensor connections) s) (flow : Nat) :
    Inv r (fun flow => (connections flow).data) flow s :=
  h.invariant (I := fun s => ∀ flow, Inv r (fun flow => (connections flow).data) flow s)
    (fun _ _ hinv he => Inv.next hn hi hinv he) (initial_inv r tensor connections) flow

/-! ## The end of `receive_into` -/

theorem results_ok {flows : List Nat} {ids : List (List UInt8)} (h : results s flows = some (.ok ids)) :
    ∀ flow ∈ flows, ∃ id ∈ ids, s.threads flow = .done id := by
  induction flows generalizing ids with
  | nil => exact fun _ hf => by cases hf
  | cons flow flows ih =>
      simp only [results] at h
      split at h <;> try simp at h
      next id ids' hdone hrest =>
        subst h
        intro flow' hf
        rcases List.mem_cons.mp hf with rfl | hf
        · exact ⟨id, by simp, hdone⟩
        · obtain ⟨x, hx, hd⟩ := ih hrest flow' hf
          exact ⟨x, by simp [hx], hd⟩

theorem results_of_done {flows : List Nat} (h : ∀ flow ∈ flows, s.threads flow = .done id) :
    results s flows = some (.ok (List.replicate flows.length id)) := by
  induction flows with
  | nil => rfl
  | cons flow flows ih =>
      have hrest := ih fun flow hf => h flow (List.mem_cons_of_mem _ hf)
      simp [results, h flow List.mem_cons_self, hrest, List.replicate_succ]

theorem sum_ranges (hn : r.flows ≤ r.nbytes) {ranges : List (Nat × Nat)}
    (h : partitions r.nbytes r.flows = .ok ranges) :
    (ranges.map fun p => (p.2 - p.1) * r.iterations).sum = r.nbytes * r.iterations := by
  have hne : r.flows ≠ 0 := Nat.ne_of_gt r.flows_pos
  rw [partitions, if_neg hne, if_neg (Nat.not_lt.mpr hn)] at h
  obtain rfl := Except.ok.inj h
  have hsum := (tiles_ranges r.flows_pos hn).sum_lengths
  rw [rangePieces, List.map_map, Nat.zero_add] at hsum
  rw [List.map_map]
  calc _ = ((List.range r.flows).map fun flow => (partitionBound r.nbytes r.flows (flow + 1) -
        partitionBound r.nbytes r.flows flow) * r.iterations).sum := rfl
    _ = ((List.range r.flows).map fun flow => partitionBound r.nbytes r.flows (flow + 1) -
        partitionBound r.nbytes r.flows flow).sum * r.iterations := List.sum_map_mul_right ..
    _ = r.nbytes * r.iterations := congrArg (· * r.iterations) hsum

/-- It returns only when every thread is done, and all with the same transfer. -/
theorem returned_ok {nbytes : Nat} (h : returned r s = some (.ok nbytes)) :
    r.flows ≤ r.nbytes ∧ 0 < r.iterations ∧ nbytes = r.nbytes * r.iterations ∧
      ∃ id, ∀ flow < r.flows, s.threads flow = .done id := by
  unfold returned at h
  split at h
  · simp at h
  next hi =>
    split at h
    · simp at h
    next ranges hranges =>
      have hn : r.flows ≤ r.nbytes := by
        rw [partitions] at hranges
        repeat' split at hranges
        · cases hranges
        · cases hranges
        · omega
      split at h
      · cases h
      · simp at h
      next ids hids =>
        dsimp only at h
        split at h
        · simp at h
        next hsame =>
          push Not at hsame
          have hb : nbytes = r.nbytes * r.iterations := by
            rw [← hsame.2]
            simpa using h.symm
          refine ⟨hn, by omega, hb, ?_⟩
          obtain ⟨id, hid⟩ := List.length_eq_one_iff.mp hsame.1
          have hall : ∀ x ∈ ids, x = id := fun x hx => by
            have : x ∈ ids.dedup := List.mem_dedup.mpr hx
            rw [hid] at this
            exact List.mem_singleton.mp this
          refine ⟨id, fun flow hf => ?_⟩
          obtain ⟨x, hx, hdone⟩ := results_ok hids flow (List.mem_range.mpr hf)
          rw [hdone, hall x hx]

/-- When every thread is done with the same transfer, it returns the bytes of all iterations. -/
theorem returned_of_done (hn : r.flows ≤ r.nbytes) (hi : 0 < r.iterations)
    (h : ∀ flow < r.flows, s.threads flow = .done id) : returned r s = some (.ok (r.nbytes * r.iterations)) := by
  obtain ⟨ranges, hranges⟩ : ∃ ranges, partitions r.nbytes r.flows = .ok ranges := by
    have hne : r.flows ≠ 0 := Nat.ne_of_gt r.flows_pos
    exact ⟨_, by rw [partitions, if_neg hne, if_neg (Nat.not_lt.mpr hn)]⟩
  have hres : results s (List.range r.flows) = some (.ok (List.replicate (List.range r.flows).length id)) :=
    results_of_done fun flow hf => h flow (List.mem_range.mp hf)
  have hone : (List.replicate (List.range r.flows).length id).dedup.length = 1 := by
    rw [List.replicate_dedup (by simpa using Nat.ne_of_gt r.flows_pos)]
    rfl
  rw [returned, if_neg (by omega), hranges, hres]
  simp only [hone, sum_ranges hn hranges]
  simp

/-- The range of a thread that is done, as bytes: what its connection delivered for the last iteration. -/
theorem Placed.read (h : Placed r flow data tensor r.iterations (r.start flow)) (hi : 0 < r.iterations) :
    tensor.read (r.length flow) (r.start flow) =
      slice data (headerSize + (r.iterations - 1) * r.length flow) (r.length flow) := by
  refine List.ext_getElem? fun i => ?_
  rcases Nat.lt_or_ge i (r.length flow) with hlt | hge
  · rw [getElem?_slice hlt, h.previous i (Nat.le_add_right ..) hlt hi, Memory.read]
    simp [hlt]
  · rw [List.getElem?_eq_none (by rw [Memory.length_read]; exact hge),
      List.getElem?_eq_none (by simp only [slice, List.length_take]; omega)]

/-! ## Every run can be finished -/

/-- The bytes that are still to come, and the threads that still run. -/
def remaining (r : Receiving) (s : State) : Nat :=
  ((List.range r.flows).map fun flow =>
    (s.connections flow).data.length + if (s.threads flow).ended then 0 else 1).sum

theorem wanted_pos (hst : Stands r flow data tensor consumed t) (ht : t.ended = false) : 0 < wanted r flow t := by
  cases t with
  | header got =>
      obtain ⟨rfl, hc⟩ := hst
      simp only [wanted, List.length_take]
      omega
  | payload id iteration position =>
      obtain ⟨-, -, -, hhi, -, -⟩ := hst
      have := r.chunkBytes_pos
      simp only [wanted]
      omega
  | done id => cases ht
  | failed e => cases ht

theorem ended_starved (reset : Bool) (t : Thread) : (starved flow reset t).ended = true := by
  cases t <;> rfl

/-- Of the summands over the flows, one shrinks and the others stay. -/
theorem sum_lt_of_update {f g : Nat → Nat} {n k : Nat} (hk : k < n) (hlt : f k < g k)
    (hle : ∀ i, i ≠ k → f i = g i) : ((List.range n).map f).sum < ((List.range n).map g).sum := by
  refine List.sum_lt_sum f g (fun i _ => ?_) ⟨k, List.mem_range.mpr hk, hlt⟩
  by_cases hi : i = k
  · exact hi ▸ hlt.le
  · exact (hle i hi).le

theorem remaining_next {e : Event} (he : Enabled r s e) : remaining r (next r s e) < remaining r s := by
  obtain ⟨hflow, hrun, hcount⟩ := he
  refine sum_lt_of_update hflow ?_ fun flow hne => ?_
  · by_cases hnil : (s.connections e.flow).data = []
    · simp [next_of_nil hnil, hnil, hrun, ended_starved]
    · obtain ⟨hpos, -, hlen⟩ := hcount.resolve_left hnil
      simp only [next_of_ne_nil hnil, Function.update_self, List.length_drop, hrun]
      rw [if_neg Bool.false_ne_true]
      split <;> omega
  · by_cases hnil : (s.connections e.flow).data = []
    · simp [next_of_nil hnil, hne]
    · simp [next_of_ne_nil hnil, hne]

/-- From every state that a run reaches, the threads can run to their ends. -/
theorem exists_end (hn : r.flows ≤ r.nbytes) (hi : 0 < r.iterations) {D : Nat → List UInt8}
    (h : ∀ flow, Inv r D flow s) :
    ∃ s', (machine r).Reaches s s' ∧ ∀ flow < r.flows, (s'.threads flow).ended = true := by
  induction hm : remaining r s using Nat.strong_induction_on generalizing s with
  | _ m ih =>
      by_cases hall : ∀ flow < r.flows, (s.threads flow).ended = true
      · exact ⟨s, .refl s, hall⟩
      push Not at hall
      obtain ⟨flow, hf, hrun⟩ := hall
      have hrun : (s.threads flow).ended = false := by simpa using hrun
      obtain ⟨consumed, -, -, hst⟩ := h flow
      have he : Enabled r s ⟨flow, 1⟩ := by
        refine ⟨hf, hrun, ?_⟩
        cases hd : (s.connections flow).data with
        | nil => exact .inl rfl
        | cons b bs => exact .inr ⟨Nat.one_pos, wanted_pos hst hrun, by simp⟩
      obtain ⟨s', hr, hend⟩ := ih _ (hm ▸ remaining_next he) (Inv.next hn hi h he) rfl
      exact ⟨s', ((Machine.Reaches.refl s).tail (M := machine r) he).trans hr, hend⟩

end Static

end Rdma4py.Transport
