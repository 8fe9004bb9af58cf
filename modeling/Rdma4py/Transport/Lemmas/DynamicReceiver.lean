import Rdma4py.Lib.Enumerates
import Rdma4py.Transport.DynamicReceiver
import Rdma4py.Transport.Lemmas.Stripes

/-!
# The process receiver along a run

A stripe is copied by the worker that marked it, and by no other. What a worker copies is the stripe of the source.
-/

namespace Rdma4py.Transport

open Lib

namespace Dynamic

variable {t : Sending} {r : Receiving} {s : State} {flow sender receivedBytes count k : Nat}
  {id : Option (List UInt8)} {seen : List Nat} {data : List UInt8} {w : Worker} {h : Header}

/-! ## What a worker stores -/

theorem Destination.mapping_store (d : Destination) (flow : Nat) (data : List UInt8) (offset : Nat) :
    (d.store flow data offset).mapping = d.mapping := by
  rw [store]
  split
  · rfl
  · rfl

theorem Destination.view_store_self (d : Destination) (flow : Nat) (data : List UInt8) (offset : Nat) :
    (d.store flow data offset).view flow = (d.view flow).write data offset := by
  cases hm : d.mapping with
  | shared => simp [view, store, hm]
  | copyOnWrite => simp [view, store, hm]

/-- Another one sees it or not. -/
theorem Destination.view_store (d : Destination) (flow : Nat) (data : List UInt8) (offset f : Nat) :
    (d.store flow data offset).view f = (d.view f).write data offset ∨
      (d.store flow data offset).view f = d.view f := by
  cases hm : d.mapping with
  | shared => exact .inl (by simp [view, store, hm])
  | copyOnWrite =>
      by_cases hf : f = flow
      · subst hf
        exact .inl (d.view_store_self f data offset)
      · exact .inr (by simp [view, store, hm, hf])

theorem Destination.tensor_store (d : Destination) (flow : Nat) (data : List UInt8) (offset : Nat) :
    (d.store flow data offset).tensor = d.tensor.write data offset ∨
      (d.store flow data offset).tensor = d.tensor := by
  cases hm : d.mapping with
  | shared => exact .inl (by simp [store, hm])
  | copyOnWrite => exact .inr (by simp [store, hm])

/-! ## One header -/

/-- The header fits the destination, and its transfer is that of the headers before it. -/
structure Matches (r : Receiving) (flow : Nat) (id : Option (List UInt8)) (h : Header) : Prop where
  flow : h.flow = flow
  total : h.total = r.nbytes
  transfer : id = none ∨ id = some h.transferId

/-- The header names a stripe of the destination. -/
structure Names (r : Receiving) (h : Header) : Prop where
  magic : h.magic = magic
  aligned : h.offset % r.stripeBytes = 0
  inside : h.offset < r.nbytes
  nbytes : h.nbytes = min r.stripeBytes (r.nbytes - h.offset)

theorem checkHeader_cases (r : Receiving) (flow : Nat) (id : Option (List UInt8)) (receivedBytes : Nat)
    (seen : List Nat) (h : Header) :
    (∃ e, checkHeader r flow id receivedBytes seen h = .failed e) ∨
      (h.magic = done ∧ Matches r flow id h ∧
        checkHeader r flow id receivedBytes seen h = .done h.transferId receivedBytes) ∨
      (Names r h ∧ Matches r flow id h ∧
        checkHeader r flow id receivedBytes seen h =
          .stripe h.transferId receivedBytes seen h.offset h.nbytes []) := by
  unfold checkHeader
  split
  · exact .inl ⟨_, rfl⟩
  next hmatch =>
    push Not at hmatch
    obtain ⟨hflow, htotal, hid⟩ := hmatch
    have hm : Matches r flow id h := by
      refine ⟨hflow, htotal, ?_⟩
      by_cases hnone : id = none
      · exact .inl hnone
      · exact .inr (hid hnone)
    split
    next hdone =>
      split
      · exact .inl ⟨_, rfl⟩
      · exact .inr (.inl ⟨hdone, hm, rfl⟩)
    · split
      · exact .inl ⟨_, rfl⟩
      next hstripe =>
        push Not at hstripe
        obtain ⟨hmagic, haligned, hbytes, hpos⟩ := hstripe
        rw [htotal] at hbytes
        exact .inr (.inr ⟨⟨hmagic, haligned, by omega, by omega⟩, hm, rfl⟩)

/-! ## One worker -/

/-- These bytes are a stripe of the source. -/
structure StripeOf (t : Sending) (r : Receiving) (offset : Nat) (bytes : List UInt8) : Prop where
  total : t.source.length = r.nbytes
  aligned : offset % r.stripeBytes = 0
  inside : offset < r.nbytes
  bytes : bytes = slice t.source offset (min r.stripeBytes (r.nbytes - offset))

theorem StripeOf.length {offset : Nat} {bytes : List UInt8} (h : StripeOf t r offset bytes) :
    bytes.length = min r.stripeBytes (r.nbytes - offset) := by
  have htotal := h.total
  have hinside := h.inside
  rw [h.bytes, length_slice (by omega)]

/-- What is still to come on the connection of a worker. -/
def WorkerInv (t : Sending) (r : Receiving) (sender : Nat) (data : List UInt8) : Worker → Prop
  | .header _ _ _ got => Framed t sender (got ++ data) ∧ got.length < headerSize
  | .stripe _ _ _ offset nbytes staged => ∃ bytes, StripeOf t r offset bytes ∧ bytes.length = nbytes ∧
      staged.length < nbytes ∧ (staged ++ data <+: bytes ∨
        ∃ rest, Framed t sender rest ∧ staged ++ data = bytes ++ rest)
  | .marking _ _ _ offset bytes => StripeOf t r offset bytes ∧ Framed t sender data
  | .copying _ _ _ offset bytes => StripeOf t r offset bytes ∧ Framed t sender data
  | .done _ _ => True
  | .failed _ => True

theorem headerSize_pos : 0 < headerSize := by decide

theorem workerInv_header (hf : Framed t sender data) (id : Option (List UInt8)) (receivedBytes : Nat)
    (seen : List Nat) : WorkerInv t r sender data (.header id receivedBytes seen []) :=
  ⟨hf, headerSize_pos⟩

/-- The checks let a stripe of the source through, and no other. -/
theorem workerInv_checkHeader (hf : Framed t sender data) (hl : headerSize ≤ data.length) :
    WorkerInv t r sender (data.drop headerSize)
      (checkHeader r flow id receivedBytes seen (.unpack (data.take headerSize))) := by
  rcases hf.header hl with hterm | ⟨task, htask, hrest⟩
  · rw [hterm]
    rcases checkHeader_cases r flow id receivedBytes seen (t.terminator sender) with ⟨e, he⟩ | ⟨-, -, he⟩ | ⟨hn, -, -⟩
    · rw [he]
      trivial
    · rw [he]
      trivial
    · exact absurd hn.magic (show done ≠ magic by decide)
  · rw [htask]
    rcases checkHeader_cases r flow id receivedBytes seen (t.taskHeader sender task) with
      ⟨e, he⟩ | ⟨hd, -, -⟩ | ⟨hn, hm, he⟩
    · rw [he]
      trivial
    · exact absurd hd (show magic ≠ done by decide)
    · rw [he]
      have hlength : t.taskLength task = min r.stripeBytes (r.nbytes - t.taskOffset task) := hn.nbytes
      have hstripe : StripeOf t r (t.taskOffset task) (t.taskPayload task) :=
        ⟨hm.total, hn.aligned, hn.inside, by rw [t.taskPayload_eq, hlength]⟩
      have hpos : 0 < t.taskLength task := by
        have hinside : t.taskOffset task < r.nbytes := hn.inside
        have := r.stripeBytes_pos
        omega
      exact ⟨_, hstripe, t.length_taskPayload task, hpos, hrest⟩

theorem WorkerInv.received (h : WorkerInv t r sender data w) (hw : count ≤ wanted r w) (hd : count ≤ data.length) :
    WorkerInv t r sender (data.drop count) (received r flow (data.take count) w) := by
  have hlen : (data.take count).length = count := List.length_take_of_le hd
  cases w with
  | header id receivedBytes seen got =>
      obtain ⟨hf, hgot⟩ := h
      simp only [wanted] at hw
      simp only [Dynamic.received, List.length_append, hlen]
      split
      next hlt =>
        refine ⟨?_, by simpa [hlen] using hlt⟩
        rw [List.append_assoc, List.take_append_drop]
        exact hf
      next hge =>
        have hfull : got.length + count = headerSize := by omega
        have htake : (got ++ data).take headerSize = got ++ data.take count := by
          rw [← hfull, List.take_length_add_append]
        have hdrop : (got ++ data).drop headerSize = data.drop count := by
          rw [← hfull, List.drop_length_add_append]
        rw [← htake, ← hdrop]
        exact workerInv_checkHeader hf (by simp only [List.length_append]; omega)
  | stripe id receivedBytes seen offset nbytes staged =>
      obtain ⟨bytes, hstripe, hbytes, hstaged, hrest⟩ := h
      simp only [wanted] at hw
      have hsplit : staged ++ data.take count ++ data.drop count = staged ++ data := by
        rw [List.append_assoc, List.take_append_drop]
      simp only [Dynamic.received, List.length_append, hlen]
      split
      next hlt =>
        refine ⟨bytes, hstripe, hbytes, by simpa [hlen] using hlt, ?_⟩
        rwa [hsplit]
      next hge =>
        have hfull : (staged ++ data.take count).length = bytes.length := by
          rw [List.length_append, hlen]
          omega
        -- the stripe is complete: it is the one that the header announced
        have hwhole : staged ++ data.take count = bytes ∧ Framed t sender (data.drop count) := by
          rw [← hsplit] at hrest
          rcases hrest with ⟨tail, htail⟩ | ⟨rest, hrest, heq⟩
          · rw [List.append_assoc] at htail
            obtain ⟨rfl, hnil⟩ := List.append_inj (htail.trans (List.append_nil bytes).symm) hfull
            exact ⟨rfl, (List.append_eq_nil_iff.mp hnil).1 ▸ .nil⟩
          · obtain ⟨rfl, rfl⟩ := List.append_inj heq hfull
            exact ⟨rfl, hrest⟩
        split
        · exact workerInv_header hwhole.2 _ _ _
        · exact ⟨hwhole.1.symm ▸ hstripe, hwhole.2⟩
  | marking id receivedBytes seen offset bytes =>
      have hz : count = 0 := by simpa [wanted] using hw
      subst hz
      exact h
  | copying id receivedBytes seen offset bytes =>
      have hz : count = 0 := by simpa [wanted] using hw
      subst hz
      exact h
  | done id receivedBytes => trivial
  | failed e => trivial

/-! ## All workers -/

/-- The stripe that the worker is copying. -/
def Worker.copies (r : Receiving) : Worker → Option Nat
  | .copying _ _ _ offset _ => some (offset / r.stripeBytes)
  | _ => none

/-- The stripes that were written, in the reverse order. -/
def writtenStripes (s : State) : List Nat := s.written.map Prod.snd

/-- The stripes that are being copied. -/
def copiedStripes (r : Receiving) (s : State) : List Nat :=
  flat r.flows fun flow => ((s.workers flow).copies r).toList

/-- A memory holds a stripe of the source. -/
structure Holds (t : Sending) (r : Receiving) (tensor : Memory UInt8) (stripe : Nat) : Prop where
  total : t.source.length = r.nbytes
  bytes : ∀ i, i / r.stripeBytes = stripe → i < r.nbytes → t.source[i]? = some (tensor i)

/-- The invariant: `senders` gives the worker of the sender behind each connection. A stripe that is marked was either
written once or is being copied by one worker. -/
structure Inv (t : Sending) (r : Receiving) (senders : Nat → Nat) (mapping : Mapping) (s : State) : Prop where
  worker : ∀ flow, WorkerInv t r (senders flow) (s.connections flow).data (s.workers flow)
  placed : Enumerates (writtenStripes s ++ copiedStripes r s) fun k => s.placed k = true
  written : ∀ x ∈ s.written, Holds t r (s.view x.1) x.2
  mapping : s.mapping = mapping

variable {senders : Nat → Nat} {mapping : Mapping}

theorem initial_inv {tensor : Memory UInt8} {connections : Nat → Connection}
    (hf : ∀ flow, Framed t (senders flow) (connections flow).data) :
    Inv t r senders mapping (.initial mapping tensor connections) where
  worker flow := workerInv_header (hf flow) _ _ _
  placed := by simpa [writtenStripes, copiedStripes, State.initial, Worker.copies] using Enumerates.nil (by simp)
  written _ h := by cases h
  mapping := rfl

/-- What the workers copy, when one of them changes. -/
theorem copies_update (r : Receiving) (workers : Nat → Worker) (flow : Nat) (w : Worker) :
    (fun f => ((Function.update workers flow w f).copies r).toList) =
      Function.update (fun f => ((workers f).copies r).toList) flow (w.copies r).toList := by
  funext f
  by_cases hf : f = flow
  · subst hf
    simp
  · simp [hf]

theorem worker_update (h : ∀ flow, WorkerInv t r (senders flow) (s.connections flow).data (s.workers flow))
    (flow : Nat) {c : Connection} (hw : WorkerInv t r (senders flow) c.data w) : ∀ f, WorkerInv t r (senders f)
      (Function.update s.connections flow c f).data (Function.update s.workers flow w f) := by
  intro f
  by_cases hf : f = flow
  · subst hf
    simpa using hw
  · simpa [hf] using h f

/-- A worker that copies neither before nor after leaves what is copied. -/
theorem copiedStripes_update (flow : Nat) (c : Connection) (hbefore : (s.workers flow).copies r = none)
    (hafter : w.copies r = none) :
    copiedStripes r { s with
      workers := Function.update s.workers flow w, connections := Function.update s.connections flow c } =
        copiedStripes r s := by
  have hsame : Function.update (fun f => ((s.workers f).copies r).toList) flow (w.copies r).toList =
      fun f => ((s.workers f).copies r).toList := by
    rw [hafter, ← hbefore]
    exact Function.update_eq_self flow _
  simp only [copiedStripes, copies_update, hsame]

/-- A worker that marks its stripe is going to copy it. -/
theorem copiedStripes_marked (hf : flow < r.flows) {id : List UInt8} {offset : Nat}
    (hw : s.workers flow = .marking id receivedBytes seen offset data) (placed : Nat → Bool) :
    (copiedStripes r s ++ [offset / r.stripeBytes]).Perm (copiedStripes r { s with
      placed := placed
      workers := Function.update s.workers flow (.copying id receivedBytes seen offset data) }) := by
  have hperm := flat_update_perm hf (fun f => ((s.workers f).copies r).toList) (offset / r.stripeBytes)
  simp only [hw, show (Worker.marking id receivedBytes seen offset data).copies r = none from rfl, Option.toList_none,
    List.nil_append] at hperm
  simp only [copiedStripes, copies_update]
  exact hperm.symm

theorem copiedStripes_copied (hf : flow < r.flows) {id : List UInt8} {offset : Nat}
    (hw : s.workers flow = .copying id receivedBytes seen offset data) (d : Destination)
    (written : List (Nat × Nat)) :
    (copiedStripes r s).Perm (copiedStripes r { s with
      toDestination := d
      workers := Function.update s.workers flow (.header (some id) receivedBytes seen [])
      written := written } ++ [offset / r.stripeBytes]) := by
  have hperm := flat_update_perm hf
    (Function.update (fun f => ((s.workers f).copies r).toList) flow []) (offset / r.stripeBytes)
  have hself : Function.update (fun f => ((s.workers f).copies r).toList) flow [offset / r.stripeBytes] =
      fun f => ((s.workers f).copies r).toList := by
    have : [offset / r.stripeBytes] = ((s.workers flow).copies r).toList := by
      rw [hw]
      rfl
    rw [this]
    exact Function.update_eq_self flow _
  simp only [Function.update_idem, Function.update_self, List.nil_append, hself] at hperm
  simp only [copiedStripes, copies_update]
  exact hperm

/-- A worker that copies neither before nor after changes nothing else. -/
theorem Inv.update (h : Inv t r senders mapping s) (flow : Nat) {c : Connection}
    (hbefore : (s.workers flow).copies r = none) (hafter : w.copies r = none) (hw : WorkerInv t r (senders flow) c.data w) :
    Inv t r senders mapping { s with
      workers := Function.update s.workers flow w, connections := Function.update s.connections flow c } := by
  refine ⟨worker_update h.worker flow hw, ?_, h.written, h.mapping⟩
  rw [copiedStripes_update flow c hbefore hafter]
  exact h.placed

theorem copies_checkHeader (r : Receiving) (flow : Nat) (id : Option (List UInt8)) (receivedBytes : Nat)
    (seen : List Nat) (h : Header) : (checkHeader r flow id receivedBytes seen h).copies r = none := by
  rcases checkHeader_cases r flow id receivedBytes seen h with ⟨e, he⟩ | ⟨-, -, he⟩ | ⟨-, -, he⟩
  all_goals
    rw [he]
    rfl

theorem copies_received (r : Receiving) (flow : Nat) (bytes : List UInt8) (hw : w.copies r = none) :
    (received r flow bytes w).copies r = none := by
  cases w with
  | header id receivedBytes seen got =>
      simp only [received]
      split
      · rfl
      · exact copies_checkHeader ..
  | stripe id receivedBytes seen offset nbytes staged =>
      simp only [received]
      split
      · rfl
      · split
        · rfl
        · rfl
  | marking => rfl
  | copying => cases hw
  | done => rfl
  | failed => rfl

theorem starved_failed (flow : Nat) (reset : Bool) (hw : w.receives) : ∃ e, starved flow reset w = .failed e := by
  cases w with
  | header => exact ⟨_, rfl⟩
  | stripe => exact ⟨_, rfl⟩
  | _ => simp [Worker.receives] at hw

theorem copies_of_receives (hw : w.receives) : w.copies r = none := by
  cases w with
  | copying => simp [Worker.receives] at hw
  | _ => rfl

theorem receive_of_nil (h : (s.connections flow).data = []) : receive r flow count s = { s with
    workers := Function.update s.workers flow (starved flow (s.connections flow).reset (s.workers flow)) } := by
  simp only [receive, h]

theorem receive_of_ne_nil (h : (s.connections flow).data ≠ []) : receive r flow count s = { s with
    workers := Function.update s.workers flow
      (received r flow ((s.connections flow).data.take count) (s.workers flow))
    connections := Function.update s.connections flow
      { s.connections flow with data := (s.connections flow).data.drop count } } := by
  cases hd : (s.connections flow).data with
  | nil => exact absurd hd h
  | cons b bs => simp only [receive, hd]

theorem Inv.receive (h : Inv t r senders mapping s) (he : Enabled r s (.receive flow count)) :
    Inv t r senders mapping (receive r flow count s) := by
  obtain ⟨-, hw, hcount⟩ := he
  have hidle := copies_of_receives (r := r) hw
  by_cases hnil : (s.connections flow).data = []
  · obtain ⟨e, hfailed⟩ := starved_failed flow (s.connections flow).reset hw
    rw [receive_of_nil hnil, hfailed]
    have := h.update flow (w := .failed e) (c := s.connections flow) hidle rfl trivial
    rwa [Function.update_eq_self] at this
  · obtain ⟨-, hwanted, hdata⟩ := hcount.resolve_left hnil
    rw [receive_of_ne_nil hnil]
    exact h.update flow hidle (copies_received r flow _ hidle) ((h.worker flow).received hwanted hdata)

theorem mark_of_marking {id : List UInt8} {offset : Nat}
    (hw : s.workers flow = .marking id receivedBytes seen offset data) :
    mark r flow s = if s.placed (offset / r.stripeBytes) then
        { s with workers := Function.update s.workers flow (.header (some id) receivedBytes seen []) }
      else { s with
        placed := Function.update s.placed (offset / r.stripeBytes) true
        workers := Function.update s.workers flow (.copying id receivedBytes seen offset data) } := by
  simp only [mark, hw]

theorem copy_of_copying {id : List UInt8} {offset : Nat}
    (hw : s.workers flow = .copying id receivedBytes seen offset data) :
    copy r flow s = { s with
      toDestination := s.store flow data offset
      workers := Function.update s.workers flow (.header (some id) receivedBytes seen [])
      written := (flow, offset / r.stripeBytes) :: s.written } := by
  simp only [copy, hw]

/-- A worker marks its stripe: either another one did before, or the stripe is its own to copy. -/
theorem Inv.mark (h : Inv t r senders mapping s) (hf : flow < r.flows) {id : List UInt8} {offset : Nat}
    (hw : s.workers flow = .marking id receivedBytes seen offset data) : Inv t r senders mapping (mark r flow s) := by
  have hworker := h.worker flow
  rw [hw] at hworker
  obtain ⟨hstripe, hframed⟩ := hworker
  rw [mark_of_marking hw]
  split
  next hplaced =>
    have := h.update flow (c := s.connections flow) (w := .header (some id) receivedBytes seen [])
      (by rw [hw]; rfl) rfl (workerInv_header hframed _ _ _)
    rwa [Function.update_eq_self] at this
  next hfree =>
    refine ⟨?_, ?_, h.written, h.mapping⟩
    · have := worker_update h.worker flow (w := .copying id receivedBytes seen offset data) (c := s.connections flow)
        ⟨hstripe, hframed⟩
      rwa [Function.update_eq_self] at this
    · refine ((h.placed.cons hfree).perm ?_).congr fun k => ?_
      · refine .trans ?_ ((copiedStripes_marked hf hw _).append_left _)
        rw [← List.append_assoc]
        exact (List.perm_append_singleton _ _).symm
      · by_cases hk : k = offset / r.stripeBytes
        · simp [hk]
        · simp [hk]

theorem Holds.write {tensor : Memory UInt8} {offset : Nat} (h : Holds t r tensor k) (hs : StripeOf t r offset data)
    (hk : k ≠ offset / r.stripeBytes) : Holds t r (tensor.write data offset) k := by
  refine ⟨h.total, fun i hi hlt => ?_⟩
  rw [Memory.write_of_outside]
  · exact h.bytes i hi hlt
  · by_contra hin
    push Not at hin
    have hlen := hs.length
    have hsame : i / r.stripeBytes = offset / r.stripeBytes := by
      obtain ⟨d, hd⟩ := Nat.exists_eq_add_of_le hin.1
      have hlt : d < r.stripeBytes := by omega
      rw [hd, ← Nat.mod_add_div offset r.stripeBytes, hs.aligned, Nat.zero_add,
        Nat.mul_div_cancel_left _ r.stripeBytes_pos, Nat.mul_add_div r.stripeBytes_pos, Nat.div_eq_of_lt hlt,
        Nat.add_zero]
    exact hk (hi.symm.trans hsame)

theorem StripeOf.holds {tensor : Memory UInt8} {offset : Nat} (hs : StripeOf t r offset data) :
    Holds t r (tensor.write data offset) (offset / r.stripeBytes) := by
  refine ⟨hs.total, fun i hi hlt => ?_⟩
  have hlen := hs.length
  have hoffset := Nat.mod_add_div offset r.stripeBytes
  rw [hs.aligned, Nat.zero_add] at hoffset
  have hi' := Nat.mod_add_div i r.stripeBytes
  rw [hi, hoffset] at hi'
  have hmod := Nat.mod_lt i r.stripeBytes_pos
  obtain ⟨d, rfl⟩ := Nat.exists_eq_add_of_le (show offset ≤ i by omega)
  have hd : d < data.length := by omega
  rw [Memory.write_of_lt hd, ← List.getElem?_eq_getElem hd, hs.bytes, getElem?_slice (by omega)]

theorem Inv.copy (h : Inv t r senders mapping s) (hf : flow < r.flows) {id : List UInt8} {offset : Nat}
    (hw : s.workers flow = .copying id receivedBytes seen offset data) : Inv t r senders mapping (copy r flow s) := by
  have hworker := h.worker flow
  rw [hw] at hworker
  obtain ⟨hstripe, hframed⟩ := hworker
  rw [copy_of_copying hw]
  have hperm := copiedStripes_copied hf hw (s.store flow data offset) ((flow, offset / r.stripeBytes) :: s.written)
  refine ⟨?_, ?_, ?_, (s.mapping_store flow data offset).trans h.mapping⟩
  · have := worker_update h.worker flow (w := .header (some id) receivedBytes seen []) (c := s.connections flow)
      (workerInv_header hframed _ _ _)
    rwa [Function.update_eq_self] at this
  · refine h.placed.perm ?_
    refine (hperm.append_left _).trans ?_
    rw [← List.append_assoc]
    exact List.perm_append_singleton _ _
  · intro x hx
    show Holds t r ((s.store flow data offset).view x.1) x.2
    rcases List.mem_cons.mp hx with rfl | hx
    · rw [Destination.view_store_self]
      exact hstripe.holds
    · rcases s.view_store flow data offset x.1 with hview | hview
      · rw [hview]
        refine (h.written x hx).write hstripe ?_
        intro hsame
        have hcopied : offset / r.stripeBytes ∈ copiedStripes r s := hperm.mem_iff.mpr (by simp)
        exact (List.nodup_append.mp h.placed.nodup).2.2 _ (List.mem_map_of_mem hx) _ hcopied hsame
      · rw [hview]
        exact h.written x hx

theorem Inv.next (h : Inv t r senders mapping s) {e : Event} (he : Enabled r s e) :
    Inv t r senders mapping (next r s e) := by
  cases e with
  | receive flow count => exact h.receive he
  | mark flow =>
      obtain ⟨hf, he⟩ := he
      cases hw : s.workers flow with
      | marking id receivedBytes seen offset data => exact h.mark hf hw
      | _ => simp [hw, Worker.marks] at he
  | copy flow =>
      obtain ⟨hf, he⟩ := he
      cases hw : s.workers flow with
      | copying id receivedBytes seen offset data => exact h.copy hf hw
      | _ => simp [hw, Worker.places] at he

theorem reaches_inv {tensor : Memory UInt8} {connections : Nat → Connection}
    (hf : ∀ flow, Framed t (senders flow) (connections flow).data)
    (h : (machine r).Reaches (.initial mapping tensor connections) s) : Inv t r senders mapping s :=
  h.invariant (I := Inv t r senders mapping) (fun _ _ hinv he => hinv.next he) (initial_inv hf)

/-! ## The end of `receive_into` -/

/-- When all results are successful, all workers are done. -/
theorem succeeded_messages {flows : List Nat} {results : List (Except Exn (List UInt8 × Nat))}
    {values : List (List UInt8 × Nat)} (hm : messages s flows = some results) (hs : succeeded results = some values) :
    ∀ flow ∈ flows, ∃ id receivedBytes, s.workers flow = .done id receivedBytes := by
  induction flows generalizing results values with
  | nil => exact fun _ hf => by cases hf
  | cons flow flows ih =>
      simp only [messages] at hm
      split at hm
      next id receivedBytes results' hdone hrest =>
        obtain rfl := Option.some.inj hm
        simp only [succeeded, Option.map_eq_some_iff] at hs
        obtain ⟨values', hvalues, -⟩ := hs
        intro flow' hf
        rcases List.mem_cons.mp hf with rfl | hf
        · exact ⟨id, receivedBytes, hdone⟩
        · exact ih hrest hvalues flow' hf
      next e results' hfailed hrest =>
        obtain rfl := Option.some.inj hm
        cases hs
      · cases hm

/-- It returns only when every worker is done and every stripe is placed. -/
theorem returned_ok {shared : Bool} {nbytes : Nat} (h : returned r shared s = some (.ok nbytes)) :
    nbytes = r.nbytes * r.iterations ∧ 0 < nbytes ∧
      (∀ flow < r.flows, ∃ id receivedBytes, s.workers flow = .done id receivedBytes) ∧
      ∀ k < stripeCount r, s.placed k := by
  unfold returned at h
  split at h
  · simp at h
  split at h
  · simp at h
  split at h
  · cases h
  next results hmessages =>
    split at h
    · simp at h
    next values hvalues =>
      split at h
      · simp at h
      next hplaced =>
        dsimp only at h
        split at h
        · simp at h
        next hsame =>
          push Not at hsame
          split at h
          · simp at h
          next hpos =>
            obtain rfl : _ = nbytes := by simpa using h
            refine ⟨hsame.2, Nat.pos_of_ne_zero hpos, fun flow hf => ?_, fun k hk => ?_⟩
            · exact succeeded_messages hmessages hvalues flow (List.mem_range.mpr hf)
            · simp only [Bool.not_eq_false, List.all_eq_true] at hplaced
              exact hplaced k (List.mem_range.mpr hk)

theorem Inv.all_written (h : Inv t r senders mapping s) (hdone : ∀ flow < r.flows, ∃ id receivedBytes,
    s.workers flow = .done id receivedBytes) (hk : s.placed k) : k ∈ writtenStripes s := by
  have hnone : copiedStripes r s = [] := by
    refine List.flatMap_eq_nil_iff.mpr fun flow hf => ?_
    obtain ⟨id, receivedBytes, hd⟩ := hdone flow (List.mem_range.mp hf)
    rw [hd]
    rfl
  have hplaced := h.placed
  rw [hnone, List.append_nil] at hplaced
  exact (hplaced.mem_iff k).mpr hk

/-- When it returns, the workers have the source, and so has the caller if they share the pages of the tensor. -/
theorem Inv.returned (h : Inv t r senders mapping s) {shared : Bool} {nbytes : Nat}
    (hret : returned r shared s = some (.ok nbytes)) :
    t.source.length = r.nbytes ∧ nbytes = r.nbytes * r.iterations ∧
      (mapping = .shared → s.tensor.read r.nbytes 0 = t.source) := by
  obtain ⟨hbytes, hpos, hdone, hplaced⟩ := returned_ok hret
  have hsomewhere : ∀ k < stripeCount r, ∃ flow, Holds t r (s.view flow) k := fun k hk => by
    obtain ⟨x, hx, rfl⟩ := List.mem_map.mp (h.all_written hdone (hplaced k hk))
    exact ⟨x.1, h.written x hx⟩
  have hn : 0 < r.nbytes := Nat.pos_of_mul_pos_right (hbytes ▸ hpos)
  have hstripe : ∀ i < r.nbytes, i / r.stripeBytes < stripeCount r := fun i hi => by
    have hsb := r.stripeBytes_pos
    rw [stripeCount, show r.nbytes + r.stripeBytes - 1 = r.nbytes - 1 + r.stripeBytes by omega,
      Nat.add_div_right _ hsb]
    exact Nat.lt_succ_of_le (Nat.div_le_div_right (by omega))
  obtain ⟨_, hfirst⟩ := hsomewhere _ (hstripe 0 hn)
  have htotal := hfirst.total
  refine ⟨htotal, hbytes, fun hshared => List.ext_getElem? fun i => ?_⟩
  have hview : ∀ flow, s.view flow = s.tensor := fun flow => by rw [Destination.view, h.mapping, hshared]
  have hholds : ∀ k < stripeCount r, Holds t r s.tensor k := fun k hk => by
    obtain ⟨flow, hk⟩ := hsomewhere k hk
    exact hview flow ▸ hk
  rcases Nat.lt_or_ge i r.nbytes with hi | hi
  · rw [(hholds _ (hstripe i hi)).bytes i rfl hi, Memory.read]
    simp [hi]
  · rw [List.getElem?_eq_none (by rw [Memory.length_read]; exact hi), List.getElem?_eq_none (by omega)]

end Dynamic

end Rdma4py.Transport
