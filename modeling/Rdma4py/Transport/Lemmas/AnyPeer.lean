import Mathlib.Algebra.Order.BigOperators.Group.List
import Rdma4py.Transport.Lemmas.DynamicReceiver

/-!
# The process receiver in front of any peer

Nothing is known about what arrives on the connections. What the checks let through are frames: a header that names a
stripe of the destination, and as many bytes as it says.
-/

namespace Rdma4py.Transport

open Lib

namespace Dynamic

variable {r : Receiving} {s : State} {flow receivedBytes count k : Nat} {id : List UInt8} {seen : List Nat}
  {sent data head : List UInt8} {w : Worker}

/-! ## Frames -/

/-- A header, as it arrived, and the bytes behind it. -/
structure Frame where
  head : List UInt8
  payload : List UInt8

def Frame.header (f : Frame) : Header := .unpack f.head

def Frame.bytes (f : Frame) : List UInt8 := f.head ++ f.payload

/-- The stripe of the destination that a frame carries. -/
def Frame.stripe (r : Receiving) (f : Frame) : Nat := f.header.offset / r.stripeBytes

/-- The frames one behind the other. -/
def stream (frames : List Frame) : List UInt8 := frames.flatMap Frame.bytes

/-- What the frames carry. -/
def payloads (frames : List Frame) : List UInt8 := frames.flatMap Frame.payload

/-- A header of a flow of the transfer. -/
structure Addressed (r : Receiving) (flow : Nat) (id : List UInt8) (head : List UInt8) : Prop where
  size : head.length = headerSize
  flow : (Header.unpack head).flow = flow
  total : (Header.unpack head).total = r.nbytes
  transferId : (Header.unpack head).transferId = id

/-- A well-formed stripe frame. -/
structure Frame.Formed (r : Receiving) (flow : Nat) (id : List UInt8) (f : Frame) : Prop where
  addressed : Addressed r flow id f.head
  names : Names r f.header
  payload : f.payload.length = f.header.nbytes

/-- A terminator of the transfer. -/
structure Terminates (r : Receiving) (flow : Nat) (id : List UInt8) (head : List UInt8) : Prop where
  addressed : Addressed r flow id head
  magic : (Header.unpack head).magic = done
  offset : (Header.unpack head).offset = 0
  nbytes : (Header.unpack head).nbytes = 0

/-- The position lies in the stripe. -/
def InStripe (r : Receiving) (k i : Nat) : Prop := k * r.stripeBytes ≤ i ∧ i < min ((k + 1) * r.stripeBytes) r.nbytes

theorem InStripe.div_eq {i : Nat} (h : InStripe r k i) : i / r.stripeBytes = k := by
  obtain ⟨hle, hlt⟩ := h
  refine Nat.div_eq_of_lt_le hle ?_
  omega

namespace Frame.Formed

variable {f : Frame}

theorem offset_eq (h : f.Formed r flow id) : f.header.offset = f.stripe r * r.stripeBytes := by
  have hdiv := Nat.div_add_mod f.header.offset r.stripeBytes
  rw [h.names.aligned, Nat.add_zero, Nat.mul_comm] at hdiv
  exact hdiv.symm

/-- A frame carries its whole stripe. -/
theorem stop_eq (h : f.Formed r flow id) :
    f.header.offset + f.payload.length = min ((f.stripe r + 1) * r.stripeBytes) r.nbytes := by
  have hoffset := h.offset_eq
  have hinside := h.names.inside
  rw [h.payload, h.names.nbytes, Nat.succ_mul, ← hoffset]
  omega

theorem inStripe_iff (h : f.Formed r flow id) (i : Nat) :
    InStripe r (f.stripe r) i ↔ f.header.offset ≤ i ∧ i < f.header.offset + f.payload.length := by
  rw [InStripe, h.stop_eq, h.offset_eq]

/-- The stripe has its place in `placed`. -/
theorem stripe_lt (h : f.Formed r flow id) : f.stripe r < stripeCount r := by
  have hsb := r.stripeBytes_pos
  have hinside := h.names.inside
  rw [stripeCount, show r.nbytes + r.stripeBytes - 1 = r.nbytes - 1 + r.stripeBytes by omega, Nat.add_div_right _ hsb]
  exact Nat.lt_succ_of_le (Nat.div_le_div_right (by omega))

theorem length_le (h : f.Formed r flow id) : f.payload.length ≤ min r.stripeBytes r.nbytes := by
  have hinside := h.names.inside
  rw [h.payload, h.names.nbytes]
  omega

end Frame.Formed

/-! ## One worker -/

/-- The worker took these frames, and the bytes that it counts are those. -/
structure Took (r : Receiving) (flow : Nat) (id : List UInt8) (frames : List Frame) (receivedBytes : Nat) : Prop where
  formed : ∀ f ∈ frames, f.Formed r flow id
  count : receivedBytes = (payloads frames).length

theorem Took.snoc {frames : List Frame} (h : Took r flow id frames receivedBytes) {f : Frame}
    (hf : f.Formed r flow id) : Took r flow id (frames ++ [f]) (receivedBytes + f.payload.length) where
  formed := by
    intro f' hf'
    rcases List.mem_append.mp hf' with hf' | hf'
    · exact h.formed f' hf'
    · rw [List.mem_singleton.mp hf']
      exact hf
  count := by
    have hcount := h.count
    simp only [payloads, List.flatMap_append, List.flatMap_singleton, List.length_append] at hcount ⊢
    omega

/-- Where a worker stands in the bytes `sent` that arrive on its connection; `data` are those it has not taken. -/
def Reading (r : Receiving) (flow : Nat) (sent data : List UInt8) : Worker → Prop
  | .header none receivedBytes _ got => sent = got ++ data ∧ receivedBytes = 0 ∧ got.length < headerSize
  | .header (some id) receivedBytes _ got => ∃ frames, Took r flow id frames receivedBytes ∧
      sent = stream frames ++ (got ++ data) ∧ got.length < headerSize
  | .stripe id receivedBytes _ offset nbytes staged => ∃ frames head, Took r flow id frames receivedBytes ∧
      Addressed r flow id head ∧ Names r (.unpack head) ∧ (Header.unpack head).offset = offset ∧
      (Header.unpack head).nbytes = nbytes ∧ sent = stream frames ++ (head ++ (staged ++ data)) ∧ staged.length < nbytes
  | .marking id receivedBytes _ offset bytes => ∃ frames f, Took r flow id (frames ++ [f]) receivedBytes ∧
      f.header.offset = offset ∧ f.payload = bytes ∧ sent = stream (frames ++ [f]) ++ data
  | .copying id receivedBytes _ offset bytes => ∃ frames f, Took r flow id (frames ++ [f]) receivedBytes ∧
      f.header.offset = offset ∧ f.payload = bytes ∧ sent = stream (frames ++ [f]) ++ data
  | .done id receivedBytes => ∃ frames head, Took r flow id frames receivedBytes ∧ Terminates r flow id head ∧
      sent = stream frames ++ (head ++ data)
  | .failed _ => True

theorem stream_snoc (frames : List Frame) (f : Frame) : stream (frames ++ [f]) = stream frames ++ (f.head ++ f.payload) := by
  simp [stream, Frame.bytes]

/-- Between two frames. -/
theorem reading_header {frames : List Frame} (h : Took r flow id frames receivedBytes) (seen : List Nat)
    (hsent : sent = stream frames ++ data) : Reading r flow sent data (.header (some id) receivedBytes seen []) :=
  ⟨frames, h, hsent, headerSize_pos⟩

/-- What a terminator says beside its magic. -/
theorem checkHeader_done {id : Option (List UInt8)} {h : Header} {id' : List UInt8} {n : Nat}
    (hdone : checkHeader r flow id receivedBytes seen h = .done id' n) : h.offset = 0 ∧ h.nbytes = 0 := by
  unfold checkHeader at hdone
  split at hdone
  · exact nomatch hdone
  split at hdone
  · split at hdone
    · exact nomatch hdone
    next hzero =>
      push Not at hzero
      exact hzero
  · split at hdone
    · exact nomatch hdone
    · exact nomatch hdone

/-- A header is complete: the worker fails, takes the terminator, or goes on to the stripe. -/
theorem reading_checkHeader {id : Option (List UInt8)} {frames : List Frame} (hsize : head.length = headerSize)
    (htook : ∀ id', (id = none ∨ id = some id') → Took r flow id' frames receivedBytes)
    (hsent : sent = stream frames ++ (head ++ data)) :
    Reading r flow sent data (checkHeader r flow id receivedBytes seen (.unpack head)) := by
  rcases checkHeader_cases r flow id receivedBytes seen (.unpack head) with ⟨e, he⟩ | ⟨hdone, hm, he⟩ | ⟨hn, hm, he⟩
  · rw [he]
    trivial
  · have hzero := checkHeader_done he
    rw [he]
    exact ⟨frames, head, htook _ hm.transfer, ⟨⟨hsize, hm.flow, hm.total, rfl⟩, hdone, hzero.1, hzero.2⟩, hsent⟩
  · have hpos : 0 < (Header.unpack head).nbytes := by
      have hinside := hn.inside
      have hsb := r.stripeBytes_pos
      rw [hn.nbytes]
      omega
    rw [he]
    exact ⟨frames, head, htook _ hm.transfer, ⟨hsize, hm.flow, hm.total, rfl⟩, hn, rfl, rfl, hsent, hpos⟩

/-- A call that returns bytes. -/
theorem Reading.received (h : Reading r flow sent data w) (hw : count ≤ wanted r w) (hd : count ≤ data.length) :
    Reading r flow sent (data.drop count) (received r flow (data.take count) w) := by
  have hlen : (data.take count).length = count := List.length_take_of_le hd
  have hsplit : data.take count ++ data.drop count = data := List.take_append_drop ..
  cases w with
  | header id receivedBytes seen got =>
      simp only [wanted] at hw
      simp only [Dynamic.received, List.length_append, hlen]
      cases id with
      | none =>
          obtain ⟨hsent, rfl, hgot⟩ := h
          split
          next hlt => exact ⟨by rw [List.append_assoc, hsplit, hsent], rfl, by simpa [hlen] using hlt⟩
          next hge =>
            have htook : ∀ id', Took r flow id' [] 0 := fun id' => ⟨fun f hf => (List.not_mem_nil hf).elim, rfl⟩
            refine reading_checkHeader (by rw [List.length_append, hlen]; omega) (fun id' _ => htook id') ?_
            rw [List.append_assoc, hsplit, hsent]
            rfl
      | some id =>
          obtain ⟨frames, htook, hsent, hgot⟩ := h
          split
          next hlt => exact ⟨frames, htook, by rw [List.append_assoc, hsplit, hsent], by simpa [hlen] using hlt⟩
          next hge =>
            refine reading_checkHeader (by rw [List.length_append, hlen]; omega) ?_
              (by rw [List.append_assoc, hsplit, hsent])
            rintro id' (hid | hid)
            · cases hid
            · obtain rfl := Option.some.inj hid
              exact htook
  | stripe id receivedBytes seen offset nbytes staged =>
      obtain ⟨frames, head, htook, haddr, hnames, rfl, rfl, hsent, hstaged⟩ := h
      simp only [wanted] at hw
      simp only [Dynamic.received, List.length_append, hlen]
      split
      next hlt =>
        exact ⟨frames, head, htook, haddr, hnames, rfl, rfl, by rw [List.append_assoc, hsplit, hsent],
          by simpa [hlen] using hlt⟩
      next hge =>
        -- the stripe is complete: with its header it is one more frame
        have hfull : (staged ++ data.take count).length = (Header.unpack head).nbytes := by
          rw [List.length_append, hlen]
          omega
        have hformed : Frame.Formed r flow id ⟨head, staged ++ data.take count⟩ := ⟨haddr, hnames, hfull⟩
        have htook' := htook.snoc hformed
        simp only [hfull] at htook'
        have hsent' : sent = stream (frames ++ [⟨head, staged ++ data.take count⟩]) ++ data.drop count := by
          rw [stream_snoc, hsent]
          simp only [List.append_assoc, hsplit]
        split
        · exact reading_header htook' _ hsent'
        · exact ⟨frames, _, htook', rfl, rfl, hsent'⟩
  | marking id receivedBytes seen offset bytes =>
      have hz : count = 0 := by simpa [wanted] using hw
      subst hz
      exact h
  | copying id receivedBytes seen offset bytes =>
      have hz : count = 0 := by simpa [wanted] using hw
      subst hz
      exact h
  | done id receivedBytes =>
      have hz : count = 0 := by simpa [wanted] using hw
      subst hz
      exact h
  | failed e => trivial

/-! ## All workers -/

/-- A flow brought this frame, behind others of its transfer. -/
def Brings (r : Receiving) (flow : Nat) (sent : List UInt8) (f : Frame) : Prop :=
  ∃ id frames rest, (∀ f' ∈ frames ++ [f], f'.Formed r flow id) ∧ sent = stream (frames ++ [f]) ++ rest

theorem Brings.formed {f : Frame} (h : Brings r flow sent f) : ∃ id, f.Formed r flow id := by
  obtain ⟨id, frames, rest, hformed, -⟩ := h
  exact ⟨id, hformed f (by simp)⟩

theorem Took.brings {frames : List Frame} {f : Frame} (h : Took r flow id (frames ++ [f]) receivedBytes)
    (hsent : sent = stream (frames ++ [f]) ++ data) : Brings r flow sent f :=
  ⟨id, frames, data, h.formed, hsent⟩

/-- The invariant, for a tensor and an array `placed` in any state at the start. -/
structure Guarded (r : Receiving) (tensor : Memory UInt8) (placed : Nat → Bool) (sent : Nat → List UInt8) (s : State) :
    Prop where
  worker : ∀ flow, Reading r flow (sent flow) (s.connections flow).data (s.workers flow)
  taken : Enumerates (writtenStripes s ++ copiedStripes r s) fun k => s.placed k = true ∧ placed k = false
  kept : ∀ k, placed k = true → s.placed k = true
  written : ∀ x ∈ s.written, ∃ f, Brings r x.1 (sent x.1) f ∧ f.stripe r = x.2 ∧
    ∀ i < f.payload.length, f.payload[i]? = some (s.view x.1 (f.header.offset + i))
  untouched : ∀ i, (∀ k ∈ writtenStripes s, ¬ InStripe r k i) →
    s.tensor i = tensor i ∧ ∀ flow, s.view flow i = tensor i

variable {tensor : Memory UInt8} {placed : Nat → Bool} {sents : Nat → List UInt8}

theorem guarded_initial (mapping : Mapping) (tensor : Memory UInt8) (placed : Nat → Bool) (connections : Nat → Connection) :
    Guarded r tensor placed (fun flow => (connections flow).data)
      { State.initial mapping tensor connections with placed := placed } where
  worker _ := ⟨rfl, rfl, headerSize_pos⟩
  taken := by
    simpa [writtenStripes, copiedStripes, State.initial, Worker.copies] using Enumerates.nil (by simp)
  kept _ h := h
  written _ h := nomatch h
  untouched _ _ := by
    refine ⟨rfl, fun flow => ?_⟩
    cases mapping
    · rfl
    · rfl

theorem reading_update (h : ∀ flow, Reading r flow (sents flow) (s.connections flow).data (s.workers flow))
    (flow : Nat) {c : Connection} (hw : Reading r flow (sents flow) c.data w) : ∀ f, Reading r f (sents f)
      (Function.update s.connections flow c f).data (Function.update s.workers flow w f) := by
  intro f
  by_cases hf : f = flow
  · subst hf
    simpa using hw
  · simpa [hf] using h f

/-- A worker that copies neither before nor after changes nothing else. -/
theorem Guarded.update (h : Guarded r tensor placed sents s) (flow : Nat) {c : Connection}
    (hbefore : (s.workers flow).copies r = none) (hafter : w.copies r = none)
    (hw : Reading r flow (sents flow) c.data w) :
    Guarded r tensor placed sents { s with
      workers := Function.update s.workers flow w, connections := Function.update s.connections flow c } := by
  refine ⟨reading_update h.worker flow hw, ?_, h.kept, h.written, h.untouched⟩
  rw [copiedStripes_update flow c hbefore hafter]
  exact h.taken

theorem Guarded.receive (h : Guarded r tensor placed sents s) (he : Enabled r s (.receive flow count)) :
    Guarded r tensor placed sents (receive r flow count s) := by
  obtain ⟨-, hw, hcount⟩ := he
  have hidle := copies_of_receives (r := r) hw
  by_cases hnil : (s.connections flow).data = []
  · obtain ⟨e, hfailed⟩ := starved_failed flow (s.connections flow).reset hw
    rw [receive_of_nil hnil, hfailed]
    have := h.update flow (w := .failed e) (c := s.connections flow) hidle rfl trivial
    rwa [Function.update_eq_self] at this
  · obtain ⟨-, hwanted, hdata⟩ := hcount.resolve_left hnil
    rw [receive_of_ne_nil hnil]
    exact h.update flow hidle (copies_received r flow _ hidle) ((h.worker flow).received hwanted hdata)

theorem Guarded.mark (h : Guarded r tensor placed sents s) (hf : flow < r.flows) {offset : Nat}
    (hw : s.workers flow = .marking id receivedBytes seen offset data) :
    Guarded r tensor placed sents (mark r flow s) := by
  have hworker := h.worker flow
  rw [hw] at hworker
  rw [mark_of_marking hw]
  split
  next hplaced =>
    obtain ⟨frames, f, htook, -, -, hsent⟩ := hworker
    have := h.update flow (c := s.connections flow) (w := .header (some id) receivedBytes seen [])
      (by rw [hw]; rfl) rfl (reading_header htook _ hsent)
    rwa [Function.update_eq_self] at this
  next hfree =>
    have hnew : placed (offset / r.stripeBytes) = false := by
      rw [← Bool.not_eq_true]
      intro hset
      exact hfree (h.kept _ hset)
    refine ⟨?_, ?_, ?_, h.written, h.untouched⟩
    · have := reading_update h.worker flow (w := .copying id receivedBytes seen offset data) (c := s.connections flow)
        hworker
      rwa [Function.update_eq_self] at this
    · refine ((h.taken.cons (a := offset / r.stripeBytes) (fun hset => hfree hset.1)).perm ?_).congr fun k => ?_
      · refine .trans ?_ ((copiedStripes_marked hf hw _).append_left _)
        rw [← List.append_assoc]
        exact (List.perm_append_singleton _ _).symm
      · by_cases hk : k = offset / r.stripeBytes
        · simp [hk, hnew]
        · simp [hk]
    · intro k hk
      have hkept := h.kept k hk
      by_cases heq : k = offset / r.stripeBytes
      · simp [heq]
      · simpa [heq] using hkept

/-- The copy of a stripe reaches no other stripe. -/
theorem write_inStripe {f : Frame} (hf : f.Formed r flow id) {i : Nat} (hi : ¬ InStripe r (f.stripe r) i) :
    (tensor.write f.payload f.header.offset) i = tensor i := by
  rw [hf.inStripe_iff] at hi
  refine Memory.write_of_outside ?_
  omega

theorem Guarded.copy (h : Guarded r tensor placed sents s) (hf : flow < r.flows) {offset : Nat}
    (hw : s.workers flow = .copying id receivedBytes seen offset data) :
    Guarded r tensor placed sents (copy r flow s) := by
  have hworker := h.worker flow
  rw [hw] at hworker
  obtain ⟨frames, f, htook, rfl, rfl, hsent⟩ := hworker
  have hformed : f.Formed r flow id := htook.formed f (by simp)
  rw [copy_of_copying hw]
  have hperm := copiedStripes_copied hf hw (s.store flow f.payload f.header.offset)
    ((flow, f.stripe r) :: s.written)
  refine ⟨?_, ?_, h.kept, ?_, ?_⟩
  · have := reading_update h.worker flow (w := .header (some id) receivedBytes seen []) (c := s.connections flow)
      (reading_header htook _ hsent)
    rwa [Function.update_eq_self] at this
  · refine h.taken.perm ?_
    refine (hperm.append_left _).trans ?_
    rw [← List.append_assoc]
    exact List.perm_append_singleton _ _
  · intro x hx
    rcases List.mem_cons.mp hx with rfl | hx
    · refine ⟨f, htook.brings hsent, rfl, ?_⟩
      intro i hi
      show _ = some ((s.store flow f.payload f.header.offset).view flow (f.header.offset + i))
      rw [Destination.view_store_self, Memory.write_of_lt hi, List.getElem?_eq_getElem hi]
    · obtain ⟨f', hbrings, hstripe, hholds⟩ := h.written x hx
      obtain ⟨id', hformed'⟩ := hbrings.formed
      refine ⟨f', hbrings, hstripe, ?_⟩
      intro i hi
      show _ = some ((s.store flow f.payload f.header.offset).view x.1 (f'.header.offset + i))
      rcases s.view_store flow f.payload f.header.offset x.1 with hview | hview
      swap
      · rw [hview]
        exact hholds i hi
      rw [hview, hholds i hi, write_inStripe hformed]
      intro hin
      -- the stripe was written before, so it is not the one that is being copied
      have hin' : InStripe r (f'.stripe r) (f'.header.offset + i) := (hformed'.inStripe_iff _).mpr (by omega)
      have hsame : x.2 = f.stripe r := hstripe.symm.trans (hin'.div_eq.symm.trans hin.div_eq)
      have hcopied : f.stripe r ∈ copiedStripes r s := hperm.mem_iff.mpr (by simp [Frame.stripe])
      have hwritten : x.2 ∈ writtenStripes s := List.mem_map_of_mem hx
      exact (List.nodup_append.mp h.taken.nodup).2.2 _ hwritten _ hcopied hsame
  · intro i hi
    obtain ⟨hhere, hi⟩ := List.forall_mem_cons.mp hi
    obtain ⟨htensor, hviews⟩ := h.untouched i hi
    refine ⟨?_, ?_⟩
    · show (s.store flow f.payload f.header.offset).tensor i = tensor i
      rcases s.tensor_store flow f.payload f.header.offset with hstore | hstore
      · rw [hstore, write_inStripe hformed hhere, htensor]
      · rw [hstore, htensor]
    · intro f'
      show (s.store flow f.payload f.header.offset).view f' i = tensor i
      rcases s.view_store flow f.payload f.header.offset f' with hview | hview
      · rw [hview, write_inStripe hformed hhere, hviews f']
      · rw [hview, hviews f']

theorem Guarded.next (h : Guarded r tensor placed sents s) {e : Event} (he : Enabled r s e) :
    Guarded r tensor placed sents (next r s e) := by
  cases e with
  | receive flow count => exact h.receive he
  | mark flow =>
      obtain ⟨hf, he⟩ := he
      cases hw : s.workers flow with
      | marking id receivedBytes seen offset data => exact h.mark hf hw
      | _ => simp [hw, Worker.marks] at he
  | copy flow =>
      obtain ⟨hf, he⟩ := he
      cases hw : s.workers flow with
      | copying id receivedBytes seen offset data => exact h.copy hf hw
      | _ => simp [hw, Worker.places] at he

theorem reaches_guarded {mapping : Mapping} {connections : Nat → Connection}
    (h : (machine r).Reaches { State.initial mapping tensor connections with placed := placed } s) :
    Guarded r tensor placed (fun flow => (connections flow).data) s :=
  h.invariant (I := Guarded r tensor placed fun flow => (connections flow).data) (fun _ _ hinv he => hinv.next he)
    (guarded_initial mapping tensor placed connections)

/-! ## Every run ends -/

/-- How many steps a worker can take before it needs more bytes. -/
def Worker.pending : Worker → Nat
  | .header .. => 1
  | .stripe .. => 1
  | .marking .. => 3
  | .copying .. => 2
  | .done .. => 0
  | .failed _ => 0

/-- An upper bound of the steps that are left. -/
def remaining (r : Receiving) (s : State) : Nat :=
  ((List.range r.flows).map fun flow => 3 * (s.connections flow).data.length + (s.workers flow).pending).sum

theorem pending_le (w : Worker) : w.pending ≤ 3 := by
  cases w <;> simp [Worker.pending]

theorem pending_of_receives (h : w.receives) : w.pending = 1 := by
  cases w with
  | header => rfl
  | stripe => rfl
  | _ => simp [Worker.receives] at h

/-- One worker comes nearer to its end, and the others stay. -/
theorem remaining_lt {s' : State} (hf : flow < r.flows)
    (hothers : ∀ f, f ≠ flow → s'.connections f = s.connections f ∧ s'.workers f = s.workers f)
    (hlt : 3 * (s'.connections flow).data.length + (s'.workers flow).pending <
      3 * (s.connections flow).data.length + (s.workers flow).pending) : remaining r s' < remaining r s := by
  refine List.sum_lt_sum _ _ ?_ ⟨flow, List.mem_range.mpr hf, hlt⟩
  intro f _
  by_cases heq : f = flow
  · subst heq
    exact hlt.le
  · obtain ⟨hc, hw⟩ := hothers f heq
    rw [hc, hw]

theorem remaining_next {e : Event} (he : Enabled r s e) : remaining r (next r s e) < remaining r s := by
  cases e with
  | receive flow count =>
      obtain ⟨hf, hw, hcount⟩ := he
      have hone := pending_of_receives hw
      by_cases hnil : (s.connections flow).data = []
      · obtain ⟨e, hfailed⟩ := starved_failed flow (s.connections flow).reset hw
        show remaining r (receive r flow count s) < _
        rw [receive_of_nil hnil, hfailed]
        refine remaining_lt hf (fun f hne => ⟨rfl, by simp [hne]⟩) ?_
        rw [hone]
        simp [Worker.pending]
      · obtain ⟨hpos, -, hdata⟩ := hcount.resolve_left hnil
        show remaining r (receive r flow count s) < _
        rw [receive_of_ne_nil hnil]
        refine remaining_lt hf (fun f hne => ⟨by simp [hne], by simp [hne]⟩) ?_
        have hle := pending_le (received r flow ((s.connections flow).data.take count) (s.workers flow))
        simp only [Function.update_self, List.length_drop, hone]
        omega
  | mark flow =>
      obtain ⟨hf, hmarks⟩ := he
      show remaining r (mark r flow s) < _
      cases hw : s.workers flow with
      | marking id receivedBytes seen offset data =>
          rw [mark_of_marking hw]
          split
          · refine remaining_lt hf (fun f hne => ⟨rfl, by simp [hne]⟩) ?_
            simp [hw, Worker.pending]
          · refine remaining_lt hf (fun f hne => ⟨rfl, by simp [hne]⟩) ?_
            simp [hw, Worker.pending]
      | _ => simp [hw, Worker.marks] at hmarks
  | copy flow =>
      obtain ⟨hf, hplaces⟩ := he
      show remaining r (copy r flow s) < _
      cases hw : s.workers flow with
      | copying id receivedBytes seen offset data =>
          rw [copy_of_copying hw]
          refine remaining_lt hf (fun f hne => ⟨rfl, by simp [hne]⟩) ?_
          simp [hw, Worker.pending]
      | _ => simp [hw, Worker.places] at hplaces

theorem bounded_run (r : Receiving) (s : State) : (machine r).Bounded s :=
  Machine.Bounded.of_lt (remaining r) (fun _ _ he => remaining_next he) s

/-- A worker that waits for bytes asks for some. -/
theorem Reading.wanted_pos (h : Reading r flow sent data w) (hw : w.receives) : 0 < wanted r w := by
  cases w with
  | header id receivedBytes seen got =>
      have hgot : got.length < headerSize := by
        cases id with
        | none => exact h.2.2
        | some id =>
            obtain ⟨frames, -, -, hgot⟩ := h
            exact hgot
      rw [wanted]
      omega
  | stripe id receivedBytes seen offset nbytes staged =>
      obtain ⟨frames, head, -, -, -, -, -, -, hstaged⟩ := h
      have hchunk := r.chunkBytes_pos
      rw [wanted]
      omega
  | _ => simp [Worker.receives] at hw

/-- A worker that has not ended can go on. -/
theorem Guarded.ended_of_final (h : Guarded r tensor placed sents s) (hfinal : ∀ e, ¬ (machine r).Enabled s e)
    (hf : flow < r.flows) :
    (∃ id receivedBytes, s.workers flow = .done id receivedBytes) ∨ ∃ e, s.workers flow = .failed e := by
  have hidle : (s.workers flow).receives = false := by
    rw [← Bool.not_eq_true]
    intro hw
    by_cases hnil : (s.connections flow).data = []
    · exact hfinal (.receive flow 0) ⟨hf, hw, .inl hnil⟩
    · have hlen := List.length_pos_iff.mpr hnil
      exact hfinal (.receive flow 1) ⟨hf, hw, .inr ⟨Nat.one_pos, (h.worker flow).wanted_pos hw, hlen⟩⟩
  cases hw : s.workers flow with
  | header => simp [hw, Worker.receives] at hidle
  | stripe => simp [hw, Worker.receives] at hidle
  | marking => exact absurd ⟨hf, by rw [hw]; rfl⟩ (hfinal (.mark flow))
  | copying => exact absurd ⟨hf, by rw [hw]; rfl⟩ (hfinal (.copy flow))
  | done id receivedBytes => exact .inl ⟨id, receivedBytes, rfl⟩
  | failed e => exact .inr ⟨e, rfl⟩

end Dynamic

end Rdma4py.Transport
