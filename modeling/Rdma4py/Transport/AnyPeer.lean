import Rdma4py.Transport.Lemmas.AnyPeer

/-!
# The process receiver is safe against any peer

The connections carry any bytes and end anywhere; the tensor and `placed` are in any state at the start.
-/

namespace Rdma4py.Transport

open Lib

namespace Dynamic

variable {r : Receiving} {flow : Nat} {sent data : List UInt8} {w : Worker}

/-- The length of `staging`. -/
def stagingSize (r : Receiving) : Nat := min r.stripeBytes r.nbytes

/-- What the worker accesses next lies inside: the part of the header or of `staging` that it hands to `recv_into`, the
element of `placed`, the bytes of the destination and those of `staging` that are copied. -/
def InBounds (r : Receiving) : Worker → Prop
  | .header _ _ _ got => got.length + wanted r (.header none 0 [] got) ≤ headerSize
  | .stripe id n seen offset nbytes staged =>
      staged.length + wanted r (.stripe id n seen offset nbytes staged) ≤ stagingSize r
  | .marking _ _ _ offset _ => offset / r.stripeBytes < stripeCount r
  | .copying _ _ _ offset bytes => offset + bytes.length ≤ r.nbytes ∧ bytes.length ≤ stagingSize r
  | .done .. => True
  | .failed _ => True

theorem Reading.inBounds (h : Reading r flow sent data w) : InBounds r w := by
  cases w with
  | header id receivedBytes seen got =>
      cases id with
      | none =>
          have hgot := h.2.2
          simp only [InBounds, wanted]
          omega
      | some id =>
          obtain ⟨frames, -, -, hgot⟩ := h
          simp only [InBounds, wanted]
          omega
  | stripe id receivedBytes seen offset nbytes staged =>
      obtain ⟨frames, head, -, -, hnames, rfl, rfl, -, hstaged⟩ := h
      have hnbytes := hnames.nbytes
      simp only [InBounds, wanted, stagingSize]
      omega
  | marking id receivedBytes seen offset bytes =>
      obtain ⟨frames, f, htook, rfl, rfl, -⟩ := h
      exact (htook.formed f (by simp)).stripe_lt
  | copying id receivedBytes seen offset bytes =>
      obtain ⟨frames, f, htook, rfl, rfl, -⟩ := h
      have hformed := htook.formed f (by simp)
      have hstop := hformed.stop_eq
      exact ⟨by omega, hformed.length_le⟩
  | done => trivial
  | failed => trivial

/-- In every state of every run: no worker accesses anything out of bounds; no stripe is written twice, none that was
placed before, and nothing outside of those written; a stripe that was written holds, for the worker that wrote it, the
bytes that followed its header (for everyone, where the destination is shared); a worker that returned took well-formed
frames of one transfer and then a terminator. No run goes on forever, and where it ends every worker returned or raised. -/
theorem any_peer (r : Receiving) (mapping : Mapping) (tensor : Memory UInt8) (placed : Nat → Bool)
    (connections : Nat → Connection) {s : State}
    (h : (machine r).Reaches { State.initial mapping tensor connections with placed := placed } s) :
    (∀ flow, InBounds r (s.workers flow)) ∧
    ((writtenStripes s).Nodup ∧ ∀ k ∈ writtenStripes s, placed k = false) ∧
    (∀ i, (∀ k ∈ writtenStripes s, ¬ InStripe r k i) → s.tensor i = tensor i ∧ ∀ flow, s.view flow i = tensor i) ∧
    (∀ flow k, (flow, k) ∈ s.written → ∃ f, Brings r flow (connections flow).data f ∧
      f.header.offset = k * r.stripeBytes ∧
      f.header.offset + f.payload.length = min ((k + 1) * r.stripeBytes) r.nbytes ∧
      ∀ i < f.payload.length, f.payload[i]? = some (s.view flow (k * r.stripeBytes + i))) ∧
    (∀ flow id receivedBytes, s.workers flow = .done id receivedBytes →
      ∃ frames head, (∀ f ∈ frames, f.Formed r flow id) ∧ Terminates r flow id head ∧
        (connections flow).data = stream frames ++ (head ++ (s.connections flow).data) ∧
        receivedBytes = (payloads frames).length) ∧
    (machine r).Bounded s ∧
    ((∀ e, ¬ (machine r).Enabled s e) → ∀ flow < r.flows,
      (∃ id receivedBytes, s.workers flow = .done id receivedBytes) ∨ ∃ e, s.workers flow = .failed e) := by
  have hg := reaches_guarded h
  refine ⟨fun flow => (hg.worker flow).inBounds, ?_, hg.untouched, ?_, ?_, bounded_run r s, ?_⟩
  · obtain ⟨hnodup, -, -⟩ := List.nodup_append.mp hg.taken.nodup
    refine ⟨hnodup, ?_⟩
    intro k hk
    exact ((hg.taken.mem_iff k).mp (List.mem_append_left _ hk)).2
  · intro flow k hk
    obtain ⟨f, hbrings, hstripe, hholds⟩ := hg.written _ hk
    obtain ⟨id, hformed⟩ := hbrings.formed
    have hoffset := hformed.offset_eq
    have hstop := hformed.stop_eq
    rw [hstripe] at hoffset hstop
    refine ⟨f, hbrings, hoffset, hstop, ?_⟩
    intro i hi
    rw [← hoffset]
    exact hholds i hi
  · intro flow id receivedBytes hdone
    have hworker := hg.worker flow
    rw [hdone] at hworker
    obtain ⟨frames, head, htook, hterminates, hsent⟩ := hworker
    exact ⟨frames, head, htook.formed, hterminates, hsent, htook.count⟩
  · intro hfinal flow hf
    exact hg.ended_of_final hfinal hf

/-- A receiver for one byte. -/
def oneByte : Receiving := ⟨1, 1, 1, 1, 1, Nat.one_pos, Nat.one_pos, Nat.one_pos⟩

/-- The byte 9 behind its header. -/
def nine : List UInt8 := Header.pack ⟨magic, List.replicate 16 0, 0, 1, 0, 1⟩ ++ [9]

/-- The terminator of that transfer. -/
def farewell : List UInt8 := Header.pack ⟨done, List.replicate 16 0, 0, 1, 0, 0⟩

/-- A connection with these bytes, which the peer closes. -/
def sends (bytes : List UInt8) (_ : Nat) : Connection := ⟨bytes, false⟩

theorem any_peer_nine :
    ∃ frames head, (∀ f ∈ frames, f.Formed oneByte 0 (List.replicate 16 0)) ∧
      Terminates oneByte 0 (List.replicate 16 0) head ∧ nine ++ farewell = stream frames ++ (head ++ []) := by
  have hplays : (machine oneByte).Plays { State.initial .shared (fun _ => 0) (sends (nine ++ farewell)) with
      placed := fun _ => false } [.receive 0 50, .receive 0 2, .receive 0 1, .mark 0, .copy 0, .receive 0 52] := by
    decide
  obtain ⟨-, -, -, -, hdone, -, -⟩ :=
    any_peer oneByte .shared (fun _ => 0) (fun _ => false) (sends (nine ++ farewell)) hplays.reaches
  obtain ⟨frames, head, hframes, hhead, hsent, -⟩ := hdone 0 (List.replicate 16 0) 1 (by decide)
  exact ⟨frames, head, hframes, hhead, hsent⟩

/-- What follows the terminator is not read: with one more byte the worker returns as well. -/
theorem byte_after_terminator :
    ∃ s, (machine oneByte).Reaches { State.initial .shared (fun _ => 0) (sends (farewell ++ [7])) with
        placed := fun _ => false } s ∧
      s.workers 0 = .done (List.replicate 16 0) 0 ∧
      ¬ ∃ frames head id, (∀ f ∈ frames, f.Formed oneByte 0 id) ∧ Terminates oneByte 0 id head ∧
        farewell ++ [7] = stream frames ++ head := by
  have hplays : (machine oneByte).Plays { State.initial .shared (fun _ => 0) (sends (farewell ++ [7])) with
      placed := fun _ => false } [.receive 0 52] := by
    decide
  refine ⟨_, hplays.reaches, by decide, ?_⟩
  rintro ⟨frames, head, id, hframes, hhead, hsent⟩
  have hlength := congrArg List.length hsent
  have hsize := hhead.addressed.size
  have hfarewell : farewell.length = headerSize := by decide
  cases frames with
  | nil =>
      simp only [stream, List.flatMap_nil, List.nil_append, List.length_append, List.length_singleton] at hlength
      omega
  | cons f frames =>
      have hframe := (hframes f List.mem_cons_self).addressed.size
      have hheader : headerSize = 52 := rfl
      simp only [stream, List.flatMap_cons, Frame.bytes, List.length_append, List.length_singleton] at hlength
      omega

end Dynamic

end Rdma4py.Transport
