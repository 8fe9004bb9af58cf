import Rdma4py.Transport.Lemmas.DynamicReceiver
import Rdma4py.Transport.StaticTransfer

/-!
# A thread sender and a process receiver

A thread sender sends one header, then nothing but the tensor. A process receiver takes the bytes behind the first range
for another header.
-/

namespace Rdma4py.Transport

open Lib

variable {t : Sending} {r : Receiving}

/-- The identifier is drawn when the source is there. Where a process receiver looks for the identifier of its second
header, the source does not hold it. -/
def Sending.Unforeseen (t : Sending) : Prop :=
  ∀ flow < t.flows, slice (List.replicate t.iterations (t.payload flow)).flatten (t.length flow + 8) 16 ≠ t.id.bytes

instance (t : Sending) : Decidable t.Unforeseen := inferInstanceAs (Decidable (∀ _ < _, _))

namespace Dynamic

variable {s : State} {data rest : List UInt8} {flow count : Nat} {w : Worker} {c : FlowOf fun _ : Unit => t}

/-- How far a process receiver comes with a connection of a thread sender: `rest` is what is still to arrive. -/
def StaticInv (c : FlowOf fun _ : Unit => t) (rest : List UInt8) : Worker → Prop
  | .header none _ _ got => got ++ rest = c.connection.data ∧ got.length < headerSize
  | .header (some id) _ _ got => id = t.id.bytes ∧ got ++ rest = c.connection.data.drop (headerSize + t.length c.flow) ∧
      got.length < headerSize
  | .stripe id _ _ _ nbytes staged => id = t.id.bytes ∧ nbytes = t.length c.flow ∧
      staged ++ rest = c.connection.data.drop headerSize ∧ staged.length < nbytes
  | .marking id _ _ _ _ => id = t.id.bytes ∧ rest = c.connection.data.drop (headerSize + t.length c.flow)
  | .copying id _ _ _ _ => id = t.id.bytes ∧ rest = c.connection.data.drop (headerSize + t.length c.flow)
  | .done _ _ => False
  | .failed _ => True

/-- The bytes behind the first range are no header of the transfer. -/
theorem transferId_second (hid : t.Unforeseen)
    (hl : headerSize ≤ (c.connection.data.drop (headerSize + t.length c.flow)).length) :
    (Header.unpack ((c.connection.data.drop (headerSize + t.length c.flow)).take headerSize)).transferId ≠
      t.id.bytes := by
  have hdata : c.connection.data = (t.staticFlow c.flow).take c.delivered := rfl
  rw [List.length_drop, hdata, List.length_take] at hl
  have hsize : headerSize = 52 := rfl
  have hsome : t.staticFlow c.flow ≠ [] := fun hnil => by
    rw [hnil, List.length_nil] at hl
    omega
  have hslice : (Header.unpack ((c.connection.data.drop (headerSize + t.length c.flow)).take headerSize)).transferId =
      slice (List.replicate t.iterations (t.payload c.flow)).flatten (t.length c.flow + 8) 16 := by
    simp only [Header.unpack]
    rw [slice_take (by omega), slice_drop, hdata, slice_take (by omega), ← Sending.drop_staticFlow hsome, slice_drop,
      Nat.add_assoc]
  rw [hslice]
  exact hid c.flow c.flow_lt

/-- The first header is that of the flow; it announces the range, if the receiver takes it. -/
theorem staticInv_checkHeader (r : Receiving) (flow receivedBytes : Nat) (seen : List Nat)
    (hl : headerSize ≤ c.connection.data.length) : StaticInv c (c.connection.data.drop headerSize)
      (checkHeader r flow none receivedBytes seen (.unpack (c.connection.data.take headerSize))) := by
  have hdata : c.connection.data = (t.staticFlow c.flow).take c.delivered := rfl
  have hsize : headerSize = 52 := rfl
  have hsome : t.staticFlow c.flow ≠ [] := fun hnil => by
    simp only [hdata, hnil, List.take_nil, List.length_nil] at hl
    omega
  have hk : headerSize ≤ c.delivered := by
    rw [hdata, List.length_take] at hl
    omega
  have hheader : Header.unpack (c.connection.data.take headerSize) = t.staticHeader c.flow :=
    Sending.unpack_staticFlow hsome hk
  rw [hheader]
  rcases checkHeader_cases r flow none receivedBytes seen (t.staticHeader c.flow) with
    ⟨e, he⟩ | ⟨hd, -, -⟩ | ⟨hn, -, he⟩
  · rw [he]
    trivial
  · exact absurd hd (show magic ≠ done by decide)
  · rw [he]
    have hpos : 0 < (t.staticHeader c.flow).nbytes := by
      have := r.stripeBytes_pos
      have := hn.inside
      rw [hn.nbytes]
      omega
    exact ⟨rfl, rfl, rfl, hpos⟩

theorem staticInv_checkHeader_second (hid : t.Unforeseen) (r : Receiving) (flow receivedBytes : Nat) (seen : List Nat)
    (hl : headerSize ≤ (c.connection.data.drop (headerSize + t.length c.flow)).length) :
    StaticInv c rest (checkHeader r flow (some t.id.bytes) receivedBytes seen
      (.unpack ((c.connection.data.drop (headerSize + t.length c.flow)).take headerSize))) := by
  have hne := transferId_second hid hl
  generalize Header.unpack ((c.connection.data.drop (headerSize + t.length c.flow)).take headerSize) = h at hne ⊢
  have hother : ¬ Matches r flow (some t.id.bytes) h := fun hm => by
    have := hm.transfer
    simp only [reduceCtorEq, Option.some.injEq, false_or] at this
    exact hne this.symm
  rcases checkHeader_cases r flow (some t.id.bytes) receivedBytes seen h with ⟨e, he⟩ | ⟨-, hm, -⟩ | ⟨-, hm, -⟩
  · rw [he]
    trivial
  · exact absurd hm hother
  · exact absurd hm hother

theorem StaticInv.received (hid : t.Unforeseen) (h : StaticInv c rest w) (hw : count ≤ wanted r w)
    (hd : count ≤ rest.length) : StaticInv c (rest.drop count) (received r flow (rest.take count) w) := by
  have hlen : (rest.take count).length = count := List.length_take_of_le hd
  have hsize : headerSize = 52 := rfl
  cases w with
  | header id receivedBytes seen got =>
      simp only [wanted] at hw
      simp only [Dynamic.received, List.length_append, hlen]
      have hsplit : got ++ rest.take count ++ rest.drop count = got ++ rest := by
        rw [List.append_assoc, List.take_append_drop]
      split
      next hlt =>
        cases id with
        | none => exact ⟨by rw [hsplit]; exact h.1, by simpa [hlen] using hlt⟩
        | some id => exact ⟨h.1, by rw [hsplit]; exact h.2.1, by simpa [hlen] using hlt⟩
      next hge =>
        have hgot : got.length < headerSize := by
          cases id with
          | none => exact h.2
          | some id => exact h.2.2
        have hfull : got.length + count = headerSize := by omega
        have htake : (got ++ rest).take headerSize = got ++ rest.take count := by
          rw [← hfull, List.take_length_add_append]
        have hdrop : (got ++ rest).drop headerSize = rest.drop count := by
          rw [← hfull, List.drop_length_add_append]
        have hlong : headerSize ≤ (got ++ rest).length := by
          rw [List.length_append]
          omega
        rw [← htake, ← hdrop]
        cases id with
        | none =>
            rw [h.1] at hlong ⊢
            exact staticInv_checkHeader r flow receivedBytes seen hlong
        | some id =>
            obtain ⟨rfl, hrest, -⟩ := h
            rw [hrest] at hlong ⊢
            exact staticInv_checkHeader_second hid r flow receivedBytes seen hlong
  | stripe id receivedBytes seen offset nbytes staged =>
      obtain ⟨hid', hbytes, hrest, hstaged⟩ := h
      simp only [wanted] at hw
      have hsplit : staged ++ rest.take count ++ rest.drop count = c.connection.data.drop headerSize := by
        rw [List.append_assoc, List.take_append_drop, hrest]
      simp only [Dynamic.received, List.length_append, hlen]
      split
      next hlt => exact ⟨hid', hbytes, hsplit, by simpa [hlen] using hlt⟩
      next hge =>
        have hfull : (staged ++ rest.take count).length = t.length c.flow := by
          rw [List.length_append, hlen]
          omega
        have hdrop : rest.drop count = c.connection.data.drop (headerSize + t.length c.flow) := by
          rw [← List.drop_drop, ← hsplit, ← hfull, List.drop_left]
        split
        · exact ⟨hid', hdrop, headerSize_pos⟩
        · exact ⟨hid', hdrop⟩
  | marking id receivedBytes seen offset bytes =>
      have hz : count = 0 := by simpa [wanted] using hw
      subst hz
      exact h
  | copying id receivedBytes seen offset bytes =>
      have hz : count = 0 := by simpa [wanted] using hw
      subst hz
      exact h
  | done id receivedBytes => exact h.elim
  | failed e => trivial

/-- The invariant of all workers. -/
def StaticInvs (flows : Nat → FlowOf fun _ : Unit => t) (s : State) : Prop :=
  ∀ flow, StaticInv (flows flow) (s.connections flow).data (s.workers flow)

theorem StaticInvs.update {flows : Nat → FlowOf fun _ : Unit => t} (h : StaticInvs flows s) {c : Connection}
    (hw : StaticInv (flows flow) c.data w) : ∀ f, StaticInv (flows f) (Function.update s.connections flow c f).data
      (Function.update s.workers flow w f) := by
  intro f
  by_cases hf : f = flow
  · subst hf
    simpa using hw
  · simpa [hf] using h f

theorem StaticInvs.next (hid : t.Unforeseen) {flows : Nat → FlowOf fun _ : Unit => t} (h : StaticInvs flows s)
    {e : Event} (he : Enabled r s e) : StaticInvs flows (next r s e) := by
  -- a step that leaves the connection alone
  have hkeep : ∀ {flow : Nat} {w : Worker}, StaticInv (flows flow) (s.connections flow).data w →
      ∀ f, StaticInv (flows f) (s.connections f).data (Function.update s.workers flow w f) := fun hw => by
    have := h.update hw
    rwa [Function.update_eq_self] at this
  cases e with
  | receive flow count =>
      obtain ⟨-, hw, hcount⟩ := he
      simp only [Dynamic.next]
      by_cases hnil : (s.connections flow).data = []
      · obtain ⟨e, hfailed⟩ := starved_failed flow (s.connections flow).reset hw
        rw [receive_of_nil hnil, hfailed]
        exact hkeep (w := .failed e) trivial
      · obtain ⟨-, hwanted, hdata⟩ := hcount.resolve_left hnil
        rw [receive_of_ne_nil hnil]
        exact h.update (c := { s.connections flow with data := (s.connections flow).data.drop count })
          ((h flow).received hid hwanted hdata)
  | mark flow =>
      obtain ⟨-, hmarks⟩ := he
      cases hw : s.workers flow with
      | marking id receivedBytes seen offset data =>
          have hworker := h flow
          rw [hw] at hworker
          simp only [Dynamic.next, mark_of_marking hw]
          split
          · exact hkeep (w := .header (some id) receivedBytes seen []) ⟨hworker.1, hworker.2, headerSize_pos⟩
          · exact hkeep (w := .copying id receivedBytes seen offset data) hworker
      | _ => simp [hw, Worker.marks] at hmarks
  | copy flow =>
      obtain ⟨-, hplaces⟩ := he
      cases hw : s.workers flow with
      | copying id receivedBytes seen offset data =>
          have hworker := h flow
          rw [hw] at hworker
          simp only [Dynamic.next, copy_of_copying hw]
          exact hkeep (w := .header (some id) receivedBytes seen []) ⟨hworker.1, hworker.2, headerSize_pos⟩
      | _ => simp [hw, Worker.places] at hplaces

theorem static_not_done (hid : t.Unforeseen) {flows : Nat → FlowOf fun _ : Unit => t} {mapping : Mapping}
    {tensor : Memory UInt8} (h : (machine r).Reaches (.initial mapping tensor fun flow => (flows flow).connection) s)
    (flow : Nat) (id : List UInt8) (receivedBytes : Nat) : s.workers flow ≠ .done id receivedBytes := by
  have hinv : StaticInvs flows s := h.invariant (I := StaticInvs flows)
    (fun _ _ hinv he => StaticInvs.next hid hinv he) fun flow => ⟨rfl, headerSize_pos⟩
  intro hdone
  have := hinv flow
  rw [hdone] at this
  exact this

end Dynamic

end Rdma4py.Transport
