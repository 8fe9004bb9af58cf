import Rdma4py.NvmeQueue.Effects

/-!
# The meaning of completions: the lemmas

Every completion has one effect. An effect is none at all, or it shows for good: receives and free command IDs only become
more, and a send completion is never taken back.
-/

namespace Rdma4py.NvmeQueue

open Rdma4py.Lib

variable {depth : Nat} {responses : HostBuffer} {t u v : Tables} {x : Handed} {xs : List Handed} {r : RequestId}
  {raised raised' : Bool}

/-! ## One effect -/

theorem Tables.Settles.unique {request : Request} (h : t.Settles r request u) (h' : t.Settles r request v) : u = v := by
  cases h with
  | waits missing =>
      cases h' with
      | waits => rfl
      | done both => exact absurd both missing
  | done both =>
      cases h' with
      | waits missing => exact absurd both missing
      | done => rfl

theorem Tables.exists_settles (t : Tables) (r : RequestId) (request : Request) : ∃ u, t.Settles r request u := by
  by_cases h : request.sendComplete = true ∧ request.response.isSome
  · exact ⟨_, .done h⟩
  · exact ⟨_, .waits h⟩

theorem Arrived.unique {slot slot' : Nat} {c c' : Completion} (h : Arrived depth responses x slot c)
    (h' : Arrived depth responses x slot' c') : slot = slot' ∧ c = c' := by
  obtain rfl : slot = slot' := h.index.symm.trans h'.index
  exact ⟨rfl, h.data.symm.trans h'.data⟩

theorem Accepted.unique (h : Accepted depth responses t x u) (h' : Accepted depth responses t x v) : u = v := by
  cases h with
  | sent ok tagged pending settles =>
      cases h' with
      | sent _ _ pending' settles' =>
          obtain rfl := Option.some.inj (pending.symm.trans pending')
          exact settles.unique settles'
      | answered arrived => exact absurd arrived.tagged.1 tagged
  | answered arrived pending settles =>
      cases h' with
      | sent _ tagged => exact absurd arrived.tagged.1 tagged
      | answered arrived' pending' settles' =>
          obtain ⟨rfl, rfl⟩ := arrived.unique arrived'
          obtain rfl := Option.some.inj (pending.symm.trans pending')
          exact settles.unique settles'

theorem Accepted.not_rejected (h : Accepted depth responses t x u) : ¬ Rejected depth responses t x v := by
  intro h'
  cases h with
  | sent ok tagged pending =>
      cases h' with
      | failed failure => exact failure ok
      | unknownSend _ _ unknown => exact absurd (unknown.symm.trans pending) (by simp)
      | untagged _ tagged' => exact tagged tagged'.1
      | invalid _ tagged' => exact tagged tagged'.1
      | unknownResponse arrived => exact tagged arrived.tagged.1
  | answered arrived pending =>
      cases h' with
      | failed failure => exact failure arrived.ok
      | unknownSend _ tagged => exact tagged arrived.tagged.1
      | untagged _ tagged => exact arrived.tagged.2 tagged.2
      | invalid _ _ invalid =>
          have hindex := arrived.index
          have hwhole := arrived.whole
          have hlt := arrived.lt
          have hinside := arrived.inside
          omega
      | unknownResponse arrived' unknown =>
          obtain ⟨rfl, rfl⟩ := arrived.unique arrived'
          exact absurd (unknown.symm.trans pending) (by simp)

/-- A rejected completion reposts a receive or does nothing. -/
theorem Rejected.cases (h : Rejected depth responses t x u) :
    ((∀ slot c, ¬ Arrived depth responses x slot c) ∧ u = t) ∨
      ∃ slot c, Arrived depth responses x slot c ∧ u = t.repost slot := by
  cases h with
  | failed failure => exact .inl ⟨fun _ _ arrived => failure arrived.ok, rfl⟩
  | unknownSend _ tagged => exact .inl ⟨fun _ _ arrived => tagged arrived.tagged.1, rfl⟩
  | untagged _ tagged => exact .inl ⟨fun _ _ arrived => arrived.tagged.2 tagged.2, rfl⟩
  | invalid _ _ invalid =>
      refine .inl ⟨fun _ _ arrived => ?_, rfl⟩
      have hindex := arrived.index
      have hwhole := arrived.whole
      have hlt := arrived.lt
      have hinside := arrived.inside
      omega
  | unknownResponse arrived => exact .inr ⟨_, _, arrived, rfl⟩

theorem Rejected.unique (h : Rejected depth responses t x u) (h' : Rejected depth responses t x v) : u = v := by
  rcases h.cases with ⟨hnone, rfl⟩ | ⟨slot, c, harrived, rfl⟩
  · rcases h'.cases with ⟨-, rfl⟩ | ⟨slot, c, harrived, -⟩
    · rfl
    · exact absurd harrived (hnone slot c)
  · rcases h'.cases with ⟨hnone, -⟩ | ⟨slot', c', harrived', rfl⟩
    · exact absurd harrived (hnone slot c)
    · rw [(harrived.unique harrived').1]

theorem Effect.unique (h : Effect depth responses t x u) (h' : Effect depth responses t x v) : u = v := by
  rcases h with h | h
  · exact h.unique (h'.resolve_right h.not_rejected)
  · exact h.unique (h'.resolve_left fun ha => ha.not_rejected h)

theorem exists_effect (depth : Nat) (responses : HostBuffer) (t : Tables) (x : Handed) :
    ∃ u, Effect depth responses t x u := by
  by_cases hok : x.failure = none
  swap
  · exact ⟨t, .inr (.failed hok)⟩
  by_cases hsend : x.wrId &&& sendTag = 0
  swap
  · cases hl : t.pending.lookup (x.wrId &&& indexMask) with
    | none => exact ⟨t, .inr (.unknownSend hok hsend hl)⟩
    | some r =>
        obtain ⟨u, hu⟩ := t.exists_settles r { t.requests r with sendComplete := true }
        exact ⟨u, .inl (.sent hok hsend hl hu)⟩
  by_cases hrecv : x.wrId &&& recvTag = 0
  · exact ⟨t, .inr (.untagged hok ⟨hsend, hrecv⟩)⟩
  by_cases hvalid : x.byteLen < 16 ∨ depth ≤ x.wrId &&& indexMask ∨
      responses.length < (x.wrId &&& indexMask) * 16 + 16
  · exact ⟨t, .inr (.invalid hok ⟨hsend, hrecv⟩ hvalid)⟩
  have harrived : Arrived depth responses x (x.wrId &&& indexMask)
      (Completion.unpack (responses.mem.read 16 ((x.wrId &&& indexMask) * 16))) :=
    ⟨hok, ⟨hsend, hrecv⟩, rfl, by omega, by omega, by omega, rfl⟩
  cases hl : t.pending.lookup (Completion.unpack (responses.mem.read 16 ((x.wrId &&& indexMask) * 16))).commandId with
  | none => exact ⟨_, .inr (.unknownResponse harrived hl)⟩
  | some r =>
      obtain ⟨u, hu⟩ := (t.repost (x.wrId &&& indexMask)).exists_settles r { t.requests r with
        response := some (Completion.unpack (responses.mem.read 16 ((x.wrId &&& indexMask) * 16))) }
      exact ⟨u, .inl (.answered harrived hl hu)⟩

/-! ## Lists -/

theorem exists_effects (depth : Nat) (responses : HostBuffer) (t : Tables) (xs : List Handed) :
    ∃ u, Effects depth responses t xs u := by
  induction xs generalizing t with
  | nil => exact ⟨t, .nil⟩
  | cons x xs ih =>
      obtain ⟨u, hu⟩ := exists_effect depth responses t x
      obtain ⟨v, hv⟩ := ih u
      exact ⟨v, .cons hu hv⟩

theorem Taken.unique (h : Taken depth responses t xs raised u) (h' : Taken depth responses t xs raised' v) :
    raised = raised' ∧ u = v := by
  induction h with
  | nil =>
      cases h'
      exact ⟨rfl, rfl⟩
  | accepted head tail ih =>
      cases h' with
      | accepted head' tail' =>
          obtain rfl := head.unique head'
          exact ih tail'
      | rejected head' => exact absurd head' head.not_rejected
  | rejected head =>
      cases h' with
      | accepted head' tail' => exact absurd head head'.not_rejected
      | rejected head' => exact ⟨rfl, head.unique head'⟩

/-! ## Pending commands -/

/-- A pending command is pending under its own ID and is not done. -/
def Tables.Waiting (t : Tables) : Prop :=
  ∀ cid r, t.pending.lookup cid = some r → (t.requests r).commandId = cid ∧ (t.requests r).done = false

theorem Tables.Settles.waiting {request : Request} {cid : Nat} (h : t.Settles r request u) (ht : t.Waiting)
    (hi : request.commandId = (t.requests r).commandId) (hd : request.done = (t.requests r).done)
    (hr : t.pending.lookup cid = some r) : u.Waiting := by
  cases h with
  | waits =>
      intro cid' r' hl
      obtain ⟨hid, hopen⟩ := ht cid' r' hl
      by_cases heq : r' = r
      · subst heq
        simp only [Function.update_self, hi, hd]
        exact ⟨hid, hopen⟩
      · simp only [Function.update_of_ne heq]
        exact ⟨hid, hopen⟩
  | done =>
      intro cid' r' hl
      have hne : cid' ≠ request.commandId := by
        rintro rfl
        rw [AList.lookup_erase] at hl
        cases hl
      rw [AList.lookup_erase_ne hne] at hl
      obtain ⟨hid, hopen⟩ := ht cid' r' hl
      have heq : r' ≠ r := by
        rintro rfl
        exact hne (by rw [hi, hid])
      simp only [Function.update_of_ne heq]
      exact ⟨hid, hopen⟩

theorem Accepted.waiting (h : Accepted depth responses t x u) (ht : t.Waiting) : u.Waiting := by
  cases h with
  | sent ok tagged pending settles => exact settles.waiting ht rfl rfl pending
  | @answered slot c r u arrived pending settles =>
      have ht' : (t.repost slot).Waiting := ht
      exact settles.waiting ht' rfl rfl pending

theorem Rejected.waiting (h : Rejected depth responses t x u) (ht : t.Waiting) : u.Waiting := by
  rcases h.cases with ⟨-, rfl⟩ | ⟨slot, _, -, rfl⟩
  · exact ht
  · exact ht

theorem Taken.waiting (h : Taken depth responses t xs raised u) (ht : t.Waiting) : u.Waiting := by
  induction h with
  | nil => exact ht
  | accepted head _ ih => exact ih (head.waiting ht)
  | rejected head => exact head.waiting ht

/-! ## Changes that last -/

/-- What never shrinks. -/
structure Grew (t u : Tables) : Prop where
  recvs : t.recvs.length ≤ u.recvs.length
  free : t.free.length ≤ u.free.length
  sent : ∀ r, (t.requests r).sendComplete = true → (u.requests r).sendComplete = true

theorem Grew.refl (t : Tables) : Grew t t := ⟨Nat.le_refl _, Nat.le_refl _, fun _ h => h⟩

theorem Grew.trans (h : Grew t u) (h' : Grew u v) : Grew t v :=
  ⟨h.recvs.trans h'.recvs, h.free.trans h'.free, fun r hr => h'.sent r (h.sent r hr)⟩

/-- Something did grow. -/
def Changed (t u : Tables) : Prop :=
  t.recvs.length < u.recvs.length ∨ t.free.length < u.free.length ∨
    ∃ r, (t.requests r).sendComplete = false ∧ (u.requests r).sendComplete = true

theorem Changed.trans (h : Changed t u) (h' : Grew u v) : Changed t v := by
  rcases h with h | h | ⟨r, hr, hr'⟩
  · exact .inl (Nat.lt_of_lt_of_le h h'.recvs)
  · exact .inr (.inl (Nat.lt_of_lt_of_le h h'.free))
  · exact .inr (.inr ⟨r, hr, h'.sent r hr'⟩)

theorem Changed.ne (h : Changed t u) : u ≠ t := by
  rintro rfl
  rcases h with h | h | ⟨r, hr, hr'⟩
  · exact Nat.lt_irrefl _ h
  · exact Nat.lt_irrefl _ h
  · rw [hr'] at hr
    cases hr

theorem Tables.Settles.grew {request : Request} (h : t.Settles r request u)
    (hs : (t.requests r).sendComplete = true → request.sendComplete = true) : Grew t u := by
  have hsent : ∀ request' : Request, request'.sendComplete = request.sendComplete → ∀ r',
      (t.requests r').sendComplete = true → (Function.update t.requests r request' r').sendComplete = true := by
    intro request' heq r' hr'
    by_cases hr : r' = r
    · subst hr
      rw [Function.update_self, heq]
      exact hs hr'
    · rw [Function.update_of_ne hr]
      exact hr'
  cases h with
  | waits => exact ⟨Nat.le_refl _, Nat.le_refl _, hsent _ rfl⟩
  | done => exact ⟨Nat.le_refl _, by simp, hsent { request with done := true } rfl⟩

/-- An effect is none, or it lasts. -/
theorem Effect.grew (h : Effect depth responses t x u) : Grew t u ∧ (u = t ∨ Changed t u) := by
  have hrepost : ∀ slot, Grew t (t.repost slot) ∧ Changed t (t.repost slot) := fun slot =>
    ⟨⟨by simp [Tables.repost], Nat.le_refl _, fun _ h => h⟩, .inl (by simp [Tables.repost])⟩
  rcases h with h | h
  · cases h with
    | @sent r u ok tagged pending settles =>
        refine ⟨settles.grew fun _ => rfl, ?_⟩
        cases settles with
        | waits missing =>
            cases hs : (t.requests r).sendComplete with
            | true =>
                have hself : { t.requests r with sendComplete := true } = t.requests r := by rw [← hs]
                exact .inl (by rw [hself, Function.update_eq_self])
            | false => exact .inr (.inr (.inr ⟨r, hs, by simp⟩))
        | done both => exact .inr (.inr (.inl (by simp)))
    | answered arrived pending settles =>
        obtain ⟨hgrew, hchanged⟩ := hrepost _
        have hsettles := settles.grew fun h => h
        exact ⟨hgrew.trans hsettles, .inr (hchanged.trans hsettles)⟩
  · rcases h.cases with ⟨-, rfl⟩ | ⟨slot, _, -, rfl⟩
    · exact ⟨.refl _, .inl rfl⟩
    · exact ⟨(hrepost slot).1, .inr (hrepost slot).2⟩

theorem Effects.grew (h : Effects depth responses t xs u) : Grew t u := by
  induction h with
  | nil => exact .refl _
  | cons head _ ih => exact head.grew.1.trans ih

/-- A list changes nothing exactly when none of its completions has an effect. -/
theorem Effects.same_iff (h : Effects depth responses t xs u) : u = t ↔ ∀ x ∈ xs, Effect depth responses t x t := by
  induction h with
  | nil => exact iff_of_true rfl (by simp)
  | @cons t u v x xs head tail ih =>
      rcases head.grew.2 with rfl | hchanged
      · rw [ih]
        simp [head]
      · refine iff_of_false (hchanged.trans tail.grew).ne fun hall => ?_
        exact hchanged.ne (head.unique (hall x List.mem_cons_self))

/-- The tables at the first completion that is rejected are those after all of them exactly when nothing is behind it. -/
theorem Taken.same_iff (h : Taken depth responses t xs true u) (h' : Effects depth responses t xs v) :
    u = v ↔ NothingBehind depth responses t xs := by
  generalize hb : true = b at h
  induction h with
  | nil => cases hb
  | accepted head tail ih =>
      cases h' with
      | cons head' tail' =>
          obtain rfl := Effect.unique (.inl head) head'
          rw [ih tail' hb]
          constructor
          · exact .accepted head
          · intro hn
            cases hn with
            | accepted head'' tail'' => rwa [head.unique head'']
            | rejected head'' => exact absurd head'' head.not_rejected
  | rejected head =>
      cases h' with
      | cons head' tail' =>
          obtain rfl := Effect.unique (.inr head) head'
          rw [eq_comm, tail'.same_iff]
          constructor
          · exact .rejected head
          · intro hn
            cases hn with
            | accepted head'' => exact absurd head head''.not_rejected
            | rejected head'' idle => rwa [head.unique head'']

end Rdma4py.NvmeQueue
