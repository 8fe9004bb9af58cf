import Mathlib.Logic.Relation
import Rdma4py.ReadScheduler.Lemmas.Accounts

/-!
# The first loop of `_refill`

A staging that does not raise is a sequence of turns, each of which stages one chunk or learns that there is none
left. `StagingOk` is what the turns keep. With room among the identifiers, they also keep the staged ones apart.
-/

namespace Rdma4py.ReadScheduler

open Rdma4py.Lib

variable {env : RefillEnv} {s s' : Scheduler} {st st' : Staging}

/-- Staging advances the generator, the exhausted flag and the counter, and nothing else. -/
def Scheduler.Advances (s s' : Scheduler) : Prop :=
  ∃ iter exhausted next, s' = { s with chunkIter := iter, inputExhausted := exhausted, nextWrId := next }

theorem Scheduler.Advances.refl (s : Scheduler) : s.Advances s := ⟨_, _, _, rfl⟩

theorem Scheduler.Advances.trans {s'' : Scheduler} (h : s.Advances s') (h' : s'.Advances s'') : s.Advances s'' := by
  obtain ⟨_, _, _, rfl⟩ := h
  obtain ⟨_, _, _, rfl⟩ := h'
  exact ⟨_, _, _, rfl⟩

/-! ## One turn -/

/-- One more staged chunk. -/
def Staging.add (st : Staging) (q : Nat) (chunk : ReadChunk) (rest : List ReadChunk) (wrId next : Nat) : Staging where
  scheduler := { st.scheduler with chunkIter := some rest, nextWrId := next }
  posts := Function.update st.posts q (st.posts q ++ [⟨wrId, chunk, chunk.sendWR wrId⟩])
  built := st.built + 1

section

variable (st : Staging) (q : Nat) (chunk : ReadChunk) (rest : List ReadChunk) (wrId next : Nat)

@[simp] theorem Staging.add_remaining : (st.add q chunk rest wrId next).scheduler.remaining = rest := rfl

@[simp] theorem Staging.add_posts_self :
    (st.add q chunk rest wrId next).posts q = st.posts q ++ [⟨wrId, chunk, chunk.sendWR wrId⟩] :=
  Function.update_self ..

theorem Staging.add_posts_of_ne {q' : Nat} (h : q' ≠ q) : (st.add q chunk rest wrId next).posts q' = st.posts q' :=
  Function.update_of_ne h ..

end

/-- All that a turn can do. -/
theorem stageOne_cases (env : RefillEnv) (q : Nat) (st : Staging) :
    (stageOne env q st = .full ∧
      st.scheduler.config.queueDepth ≤ st.scheduler.outstanding q + (st.posts q).length) ∨
    (∃ st' e, stageOne env q st = .raised st' e ∧ st.scheduler.Advances st'.scheduler) ∨
    (st.scheduler.remaining = [] ∧
      stageOne env q st = .exhausted { st with scheduler := { st.scheduler with inputExhausted := true } }) ∨
    (∃ chunk rest wrId next,
      st.scheduler.outstanding q + (st.posts q).length < st.scheduler.config.queueDepth ∧
      st.scheduler.remaining = chunk :: rest ∧
      CyclicIds.scan maxWrId (fun x => x ∈ st.scheduler.pending) maxWrId st.scheduler.nextWrId = (some wrId, next) ∧
      stageOne env q st = .staged (st.add q chunk rest wrId next)) := by
  unfold stageOne
  split
  · next hfull => exact Or.inl ⟨rfl, hfull⟩
  · next hfree =>
      rw [Scheduler.remaining]
      cases hiter : st.scheduler.chunkIter with
      | none => exact Or.inr (Or.inl ⟨_, _, rfl, .refl _⟩)
      | some chunks =>
          cases chunks with
          | nil => exact Or.inr (Or.inr (Or.inl ⟨rfl, rfl⟩))
          | cons chunk rest =>
              simp only [allocateWrId]
              rcases hscan : CyclicIds.scan maxWrId (fun x => x ∈ st.scheduler.pending) maxWrId
                st.scheduler.nextWrId with ⟨_ | wrId, next⟩
              · exact Or.inr (Or.inl ⟨_, _, rfl, _, _, _, rfl⟩)
              · cases hbuild : env.build st.built with
                | some e => exact Or.inr (Or.inl ⟨_, _, rfl, _, _, _, rfl⟩)
                | none => exact Or.inr (Or.inr (Or.inr ⟨chunk, rest, wrId, next, by omega, rfl, rfl, rfl⟩))

/-- A turn of a QP that leads on to another turn. -/
def Turned (env : RefillEnv) (st st' : Staging) : Prop :=
  ∃ q < st.scheduler.config.qpCount, stageOne env q st = .exhausted st' ∨ stageOne env q st = .staged st'

theorem Turned.cases (h : Turned env st st') :
    (st.scheduler.remaining = [] ∧ st' = { st with scheduler := { st.scheduler with inputExhausted := true } }) ∨
    ∃ q < st.scheduler.config.qpCount, ∃ chunk rest wrId next,
      st.scheduler.outstanding q + (st.posts q).length < st.scheduler.config.queueDepth ∧
      st.scheduler.remaining = chunk :: rest ∧
      CyclicIds.scan maxWrId (fun x => x ∈ st.scheduler.pending) maxWrId st.scheduler.nextWrId = (some wrId, next) ∧
      st' = st.add q chunk rest wrId next := by
  obtain ⟨q, hq, h⟩ := h
  rcases stageOne_cases env q st with ⟨he, _⟩ | ⟨_, _, he, _⟩ | ⟨hr, he⟩ | ⟨chunk, rest, wrId, next, hf, hr, hs, he⟩
  all_goals rw [he] at h; simp only [reduceCtorEq, or_self, Turn.exhausted.injEq, Turn.staged.injEq, or_false,
    false_or] at h
  · exact Or.inl ⟨hr, h.symm⟩
  · exact Or.inr ⟨q, hq, chunk, rest, wrId, next, hf, hr, hs, h.symm⟩

theorem Turned.advances (h : Turned env st st') : st.scheduler.Advances st'.scheduler := by
  rcases h.cases with ⟨_, rfl⟩ | ⟨_, _, _, _, _, _, _, _, _, rfl⟩ <;> exact ⟨_, _, _, rfl⟩

/-! ## The loops -/

theorem Scheduler.Advances.config (h : s.Advances s') : s'.config = s.config := by
  obtain ⟨_, _, _, rfl⟩ := h; rfl

theorem stagePass_advances (env : RefillEnv) (qs : List Nat) (made : Bool) (st : Staging) :
    st.scheduler.Advances (stagePass env qs made st).1.scheduler := by
  induction qs generalizing made st with
  | nil => exact .refl _
  | cons q qs ih =>
      rw [stagePass]
      rcases stageOne_cases env q st with ⟨he, _⟩ | ⟨_, _, he, ha⟩ | ⟨_, he⟩ | ⟨_, _, _, _, _, _, _, he⟩ <;> rw [he]
      · exact ih made st
      · exact ha
      · exact ⟨_, _, _, rfl⟩
      · exact Scheduler.Advances.trans ⟨_, _, _, rfl⟩ (ih true _)

theorem stageLoop_advances (env : RefillEnv) (passes : Nat) (st : Staging) :
    st.scheduler.Advances (stageLoop env passes st).1.scheduler := by
  induction passes generalizing st with
  | zero => exact .refl _
  | succ passes ih =>
      rw [stageLoop]
      split
      · exact .refl _
      · have ha := stagePass_advances env (List.range st.scheduler.config.qpCount) false st
        split
        · next he => rw [he] at ha; exact ha
        · next he => rw [he] at ha; exact ha.trans (ih _)
        · next he => rw [he] at ha; exact ha

/-- A pass that does not raise is a sequence of turns. -/
theorem stagePass_turns {qs : List Nat} {made made' : Bool} (hqs : ∀ q ∈ qs, q < st.scheduler.config.qpCount)
    (h : stagePass env qs made st = (st', made', none)) : Relation.ReflTransGen (Turned env) st st' := by
  induction qs generalizing made st with
  | nil => simp only [stagePass, Prod.mk.injEq] at h; rw [h.1]
  | cons q qs ih =>
      have hq := hqs q (by simp)
      rw [stagePass] at h
      split at h
      · exact ih (fun q hq => hqs q (by simp [hq])) h
      · next st₁ he =>
          simp only [Prod.mk.injEq] at h
          rw [← h.1]
          exact .single ⟨q, hq, .inl he⟩
      · simp at h
      · next st₁ he =>
          have ht : Turned env st st₁ := ⟨q, hq, .inr he⟩
          refine .head ht (ih (fun q hq => ?_) h)
          rw [ht.advances.config]
          exact hqs q (by simp [hq])

theorem stageLoop_turns {passes : Nat} (h : stageLoop env passes st = (st', none)) :
    Relation.ReflTransGen (Turned env) st st' := by
  induction passes generalizing st with
  | zero => simp only [stageLoop, Prod.mk.injEq] at h; rw [h.1]
  | succ passes ih =>
      rw [stageLoop] at h
      split at h
      · simp only [Prod.mk.injEq, and_true] at h; rw [h]
      · split at h
        · simp at h
        · next he => exact (stagePass_turns (fun q hq => List.mem_range.mp hq) he).trans (ih h)
        · next he =>
            simp only [Prod.mk.injEq, and_true] at h
            rw [← h]
            exact stagePass_turns (fun q hq => List.mem_range.mp hq) he

/-! ## Without chunks nothing is staged -/

theorem stagePass_spent (env : RefillEnv) (qs : List Nat) (made : Bool) (h : st.scheduler.remaining = []) :
    (stagePass env qs made st).1.posts = st.posts ∧ (stagePass env qs made st).1.scheduler.remaining = [] := by
  induction qs with
  | nil => exact ⟨rfl, h⟩
  | cons q qs ih =>
      rw [stagePass, stageOne]
      split
      · exact ih
      · next st₁ he =>
          split at he
          · cases he
          · split at he
            · cases he
            · cases he; exact ⟨rfl, h⟩
            · next hiter => rw [Scheduler.remaining, hiter] at h; cases h
      · next st₁ err he =>
          split at he
          · cases he
          · split at he
            · cases he; exact ⟨rfl, h⟩
            · cases he
            · next hiter => rw [Scheduler.remaining, hiter] at h; cases h
      · next st₁ he =>
          split at he
          · cases he
          · split at he
            · cases he
            · cases he
            · next hiter => rw [Scheduler.remaining, hiter] at h; cases h

theorem stageLoop_spent (env : RefillEnv) (passes : Nat) (h : st.scheduler.remaining = []) :
    (stageLoop env passes st).1.posts = st.posts ∧ (stageLoop env passes st).1.scheduler.remaining = [] := by
  induction passes generalizing st with
  | zero => exact ⟨rfl, h⟩
  | succ passes ih =>
      rw [stageLoop]
      split
      · exact ⟨rfl, h⟩
      · have hp := stagePass_spent env (List.range st.scheduler.config.qpCount) false h
        split <;> next he => rw [he] at hp; first | exact hp | exact ⟨(ih hp.2).1.trans hp.1, (ih hp.2).2⟩

/-! ## Every chunk is staged once -/

/-- What is staged so far, for all QPs. -/
def Staging.all (st : Staging) : List Staged := flat st.scheduler.config.qpCount st.posts

theorem Staging.all_add {q : Nat} (hq : q < st.scheduler.config.qpCount) (chunk : ReadChunk) (rest : List ReadChunk)
    (wrId next : Nat) :
    (st.add q chunk rest wrId next).all.Perm (st.all ++ [⟨wrId, chunk, chunk.sendWR wrId⟩]) :=
  flat_update_perm hq st.posts _

/-- What a staging that began at `s` keeps. -/
structure StagingOk (s : Scheduler) (st : Staging) : Prop where
  advances : s.Advances st.scheduler
  outside : ∀ q, s.config.qpCount ≤ q → st.posts q = []
  wr_eq : ∀ q, ∀ x ∈ st.posts q, x.wr = x.chunk.sendWR x.wrId
  chunks : (st.all.map Staged.chunk ++ st.scheduler.remaining).Perm s.remaining
  drained : st.scheduler.inputExhausted = true → st.scheduler.remaining = []

theorem StagingOk.init (h : s.inputExhausted = true → s.remaining = []) :
    StagingOk s { scheduler := s, posts := fun _ => [], built := 0 } where
  advances := .refl s
  outside _ _ := rfl
  wr_eq _ _ hx := by simp at hx
  chunks := by simp [Staging.all]
  drained := h

theorem StagingOk.turned (h : StagingOk s st) (ht : Turned env st st') : StagingOk s st' := by
  have ha := h.advances.trans ht.advances
  rcases ht.cases with ⟨hr, rfl⟩ | ⟨q, hq, chunk, rest, wrId, next, _, hr, _, rfl⟩
  · exact ⟨ha, h.outside, h.wr_eq, h.chunks, fun _ => hr⟩
  · have hqs : q < s.config.qpCount := by rw [← h.advances.config]; exact hq
    refine ⟨ha, fun q' hq' => ?_, fun q' x hx => ?_, ?_, fun hex => ?_⟩
    · rw [Staging.add_posts_of_ne _ _ _ _ _ _ (by omega)]
      exact h.outside q' hq'
    · by_cases hqq : q' = q
      · subst hqq
        rw [Staging.add_posts_self, List.mem_append, List.mem_singleton] at hx
        rcases hx with hx | rfl
        · exact h.wr_eq _ _ hx
        · rfl
      · rw [Staging.add_posts_of_ne _ _ _ _ _ _ hqq] at hx
        exact h.wr_eq _ _ hx
    · have hall := (Staging.all_add hq chunk rest wrId next).map Staged.chunk
      refine .trans (hall.append_right _) (.trans (.of_eq ?_) h.chunks)
      simp [hr]
    · have := h.drained hex
      rw [hr] at this
      cases this

theorem StagingOk.turns (h : StagingOk s st) (ht : Relation.ReflTransGen (Turned env) st st') : StagingOk s st' := by
  induction ht with
  | refl => exact h
  | tail _ ht ih => exact ih.turned ht

theorem StagingOk.length_chunks (h : StagingOk s st) :
    st.all.length + st.scheduler.remaining.length = s.remaining.length := by
  have := h.chunks.length_eq
  rwa [List.length_append, List.length_map] at this

/-! ## The staged identifiers differ -/

/-- What a staging that began at `s` keeps when there is room. -/
structure StagedIds (s : Scheduler) (st : Staging) : Prop where
  depth : ∀ q, s.outstanding q + (st.posts q).length ≤ s.config.queueDepth
  fresh : ∀ x ∈ st.all.map Staged.wrId, x ∉ s.pending ∧ 1 ≤ x ∧ x ≤ maxWrId
  round : CyclicIds.Round maxWrId s.pending.keys s.nextWrId (st.all.map Staged.wrId) st.scheduler.nextWrId

theorem StagedIds.init (h : Accounts s) : StagedIds s { scheduler := s, posts := fun _ => [], built := 0 } where
  depth q := by simpa using h.depth q
  fresh x hx := by simp [Staging.all] at hx
  round := by simpa [Staging.all] using CyclicIds.Round.init maxWrId s.pending.keys s.nextWrId

/-- While a QP has a free slot and a chunk is left, staged and pending identifiers do not fill the range. -/
theorem StagedIds.room (h : StagedIds s st) (hok : StagingOk s st) (hacc : Accounts s) (hroom : s.Roomy) {q : Nat}
    (hq : q < s.config.qpCount) (hfree : s.outstanding q + (st.posts q).length < s.config.queueDepth)
    (hrest : st.scheduler.remaining ≠ []) : (st.all.map Staged.wrId).length + s.pending.keys.length < maxWrId := by
  rcases hroom with hroom | hroom
  · have hlen : ∀ q, ((st.posts q).map Staged.wrId ++ s.pendingOn q).length = s.outstanding q + (st.posts q).length := by
      intro q
      rw [List.length_append, List.length_map, hacc.count q, Nat.add_comm]
    have hlt := length_flat_lt (fun q => by rw [hlen q]; exact h.depth q) hq (by rw [hlen q]; exact hfree)
    have hsum := (flat_append_perm s.config.qpCount (fun q => (st.posts q).map Staged.wrId) s.pendingOn).length_eq
    rw [List.length_append, ← map_flat, hacc.flat_pendingOn.length_eq] at hsum
    rw [Staging.all, hok.advances.config]
    omega
  · have := hok.length_chunks
    have := List.length_pos_iff.mpr hrest
    rw [List.length_map]
    omega

theorem Scheduler.Advances.pending (h : s.Advances s') : s'.pending = s.pending := by
  obtain ⟨_, _, _, rfl⟩ := h; rfl

theorem Scheduler.Advances.outstanding (h : s.Advances s') : s'.outstanding = s.outstanding := by
  obtain ⟨_, _, _, rfl⟩ := h; rfl

theorem StagedIds.turned (h : StagedIds s st) (hok : StagingOk s st) (hacc : Accounts s) (hroom : s.Roomy)
    (ht : Turned env st st') : StagedIds s st' := by
  rcases ht.cases with ⟨_, rfl⟩ | ⟨q, hq, chunk, rest, wrId, next, hfree, hr, hscan, rfl⟩
  · exact ⟨h.depth, h.fresh, h.round⟩
  · have hqs : q < s.config.qpCount := by rw [← hok.advances.config]; exact hq
    rw [hok.advances.config, hok.advances.outstanding] at hfree
    have hroom' := h.room hok hacc hroom hqs hfree (by simp [hr])
    have hbusy : ∀ x, x ∈ st.scheduler.pending ↔ x ∈ s.pending.keys := by
      intro x; rw [hok.advances.pending]; rfl
    obtain ⟨x, n, hs, hround, hx, hrange⟩ := h.round.scan hbusy hacc.next_range hroom'
    rw [hscan] at hs
    obtain ⟨rfl, rfl⟩ : wrId = x ∧ next = n := by simpa using hs
    have hids := (Staging.all_add hq chunk rest wrId next).map Staged.wrId
    rw [List.map_append] at hids
    refine ⟨fun q' => ?_, fun y hy => ?_, hround.perm hids.symm⟩
    · by_cases hqq : q' = q
      · subst hqq
        rw [Staging.add_posts_self, List.length_append]
        exact hfree
      · rw [Staging.add_posts_of_ne _ _ _ _ _ _ hqq]
        exact h.depth q'
    · rcases List.mem_append.mp (hids.subset hy) with hy | hy
      · exact h.fresh y hy
      · obtain rfl : y = wrId := by simpa using hy
        exact ⟨hx, hrange⟩

theorem StagedIds.turns (hok : StagingOk s st) (h : StagedIds s st) (hacc : Accounts s) (hroom : s.Roomy)
    (ht : Relation.ReflTransGen (Turned env) st st') : StagedIds s st' := by
  induction ht with
  | refl => exact h
  | tail hts ht ih => exact ih.turned (hok.turns hts) hacc hroom ht

theorem StagedIds.nodup (h : StagedIds s st) (hacc : Accounts s) : (st.all.map Staged.wrId).Nodup :=
  h.round.taken_nodup hacc.next_range

/-! ## Staging stops when there is nothing to do -/

/-- No slot of the QP is free. -/
def Staging.Full (st : Staging) (q : Nat) : Prop :=
  st.scheduler.config.queueDepth ≤ st.scheduler.outstanding q + (st.posts q).length

theorem stagePass_made {qs : List Nat} {made' : Bool} (h : stagePass env qs true st = (st', made', none)) :
    made' = true := by
  induction qs generalizing st with
  | nil => simp only [stagePass, Prod.mk.injEq] at h; exact h.2.1.symm
  | cons q qs ih =>
      rw [stagePass] at h
      split at h
      · exact ih h
      · simp only [Prod.mk.injEq] at h; exact h.2.1.symm
      · simp at h
      · exact ih h

/-- A pass takes a chunk, or finds that no QP can take one. -/
theorem stagePass_end {qs : List Nat} {made made' : Bool} (h : stagePass env qs made st = (st', made', none)) :
    st'.scheduler.remaining.length ≤ st.scheduler.remaining.length ∧
      (made' = true → made = true ∨ st'.scheduler.remaining.length < st.scheduler.remaining.length) ∧
      (made' = false → st'.scheduler.inputExhausted = true ∨ (st' = st ∧ ∀ q ∈ qs, st.Full q)) := by
  induction qs generalizing made st with
  | nil =>
      simp only [stagePass, Prod.mk.injEq, and_true] at h
      obtain ⟨rfl, rfl⟩ := h
      exact ⟨Nat.le_refl _, fun h => .inl h, fun _ => .inr ⟨rfl, by simp⟩⟩
  | cons q qs ih =>
      rw [stagePass] at h
      rcases stageOne_cases env q st with ⟨he, hfull⟩ | ⟨_, _, he, _⟩ | ⟨hr, he⟩ |
        ⟨chunk, rest, wrId, next, _, hr, _, he⟩ <;> rw [he] at h
      · obtain ⟨hle, hmade, hnot⟩ := ih h
        refine ⟨hle, hmade, fun hf => (hnot hf).imp_right fun ⟨hst, hq⟩ => ⟨hst, ?_⟩⟩
        exact List.forall_mem_cons.mpr ⟨hfull, hq⟩
      · simp at h
      · simp only [Prod.mk.injEq, and_true] at h
        obtain ⟨rfl, rfl⟩ := h
        exact ⟨Nat.le_refl _, fun h => .inl h, fun _ => .inl rfl⟩
      · obtain ⟨hle, _, hnot⟩ := ih h
        rw [Staging.add_remaining] at hle
        rw [hr, List.length_cons]
        refine ⟨by omega, fun _ => .inr (by omega), fun hf => ?_⟩
        -- The flag was set by this turn and no later turn clears it.
        exact absurd (stagePass_made h) (by simp [hf])

/-- The loop ends with the generator exhausted or with every QP full. -/
theorem stageLoop_end {passes : Nat} (hp : st.scheduler.remaining.length < passes)
    (h : stageLoop env passes st = (st', none)) :
    st'.scheduler.inputExhausted = true ∨ ∀ q < st'.scheduler.config.qpCount, st'.Full q := by
  induction passes generalizing st with
  | zero => omega
  | succ passes ih =>
      rw [stageLoop] at h
      split at h
      · next hex =>
          simp only [Prod.mk.injEq, and_true] at h
          rw [← h]
          exact .inl hex
      · split at h
        · simp at h
        · next he =>
            rcases (stagePass_end he).2.1 rfl with hf | hlt
            · cases hf
            · exact ih (by omega) h
        · next he =>
            simp only [Prod.mk.injEq, and_true] at h
            subst h
            refine ((stagePass_end he).2.2 rfl).imp_right fun ⟨hst, hfull⟩ q hq => ?_
            subst hst
            exact hfull q (List.mem_range.mpr hq)

end Rdma4py.ReadScheduler
