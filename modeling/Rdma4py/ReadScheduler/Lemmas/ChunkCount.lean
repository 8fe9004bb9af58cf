import Rdma4py.ReadScheduler.Lemmas.Soundness

/-!
# Announced and generated chunks

`submit` counts the chunks of a request with a rounded quotient, `_iter_chunks` steps through the request.
-/

namespace Rdma4py.ReadScheduler

open Rdma4py.Lib

variable {s : SchedulerId} {w w' w₀ : World} {e : Event}

/-! ## The two counts -/

/-- By how much the announced chunks of all requests exceed the generated ones. -/
def miscount (chunkSize : Nat) (requests : List RdmaReadRequest) : Int :=
  (requests.map fun r => ceilError r.length chunkSize).sum

theorem length_chunksOf (chunkSize : Nat) (request : RdmaReadRequest) (i : Nat) :
    (chunksOf chunkSize request i).length = request.length ⌈/⌉ chunkSize := by
  simp [chunksOf, pyRange, Nat.ceilDiv_eq_add_pred_div]

theorem length_iterChunks (chunkSize : Nat) (requests : List RdmaReadRequest) :
    (iterChunks chunkSize requests).length = (requests.map fun r => r.length ⌈/⌉ chunkSize).sum := by
  have key : ∀ n, ((requests.zipIdx n).flatMap fun ri => chunksOf chunkSize ri.1 ri.2).length =
      (requests.map fun r => r.length ⌈/⌉ chunkSize).sum := by
    induction requests with
    | nil => intro n; rfl
    | cons r rs ih => intro n; simp [length_chunksOf, ih]
  exact key 0

theorem totalChunks_eq {chunkSize : Nat} (hc : 0 < chunkSize) (requests : List RdmaReadRequest) :
    (totalChunks chunkSize requests : Int) = (iterChunks chunkSize requests).length + miscount chunkSize requests := by
  rw [length_iterChunks, totalChunks, miscount]
  induction requests with
  | nil => rfl
  | cons r rs ih =>
      have hr := ceil_trueDiv r.length_pos hc
      simp only [List.map_cons, List.sum_cons]
      omega

/-- Requests of at most `2 ^ 53` bytes announce the number of their chunks, whatever the chunk size. -/
theorem miscount_of_le {chunkSize : Nat} {requests : List RdmaReadRequest} (h : ∀ r ∈ requests, r.length ≤ 2 ^ 53) :
    miscount chunkSize requests = 0 := by
  refine List.sum_eq_zero fun n hn => ?_
  obtain ⟨r, hr, rfl⟩ := List.mem_map.mp hn
  exact ceilError_of_le (h r hr)

/-! ## Runs -/

/-- Every batch announces the count of its requests. -/
def Announced (w : World) : Prop :=
  ∀ b < w.nextBatch, (w.batches b).totalChunks =
    totalChunks (w.schedulers (w.batches b).scheduler).config.chunkSize (w.batches b).requests

theorem progressBody_ends (env : ProgressEnv) (b : BatchId) (x : Session) :
    (progressBody env b x).1.batch.scheduler = x.batch.scheduler ∧
      (progressBody env b x).1.batch.requests = x.batch.requests ∧
      (progressBody env b x).1.batch.totalChunks = x.batch.totalChunks := by
  rcases progressBody_cases env b x with ⟨x', err, hw, he⟩ | ⟨x', n, hran, _, he⟩ | ⟨x', n, hran, _, _, he⟩ <;> rw [he]
  · obtain ⟨_, _, hbatch⟩ := hw.batch
    simp [failTransport, hbatch]
  · obtain ⟨_, _, hbatch⟩ := hran.works.batch
    simp [hbatch]
  · obtain ⟨_, hf⟩ := finishSuccess_eq x'
    obtain ⟨_, _, hbatch⟩ := hran.works.batch
    simp [hf, hbatch]

/-- A submitted batch announces what it started with. -/
theorem submitEnds_announces {env : RefillEnv} {b : BatchId} {x x' : Session} {total : Nat}
    (hx : SubmitEnds env b x x' total) :
    x'.batch.scheduler = x.batch.scheduler ∧ x'.batch.requests = x.batch.requests ∧
      x'.batch.totalChunks = x.batch.totalChunks := by
  rcases hx with ⟨_, rfl⟩ | ⟨_, s', hr, rfl⟩ | ⟨_, s', err, hr, rfl⟩
  · obtain ⟨_, hf⟩ := finishSuccess_eq x
    simp [hf]
  · exact ⟨rfl, rfl, rfl⟩
  · exact ⟨rfl, rfl, rfl⟩

/-- A change keeps what an old batch announced. -/
theorem change_announces (hc : Change w₀ e w w') {b : BatchId} (hb : b < w.nextBatch) :
    (w'.batches b).scheduler = (w.batches b).scheduler ∧ (w'.batches b).requests = (w.batches b).requests ∧
      (w'.batches b).totalChunks = (w.batches b).totalChunks := by
  have hput : ∀ (self : SchedulerId) (b' : BatchId) (x : Session), (x.batch.scheduler = (w.batches b').scheduler ∧
      x.batch.requests = (w.batches b').requests ∧ x.batch.totalChunks = (w.batches b').totalChunks) →
      ((w.put self b' x).batches b).scheduler = (w.batches b).scheduler ∧
        ((w.put self b' x).batches b).requests = (w.batches b).requests ∧
        ((w.put self b' x).batches b).totalChunks = (w.batches b).totalChunks := by
    intro self b' x hx
    by_cases h : b = b'
    · subst h
      rw [put_batches_self]
      exact hx
    · rw [put_batches_of_ne h]
      exact ⟨rfl, rfl, rfl⟩
  cases hc with
  | control => exact ⟨rfl, rfl, rfl⟩
  | callbackError b' error =>
      simp only [Function.update_apply]
      split
      · next h => subst h; exact ⟨rfl, rfl, rfl⟩
      · exact ⟨rfl, rfl, rfl⟩
  | failed self b' error => exact hput self b' _ ⟨rfl, rfl, rfl⟩
  | misfired self b' error => exact hput self b' _ ⟨rfl, rfl, rfl⟩
  | progressed self b' env => exact hput self b' _ (progressBody_ends env b' (w.session self b'))
  | submitted self items requests oc env x' =>
      rw [put_batches_of_ne (Nat.ne_of_lt hb)]
      exact ⟨rfl, rfl, rfl⟩
  | connected => exact ⟨rfl, rfl, rfl⟩
  | disconnected => exact ⟨rfl, rfl, rfl⟩
  | closed self env hopen =>
      have hends := (close_closes env hopen).ends b
      exact ⟨hends.scheduler, hends.requests, hends.totalChunks⟩

theorem Announced.change (hc : Change w₀ e w w') (h : Announced w) : Announced w' := by
  intro b hlt
  have hcfg := change_config hc
  by_cases hb : b < w.nextBatch
  · obtain ⟨hs, hr, ht⟩ := change_announces hc hb
    rw [hs, hr, ht, hcfg]
    exact h b hb
  · cases hc with
    | control => exact absurd hlt hb
    | callbackError => exact absurd hlt hb
    | failed => exact absurd hlt hb
    | misfired => exact absurd hlt hb
    | progressed => exact absurd hlt hb
    | connected => exact absurd hlt hb
    | disconnected => exact absurd hlt hb
    | closed self env hopen =>
        rw [(close_closes env hopen).nextBatch] at hlt
        exact absurd hlt hb
    | submitted self items requests oc env x' _ _ _ _ hx =>
        -- the new batch
        have hnew : b = w.nextBatch := Nat.le_antisymm (Nat.le_of_lt_succ hlt) (Nat.le_of_not_lt hb)
        subst hnew
        obtain ⟨hs, hr, ht⟩ := submitEnds_announces hx
        rw [put_batches_self, hs, hr, ht, hcfg]
        rfl

/-- Every batch announces the count of its requests, after every run. -/
theorem Announced.run (hi : w.Initial) (hr : process.Reaches w w') : Announced w' := by
  refine Machine.Reaches.invariant (I := Announced)
    (fun w e h he => step_invariant (fun _ _ hc h => h.change hc) he h) hr ?_
  intro b hb
  rw [hi.2.1] at hb
  cases hb

end Rdma4py.ReadScheduler
