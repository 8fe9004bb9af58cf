import Mathlib.Data.Finset.Card
import Mathlib.Data.Finset.Range
import Rdma4py.Transport.Lemmas.Stripes

/-!
# The process sender along a run

As long as the counter does not wrap, the claims give every task to one worker, and what a worker has claimed it sends.
-/

namespace Rdma4py.Transport

open Lib

namespace Dynamic

variable {t : Sending} {s : SendState} {flow task count : Nat} {w : SendWorker}

/-! ## One worker -/

/-- The connection of a worker that has sent whole stripes only. -/
structure Open (t : Sending) (flow : Nat) (w : SendWorker) : Prop where
  stream : w.stream = (w.sent.reverse.map (t.frame flow)).flatten
  fits : ∀ task ∈ w.sent, (t.taskHeader flow task).Fits

/-- What a worker has claimed and put on its connection. -/
def WorkerStands (t : Sending) (flow : Nat) (w : SendWorker) : Prop :=
  match w.phase with
  | .claiming => Open t flow w ∧ w.claimed = w.sent
  | .sending task => Open t flow w ∧ w.claimed = task :: w.sent
  | .finishing => Open t flow w ∧ w.claimed = w.sent
  | .done => Framed t flow w.stream ∧ w.claimed = w.sent
  | .failed => Framed t flow w.stream ∧ w.sent <:+ w.claimed

theorem Open.framed_append (h : Open t flow w) {data : List UInt8} (hd : Framed t flow data) :
    Framed t flow (w.stream ++ data) := by
  rw [h.stream]
  exact hd.append fun task hm => h.fits task (List.mem_reverse.mp hm)

theorem Open.framed (h : Open t flow w) : Framed t flow w.stream := by
  have := h.framed_append .nil
  rwa [List.append_nil] at this

theorem WorkerStands.framed (h : WorkerStands t flow w) : Framed t flow w.stream := by
  unfold WorkerStands at h
  split at h
  · exact h.1.framed
  · exact h.1.framed
  · exact h.1.framed
  · exact h.1
  · exact h.1

theorem WorkerStands.suffix (h : WorkerStands t flow w) : w.sent <:+ w.claimed := by
  unfold WorkerStands at h
  split at h
  · exact h.2 ▸ List.suffix_refl _
  · exact h.2 ▸ List.suffix_cons _ _
  · exact h.2 ▸ List.suffix_refl _
  · exact h.2 ▸ List.suffix_refl _
  · exact h.2

/-- What a worker is about to send is a stripe or a terminator, or nothing. -/
theorem framed_pendingBytes (t : Sending) (flow : Nat) (p : Phase) : Framed t flow (pendingBytes t flow p) := by
  unfold pendingBytes
  split
  next task =>
    split
    next hf => exact .cut hf (List.prefix_refl _)
    · exact .nil
  · split
    next hf => exact .terminator hf (List.prefix_refl _)
    · exact .nil
  · exact .nil

theorem WorkerStands.claimTask (h : WorkerStands t flow w) (hp : w.phase = .claiming) (task : Nat) :
    WorkerStands t flow (claimTask t task w) := by
  simp only [WorkerStands, hp] at h
  unfold Dynamic.claimTask
  split
  · exact ⟨⟨h.1.stream, h.1.fits⟩, congrArg (task :: ·) h.2⟩
  · exact ⟨⟨h.1.stream, h.1.fits⟩, h.2⟩

theorem sendTask_of_sending (hp : w.phase = .sending task) : sendTask t flow w = { w with
    phase := .claiming
    sent := task :: w.sent
    stream := w.stream ++ pendingBytes t flow w.phase
    sentBytes := w.sentBytes + (t.taskStop task - t.taskOffset task) } := by
  simp only [sendTask, hp]

@[simp] theorem claimed_sendTask (t : Sending) (flow : Nat) (w : SendWorker) :
    (sendTask t flow w).claimed = w.claimed := by
  unfold sendTask
  split
  · rfl
  · rfl

theorem WorkerStands.sendTask (h : WorkerStands t flow w) (hp : w.phase = .sending task)
    (hf : (t.taskHeader flow task).Fits) : WorkerStands t flow (sendTask t flow w) := by
  simp only [WorkerStands, hp] at h
  obtain ⟨hopen, hclaimed⟩ := h
  rw [sendTask_of_sending hp]
  refine ⟨⟨?_, ?_⟩, hclaimed⟩
  · simp [pendingBytes, hp, hf, hopen.stream, Sending.frame]
  · intro x hx
    rcases List.mem_cons.mp hx with rfl | hx
    · exact hf
    · exact hopen.fits x hx

theorem WorkerStands.finish (h : WorkerStands t flow w) (hp : w.phase = .finishing) :
    WorkerStands t flow (finish t flow w) := by
  simp only [WorkerStands, hp] at h
  exact ⟨h.1.framed_append (framed_pendingBytes t flow w.phase), h.2⟩

theorem WorkerStands.fail (h : WorkerStands t flow w) (hd : w.phase ≠ .done) (hf : w.phase ≠ .failed)
    (count : Nat) : WorkerStands t flow (fail t flow count w) := by
  refine ⟨?_, h.suffix⟩
  have hopen : Open t flow w := by
    unfold WorkerStands at h
    split at h
    · exact h.1
    · exact h.1
    · exact h.1
    next heq => exact absurd heq hd
    next heq => exact absurd heq hf
  exact hopen.framed_append ((framed_pendingBytes t flow w.phase).take count)

theorem exists_sending {p : Phase} (h : CanSend t flow p) :
    ∃ task, p = .sending task ∧ (t.taskHeader flow task).Fits := by
  cases p with
  | sending task => exact ⟨task, rfl, h⟩
  | _ => exact h.elim

/-! ## The bytes that a worker counts -/

/-- `sent_bytes` counts the stripes that were sent. -/
def Counts (t : Sending) (w : SendWorker) : Prop := w.sentBytes = (w.sent.map t.taskLength).sum

theorem Counts.claimTask (h : Counts t w) (task : Nat) : Counts t (claimTask t task w) := by
  unfold Dynamic.claimTask
  split
  · exact h
  · exact h

theorem Counts.sendTask (h : Counts t w) (hp : w.phase = .sending task) : Counts t (sendTask t flow w) := by
  rw [sendTask_of_sending hp]
  simp only [Counts, List.map_cons, List.sum_cons, Sending.taskLength] at h ⊢
  rw [h, Nat.add_comm]

/-! ## The workers along a run -/

/-- The invariant of the workers, whether or not the counter wraps. -/
def WorkersInv (t : Sending) (s : SendState) : Prop :=
  ∀ flow, WorkerStands t flow (s.workers flow) ∧ Counts t (s.workers flow)

theorem initial_workersInv (t : Sending) : WorkersInv t .initial :=
  fun _ => ⟨⟨⟨rfl, fun _ h => by cases h⟩, rfl⟩, rfl⟩

theorem WorkersInv.update (h : WorkersInv t s) (hw : WorkerStands t flow w) (hc : Counts t w) (n : Nat) :
    WorkersInv t ⟨n, Function.update s.workers flow w⟩ := by
  intro f
  by_cases hf : f = flow
  · subst hf
    simpa using And.intro hw hc
  · simpa [hf] using h f

theorem WorkersInv.next (h : WorkersInv t s) {e : SendEvent} (he : SendEnabled t s e) :
    WorkersInv t (sendNext t s e) := by
  cases e with
  | claim flow => exact h.update ((h flow).1.claimTask he.2 _) ((h flow).2.claimTask _) _
  | send flow =>
      obtain ⟨task, hp, hfits⟩ := exists_sending he.2
      exact h.update ((h flow).1.sendTask hp hfits) ((h flow).2.sendTask hp) _
  | finish flow => exact h.update ((h flow).1.finish he.2.1) (h flow).2 _
  | fail flow count => exact h.update ((h flow).1.fail he.2.1 he.2.2 count) (h flow).2 _

theorem reaches_workersInv (h : (sendMachine t).Reaches .initial s) : WorkersInv t s :=
  h.invariant (I := WorkersInv t) (fun _ _ hinv he => hinv.next he) (initial_workersInv t)

/-! ## The counter -/

/-- The worker has made its last claim, or none will follow. -/
def Phase.left : Phase → Bool
  | .claiming => false
  | .sending _ => false
  | _ => true

/-- The workers that make no more claims. -/
def leaving (t : Sending) (s : SendState) : Finset Nat :=
  (Finset.range t.flows).filter fun flow => (s.workers flow).phase.left

/-- The counter has no room to wrap: every worker claims once after the last task. -/
def NoWrap (t : Sending) : Prop := t.taskCount + t.flows ≤ counterSize

instance (t : Sending) : Decidable (NoWrap t) := inferInstanceAs (Decidable (_ ≤ _))

/-- So many claims were made. -/
structure Claims (t : Sending) (s : SendState) (claims : Nat) : Prop where
  counter : s.nextTask = claims % counterSize
  bound : claims ≤ t.taskCount + (leaving t s).card
  claimed : (flat t.flows fun flow => (s.workers flow).claimed).Perm (List.range (min claims t.taskCount))
  last : ∀ flow, (s.workers flow).phase = .finishing ∨ (s.workers flow).phase = .done → t.taskCount ≤ claims

theorem initial_claims (t : Sending) : Claims t .initial 0 where
  counter := rfl
  bound := Nat.zero_le _
  claimed := by simp [SendState.initial]
  last _ h := by simp [SendState.initial] at h

/-- A worker that still claims is not among those that have left. -/
theorem card_leaving_lt (hf : flow < t.flows) (hp : (s.workers flow).phase.left = false) :
    (leaving t s).card < t.flows := by
  have hsub : leaving t s ⊂ Finset.range t.flows := by
    refine Finset.filter_ssubset.mpr ⟨flow, Finset.mem_range.mpr hf, ?_⟩
    simp [hp]
  simpa using Finset.card_lt_card hsub

/-- A worker changes, and leaves unless it stays. -/
theorem leaving_subset {w : SendWorker} (h : (s.workers flow).phase.left → w.phase.left) (n : Nat) :
    leaving t s ⊆ leaving t ⟨n, Function.update s.workers flow w⟩ := by
  intro x hx
  simp only [leaving, Finset.mem_filter] at hx ⊢
  refine ⟨hx.1, ?_⟩
  by_cases hxf : x = flow
  · subst hxf
    simpa using h hx.2
  · simpa [hxf] using hx.2

/-- The claims that were made stay when a worker does something else. -/
theorem Claims.update {claims : Nat} (h : Claims t s claims) {w : SendWorker}
    (hc : w.claimed = (s.workers flow).claimed) (hleft : (s.workers flow).phase.left → w.phase.left)
    (hlast : w.phase = .finishing ∨ w.phase = .done →
      (s.workers flow).phase = .finishing ∨ (s.workers flow).phase = .done) :
    Claims t { s with workers := Function.update s.workers flow w } claims where
  counter := h.counter
  bound := h.bound.trans (Nat.add_le_add_left (Finset.card_le_card (leaving_subset hleft _)) _)
  claimed := by
    have hsame : (fun f => (Function.update s.workers flow w f).claimed) = fun f => (s.workers f).claimed := by
      funext f
      by_cases hf : f = flow
      · subst hf
        simpa using hc
      · simp [hf]
    simpa only [hsame] using h.claimed
  last f hf := by
    by_cases hff : f = flow
    · subst hff
      exact h.last f (hlast (by simpa using hf))
    · exact h.last f (by simpa [hff] using hf)

/-- One more element at the head of one bucket. -/
theorem flat_cons_perm {n q : Nat} (hq : q < n) (f : Nat → List Nat) (a : Nat) :
    (flat n (Function.update f q (a :: f q))).Perm (flat n f ++ [a]) := by
  refine .trans (flat_perm fun i _ => ?_) (flat_update_perm hq f a)
  by_cases hi : i = q
  · subst hi
    simpa using (List.perm_append_singleton a (f i)).symm
  · simp [hi]

/-- Before a claim, the counter has not wrapped. -/
theorem Claims.nextTask_eq {claims : Nat} (h : Claims t s claims) (hw : NoWrap t) (hf : flow < t.flows)
    (hp : (s.workers flow).phase = .claiming) : s.nextTask = claims := by
  have hlt := card_leaving_lt (s := s) hf (by simp [hp, Phase.left])
  have hbound := h.bound
  rw [NoWrap] at hw
  rw [h.counter, Nat.mod_eq_of_lt (by omega)]

/-- A claim that gets a task. -/
theorem Claims.claim_task {claims : Nat} (h : Claims t s claims) (hw : NoWrap t) (hf : flow < t.flows)
    (hp : (s.workers flow).phase = .claiming) (hmore : claims < t.taskCount) :
    Claims t (claim t flow s) (claims + 1) := by
  have hnext := h.nextTask_eq hw hf hp
  have hworker : claimTask t s.nextTask (s.workers flow) = { s.workers flow with
      phase := .sending claims, claimed := claims :: (s.workers flow).claimed } := by
    simp [claimTask, hnext, hmore]
  refine ⟨?_, ?_, ?_, fun f hff => ?_⟩
  · simp [claim, hnext]
  · exact Nat.le_trans hmore (Nat.le_add_right _ _)
  · have hclaimed : (fun f => ((claim t flow s).workers f).claimed) =
        Function.update (fun f => (s.workers f).claimed) flow (claims :: (s.workers flow).claimed) := by
      funext f
      by_cases hfe : f = flow
      · subst hfe
        simp [claim, hworker]
      · simp [claim, hfe]
    have hall := h.claimed
    rw [Nat.min_eq_left hmore.le] at hall
    rw [hclaimed, Nat.min_eq_left hmore, List.range_succ]
    exact (flat_cons_perm hf _ claims).trans (hall.append_right _)
  · by_cases hfe : f = flow
    · subst hfe
      simp [claim, hworker] at hff
    · exact (h.last f (by simpa [claim, hfe] using hff)).trans (Nat.le_succ _)

/-- A claim that finds no task left. -/
theorem Claims.claim_last {claims : Nat} (h : Claims t s claims) (hw : NoWrap t) (hf : flow < t.flows)
    (hp : (s.workers flow).phase = .claiming) (hdone : t.taskCount ≤ claims) :
    Claims t (claim t flow s) (claims + 1) := by
  have hnext := h.nextTask_eq hw hf hp
  have hleft : (s.workers flow).phase.left = false := by simp [hp, Phase.left]
  have hworker : claimTask t s.nextTask (s.workers flow) = { s.workers flow with phase := .finishing } := by
    simp [claimTask, hnext, Nat.not_lt.mpr hdone]
  refine ⟨?_, ?_, ?_, fun f _ => by omega⟩
  · simp [claim, hnext]
  · -- one more worker has left
    have hsub : leaving t s ⊂ leaving t (claim t flow s) := by
      have hnot : flow ∉ leaving t s := by simp [leaving, hleft]
      have hin : flow ∈ leaving t (claim t flow s) := by simp [leaving, hf, claim, hworker, Phase.left]
      have hstays : (s.workers flow).phase.left → (claimTask t s.nextTask (s.workers flow)).phase.left := by
        simp [hleft]
      have hsub := leaving_subset (t := t) hstays ((s.nextTask + 1) % counterSize)
      exact (Finset.ssubset_iff_of_subset hsub).mpr ⟨flow, hin, hnot⟩
    have := Finset.card_lt_card hsub
    have := h.bound
    omega
  · have hclaimed : (fun f => ((claim t flow s).workers f).claimed) = fun f => (s.workers f).claimed := by
      funext f
      by_cases hfe : f = flow
      · subst hfe
        simp [claim, hworker]
      · simp [claim, hfe]
    have hall := h.claimed
    rw [Nat.min_eq_right hdone] at hall
    rwa [hclaimed, Nat.min_eq_right (by omega)]

/-! ## The counter along a run -/

theorem Claims.next {claims : Nat} (h : Claims t s claims) (hw : NoWrap t) {e : SendEvent} (he : SendEnabled t s e) :
    ∃ claims', Claims t (sendNext t s e) claims' := by
  cases e with
  | claim flow =>
      obtain ⟨hf, hp⟩ := he
      rcases Nat.lt_or_ge claims t.taskCount with hmore | hdone
      · exact ⟨claims + 1, h.claim_task hw hf hp hmore⟩
      · exact ⟨claims + 1, h.claim_last hw hf hp hdone⟩
  | send flow =>
      obtain ⟨task, hp, -⟩ := exists_sending he.2
      refine ⟨claims, h.update ?_ ?_ ?_⟩
      all_goals simp [sendTask_of_sending hp, hp, Phase.left]
  | finish flow => exact ⟨claims, h.update rfl (fun _ => rfl) fun _ => .inl he.2.1⟩
  | fail flow count => exact ⟨claims, h.update rfl (fun _ => rfl) fun hend => by simp [fail] at hend⟩

theorem reaches_claims (hw : NoWrap t) (h : (sendMachine t).Reaches .initial s) : ∃ claims, Claims t s claims :=
  h.invariant (I := fun s => ∃ claims, Claims t s claims) (fun _ _ ⟨_, hc⟩ he => hc.next hw he)
    ⟨0, initial_claims t⟩

/-! ## The tasks -/

/-- The tasks that the workers have claimed. -/
def claimedTasks (t : Sending) (s : SendState) : List Nat := flat t.flows fun flow => (s.workers flow).claimed

/-- The tasks that the workers have sent. -/
def sentTasks (t : Sending) (s : SendState) : List Nat := flat t.flows fun flow => (s.workers flow).sent

theorem Claims.done {claims : Nat} (h : Claims t s claims) (hd : ∀ flow < t.flows, (s.workers flow).phase = .done) :
    (claimedTasks t s).Perm (List.range t.taskCount) := by
  have hlast := h.last 0 (.inr (hd 0 t.flows_pos))
  have hall := h.claimed
  rwa [Nat.min_eq_right hlast] at hall

theorem WorkersInv.sentTasks_eq (h : WorkersInv t s) (hd : ∀ flow < t.flows, (s.workers flow).phase = .done) :
    sentTasks t s = claimedTasks t s := by
  refine List.flatMap_congr fun flow hf => ?_
  have hstands := (h flow).1
  simp only [WorkerStands, hd flow (List.mem_range.mp hf)] at hstands
  exact hstands.2.symm

/-- Only what was claimed is sent. -/
theorem sentTasks_sublist (h : WorkersInv t s) : (sentTasks t s).Sublist (claimedTasks t s) := by
  have hall : ∀ n, (flat n fun flow => (s.workers flow).sent).Sublist (flat n fun flow => (s.workers flow).claimed) := by
    intro n
    induction n with
    | zero => exact .refl _
    | succ n ih =>
        rw [flat_succ, flat_succ]
        exact ih.append (h n).1.suffix.sublist
  exact hall t.flows

/-- The sum over the buckets is the sum over all. -/
theorem sum_map_flat (g : Nat → Nat) (n : Nat) (f : Nat → List Nat) :
    ((flat n f).map g).sum = ((List.range n).map fun q => ((f q).map g).sum).sum := by
  induction n with
  | zero => rfl
  | succ n ih => simp [flat_succ, List.range_succ, ih]

/-- The workers that have sent every task have sent all iterations of the source. -/
theorem WorkersInv.sum_sentBytes (h : WorkersInv t s) (hp : (sentTasks t s).Perm (List.range t.taskCount)) :
    ((List.range t.flows).map fun flow => (s.workers flow).sentBytes).sum = t.source.length * t.iterations := by
  calc ((List.range t.flows).map fun flow => (s.workers flow).sentBytes).sum
      = ((List.range t.flows).map fun flow => ((s.workers flow).sent.map t.taskLength).sum).sum :=
        congrArg List.sum (List.map_congr_left fun flow _ => (h flow).2)
    _ = ((sentTasks t s).map t.taskLength).sum := (sum_map_flat ..).symm
    _ = ((List.range t.taskCount).map t.taskLength).sum := (hp.map _).sum_eq
    _ = t.source.length * t.iterations := t.sum_taskLength

/-! ## The end of `_send_processes` -/

/-- When the sender has ended and no worker failed, all are done. -/
theorem done_of_sendReturned {result : Except Exn Nat} (hn : ∀ flow < t.flows, (s.workers flow).phase ≠ .failed)
    (h : sendReturned t s = some result) : ∀ flow < t.flows, (s.workers flow).phase = .done := by
  unfold sendReturned at h
  split at h
  next hall =>
    intro flow hf
    have := List.all_eq_true.mp hall flow (List.mem_range.mpr hf)
    simp only [decide_eq_true_eq] at this
    exact this.resolve_right (hn flow hf)
  · cases h

/-- When all workers are done and have sent everything, the check of the sum passes. -/
theorem sendReturned_of_done (hd : ∀ flow < t.flows, (s.workers flow).phase = .done)
    (hsum : ((List.range t.flows).map fun flow => (s.workers flow).sentBytes).sum = t.source.length * t.iterations) :
    sendReturned t s = some (.ok (t.source.length * t.iterations)) := by
  have hall : ((List.range t.flows).all fun flow =>
      (s.workers flow).phase = .done ∨ (s.workers flow).phase = .failed) = true :=
    List.all_eq_true.mpr fun flow hf => by simp [hd flow (List.mem_range.mp hf)]
  have hany : ((List.range t.flows).any fun flow => (s.workers flow).phase = .failed) = false :=
    List.any_eq_false.mpr fun flow hf => by simp [hd flow (List.mem_range.mp hf)]
  rw [sendReturned, if_pos hall, hany, hsum]
  simp

end Dynamic

end Rdma4py.Transport
