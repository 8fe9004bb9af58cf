import Mathlib.Logic.Equiv.Basic
import Rdma4py.Transport.Lemmas.DynamicSender

/-!
# The connections of a process sender along a run

A connection carries the stripes that its worker claimed, in their order, and a terminator only when no task was left. Any
way to share out the tasks has a run.
-/

namespace Rdma4py.Transport

open Lib

/-- Stripes behind their headers. -/
def Sending.frames (t : Sending) (flow : Nat) (tasks : List Nat) : List UInt8 := (tasks.map (t.frame flow)).flatten

theorem Sending.frames_append (t : Sending) (flow : Nat) (tasks tasks' : List Nat) :
    t.frames flow (tasks ++ tasks') = t.frames flow tasks ++ t.frames flow tasks' := by
  simp [Sending.frames]

theorem Sending.frames_cons (t : Sending) (flow task : Nat) (tasks : List Nat) :
    t.frames flow (task :: tasks) = t.frame flow task ++ t.frames flow tasks := rfl

theorem Sending.frames_concat (t : Sending) (flow task : Nat) (tasks : List Nat) :
    t.frames flow (tasks ++ [task]) = t.frames flow tasks ++ t.frame flow task := by
  simp [Sending.frames]

namespace Dynamic

variable {t : Sending} {s : SendState} {flow task count claims : Nat} {w : SendWorker} {data : List UInt8}

/-! ## What a connection carries -/

/-- The worker has claimed these tasks, and this may be on its connection after so many claims of all workers. -/
def MayCarry (t : Sending) (claims flow : Nat) (claimed : List Nat) (data : List UInt8) : Prop :=
  data <+: t.frames flow claimed.reverse ∨
    (NoWrap t → t.taskCount ≤ claims) ∧ data <+: t.frames flow claimed.reverse ++ (t.terminator flow).pack

theorem MayCarry.mono {claims' : Nat} (h : MayCarry t claims flow w.claimed data) (hle : claims ≤ claims') :
    MayCarry t claims' flow w.claimed data := by
  rcases h with h | ⟨hlast, h⟩
  · exact .inl h
  · exact .inr ⟨fun hw => (hlast hw).trans hle, h⟩

theorem prefix_append_right {xs ys zs : List UInt8} (h : ys <+: zs) : xs ++ ys <+: xs ++ zs := by
  obtain ⟨tail, rfl⟩ := h
  exact ⟨tail, List.append_assoc ..⟩

/-- A worker that still runs puts a part of what it is about to send on its connection. -/
theorem WorkerStands.mayCarry (h : WorkerStands t flow w) (hd : w.phase ≠ .done) (hf : w.phase ≠ .failed)
    (hlast : w.phase = .finishing → NoWrap t → t.taskCount ≤ claims) (hdata : data <+: pendingBytes t flow w.phase) :
    MayCarry t claims flow w.claimed (w.stream ++ data) := by
  cases hp : w.phase with
  | claiming =>
      simp only [WorkerStands, hp] at h
      rw [hp] at hdata
      rw [List.prefix_nil.mp hdata, List.append_nil, h.1.stream, h.2]
      exact .inl (List.prefix_refl _)
  | sending task =>
      simp only [WorkerStands, hp] at h
      have hframe : data <+: t.frame flow task := by
        rw [hp, pendingBytes] at hdata
        split at hdata
        · exact hdata
        · rw [List.prefix_nil.mp hdata]
          exact List.nil_prefix
      refine .inl ?_
      rw [h.2, List.reverse_cons, Sending.frames_concat, h.1.stream]
      exact prefix_append_right hframe
  | finishing =>
      simp only [WorkerStands, hp] at h
      have hpack : data <+: (t.terminator flow).pack := by
        rw [hp, pendingBytes] at hdata
        split at hdata
        · exact hdata
        · rw [List.prefix_nil.mp hdata]
          exact List.nil_prefix
      refine .inr ⟨hlast hp, ?_⟩
      rw [h.2, h.1.stream]
      exact prefix_append_right hpack
  | done => exact absurd hp hd
  | failed => exact absurd hp hf

/-- The invariant of the connections: the claims of a run whose counter does not wrap, what every connection carries, and
that only the workers of the sender do something. -/
structure Carried (t : Sending) (s : SendState) (claims : Nat) : Prop where
  counted : NoWrap t → Claims t s claims
  workers : WorkersInv t s
  carries : ∀ flow, MayCarry t claims flow (s.workers flow).claimed (s.workers flow).stream
  idle : ∀ flow, t.flows ≤ flow → (s.workers flow).stream = []

theorem initial_carried (t : Sending) : Carried t .initial 0 :=
  ⟨fun _ => initial_claims t, initial_workersInv t, fun _ => .inl List.nil_prefix, fun _ _ => rfl⟩

/-- One worker changes. -/
theorem Carried.update {claims' n : Nat} (h : Carried t s claims) (hf : flow < t.flows) (hle : claims ≤ claims')
    (hclaims : NoWrap t → Claims t ⟨n, Function.update s.workers flow w⟩ claims')
    (hworkers : WorkersInv t ⟨n, Function.update s.workers flow w⟩) (hw : MayCarry t claims' flow w.claimed w.stream) :
    Carried t ⟨n, Function.update s.workers flow w⟩ claims' := by
  refine ⟨hclaims, hworkers, fun f => ?_, fun f hff => ?_⟩
  · by_cases hfe : f = flow
    · subst hfe
      simpa using hw
    · simpa [hfe] using (h.carries f).mono hle
  · have hfe : f ≠ flow := by omega
    simpa [hfe] using h.idle f hff

theorem Carried.claim (h : Carried t s claims) (hf : flow < t.flows) (hp : (s.workers flow).phase = .claiming) :
    Carried t (claim t flow s) (claims + 1) := by
  have hstands := (h.workers flow).1
  simp only [WorkerStands, hp] at hstands
  refine h.update hf (Nat.le_succ _) (fun hw => ?_) (h.workers.next (e := .claim flow) ⟨hf, hp⟩) ?_
  · rcases Nat.lt_or_ge claims t.taskCount with hmore | hdone
    · exact (h.counted hw).claim_task hw hf hp hmore
    · exact (h.counted hw).claim_last hw hf hp hdone
  · refine .inl ?_
    unfold claimTask
    split
    · rw [List.reverse_cons, Sending.frames_concat, hstands.2]
      exact hstands.1.stream ▸ List.prefix_append _ _
    · rw [hstands.2]
      exact hstands.1.stream ▸ List.prefix_refl _

theorem Carried.next (h : Carried t s claims) {e : SendEvent} (he : SendEnabled t s e) :
    ∃ claims', Carried t (sendNext t s e) claims' := by
  have hlast : ∀ {flow}, (s.workers flow).phase = .finishing → NoWrap t → t.taskCount ≤ claims :=
    fun hp hw => (h.counted hw).last _ (.inl hp)
  have hkeep := h.workers.next he
  cases e with
  | claim flow => exact ⟨claims + 1, h.claim he.1 he.2⟩
  | send flow =>
      obtain ⟨task, hp, -⟩ := exists_sending he.2
      refine ⟨claims, h.update he.1 (Nat.le_refl _) (fun hw => (h.counted hw).update ?_ ?_ ?_) hkeep ?_⟩
      · simp
      · simp [hp, Phase.left]
      · simp [sendTask_of_sending hp]
      · have hcarry := (h.workers flow).1.mayCarry (by simp [hp]) (by simp [hp]) hlast (List.prefix_refl _)
        rw [claimed_sendTask, sendTask_of_sending hp]
        exact hcarry
  | finish flow =>
      obtain ⟨hf, hp, -⟩ := he
      refine ⟨claims, h.update hf (Nat.le_refl _) (fun hw => (h.counted hw).update rfl (fun _ => rfl) fun _ => .inl hp) hkeep ?_⟩
      exact (h.workers flow).1.mayCarry (by simp [hp]) (by simp [hp]) hlast (List.prefix_refl _)
  | fail flow count =>
      obtain ⟨hf, hd, hn⟩ := he
      refine ⟨claims, h.update hf (Nat.le_refl _) (fun hw => (h.counted hw).update rfl (fun _ => rfl) fun hend => ?_) hkeep ?_⟩
      · simp [Dynamic.fail] at hend
      · exact (h.workers flow).1.mayCarry hd hn hlast (List.take_prefix count _)

theorem reaches_carried (h : (sendMachine t).Reaches .initial s) : ∃ claims, Carried t s claims :=
  h.invariant (I := fun s => ∃ claims, Carried t s claims) (fun _ _ ⟨_, hc⟩ he => hc.next he) ⟨0, initial_carried t⟩

/-! ## A run for every way to share out the tasks -/

variable {owner : Nat → Nat}

/-- The tasks of a worker among the first ones. -/
def tasksOf (owner : Nat → Nat) (k flow : Nat) : List Nat := (List.range k).filter fun task => owner task = flow

theorem tasksOf_succ (owner : Nat → Nat) (k flow : Nat) :
    tasksOf owner (k + 1) flow = tasksOf owner k flow ++ if owner k = flow then [k] else [] := by
  rw [tasksOf, List.range_succ, List.filter_append, ← tasksOf]
  congr 1
  simp [List.filter_singleton]

/-- The workers have sent their tasks among the first ones. -/
structure Scheduled (t : Sending) (owner : Nat → Nat) (k : Nat) (s : SendState) : Prop where
  reached : (sendMachine t).Reaches .initial s
  nextTask : s.nextTask = k
  phase : ∀ flow, (s.workers flow).phase = .claiming
  claimed : ∀ flow, (s.workers flow).claimed = (tasksOf owner k flow).reverse
  stream : ∀ flow, (s.workers flow).stream = t.frames flow (tasksOf owner k flow)

theorem exists_scheduled (howner : ∀ task < t.taskCount, owner task < t.flows ∧ (t.taskHeader (owner task) task).Fits)
    {k : Nat} (hk : k ≤ t.taskCount) (hlt : k < counterSize) : ∃ s, Scheduled t owner k s := by
  induction k with
  | zero => exact ⟨.initial, .refl _, rfl, fun _ => rfl, fun _ => rfl, fun _ => rfl⟩
  | succ k ih =>
      obtain ⟨s, h⟩ := ih (by omega) (by omega)
      obtain ⟨hflow, hfits⟩ := howner k (by omega)
      have hclaim : (sendMachine t).Enabled s (.claim (owner k)) := ⟨hflow, h.phase _⟩
      have hworker : (claim t (owner k) s).workers (owner k) =
          { s.workers (owner k) with phase := .sending k, claimed := k :: (s.workers (owner k)).claimed } := by
        simp [claim, claimTask, h.nextTask, Nat.lt_of_succ_le hk]
      have hphase : ((claim t (owner k) s).workers (owner k)).phase = .sending k := by rw [hworker]
      have hsend : (sendMachine t).Enabled (claim t (owner k) s) (.send (owner k)) := by
        refine ⟨hflow, ?_⟩
        rw [hphase]
        exact hfits
      have hother : ∀ flow, flow ≠ owner k →
          (sendNext t (claim t (owner k) s) (.send (owner k))).workers flow = s.workers flow := by
        intro flow hne
        simp [sendNext, claim, hne]
      have hsent : (sendNext t (claim t (owner k) s) (.send (owner k))).workers (owner k) =
          sendTask t (owner k) ((claim t (owner k) s).workers (owner k)) := by
        simp [sendNext]
      refine ⟨_, (h.reached.tail hclaim).tail hsend, ?_, fun flow => ?_, fun flow => ?_, fun flow => ?_⟩
      · show (s.nextTask + 1) % counterSize = k + 1
        rw [h.nextTask, Nat.mod_eq_of_lt hlt]
      · show ((sendNext t (claim t (owner k) s) (.send (owner k))).workers flow).phase = _
        by_cases hf : flow = owner k
        · rw [hf, hsent, sendTask_of_sending hphase]
        · rw [hother flow hf, h.phase]
      · show ((sendNext t (claim t (owner k) s) (.send (owner k))).workers flow).claimed = _
        by_cases hf : flow = owner k
        · rw [hf, hsent, claimed_sendTask, hworker, h.claimed, tasksOf_succ, if_pos rfl, List.reverse_append]
          rfl
        · rw [hother flow hf, h.claimed, tasksOf_succ, if_neg (Ne.symm hf), List.append_nil]
      · show ((sendNext t (claim t (owner k) s) (.send (owner k))).workers flow).stream = _
        by_cases hf : flow = owner k
        · rw [hf, hsent, sendTask_of_sending hphase, hworker, tasksOf_succ, if_pos rfl, Sending.frames_concat, h.stream]
          simp [pendingBytes, hfits, Sending.frame]
        · rw [hother flow hf, h.stream, tasksOf_succ, if_neg (Ne.symm hf), List.append_nil]

/-- After the last task, the first workers send their terminators. -/
theorem exists_finished (hw : NoWrap t)
    (howner : ∀ task < t.taskCount, owner task < t.flows ∧ (t.taskHeader (owner task) task).Fits) {n : Nat}
    (hn : n ≤ t.flows) (hfits : ∀ flow < n, (t.terminator flow).Fits) :
    ∃ s, (sendMachine t).Reaches .initial s ∧ ∀ flow < n,
      (s.workers flow).stream = t.frames flow (tasksOf owner t.taskCount flow) ++ (t.terminator flow).pack := by
  rw [NoWrap] at hw
  have hpos := t.flows_pos
  obtain ⟨s, hs⟩ := exists_scheduled howner (Nat.le_refl _) (by omega)
  suffices h : ∀ j ≤ n, ∃ s', (sendMachine t).Reaches .initial s' ∧ s'.nextTask = (t.taskCount + j) % counterSize ∧
      (∀ flow, j ≤ flow → s'.workers flow = s.workers flow) ∧ ∀ flow < j,
        (s'.workers flow).stream = t.frames flow (tasksOf owner t.taskCount flow) ++ (t.terminator flow).pack by
    obtain ⟨s', hreach, -, -, hstream⟩ := h n (Nat.le_refl _)
    exact ⟨s', hreach, hstream⟩
  intro j hj
  induction j with
  | zero =>
      refine ⟨s, hs.reached, ?_, fun _ _ => rfl, fun flow hf => by omega⟩
      rw [hs.nextTask, Nat.add_zero, Nat.mod_eq_of_lt (by omega)]
  | succ j ih =>
      obtain ⟨s', hreach, hnext, hrest, hdone⟩ := ih (by omega)
      have hnext' : s'.nextTask = t.taskCount + j := by rw [hnext, Nat.mod_eq_of_lt (by omega)]
      have hsame : s'.workers j = s.workers j := hrest j (Nat.le_refl _)
      have hclaim : (sendMachine t).Enabled s' (.claim j) := ⟨by omega, by rw [hsame]; exact hs.phase j⟩
      have hworker : (claim t j s').workers j = { s'.workers j with phase := .finishing } := by
        simp [claim, claimTask, hnext']
      have hfinish : (sendMachine t).Enabled (claim t j s') (.finish j) :=
        ⟨by omega, by rw [hworker], hfits j (by omega)⟩
      have hother : ∀ flow, flow ≠ j → (sendNext t (claim t j s') (.finish j)).workers flow = s'.workers flow := by
        intro flow hne
        simp [sendNext, claim, hne]
      refine ⟨_, (hreach.tail hclaim).tail hfinish, ?_, fun flow hf => ?_, fun flow hf => ?_⟩
      · show (s'.nextTask + 1) % counterSize = _
        rw [hnext', Nat.add_assoc]
      · exact (hother flow (by omega)).trans (hrest flow (by omega))
      · show ((sendNext t (claim t j s') (.finish j)).workers flow).stream = _
        by_cases hfj : flow = j
        · have hend : (sendNext t (claim t j s') (.finish j)).workers j = finish t j ((claim t j s').workers j) := by
            simp [sendNext]
          rw [hfj, hend, hworker, finish, hsame, hs.stream]
          simp [pendingBytes, hfits j (by omega)]
        · rw [hother flow hfj]
          exact hdone flow (by omega)

/-! ## Tasks in rounds -/

/-- The tasks come in rounds of `n`. In every round, one worker changes places with another; the tasks after the last round
go to one worker. -/
def roundOwner (n rounds flow : Nat) (target : Nat → Nat) (other task : Nat) : Nat :=
  if task < rounds * n then Equiv.swap flow (target (task / n)) (task % n) else other

theorem filter_eq_singleton {n x : Nat} (hx : x < n) {p : Nat → Bool} (hp : ∀ y < n, p y = true ↔ y = x) :
    (List.range n).filter p = [x] := by
  have hsame : (List.range n).filter p = (List.range n).filter (· = x) :=
    List.filter_congr fun y hy => Bool.eq_iff_iff.mpr ((hp y (List.mem_range.mp hy)).trans decide_eq_true_iff.symm)
  rw [hsame, List.filter_eq, List.count_eq_one_of_mem List.nodup_range (List.mem_range.mpr hx), List.replicate_one]

variable {n rounds f : Nat} {target : Nat → Nat} {other : Nat}

theorem swap_lt (hflow : flow < n) (htarget : target count < n) (hf : f < n) :
    Equiv.swap flow (target count) f < n := by
  rw [Equiv.swap_apply_def]
  split
  · exact htarget
  · split
    · exact hflow
    · exact hf

/-- One task of every round goes to a worker. -/
theorem tasksOf_rounds (hflow : flow < n) (htarget : ∀ k, target k < n) (hf : f < n) {k : Nat} (hk : k ≤ rounds) :
    tasksOf (roundOwner n rounds flow target other) (k * n) f =
      (List.range k).map fun j => j * n + Equiv.swap flow (target j) f := by
  induction k with
  | zero => simp [tasksOf]
  | succ k ih =>
      have hin : ∀ y < n, k * n + y < rounds * n := fun y hy => by
        have := Nat.mul_le_mul_right n hk
        rw [Nat.succ_mul] at this
        omega
      have hlast : ((List.range n).map (k * n + ·)).filter
          (fun task => roundOwner n rounds flow target other task = f) = [k * n + Equiv.swap flow (target k) f] := by
        rw [List.filter_map, filter_eq_singleton (swap_lt hflow (htarget k) hf), List.map_singleton]
        intro y hy
        have hdiv : (k * n + y) / n = k := Nat.div_eq_of_lt_le (Nat.le_add_right ..) (by rw [Nat.succ_mul]; omega)
        have hmod : (k * n + y) % n = y := by rw [Nat.mul_comm, Nat.mul_add_mod, Nat.mod_eq_of_lt hy]
        simp only [Function.comp_apply, roundOwner, if_pos (hin y hy), hdiv, hmod, decide_eq_true_eq]
        exact ⟨fun h => by rw [← h, Equiv.swap_apply_self], fun h => by rw [h, Equiv.swap_apply_self]⟩
      have hsplit : tasksOf (roundOwner n rounds flow target other) ((k + 1) * n) f =
          tasksOf (roundOwner n rounds flow target other) (k * n) f ++
            ((List.range n).map (k * n + ·)).filter (fun task => roundOwner n rounds flow target other task = f) := by
        rw [tasksOf, Nat.succ_mul, List.range_add, List.filter_append, ← tasksOf]
      rw [hsplit, ih (by omega), hlast, List.range_succ, List.map_append, List.map_singleton]

theorem exists_tasksOf (other : Nat) (hflow : flow < n) (htarget : ∀ k, target k < n) (hf : f < n) {count : Nat}
    (hcount : rounds * n ≤ count) : ∃ more, tasksOf (roundOwner n rounds flow target other) count f =
      (List.range rounds).map (fun j => j * n + Equiv.swap flow (target j) f) ++ more ∧
        (rounds * n = count ∨ other ≠ f → more = []) := by
  obtain ⟨rest, rfl⟩ := Nat.exists_eq_add_of_le hcount
  refine ⟨((List.range rest).map (rounds * n + ·)).filter (fun task => roundOwner n rounds flow target other task = f),
    ?_, fun h => ?_⟩
  · rw [← tasksOf_rounds hflow htarget hf (Nat.le_refl _), tasksOf, List.range_add, List.filter_append, ← tasksOf]
  · rw [List.filter_eq_nil_iff]
    intro task htask
    obtain ⟨j, hj, rfl⟩ := List.mem_map.mp htask
    have hrest := List.mem_range.mp hj
    rcases h with hend | hne
    · omega
    · simpa [roundOwner] using hne

end Dynamic

end Rdma4py.Transport
