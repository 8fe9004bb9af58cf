import Rdma4py.NvmeController.Lemmas.StorageCalls

/-!
# The storage that a program sees

A program that calls namespaces sees disks whose ranges are moved in one step each, whatever the link and the target do
in between. What it stored it reads back.
-/

namespace Rdma4py.NvmeController.Storage

open Rdma4py.Lib
open NvmeQueue (Exn World Outcome executeStart executeIteration)

deriving instance DecidableEq for NvmeQueue.Outcome

variable {t : Target} {s s' : System} {m m' : Media} {steps before between : List Step} {w r : Call}

/-- The namespace and the buffer of a call are what the target knows. -/
def Call.Served (t : Target) : Call → Prop
  | .read ns buffer .. | .write ns buffer .. => Storage.Served t ns buffer
  | .flush ns => 1 ≤ ns.maxTransferBytes

/-- The calls of a program, all but perhaps the last of them in time. -/
structure Timely (t : Target) (steps : List Step) : Prop where
  served : ∀ c result, .call c result ∈ steps → c.Served t
  timely : ∀ step ∈ steps.dropLast, ¬ step.TimedOut

/-- One call. -/
theorem call_returns {c : Call} {result : Except Exn Unit} {fuel : Nat} {execute : Nat → Option Exn} {actions : List Action}
    (hc : c.Served t) (h : c.run fuel execute = some (actions, result)) (hp : Performs t execute 0 s (issued actions) s')
    (hi : Idle s) : Returns c.transfer.copy c.ns.maxTransferBytes s.media result s' := by
  cases c with
  | read ns buffer gpu slba blocks offset => exact transfer_returns hc (.inl rfl) h hp hi
  | write ns buffer gpu slba blocks offset => exact transfer_returns hc (.inr rfl) h hp hi
  | flush ns =>
      have hlimit : 1 ≤ ns.maxTransferBytes := hc
      have hrun : ns.flush execute = (actions, result) := Option.some.inj h
      have hflush : Performs t execute 0 s (issued (ns.flush execute).1) s' := by
        rw [hrun]
        exact hp
      have hreturns := flush_returns (by omega) hflush hi
      rwa [hrun] at hreturns

/-- A call that returned has had its effect. -/
theorem Returns.effect {c : Call} {result : Except Exn Unit}
    (h : Returns c.transfer.copy c.ns.maxTransferBytes m result s) :
    c.Effect m s.media result ∧ (¬ (Step.call c result).TimedOut → Idle s) := by
  rcases h with ⟨rfl, hidle, hmade⟩ | ⟨e, moved, opened, rfl, hidle, hopen, hmoved⟩
  · exact ⟨hmade, fun _ => hidle⟩
  · refine ⟨⟨moved, opened, hopen, hmoved⟩, ?_⟩
    intro htimely
    apply hidle
    rintro text rfl
    exact htimely trivial

theorem Timely.tail {step : Step} (h : Timely t (step :: steps)) : Timely t steps := by
  refine ⟨fun c result hc => h.served c result (List.mem_cons_of_mem step hc), ?_⟩
  cases steps with
  | nil => simp
  | cons next rest => exact fun x hx => h.timely x (List.mem_cons_of_mem step hx)

theorem Session.follows (h : Session t s steps s') (ht : Timely t steps) (hi : Idle s) :
    Follows s.media steps s'.media ∧ ((∀ step ∈ steps, ¬ step.TimedOut) → Idle s') := by
  induction h with
  | nil s => exact ⟨.nil _, fun _ => hi⟩
  | @call s c result steps s₁ s' fuel execute actions hrun hp hsession ih =>
      obtain ⟨heffect, hidle⟩ := (call_returns (ht.served c result List.mem_cons_self) hrun hp hi).effect
      cases steps with
      | nil =>
          cases hsession
          exact ⟨.call heffect (.nil _), fun htimely => hidle (htimely _ List.mem_cons_self)⟩
      | cons next rest =>
          have hfirst : ¬ (Step.call c result).TimedOut := ht.timely _ List.mem_cons_self
          obtain ⟨hfollows, hlast⟩ := ih ht.tail (hidle hfirst)
          exact ⟨.call heffect hfollows, fun htimely => hlast fun step hstep => htimely step (List.mem_cons_of_mem _ hstep)⟩
  | @stores s media steps s' hsame hsession ih =>
      obtain ⟨hfollows, hlast⟩ := ih ht.tail ⟨hi.settled, hi.executing, hi.pending⟩
      exact ⟨.stores hsame hfollows, fun htimely => hlast fun step hstep => htimely step (List.mem_cons_of_mem _ hstep)⟩

/-- A queue that has answered all its commands. -/
structure Fresh (s : System) : Prop where
  reached : ∃ w₀ : World, w₀.Initial ∧ NvmeQueue.process.Reaches w₀ s.io
  executing : s.io.executing = none
  pending : ∀ cid r, s.io.queue.pending.lookup cid ≠ some r

theorem Fresh.idle (h : Fresh s) : Idle s := by
  obtain ⟨w₀, hi, hr⟩ := h.reached
  exact ⟨.run hi hr, h.executing, h.pending⟩

/-- **Refinement.** A program calls namespaces, and none of its calls but the last one times out. Then the media are as if
each call had moved its range in one step, whatever the link and the target did in between: a call that raises has moved a
front of its range, and no more than one command's bytes are open. If no call times out, the target holds no capsule in the
end. -/
theorem session_refines (hs : Fresh s) (h : Session t s steps s') (ht : Timely t steps) :
    Follows s.media steps s'.media ∧ ((∀ step ∈ steps, ¬ step.TimedOut) →
      s'.io.link.capsules = [] ∧ s'.io.link.undelivered = []) := by
  obtain ⟨hfollows, hidle⟩ := h.follows ht hs.idle
  refine ⟨hfollows, fun htimely => ⟨(hidle htimely).capsules, ?_⟩⟩
  have hlast := hidle htimely
  cases hundelivered : s'.io.link.undelivered with
  | nil => rfl
  | cons x xs =>
      have hopen := hlast.settled.sound.core.posted_open (x := x) (.inl (by rw [hundelivered]; exact List.mem_cons_self))
      exact absurd hopen (hlast.pending _ _)

/-! ## One block -/

namespace Block

/-- A namespace of 100 blocks, and a buffer of one page. -/
def ns : Namespace := ⟨1, 512, 100, 1024⟩

def buffer : Region := ⟨4096, 4096, 7⟩

def target : Target where
  lbaSize _ := 512
  region key := if key = 7 then some buffer else none

/-- The front of the buffer is written to block 10, and read into its second half. -/
def stored : Call := .write ns buffer false 10 (some 1) 0

def loaded : Call := .read ns buffer false 10 (some 1) 2048

/-- The command of a call that executes one. -/
def command (c : Call) : List UInt8 := ((c.run 2 fun _ => none).bind fun x => (issued x.1).head?).getD []

/-- The queue after the start of `execute`, after the delivery, and after the answer and the completion. -/
def begun (w : World) (c : Call) : World := (executeStart w (command c) none 30 0 none).1

def delivered (w : World) (c : Call) : World := ((begun w c).step .deliver).1

def answered (w : World) (c : Call) : World :=
  (((delivered w c).step (.answer 0 (List.replicate 16 0))).1.step (.complete 0)).1

/-- The execution in progress. -/
def execution (w : World) : NvmeQueue.Execution := w.executing.getD ⟨0, 0⟩

def polled (w : World) (c : Call) : World := (executeIteration (answered w c) (execution (answered w c)) 4 0).1

def ended (w : World) (c : Call) : World := (executeIteration (polled w c) (execution (polled w c)) 4 0).1

/-- The target moves the bytes and answers before the first poll. -/
structure Goes (w : World) (c : Call) : Prop where
  starts : (executeStart w (command c) none 30 0 none).2 = .running
  sent : (begun w c).Enabled .deliver
  decodes : ((delivered w c).link.capsules[0]?).bind (fun x => target.decode x.bytes) = some c.transfer
  answers : (delivered w c).Enabled (.answer 0 (List.replicate 16 0))
  completes : ((delivered w c).step (.answer 0 (List.replicate 16 0))).1.Enabled (.complete 0)
  executing : (answered w c).executing.isSome
  polls : (executeIteration (answered w c) (execution (answered w c)) 4 0).2 = .running
  executing' : (polled w c).executing.isSome
  ends : (executeIteration (polled w c) (execution (polled w c)) 4 0).2 = .executed ⟨0, 0, 0, 0, 0⟩

theorem executing_eq {w : World} (h : w.executing.isSome) : w.executing = some (execution w) := by
  cases hx : w.executing with
  | none =>
      rw [hx] at h
      cases h
  | some x => rw [execution, hx, Option.getD_some]

theorem Goes.executes {c : Call} (h : Goes s.io c) :
    Executes target (command c) s (.executed ⟨0, 0, 0, 0, 0⟩) ⟨ended s.io c, c.transfer.run s.media⟩ := by
  obtain ⟨x, hx, hdecode⟩ := Option.bind_eq_some_iff.mp h.decodes
  have hdone := c.transfer.run_done s.media
  refine .begins none 30 0 none (begun s.io c) (Prod.ext rfl h.starts) ?_
  refine .waits (.link .deliver) ⟨trivial, h.sent, trivial⟩ ?_
  refine .waits (.move 0 (c.transfer.run s.media)) ⟨x, c.transfer, hx, hdecode, c.transfer.run_within s.media⟩ ?_
  refine .waits (.link (.answer 0 (List.replicate 16 0))) ⟨trivial, h.answers, ?_⟩ ?_
  · intro _ y z hy hz
    have hy : (delivered s.io c).link.capsules[0]? = some y := hy
    rw [hx] at hy
    rw [← Option.some.inj hy, hdecode] at hz
    rw [← Option.some.inj hz]
    exact hdone
  refine .waits (.link (.complete 0)) ⟨trivial, h.completes, trivial⟩ ?_
  refine .goesOn (execution (answered s.io c)) 4 0 (polled s.io c) (executing_eq h.executing) (Prod.ext rfl h.polls) ?_
  exact .ends (execution (polled s.io c)) 4 0 (ended s.io c) _ (executing_eq h.executing') (Prod.ext rfl h.ends) (by simp)

/-- A new queue, an empty disk, and a byte at each address of the host. -/
def fresh : World := .initial 2 (fun _ => 0) (fun _ => 0)

def start : System := ⟨fresh, fun place => match place with | .host addr => UInt8.ofNat (addr / 3) | .disk .. => 0⟩

theorem goes : Goes fresh stored ∧ Goes (ended fresh stored) loaded := by
  constructor <;> constructor <;> decide

/-- Both calls are made, one after the other. -/
theorem session : ∃ s', Session target start [.call stored (.ok ()), .call loaded (.ok ())] s' := by
  have hstored : stored.run 2 (fun _ => none) = some ([.execute (command stored)], .ok ()) := by decide
  have hloaded : loaded.run 2 (fun _ => none) = some ([.execute (command loaded)], .ok ()) := by decide
  exact ⟨_, .call 2 _ _ hstored (.cons (goes.1.executes (s := start)) rfl (.nil _ _))
    (.call 2 _ _ hloaded (.cons goes.2.executes rfl (.nil _ _)) (.nil _))⟩

theorem fresh_start : Fresh start :=
  ⟨⟨fresh, ⟨2, _, _, by decide, by decide, rfl⟩, .refl _⟩, rfl, fun _ _ h => by cases h⟩

theorem timely : Timely target [.call stored (.ok ()), .call loaded (.ok ())] := by
  have hserved : Storage.Served target ns buffer := by constructor <;> decide
  refine ⟨?_, ?_⟩
  · intro c result hc
    simp only [List.mem_cons, Step.call.injEq, List.not_mem_nil, or_false] at hc
    rcases hc with ⟨rfl, rfl⟩ | ⟨rfl, rfl⟩ <;> exact hserved
  · simp [Step.TimedOut]

end Block

theorem session_refines_block : ∃ s', Session Block.target Block.start
    [.call Block.stored (.ok ()), .call Block.loaded (.ok ())] s' ∧
    Follows Block.start.media [.call Block.stored (.ok ()), .call Block.loaded (.ok ())] s'.media := by
  obtain ⟨s', h⟩ := Block.session
  exact ⟨s', h, (session_refines Block.fresh_start h Block.timely).1⟩

/-! ## Reading back -/

/-- The call writes to a byte of a disk. -/
def Call.Writes (c : Call) (nsid offset : Nat) : Prop :=
  c.transfer.stores = true ∧ c.transfer.nsid = nsid ∧ c.transfer.disk ≤ offset ∧ offset < c.transfer.disk + c.transfer.length

theorem Session.split (h : Session t s (before ++ steps) s') : ∃ s₁, Session t s before s₁ ∧ Session t s₁ steps s' := by
  induction before generalizing s with
  | nil => exact ⟨s, .nil s, h⟩
  | cons step before ih =>
      cases h with
      | call fuel execute actions hrun hp h =>
          obtain ⟨s₁, hbefore, hsteps⟩ := ih h
          exact ⟨s₁, .call fuel execute actions hrun hp hbefore, hsteps⟩
      | stores hsame h =>
          obtain ⟨s₁, hbefore, hsteps⟩ := ih h
          exact ⟨s₁, .stores hsame hbefore, hsteps⟩

theorem Follows.split (h : Follows m (before ++ steps) m') : ∃ m₁, Follows m before m₁ ∧ Follows m₁ steps m' := by
  induction before generalizing m with
  | nil => exact ⟨m, .nil m, h⟩
  | cons step before ih =>
      cases h with
      | call heffect h =>
          obtain ⟨m₁, hbefore, hsteps⟩ := ih h
          exact ⟨m₁, .call heffect hbefore, hsteps⟩
      | stores hsame h =>
          obtain ⟨m₁, hbefore, hsteps⟩ := ih h
          exact ⟨m₁, .stores hsame hbefore, hsteps⟩

theorem Timely.split (h : Timely t (before ++ steps)) (hne : steps ≠ []) :
    Timely t before ∧ (∀ step ∈ before, ¬ step.TimedOut) ∧ Timely t steps := by
  obtain ⟨hserved, htimely⟩ := h
  rw [List.dropLast_append_of_ne_nil hne] at htimely
  have hbefore : ∀ step ∈ before, ¬ step.TimedOut := fun step hstep => htimely step (List.mem_append_left _ hstep)
  refine ⟨⟨?_, ?_⟩, hbefore, ⟨?_, ?_⟩⟩
  · intro c result hc
    exact hserved c result (List.mem_append_left _ hc)
  · intro step hstep
    exact hbefore step (List.dropLast_subset before hstep)
  · intro c result hc
    exact hserved c result (List.mem_append_right _ hc)
  · intro step hstep
    exact htimely step (List.mem_append_right _ hstep)

theorem Call.Effect.within {c : Call} {result : Except Exn Unit} (h : c.Effect m m' result) : c.transfer.copy.Within m m' := by
  cases result with
  | error e =>
      obtain ⟨moved, opened, -, hmoved⟩ := h
      exact hmoved.within
  | ok u => exact Copy.Moved.within h

/-- A byte of a disk that no call writes to. -/
theorem Follows.kept {nsid offset : Nat} (h : Follows m steps m')
    (hkept : ∀ c result, .call c result ∈ steps → ¬ c.Writes nsid offset) : m' (.disk nsid offset) = m (.disk nsid offset) := by
  induction h with
  | nil m => rfl
  | @call m c result m₁ steps m' heffect _ ih =>
      rw [ih fun c result hc => hkept c result (List.mem_cons_of_mem _ hc)]
      apply heffect.within
      intro i hi htarget
      have hi : i < c.transfer.length := hi
      cases hstores : c.transfer.stores with
      | false => simp [Transfer.copy, hstores] at htarget
      | true =>
          simp only [Transfer.copy, hstores, if_true, Place.disk.injEq] at htarget
          exact hkept c result List.mem_cons_self ⟨hstores, htarget.1, by omega, by omega⟩
  | stores hsame _ ih =>
      rw [ih fun c result hc => hkept c result (List.mem_cons_of_mem _ hc)]
      exact hsame nsid offset

/-- **Reading back.** A byte that a `write` stored and that no later call writes to: the `read` that returns it brings the
byte that the buffer held when it was written. -/
theorem stored_is_read {offset : Nat} (hs : Fresh s)
    (h : Session t s (before ++ .call w (.ok ()) :: (between ++ [.call r (.ok ())])) s')
    (ht : Timely t (before ++ .call w (.ok ()) :: (between ++ [.call r (.ok ())])))
    (hw : w.Writes r.transfer.nsid offset) (hr : r.transfer.stores = false)
    (hin : r.transfer.disk ≤ offset ∧ offset < r.transfer.disk + r.transfer.length)
    (hkept : ∀ c result, .call c result ∈ between → ¬ c.Writes r.transfer.nsid offset) :
    ∃ s₁, Session t s before s₁ ∧ s'.media (.host (r.transfer.host + (offset - r.transfer.disk))) =
      s₁.media (.host (w.transfer.host + (offset - w.transfer.disk))) := by
  obtain ⟨s₁, hbefore, hrest⟩ := h.split
  obtain ⟨htbefore, hintime, htrest⟩ := ht.split (List.cons_ne_nil _ _)
  obtain ⟨hfollows, -⟩ := hrest.follows htrest ((hbefore.follows htbefore hs.idle).2 hintime)
  refine ⟨s₁, hbefore, ?_⟩
  cases hfollows with
  | @call _ _ _ m₂ _ _ hwritten hfollows =>
      obtain ⟨m₃, hbetween, hlast⟩ := hfollows.split
      cases hlast with
      | call hread hnil =>
          cases hnil
          obtain ⟨hstores, hnsid, hle, hlt⟩ := hw
          have hstored := Copy.Moved.copied hwritten (offset - w.transfer.disk)
            (show offset - w.transfer.disk < w.transfer.length by omega)
          have hloaded := Copy.Moved.copied hread (offset - r.transfer.disk)
            (show offset - r.transfer.disk < r.transfer.length by omega)
          simp only [Transfer.copy, hstores, if_true, hnsid, Nat.add_sub_cancel' hle] at hstored
          simp only [Transfer.copy, hr, Bool.false_eq_true, if_false, Nat.add_sub_cancel' hin.1] at hloaded
          rw [hloaded, hbetween.kept hkept, hstored]

/-- The second half of the buffer holds what the first half held. -/
theorem stored_is_read_block : ∃ s', Session Block.target Block.start
    ([] ++ .call Block.stored (.ok ()) :: ([] ++ [.call Block.loaded (.ok ())])) s' ∧
    ∃ s₁, Session Block.target Block.start [] s₁ ∧ s'.media (.host 6150) = s₁.media (.host 4102) := by
  obtain ⟨s', h⟩ := Block.session
  have hw : Block.stored.Writes Block.loaded.transfer.nsid 5126 := ⟨rfl, rfl, by decide, by decide⟩
  have hin : Block.loaded.transfer.disk ≤ 5126 ∧ 5126 < Block.loaded.transfer.disk + Block.loaded.transfer.length := by
    decide
  have hkept : ∀ c result, Step.call c result ∈ [] → ¬ c.Writes Block.loaded.transfer.nsid 5126 := by
    intro c result hc
    cases hc
  exact ⟨s', h, stored_is_read Block.fresh_start h Block.timely hw rfl hin hkept⟩

end Rdma4py.NvmeController.Storage
