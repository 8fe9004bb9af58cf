import Rdma4py.NvmeQueue.Lemmas.Handed
import Rdma4py.NvmeQueue.Shutdown

/-!
# The resources of a queue, from construction on

What one `close` does, and what holds of the resources in every state of a run.
-/

namespace Rdma4py.NvmeQueue

open Rdma4py.Lib

/-! ## The flag `_closed` -/

theorem submit_closed (w : World) (command : List UInt8) (dataOwner : Option Nat) (post : Option Exn) :
    (submit w command dataOwner post).1.queue.closed = w.queue.closed := by
  rw [submit]
  rcases submitWrite_cases w command dataOwner with ⟨_, e, he⟩ | ⟨-, -, cid, free, -, he⟩
  · rw [he]
  · rw [he]
    cases post <;> rfl

theorem executeStart_closed (w : World) (command : List UInt8) (dataOwner : Option Nat) (timeout now : Int)
    (post : Option Exn) : (executeStart w command dataOwner timeout now post).1.queue.closed = w.queue.closed := by
  have hsubmit := submit_closed w command dataOwner post
  unfold executeStart
  split
  · next heq => rwa [heq] at hsubmit
  · next heq => rwa [heq] at hsubmit

theorem executeIteration_closed (w : World) (x : Execution) (count : Nat) (now : Int) :
    (executeIteration w x count now).1.queue.closed = w.queue.closed := by
  have hpoll := (poll_settings w none count).closed
  unfold executeIteration
  split
  · rfl
  split
  · next heq => rwa [heq] at hpoll
  · next heq =>
      rw [heq] at hpoll
      dsimp only
      split
      · exact hpoll
      · exact hpoll

/-- Only `close` writes the flag. -/
theorem World.step_closed (w : World) (e : Event) : (w.step e).1.queue.closed = w.queue.closed := by
  cases e with
  | submit command dataOwner post =>
      have hsubmit := submit_closed w command dataOwner post
      unfold World.step
      dsimp only
      split
      · next heq => rwa [heq] at hsubmit
      · next heq => rwa [heq] at hsubmit
  | poll maxEntries count =>
      have hpoll := (poll_settings w maxEntries count).closed
      unfold World.step
      dsimp only
      split
      · next heq => rwa [heq] at hpoll
      · next heq => rwa [heq] at hpoll
  | execute command dataOwner timeout now post => exact executeStart_closed w command dataOwner timeout now post
  | iterate count now =>
      unfold World.step
      dsimp only
      split
      · exact executeIteration_closed _ _ _ _
      · rfl
  | deliver =>
      unfold World.step
      dsimp only
      split <;> rfl
  | complete i =>
      unfold World.step
      dsimp only
      split <;> rfl
  | answer i data =>
      unfold World.step
      dsimp only
      split <;> rfl

/-! ## One `close` -/

namespace Resource

theorem nodup_order : order.Nodup := by decide

theorem mem_order (r : Resource) : r ∈ order := by cases r <;> decide

end Resource

namespace Owner

/-- The early return is taken when a shut queue holds nothing. -/
def Released (s : Owner) : Prop := s.world.queue.closed = true ∧ ∀ r, s.resources.held r = false

theorem close_of_released {s : Owner} (h : s.Released) (c : Closing) : s.close c = (s, none) := by
  rw [close, if_pos]
  exact ⟨h.1, fun r _ => h.2 r⟩

@[simp] theorem disconnect_world (s : Owner) (c : Closing) : (s.disconnect c).world = s.world := by
  unfold disconnect
  split <;> rfl

@[simp] theorem disconnect_resources (s : Owner) (c : Closing) : (s.disconnect c).resources = s.resources := by
  unfold disconnect
  split <;> rfl

/-- The resources after a `close`, whether or not it returned early. -/
theorem close_resources (s : Owner) (c : Closing) :
    (s.close c).1.resources = (s.resources.release c.raises Resource.order).1 ∧
      (s.close c).2 = (s.resources.release c.raises Resource.order).2.head? := by
  unfold close
  split
  · next h =>
      -- nothing is held, and a release of nothing does nothing
      have hidle : ∀ rs : List Resource, (∀ r ∈ rs, s.resources.held r = false) →
          s.resources.release c.raises rs = (s.resources, []) := by
        intro rs hrs
        induction rs with
        | nil => rfl
        | cons r rs ih =>
            obtain ⟨hr, hrs⟩ := List.forall_mem_cons.mp hrs
            simp [Holder.release, hr, ih hrs]
      rw [hidle Resource.order h.2]
      exact ⟨rfl, rfl⟩
  · simp

theorem close_closed (s : Owner) (c : Closing) : (s.close c).1.world.queue.closed = true := by
  unfold close
  split
  · next h => exact h.1
  · simp [World.shut]

theorem close_attempts (s : Owner) (c : Closing) :
    (s.close c).1.resources.attempts =
      s.resources.attempts ++ (Resource.order.filter s.resources.held).map fun r => ⟨r, c.raises r⟩ := by
  rw [(s.close_resources c).1, Holder.release_attempts c.raises Resource.nodup_order]

theorem close_returns_iff (s : Owner) (c : Closing) :
    (s.close c).2 = none ↔ ∀ r, s.resources.held r = true → c.raises r = none := by
  rw [(s.close_resources c).2, List.head?_eq_none_iff, Holder.release_errors_eq_nil c.raises Resource.nodup_order]
  simp [Resource.mem_order]

/-- A `close` that returns leaves nothing to close. -/
theorem close_released {s : Owner} {c : Closing} (h : (s.close c).2 = none) : (s.close c).1.Released := by
  refine ⟨s.close_closed c, ?_⟩
  intro r
  rw [(s.close_resources c).1, ← Bool.not_eq_true, Holder.release_held c.raises Resource.nodup_order]
  rintro ⟨hheld, hraised⟩
  exact hraised (Resource.mem_order r) ((s.close_returns_iff c).mp h r hheld)

/-! ## Construction -/

theorem run_resources (s : Owner) (stage : Stage) :
    (s.run stage).resources = (stage.resource.map s.resources.hold).getD s.resources := by
  cases stage <;> rfl

theorem runAll_sound {raises : Stage → Option Exn} {stages : List Stage}
    (hnodup : (stages.filterMap Stage.resource).Nodup) {s : Owner} (hs : s.resources.Sound)
    (hfresh : ∀ r ∈ stages.filterMap Stage.resource, r ∉ s.resources.opened) :
    (s.runAll raises stages).1.resources.Sound := by
  induction stages generalizing s with
  | nil => exact hs
  | cons stage stages ih =>
      rw [runAll]
      cases hraises : raises stage with
      | some e => exact hs
      | none =>
          cases hresource : stage.resource with
          | none =>
              rw [List.filterMap_cons_none hresource] at hnodup hfresh
              have hsame : (s.run stage).resources = s.resources := by simp [run_resources, hresource]
              exact ih hnodup (by rwa [hsame]) (by rwa [hsame])
          | some r =>
              rw [List.filterMap_cons_some hresource] at hnodup hfresh
              obtain ⟨hr, hnodup⟩ := List.nodup_cons.mp hnodup
              obtain ⟨hnew, hfresh⟩ := List.forall_mem_cons.mp hfresh
              have hhold : (s.run stage).resources = s.resources.hold r := by simp [run_resources, hresource]
              refine ih hnodup ?_ ?_
              · rw [hhold]
                exact hs.hold hnew
              · intro r' hr'
                have hne : r' ≠ r := by
                  rintro rfl
                  exact hr hr'
                simp [hhold, hfresh r' hr', hne]

theorem runAll_opened {raises : Stage → Option Exn} {stages : List Stage} {s : Owner}
    (h : (s.runAll raises stages).2 = none) :
    (s.runAll raises stages).1.resources.opened = s.resources.opened ++ stages.filterMap Stage.resource := by
  induction stages generalizing s with
  | nil => simp [runAll]
  | cons stage stages ih =>
      rw [runAll] at h ⊢
      cases hraises : raises stage with
      | some e => simp [hraises] at h
      | none =>
          simp only [hraises] at h ⊢
          rw [ih h, run_resources]
          cases hresource : stage.resource with
          | none => simp [hresource]
          | some r => simp [hresource]

/-- When nothing raises, every statement runs. -/
theorem runAll_eq {raises : Stage → Option Exn} {stages : List Stage} {s t : Owner}
    (h : s.runAll raises stages = (t, none)) : t = stages.foldl run s := by
  induction stages generalizing s with
  | nil =>
      rw [runAll] at h
      cases h
      rfl
  | cons stage stages ih =>
      rw [runAll] at h
      cases hraises : raises stage with
      | some e =>
          rw [hraises] at h
          cases h
      | none =>
          rw [hraises] at h
          exact ih h

theorem nodup_resources_order : (Stage.order.filterMap Stage.resource).Nodup := by decide

theorem mem_resources_order (r : Resource) : r ∈ Stage.order.filterMap Stage.resource := by cases r <;> decide

section Construct

variable (depth : Nat) (commands responses : Memory UInt8) (raises : Stage → Option Exn) (c : Closing)

theorem construct_sound : (construct depth commands responses raises c).1.resources.Sound := by
  have hsound : ((blank depth commands responses).runAll raises Stage.order).1.resources.Sound :=
    runAll_sound nodup_resources_order .empty (by simp [blank])
  unfold construct
  split
  · next heq => rwa [heq] at hsound
  · next heq =>
      rw [heq] at hsound
      rw [(close_resources _ c).1]
      exact hsound.release c.raises Resource.order

/-- A queue that was built has all its resources. -/
theorem construct_opened (h : (construct depth commands responses raises c).2 = none) (r : Resource) :
    r ∈ (construct depth commands responses raises c).1.resources.opened := by
  have hopened : ((blank depth commands responses).runAll raises Stage.order).2 = none →
      ((blank depth commands responses).runAll raises Stage.order).1.resources.opened =
        (blank depth commands responses).resources.opened ++ Stage.order.filterMap Stage.resource :=
    runAll_opened
  unfold construct at h ⊢
  split at h
  · next heq =>
      rw [heq] at hopened
      rw [hopened rfl]
      exact mem_resources_order r
  · exact nomatch h

/-- A queue that was not built is shut. -/
theorem construct_closed (h : (construct depth commands responses raises c).2 ≠ none) :
    (construct depth commands responses raises c).1.world.queue.closed = true := by
  unfold construct at h ⊢
  split at h
  · exact absurd rfl h
  · exact close_closed _ c

end Construct

/-- A queue that was built has run every statement. -/
theorem construct_eq {depth : Nat} {commands responses : Memory UInt8} {raises : Stage → Option Exn} {c : Closing}
    {t : Owner} (h : construct depth commands responses raises c = (t, none)) :
    t = Stage.order.foldl run (blank depth commands responses) := by
  unfold construct at h
  split at h
  · next heq =>
      cases h
      exact runAll_eq heq
  · cases h

/-! ## Runs -/

theorem sound_step {s : Owner} (hs : s.resources.Sound) (call : Call) : (ownership.next s call).resources.Sound := by
  cases call with
  | close c =>
      show (s.close c).1.resources.Sound
      rw [(s.close_resources c).1]
      exact hs.release c.raises Resource.order
  | event e => exact hs

theorem sound_run {s t : Owner} (h : ownership.Reaches s t) (hs : s.resources.Sound) : t.resources.Sound :=
  h.invariant (I := fun s => s.resources.Sound) (fun _ call hs _ => sound_step hs call) hs

theorem opened_run {s t : Owner} (h : ownership.Reaches s t) (r : Resource) (hr : r ∈ s.resources.opened) :
    r ∈ t.resources.opened := by
  refine h.invariant (I := fun s => r ∈ s.resources.opened) ?_ hr
  intro s call hr _
  cases call with
  | close c =>
      show r ∈ (s.close c).1.resources.opened
      rwa [(s.close_resources c).1, Holder.release_opened]
  | event e => exact hr

/-- A queue that was shut stays shut. -/
theorem closed_run {s t : Owner} (h : ownership.Reaches s t) (hs : s.world.queue.closed = true) :
    t.world.queue.closed = true := by
  refine h.invariant (I := fun s => s.world.queue.closed = true) ?_ hs
  intro s call hs _
  cases call with
  | close c => exact s.close_closed c
  | event e => exact (s.world.step_closed e).trans hs

/-- What was released stays so. -/
theorem released_run {s t : Owner} (h : ownership.Reaches s t) (hs : s.Released) : t.Released := by
  refine h.invariant (I := Released) ?_ hs
  intro s call hs _
  cases call with
  | close c =>
      show (s.close c).1.Released
      rwa [close_of_released hs]
  | event e => exact ⟨(s.world.step_closed e).trans hs.1, hs.2⟩

end Owner

end Rdma4py.NvmeQueue
