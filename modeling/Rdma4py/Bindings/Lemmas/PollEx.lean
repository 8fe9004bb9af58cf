import Mathlib.Data.List.Count
import Mathlib.Data.List.Range
import Rdma4py.Bindings.PollEx

/-!
# `CQEx.poll`: what a session reads

Every entry that a session makes current is read; only a failure of `ibv_next_poll` keeps the entries from the caller.
-/

namespace Rdma4py.Bindings.CQEx

variable {cqx : CQEx} {queue : Nat → Entry} {p : Poll} {h : History}

/-- After these calls no session is open: every start that succeeded has its end. The sessions consumed so many
entries. -/
inductive Sessions : List Call → Nat → Prop
  | nil : Sessions [] 0
  | failed {calls : List Call} {k : Nat} {rc : Int} (h : Sessions calls k) (hrc : rc ≠ 0) :
      Sessions (calls ++ [.start rc]) k
  | session {calls : List Call} {k : Nat} (h : Sessions calls k) (rcs : List Int) :
      Sessions (calls ++ .start 0 :: rcs.map .next ++ [.endPoll]) (k + (1 + rcs.count 0))

/-- The entry after the first `j + 1` of a session cannot be had: `ibv_next_poll` fails before the limit. -/
def FailsAt (p : Poll) (left i j : Nat) : Prop :=
  j < left ∧ (∀ j' < j, p.next (i + j') = 0) ∧ p.next (i + j) ≠ 0 ∧ p.next (i + j) ≠ ENOENT

/-- The loop reads `m` entries from the current one on. -/
structure Reads (cqx : CQEx) (queue : Nat → Entry) (p : Poll) (left i k m : Nat) (rcs : List Int) (s : Session) :
    Prop where
  le : m ≤ left
  out : s.out = (List.range' k (1 + m)).map fun i => cqx.read (queue i)
  current : s.current = k + (1 + m)
  calls : s.calls = rcs.map .next
  count : rcs.count 0 = m
  raised : s.raised ≠ none ↔ ∃ j, FailsAt p left i j

theorem FailsAt.succ {left i j : Nat} (hi : p.next i = 0) : FailsAt p (left + 1) i (j + 1) ↔ FailsAt p left (i + 1) j := by
  have hshift : ∀ j, i + 1 + j = i + (j + 1) := by omega
  simp only [FailsAt, hshift, Nat.add_lt_add_iff_right]
  refine and_congr_right fun _ => and_congr_left fun _ => ⟨fun h j' hj' => h (j' + 1) (by omega), fun h j' hj' => ?_⟩
  cases j' with
  | zero => exact hi
  | succ j' => exact h j' (by omega)

theorem pollEntries_spec (cqx : CQEx) (queue : Nat → Entry) (p : Poll) (left i k : Nat) :
    ∃ m rcs, Reads cqx queue p left i k m rcs (pollEntries cqx queue p left i k) := by
  induction left generalizing i k with
  | zero => exact ⟨0, [], Nat.le_refl 0, rfl, rfl, rfl, rfl, by simp [pollEntries, FailsAt]⟩
  | succ left ih =>
      rw [pollEntries]
      have hfirst : ∀ j, FailsAt p (left + 1) i j → p.next i ≠ 0 → j = 0 ∧ p.next i ≠ ENOENT := by
        intro j hj hne
        cases j with
        | zero => exact ⟨rfl, hj.2.2.2⟩
        | succ j => exact absurd (hj.2.1 0 (by omega)) hne
      by_cases hempty : p.next i = ENOENT
      · have hne : p.next i ≠ 0 := by simp [hempty, ENOENT]
        rw [if_pos hempty]
        refine ⟨0, [p.next i], Nat.zero_le _, rfl, rfl, rfl, by simp [hne], by simp, ?_⟩
        rintro ⟨j, hj⟩
        exact absurd hempty (hfirst j hj hne).2
      rw [if_neg hempty]
      by_cases hrc : p.next i = 0
      · obtain ⟨m, rcs, hr⟩ := ih (i + 1) (k + 1)
        rw [if_neg (by simp [hrc])]
        refine ⟨m + 1, p.next i :: rcs, ?_, ?_, ?_, ?_, ?_, ?_⟩
        · exact Nat.succ_le_succ hr.le
        · simp [hr.out, Nat.add_comm 1, List.range'_succ]
        · simp [hr.current]
          omega
        · simp [hr.calls]
        · simp [hrc, hr.count]
        · refine hr.raised.trans ⟨fun ⟨j, hj⟩ => ⟨j + 1, (FailsAt.succ hrc).mpr hj⟩, fun ⟨j, hj⟩ => ?_⟩
          cases j with
          | zero => exact absurd hrc hj.2.2.1
          | succ j => exact ⟨j, (FailsAt.succ hrc).mp hj⟩
      · rw [if_pos hrc]
        refine ⟨0, [p.next i], Nat.zero_le _, rfl, rfl, rfl, by simp [hrc], fun _ => ⟨0, ?_⟩, by simp⟩
        exact ⟨by omega, by simp, hrc, hempty⟩

/-- A session of this `poll` has to end at a failure of `ibv_next_poll`. -/
def Fails (cqx : CQEx) (p : Poll) : Prop :=
  cqx.isOpen = true ∧ 0 < p.numEntries ∧ p.start = 0 ∧ ∃ j, FailsAt p (p.numEntries - 1).toNat 0 j

/-- What one `poll` does. -/
inductive Polled (cqx : CQEx) (queue : Nat → Entry) (h : History) (p : Poll) : History → Prop
  | rejected {e : Exn} (hf : ¬ Fails cqx p) :
      Polled cqx queue h p { h with results := h.results ++ [(p.numEntries, .error e)] }
  | notStarted {r : Except Exn (List WC)} (hf : ¬ Fails cqx p) (hn : 0 < p.numEntries) (hrc : p.start ≠ 0)
      (hr : ∀ out, r = .ok out → out = []) :
      Polled cqx queue h p
        { h with calls := h.calls ++ [.start p.start], results := h.results ++ [(p.numEntries, r)] }
  | session {m : Nat} {rcs : List Int} {s : Session} (hn : 0 < p.numEntries)
      (hr : Reads cqx queue p (p.numEntries - 1).toNat 0 h.current m rcs s) (hf : s.raised ≠ none ↔ Fails cqx p) :
      Polled cqx queue h p
        { current := s.current
          calls := h.calls ++ .start 0 :: s.calls ++ [.endPoll]
          results := h.results ++ [(p.numEntries, match s.raised with
            | none => .ok s.out
            | some e => .error e)] }

theorem poll_polled (cqx : CQEx) (queue : Nat → Entry) (h : History) (p : Poll) :
    Polled cqx queue h p (poll cqx queue h p) := by
  rw [poll]
  by_cases hopen : cqx.isOpen = true
  swap
  · rw [if_pos (by simpa using hopen)]
    exact .rejected fun hf => hopen hf.1
  rw [if_neg (by simp [hopen])]
  by_cases hn : p.numEntries ≤ 0
  · rw [if_pos hn]
    exact .rejected fun hf => absurd hf.2.1 (by omega)
  rw [if_neg hn]
  by_cases hempty : p.start = ENOENT
  · have hne : p.start ≠ 0 := by simp [hempty, ENOENT]
    rw [if_pos hempty]
    exact .notStarted (fun hf => hne hf.2.2.1) (by omega) hne (by simp)
  rw [if_neg hempty]
  by_cases hrc : p.start = 0
  swap
  · rw [if_pos hrc]
    exact .notStarted (fun hf => hrc hf.2.2.1) (by omega) hrc (by simp)
  rw [if_neg (by simp [hrc]), hrc]
  obtain ⟨m, rcs, hr⟩ := pollEntries_spec cqx queue p (p.numEntries - 1).toNat 0 h.current
  refine .session (by omega) hr (hr.raised.trans ?_)
  simp [Fails, hopen, hrc]
  intro _ _
  omega

/-! ## Sequences of calls -/

@[simp] theorem History.returned_append (h : History) (n : Int) (k : Nat) (calls : List Call)
    (r : Except Exn (List WC)) :
    History.returned ⟨k, calls, h.results ++ [(n, r)]⟩ = h.returned ++ r.toOption.getD [] := by
  simp [History.returned]

/-- The sessions are closed, the limits are kept, and the calls have returned every entry unless one of them failed. -/
structure Sound (cqx : CQEx) (queue : Nat → Entry) (ps : List Poll) (h : History) : Prop where
  sessions : Sessions h.calls h.current
  limit : ∀ r ∈ h.results, ∀ out, r.2 = .ok out → (out.length : Int) ≤ r.1
  length : h.returned.length ≤ h.current
  lossless : (∀ p ∈ ps, ¬ Fails cqx p) → h.returned = (List.range h.current).map fun i => cqx.read (queue i)
  lossy : (∃ p ∈ ps, Fails cqx p) → h.returned.length < h.current

variable {ps : List Poll} {h' : History}

/-- A call that starts no session returns nothing. -/
theorem Sound.unstarted (hs : Sound cqx queue ps h) (hf : ¬ Fails cqx p) {r : Except Exn (List WC)}
    (hr : ∀ out, r = .ok out → out = [] ∧ 0 < p.numEntries) {calls : List Call} (hcalls : Sessions calls h.current) :
    Sound cqx queue (ps ++ [p]) ⟨h.current, calls, h.results ++ [(p.numEntries, r)]⟩ := by
  have hnone : r.toOption.getD [] = [] := by
    cases r with
    | error e => rfl
    | ok out => exact (hr out rfl).1
  constructor
  case sessions => exact hcalls
  case limit =>
      intro r' hr' out hout
      rcases List.mem_append.mp hr' with hr' | hr'
      · exact hs.limit r' hr' out hout
      · obtain rfl := List.mem_singleton.mp hr'
        obtain ⟨rfl, hn⟩ := hr out hout
        simpa using Int.le_of_lt hn
  case length => simpa [hnone] using hs.length
  case lossless =>
      intro hall
      simpa [hnone] using hs.lossless fun q hq => hall q (by simp [hq])
  case lossy =>
      rintro ⟨q, hq, hfq⟩
      rcases List.mem_append.mp hq with hq | hq
      · simpa [hnone] using hs.lossy ⟨q, hq, hfq⟩
      · obtain rfl := List.mem_singleton.mp hq
        exact absurd hfq hf

theorem Sound.session (hs : Sound cqx queue ps h) {m : Nat} {rcs : List Int} {s : Session} (hn : 0 < p.numEntries)
    (hr : Reads cqx queue p (p.numEntries - 1).toNat 0 h.current m rcs s) (hf : s.raised ≠ none ↔ Fails cqx p) :
    Sound cqx queue (ps ++ [p])
      { current := s.current
        calls := h.calls ++ .start 0 :: s.calls ++ [.endPoll]
        results := h.results ++ [(p.numEntries, match s.raised with
          | none => .ok s.out
          | some e => .error e)] } := by
  have hm := hr.le
  have hsessions : Sessions (h.calls ++ .start 0 :: s.calls ++ [.endPoll]) s.current := by
    rw [hr.calls, hr.current, ← hr.count]
    exact hs.sessions.session rcs
  have hlen := hs.length
  cases hraised : s.raised with
  | none =>
      have hok : ¬ Fails cqx p := fun h => hf.mpr h hraised
      have hout : s.out.length = 1 + m := by simp [hr.out]
      constructor
      case sessions => exact hsessions
      case limit =>
          intro r' hr' out hout'
          rcases List.mem_append.mp hr' with hr' | hr'
          · exact hs.limit r' hr' out hout'
          · obtain rfl := List.mem_singleton.mp hr'
            obtain rfl : s.out = out := by simpa using hout'
            simp only [hout]
            omega
      case length =>
          simp [Except.toOption, hout, hr.current]
          omega
      case lossless =>
          intro hall
          have hprev := hs.lossless fun q hq => hall q (by simp [hq])
          have hsplit : List.range' 0 (h.current + (1 + m)) =
              List.range' 0 h.current ++ List.range' h.current (1 + m) := by
            rw [← List.range'_append_1, Nat.zero_add]
          simp [Except.toOption, hprev, hr.out, hr.current, List.range_eq_range', hsplit]
      case lossy =>
          rintro ⟨q, hq, hfq⟩
          rcases List.mem_append.mp hq with hq | hq
          · have := hs.lossy ⟨q, hq, hfq⟩
            simp [Except.toOption, hout, hr.current]
            omega
          · obtain rfl := List.mem_singleton.mp hq
            exact absurd hfq hok
  | some e =>
      have hfail : Fails cqx p := hf.mp (by simp [hraised])
      constructor
      case sessions => exact hsessions
      case limit =>
          intro r' hr' out hout'
          rcases List.mem_append.mp hr' with hr' | hr'
          · exact hs.limit r' hr' out hout'
          · obtain rfl := List.mem_singleton.mp hr'
            simp at hout'
      case length =>
          simp [Except.toOption, hr.current]
          omega
      case lossless => exact fun hall => absurd hfail (hall p (by simp))
      case lossy =>
          intro _
          simp [Except.toOption, hr.current]
          omega

theorem Sound.poll (hs : Sound cqx queue ps h) (p : Poll) : Sound cqx queue (ps ++ [p]) (poll cqx queue h p) := by
  have hp := poll_polled cqx queue h p
  generalize CQEx.poll cqx queue h p = h' at hp ⊢
  cases hp with
  | rejected hf => exact hs.unstarted hf (by simp) hs.sessions
  | notStarted hf hn hrc hr => exact hs.unstarted hf (fun out hout => ⟨hr out hout, hn⟩) (hs.sessions.failed hrc)
  | session hn hr hf => exact hs.session hn hr hf

theorem polls_sound (cqx : CQEx) (queue : Nat → Entry) (ps : List Poll) : Sound cqx queue ps (polls cqx queue ps) := by
  induction ps using List.reverseRecOn with
  | nil => exact ⟨.nil, by simp [polls, History.empty], Nat.le_refl 0, fun _ => rfl, by simp⟩
  | append_singleton ps p ih =>
      rw [polls, List.foldl_append]
      exact ih.poll p

end Rdma4py.Bindings.CQEx
