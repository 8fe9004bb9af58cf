import Rdma4py.ProcessGroup.Lemmas.RendezvousMessages

/-!
# The steps of a rendezvous

Every event changes one member, one connection or one backlog, and leaves the invariant.
-/

namespace Rdma4py.ProcessGroup.Rendezvous

open Lib Control

variable {S : Setting} {w w' : World} {rank r c c' p : Nat} {lanes : Lanes} {message request : PyValue} {a : Joined}
  {bytes : List UInt8} {phase : Phase} {conn : Conn}

/-! ## The parts of the world -/

namespace World

@[simp] theorem setPhase_phase : (w.setPhase rank phase).phase rank = phase := by simp [setPhase]

theorem setPhase_phase_of_ne (h : r ≠ rank) : (w.setPhase rank phase).phase r = w.phase r := by simp [setPhase, h]

theorem setUp_conns_of_ne (h : c' ≠ c) : (w.setUp c bytes).conns c' = w.conns c' := by simp [setUp, h]

@[simp] theorem setUp_up : ((w.setUp c bytes).conns c).up = bytes := by simp [setUp]

@[simp] theorem setUp_dialer : ((w.setUp c bytes).conns c').dialer = (w.conns c').dialer := by
  by_cases h : c' = c <;> simp [setUp, h]

@[simp] theorem setUp_target : ((w.setUp c bytes).conns c').target = (w.conns c').target := by
  by_cases h : c' = c <;> simp [setUp, h]

@[simp] theorem setUp_down : ((w.setUp c bytes).conns c').down = (w.conns c').down := by
  by_cases h : c' = c <;> simp [setUp, h]

theorem setDown_conns_of_ne (h : c' ≠ c) : (w.setDown c bytes).conns c' = w.conns c' := by simp [setDown, h]

@[simp] theorem setDown_down : ((w.setDown c bytes).conns c).down = bytes := by simp [setDown]

@[simp] theorem setDown_dialer : ((w.setDown c bytes).conns c').dialer = (w.conns c').dialer := by
  by_cases h : c' = c <;> simp [setDown, h]

@[simp] theorem setDown_target : ((w.setDown c bytes).conns c').target = (w.conns c').target := by
  by_cases h : c' = c <;> simp [setDown, h]

@[simp] theorem setDown_up : ((w.setDown c bytes).conns c').up = (w.conns c').up := by
  by_cases h : c' = c <;> simp [setDown, h]

@[simp] theorem connect_count : (w.connect conn).count = w.count + 1 := rfl

@[simp] theorem connect_conns : (w.connect conn).conns w.count = conn := by simp [connect]

theorem connect_conns_of_lt (h : c < w.count) : (w.connect conn).conns c = w.conns c := by
  have hne : c ≠ w.count := Nat.ne_of_lt h
  simp [connect, hne]

theorem connect_backlog_of_ne (h : conn.target ≠ rank) : (w.connect conn).backlog rank = w.backlog rank := by
  simp [connect, Ne.symm h]

theorem connect_backlog (h : conn.target = rank) : (w.connect conn).backlog rank = w.backlog rank ++ [w.count] := by
  subst h
  simp [connect]

theorem popBacklog_of_ne (h : r ≠ rank) : (w.popBacklog rank).backlog r = w.backlog r := by simp [popBacklog, h]

end World

/-! ## Bystanders -/

theorem undisturbed_refl (w : World) (rank : Nat) : Undisturbed w w rank where
  count := Nat.le_refl _
  target _ _ := rfl
  down _ _ := rfl
  backlog := ⟨[], by simp⟩
  fresh c hle hlt _ := absurd hlt (Nat.not_lt.mpr hle)
  dialer _ _ := rfl
  up _ _ := ⟨List.prefix_refl _, fun _ => rfl⟩
  sentDown _ _ := ⟨List.prefix_refl _, fun _ => rfl⟩
  others c hle hlt := absurd hlt (Nat.not_lt.mpr hle)

/-- A phase is nobody's connection. -/
theorem Undisturbed.setPhase (h : Undisturbed w w' r) : Undisturbed w (w'.setPhase rank phase) r :=
  ⟨⟨h.count, h.target, h.down, h.backlog, h.fresh⟩, h.dialer, h.up, h.sentDown, h.others⟩

theorem undisturbed_popBacklog (hr : r ≠ rank) : Undisturbed w (w.popBacklog rank) r :=
  { undisturbed_refl w r with
    backlog := ⟨[], by simp [World.popBacklog_of_ne hr]⟩
    fresh := fun _ hle hlt _ => absurd hlt (Nat.not_lt.mpr hle) }

theorem undisturbed_setUp (hr : r ≠ rank) (hdialer : (w.conns c).dialer = some rank) (hup : (w.conns c).up = []) :
    Undisturbed w (w.setUp c bytes) r where
  count := Nat.le_refl _
  target _ _ := World.setUp_target
  down _ _ := World.setUp_down
  backlog := ⟨[], by simp [World.setUp]⟩
  fresh c hle hlt _ := absurd hlt (Nat.not_lt.mpr hle)
  dialer _ _ := World.setUp_dialer
  up c' _ := by
    by_cases hc : c' = c
    · subst hc
      refine ⟨by simp [hup], fun h => ?_⟩
      rw [hdialer] at h
      exact absurd (Option.some.inj h).symm hr
    · rw [World.setUp_conns_of_ne hc]
      exact ⟨List.prefix_refl _, fun _ => rfl⟩
  sentDown _ _ := ⟨by simp, fun _ => World.setUp_down⟩
  others c hle hlt := absurd hlt (Nat.not_lt.mpr hle)

theorem undisturbed_setDown (hr : r ≠ rank) (htarget : (w.conns c).target = rank) (hdown : (w.conns c).down = [])
    (hq : Queue w r) : Undisturbed w (w.setDown c bytes) r where
  count := Nat.le_refl _
  target _ _ := World.setDown_target
  down c' hc' := by
    have hne : c' ≠ c := by
      rintro rfl
      exact hr ((hq.waiting c' hc').2.1.symm.trans htarget)
    rw [World.setDown_conns_of_ne hne]
  backlog := ⟨[], by simp [World.setDown]⟩
  fresh c hle hlt _ := absurd hlt (Nat.not_lt.mpr hle)
  dialer _ _ := World.setDown_dialer
  up _ _ := ⟨by simp, fun _ => World.setDown_up⟩
  sentDown c' _ := by
    by_cases hc : c' = c
    · subst hc
      exact ⟨by simp [hdown], fun h => absurd (h.symm.trans htarget) hr⟩
    · rw [World.setDown_conns_of_ne hc]
      exact ⟨List.prefix_refl _, fun _ => rfl⟩
  others c hle hlt := absurd hlt (Nat.not_lt.mpr hle)

/-- What a listener sees of a new connection. -/
theorem extends_connect (hdown : conn.down = []) (hq : Queue w r) : Extends w (w.connect conn) r where
  count := Nat.le_succ _
  target c hc := by rw [World.connect_conns_of_lt hc]
  down c hc := by rw [World.connect_conns_of_lt (hq.waiting c hc).1]
  backlog := by
    by_cases htarget : conn.target = r
    · exact ⟨[w.count], World.connect_backlog htarget, List.pairwise_singleton _ _, by simp [htarget, hdown]⟩
    · exact ⟨[], by simp [World.connect_backlog_of_ne htarget]⟩
  fresh c hle hlt htarget := by
    obtain rfl : c = w.count := by
      have : c < w.count + 1 := hlt
      omega
    rw [World.connect_conns] at htarget
    rw [World.connect_backlog htarget]
    simp

theorem undisturbed_connect (hdialer : conn.dialer ≠ some r) (hdown : conn.down = []) (hq : Queue w r) :
    Undisturbed w (w.connect conn) r where
  toExtends := extends_connect hdown hq
  dialer c hc := by rw [World.connect_conns_of_lt hc]
  up c hc := by
    rw [World.connect_conns_of_lt hc]
    exact ⟨List.prefix_refl _, fun _ => rfl⟩
  sentDown c hc := by
    rw [World.connect_conns_of_lt hc]
    exact ⟨List.prefix_refl _, fun _ => rfl⟩
  others c hle hlt := by
    obtain rfl : c = w.count := by
      have : c < w.count + 1 := hlt
      omega
    rw [World.connect_conns]
    exact ⟨hdialer, hdown⟩

theorem wired_connect (hs : Sound S w) (hconn : Wired S conn) :
    ∀ c < (w.connect conn).count, Wired S ((w.connect conn).conns c) := by
  intro c hc
  rw [World.connect_count] at hc
  by_cases hnew : c = w.count
  · rw [hnew, World.connect_conns]
    exact hconn
  · have hold : c < w.count := by omega
    rw [World.connect_conns_of_lt hold]
    exact hs.wired c hold

/-! ## The member that moves -/

/-- What was established for a phase holds when the member enters it. -/
theorem Sound.enter (hs : Sound S w) (hwired : ∀ c < w'.count, Wired S (w'.conns c)) (hqueue : Queue w' rank)
    (hphase : PhaseOk S w' rank phase) (hsame : w'.phase = w.phase) (hothers : ∀ r ≠ rank, Undisturbed w w' r) :
    Sound S (w'.setPhase rank phase) := by
  have henter : Undisturbed w' (w'.setPhase rank phase) rank := (undisturbed_refl w' rank).setPhase
  refine hs.move hwired (hqueue.extend henter.toExtends) ?_ fun r hr => ⟨?_, (hothers r hr).setPhase⟩
  · rw [World.setPhase_phase]
    exact hphase.undisturbed henter
  · rw [World.setPhase_phase_of_ne hr, hsame]

theorem Sound.setPhase (hs : Sound S w) (hphase : PhaseOk S w rank phase) : Sound S (w.setPhase rank phase) :=
  hs.enter hs.wired (hs.queue rank) hphase rfl fun r _ => undisturbed_refl w r

theorem Dialed.connect (hdialer : conn.dialer = some rank) :
    Dialed (w.connect conn) rank w.count := by
  refine ⟨Nat.lt_succ_self _, by rw [World.connect_conns, hdialer], fun c hc _ => ?_⟩
  exact Nat.le_of_lt_succ hc

/-- A send on the connection that was dialed. -/
theorem Sound.setUp (hs : Sound S w) (hdialed : Dialed w rank c) (hup : (w.conns c).up = [])
    (hphase : PhaseOk S (w.setUp c bytes) rank phase) : Sound S ((w.setUp c bytes).setPhase rank phase) := by
  refine hs.enter (fun c' hc' => ?_) ?_ hphase rfl fun r hr => undisturbed_setUp hr hdialed.dialer hup
  · have hwired := hs.wired c' hc'
    by_cases hc : c' = c
    · subst hc
      rw [Wired, hdialed.dialer] at hwired
      rw [Wired, World.setUp_dialer, World.setUp_target, hdialed.dialer]
      exact hwired
    · rw [World.setUp_conns_of_ne hc]
      exact hwired
  · exact (hs.queue rank).extend
      ⟨Nat.le_refl _, fun _ _ => World.setUp_target, fun _ _ => World.setUp_down, ⟨[], by simp [World.setUp]⟩,
        fun c hle hlt _ => absurd hlt (Nat.not_lt.mpr hle)⟩

/-- A send on the connection that was taken. -/
theorem Sound.setDown (hs : Sound S w) (haccepted : Accepted w rank p) (hdown : (w.conns p).down = [])
    (hphase : PhaseOk S (w.setDown p bytes) rank phase) : Sound S ((w.setDown p bytes).setPhase rank phase) := by
  refine hs.enter (fun c' hc' => ?_) ?_ hphase rfl fun r hr =>
    undisturbed_setDown hr haccepted.target hdown (hs.queue r)
  · have hwired := hs.wired c' hc'
    rw [Wired] at hwired ⊢
    simpa using hwired
  · refine (hs.queue rank).extend ⟨Nat.le_refl _, fun _ _ => World.setDown_target, fun c hc => ?_,
      ⟨[], by simp [World.setDown]⟩, fun c hle hlt _ => absurd hlt (Nat.not_lt.mpr hle)⟩
    have hne : c ≠ p := by
      rintro rfl
      exact haccepted.popped hc
    rw [World.setDown_conns_of_ne hne]

/-! ## Where a member knows what it knew -/

theorem Dialed.of_conns (hd : Dialed w rank c) (hcount : w'.count = w.count)
    (hdialer : ∀ c', (w'.conns c').dialer = (w.conns c').dialer) : Dialed w' rank c := by
  refine ⟨hcount ▸ hd.lt, by rw [hdialer, hd.dialer], fun c' hlt hc' => ?_⟩
  rw [hcount] at hlt
  rw [hdialer] at hc'
  exact hd.last c' hlt hc'

theorem Requested.of_conns (hr : Requested S w rank lanes c) (hcount : w'.count = w.count)
    (hdialer : ∀ c', (w'.conns c').dialer = (w.conns c').dialer) (hup : (w'.conns c).up = (w.conns c).up) :
    Requested S w' rank lanes c :=
  ⟨hr.toBegun, hr.toDialed.of_conns hcount hdialer, hup ▸ hr.sent⟩

/-- The connection whose request matches was the last to be accepted, so none behind it was answered. -/
theorem taken_of_delivers (hq : Queue w rank) (haccepted : Accepted w rank p) (hlast : ∀ c, Accepted w rank c → c ≤ p)
    (hdelivers : Delivers S (w.conns p).up request) (hmatching : S.matching (S.handle (S.prev rank)) request = true) :
    Taken S w rank p request := by
  refine ⟨haccepted, fun c hlt htarget hdown => hlast c ⟨hlt, htarget, fun hmem => ?_⟩, hdelivers, hmatching⟩
  exact hdown (hq.waiting c hmem).2.2

theorem Taken.setDown (ht : Taken S w rank p request) : Taken S (w.setDown p bytes) rank p request := by
  refine ⟨⟨ht.lt, by rw [World.setDown_target, ht.target], ht.popped⟩, fun c hlt htarget hdown => ?_, ?_, ht.matching⟩
  · by_cases hc : c = p
    · exact Nat.le_of_eq hc
    · rw [World.setDown_conns_of_ne hc] at htarget hdown
      exact ht.last c hlt htarget hdown
  · rw [World.setDown_up]
    exact ht.delivers

theorem Joins.popBacklog (hj : Joins S w rank a) : Joins S (w.popBacklog rank) rank a := by
  obtain ⟨request, response, ⟨hrequested, htaken, hsent⟩, hdelivers, hjoin⟩ := hj
  have htail : (w.popBacklog rank).backlog rank = (w.backlog rank).tail := by simp [World.popBacklog]
  have hpopped : a.prevSocket ∉ (w.popBacklog rank).backlog rank := by
    rw [htail]
    exact fun hmem => htaken.popped (List.mem_of_mem_tail hmem)
  exact ⟨request, response,
    ⟨hrequested.of_conns rfl (fun _ => rfl) rfl, ⟨⟨htaken.lt, htaken.target, hpopped⟩, htaken.last, htaken.delivers,
      htaken.matching⟩, hsent⟩, hdelivers, hjoin⟩

/-! ## The events -/

theorem Sound.start (hs : Sound S w) (hlt : rank < S.size) : Sound S (next S w (.start rank)) := by
  have hbegun : Begun S rank (S.lanesFrom (w.created rank)) := ⟨hlt, _, rfl⟩
  have hsame : ∀ r, Undisturbed w
      { w with created := Function.update w.created rank (w.created rank + 2 * S.qps) } r := fun r =>
    have h := undisturbed_refl w r
    ⟨⟨h.count, h.target, h.down, h.backlog, h.fresh⟩, h.dialer, h.up, h.sentDown, h.others⟩
  have hwired : ∀ c < w.count, Wired S (w.conns c) := hs.wired
  change Sound S (World.setPhase { w with created := Function.update w.created rank (w.created rank + 2 * S.qps) } rank
    (.dialing (S.lanesFrom (w.created rank))))
  exact hs.enter hwired ((hs.queue rank).extend (hsame rank).toExtends) hbegun rfl fun r _ => hsame r

theorem Sound.dial (hs : Sound S w) (hphase : w.phase rank = .dialing lanes) : Sound S (next S w (.dial rank)) := by
  have hbegun : Begun S rank lanes := by
    have := hs.phase rank
    rwa [hphase] at this
  simp only [next, hphase]
  refine hs.enter (wired_connect hs ⟨hbegun.rank_lt, rfl⟩) ((hs.queue rank).extend (extends_connect rfl (hs.queue rank)))
    ⟨hbegun, Dialed.connect rfl, by simp⟩ rfl fun r hr => undisturbed_connect ?_ rfl (hs.queue r)
  intro h
  exact hr (Option.some.inj h).symm

theorem Sound.sendRequest (hs : Sound S w) {broken : Option Nat} (hphase : w.phase rank = .sending lanes c) :
    Sound S (next S w (.sendRequest rank broken)) := by
  have hok := hs.phase rank
  rw [hphase] at hok
  obtain ⟨hbegun, hdialed, hup⟩ := hok
  simp only [next, hphase, hup]
  cases hsend : send S (S.request rank lanes) broken [] with
  | mk bytes ok =>
      refine hs.setUp hdialed hup ?_
      cases ok with
      | false => trivial
      | true =>
          have hdialed' : Dialed (w.setUp c bytes) rank c := hdialed.of_conns rfl fun _ => World.setUp_dialer
          exact ⟨hbegun, hdialed', by rw [World.setUp_up]; exact send_ok hsend⟩

theorem Sound.accept (hs : Sound S w) (hphase : w.phase rank = .accepting lanes c) (hne : w.backlog rank ≠ []) :
    Sound S (next S w (.accept rank)) := by
  have hrequested : Requested S w rank lanes c := by
    have := hs.phase rank
    rwa [hphase] at this
  cases hbacklog : w.backlog rank with
  | nil => exact absurd hbacklog hne
  | cons socket rest =>
      simp only [next, hphase, hbacklog]
      obtain ⟨hqueue, haccepted, hdown, hlast⟩ := (hs.queue rank).pop hbacklog
      exact hs.enter hs.wired hqueue ⟨hrequested.of_conns rfl (fun _ => rfl) rfl, haccepted, hdown, hlast⟩ rfl
        fun r hr => undisturbed_popBacklog hr

theorem Sound.take (hs : Sound S w) {s : Stream} {socket : Nat} (hphase : w.phase rank = .reading lanes c socket)
    (hstream : s.bytes <+: (w.conns socket).up) : Sound S (next S w (.take rank s)) := by
  have hok := hs.phase rank
  rw [hphase] at hok
  obtain ⟨hrequested, haccepted, hdown, hlast⟩ := hok
  simp only [next, hphase]
  cases hrecv : (recvFrame S.json s).1 with
  | error e =>
      refine hs.setPhase ?_
      exact hrequested
  | ok message =>
      cases hmatching : S.matching (S.handle (S.prev rank)) message with
      | false =>
          simp only [hmatching, Bool.false_eq_true, if_false]
          refine hs.setPhase ?_
          exact hrequested
      | true =>
          simp only [hmatching, if_true]
          refine hs.setPhase ?_
          exact ⟨hrequested, taken_of_delivers (hs.queue rank) haccepted hlast ⟨s, hstream, hrecv⟩ hmatching, hdown⟩

theorem Sound.skip (hs : Sound S w) {socket : Nat} (hphase : w.phase rank = .reading lanes c socket) :
    Sound S (next S w (.skip rank)) := by
  have hok := hs.phase rank
  rw [hphase] at hok
  simp only [next, hphase]
  exact hs.setPhase hok.1

theorem Sound.sendResponse (hs : Sound S w) {broken : Option Nat}
    (hphase : w.phase rank = .responding lanes c p request) : Sound S (next S w (.sendResponse rank broken)) := by
  have hok := hs.phase rank
  rw [hphase] at hok
  obtain ⟨hrequested, htaken, hdown⟩ := hok
  simp only [next, hphase, hdown]
  cases hsend : send S (S.response rank lanes) broken [] with
  | mk bytes ok =>
      refine hs.setDown htaken.toAccepted hdown ?_
      cases ok with
      | false => trivial
      | true =>
          exact ⟨hrequested.of_conns rfl (fun _ => World.setDown_dialer) World.setDown_up, htaken.setDown,
            by rw [World.setDown_down]; exact send_ok hsend⟩

theorem Sound.receive (hs : Sound S w) {s : Stream} (hphase : w.phase rank = .waiting lanes c p request)
    (hstream : s.bytes <+: (w.conns c).down) : Sound S (next S w (.receive rank s)) := by
  have hanswered : Answered S w rank lanes c p request := by
    have := hs.phase rank
    rwa [hphase] at this
  simp only [next, hphase]
  cases hrecv : (recvFrame S.json s).1 with
  | error e =>
      refine hs.setPhase ?_
      trivial
  | ok response =>
      cases hjoin : S.join rank lanes c p request response with
      | error e =>
          simp only [hjoin]
          refine hs.setPhase ?_
          trivial
      | ok a =>
          simp only [hjoin]
          obtain ⟨rfl, rfl, rfl, hread⟩ := join_eq_ok hjoin
          refine hs.setPhase ?_
          exact ⟨request, response, hanswered, ⟨s, hstream, hrecv⟩, hread⟩

theorem Sound.commit (hs : Sound S w) (hphase : w.phase rank = .joining a) : Sound S (next S w (.commit rank)) := by
  have hok := hs.phase rank
  rw [hphase] at hok
  simp only [next, hphase]
  exact hs.setPhase hok

theorem Sound.drop (hs : Sound S w) (hphase : w.phase rank = .idle ∨ ∃ a, w.phase rank = .done a)
    (hne : w.backlog rank ≠ []) : Sound S (next S w (.drop rank)) := by
  cases hbacklog : w.backlog rank with
  | nil => exact absurd hbacklog hne
  | cons socket rest =>
      refine hs.move hs.wired ((hs.queue rank).pop hbacklog).1 ?_ fun r hr => ⟨rfl, undisturbed_popBacklog hr⟩
      have hok := hs.phase rank
      change PhaseOk S (w.popBacklog rank) rank (w.phase rank)
      rcases hphase with hphase | ⟨a, hphase⟩
      · rw [hphase]
        trivial
      · rw [hphase] at hok ⊢
        exact Joins.popBacklog hok

theorem Sound.stray (hs : Sound S w) {target : Nat} {up : List UInt8} (hharmless : Harmless S target up) :
    Sound S (next S w (.stray target up)) := by
  have hconn : ∀ r, Undisturbed w (w.connect ⟨none, target, up, []⟩) r := fun r =>
    undisturbed_connect (by simp) rfl (hs.queue r)
  have hqueue : Queue (w.connect ⟨none, target, up, []⟩) 0 := (hs.queue 0).extend (hconn 0).toExtends
  exact hs.move (wired_connect hs hharmless) hqueue ((hs.phase 0).undisturbed (hconn 0)) fun r _ => ⟨rfl, hconn r⟩

theorem Sound.step {e : Event} (hs : Sound S w) (he : Enabled S w e) : Sound S (next S w e) := by
  cases e with
  | start rank => exact hs.start he.2.1
  | dial rank =>
      obtain ⟨lanes, hphase⟩ := he
      exact hs.dial hphase
  | sendRequest rank broken =>
      obtain ⟨lanes, c, hphase⟩ := he
      exact hs.sendRequest hphase
  | accept rank =>
      obtain ⟨⟨lanes, c, hphase⟩, hne⟩ := he
      exact hs.accept hphase hne
  | take rank s =>
      obtain ⟨lanes, c, socket, hphase, hstream⟩ := he
      exact hs.take hphase hstream
  | skip rank =>
      obtain ⟨lanes, c, socket, hphase⟩ := he
      exact hs.skip hphase
  | sendResponse rank broken =>
      obtain ⟨lanes, c, p, request, hphase⟩ := he
      exact hs.sendResponse hphase
  | receive rank s =>
      obtain ⟨lanes, c, p, request, hphase, hstream⟩ := he
      exact hs.receive hphase hstream
  | commit rank =>
      obtain ⟨a, hphase⟩ := he
      exact hs.commit hphase
  | fail rank => exact hs.setPhase trivial
  | drop rank => exact hs.drop he.1 he.2
  | stray target up => exact hs.stray he

end Rdma4py.ProcessGroup.Rendezvous
