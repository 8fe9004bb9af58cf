import Rdma4py.ReadScheduler.Lemmas.Frames

/-!
# The invariant of a scheduler over a run

`Sound s w` relates the scheduler `s` to the batches that were submitted to it. Other schedulers, and waits that fail
a batch on the wrong scheduler, do not disturb it.
-/

namespace Rdma4py.ReadScheduler

open Rdma4py.Lib

variable {s : SchedulerId} {w w' w₀ : World} {e : Event}

/-- When the event polls the CQs of `s`, they report posted work requests, each once. -/
def HonestPolls (s : SchedulerId) (w : World) (e : Event) : Prop :=
  ∀ env, e.polls w = some (s, env) → env.Honest (w.schedulers s)

/-- When the event submits a batch to `s`, there are identifiers enough for it. -/
def EnoughIds (s : SchedulerId) (w : World) (e : Event) : Prop :=
  ∀ items oc env requests, e = .call s (.submit items oc env) → items.mapM id = some requests →
    (w.schedulers s).config.RoomFor requests

/-- How a scheduler stands with all batches. -/
structure Sound (s : SchedulerId) (w : World) : Prop where
  owned : ∀ b, (w.schedulers s).active = some b → b < w.nextBatch ∧ (w.batches b).scheduler = s
  fresh : ∀ b, w.nextBatch ≤ b →
    (w.schedulers s).provider.postedFor b = [] ∧ (w.schedulers s).provider.completedFor b = []
  inFlight : ∀ b, (w.schedulers s).active = some b →
    Pipeline (w.schedulers s) b (w.batches b) ∧ Flowing (w.schedulers s) ∧
      (w.schedulers s).config.RoomFor (w.batches b).requests
  unfinished : ∀ b, (w.schedulers s).active = some b → (w.batches b).done = true → (w.batches b).error ≠ none
  idle : (w.schedulers s).active = none → (w.schedulers s).poisoned = false → (w.schedulers s).closed = false →
    Idle (w.schedulers s)
  delivered : ∀ b < w.nextBatch, (w.batches b).scheduler = s → (w.batches b).done = true →
    (w.batches b).error = none → Delivered (w.schedulers s) b (w.batches b)

/-- The scheduler is changed aside and the batches end: nothing is lost. -/
theorem Sound.aside (h : Sound s w) (hn : w'.nextBatch = w.nextBatch)
    (hs : Aside (w.schedulers s) (w'.schedulers s)) (hb : ∀ b, Ends (w.batches b) (w'.batches b)) : Sound s w' where
  owned b ha := by
    rw [hs.active] at ha
    rw [hn, (hb b).scheduler]
    exact h.owned b ha
  fresh b hb := by
    rw [hn] at hb
    obtain ⟨_, _, _, _, _, _, _, _, he⟩ := hs
    rw [he]
    exact h.fresh b hb
  inFlight b ha := by
    rw [hs.active] at ha
    obtain ⟨hp, hf, hr⟩ := h.inFlight b ha
    exact ⟨hs.pipeline ((hb b).pipeline hp), hs.flowing hf, by
      rw [(hs.touched (b := b)).config, (hb b).requests]; exact hr⟩
  unfinished b ha hd := by
    rw [hs.active] at ha
    rcases (hb b).error with he | he
    · rw [he] at hd ⊢; exact h.unfinished b ha hd
    · exact he
  idle ha hp hc := by
    rw [hs.active] at ha
    have ht := hs.touched (b := 0)
    refine hs.idle (h.idle ha ?_ ?_)
    · exact Bool.eq_false_iff.mpr fun hp' => by rw [ht.poisoned hp'] at hp; cases hp
    · exact Bool.eq_false_iff.mpr fun hc' => by rw [ht.closed hc'] at hc; cases hc
  delivered b hlt hsch hd he := by
    rw [hn] at hlt
    rcases (hb b).error with hsame | hne
    · rw [hsame] at hsch hd he ⊢
      obtain ⟨_, _, _, _, _, _, _, _, heq⟩ := hs
      have hdel := h.delivered b hlt hsch hd he
      rw [heq]
      exact ⟨hdel.covered, hdel.completed, hdel.counted, hdel.bytes⟩
    · exact absurd he hne

theorem Sound.failed (h : Sound s w) (self : SchedulerId) (b : BatchId) (error : Exn) :
    Sound s (w.put self b (failTransport (w.session self b) error none)) := by
  obtain ⟨_, hne⟩ := failTransport_batch (w.session self b) error none
  by_cases hs : s = self
  · -- The scheduler is poisoned, whichever batch it was.
    subst hs
    obtain ⟨_, closes, closed, _, he⟩ := failTransport_scheduler (w.session s b) error none
    refine ⟨fun b' ha => ?_, fun b' hb' => ?_, fun b' ha => ?_, fun b' ha => ?_, fun _ hp => ?_,
      fun b' hlt hsch hd hnone => ?_⟩
    · rw [put_schedulers_self, he] at ha; cases ha
    · rw [put_schedulers_self, he]; exact h.fresh b' hb'
    · rw [put_schedulers_self, he] at ha; cases ha
    · rw [put_schedulers_self, he] at ha; cases ha
    · rw [put_schedulers_self, he] at hp; cases hp
    · by_cases hbb : b' = b
      · subst hbb
        rw [put_batches_self] at hnone
        exact absurd hnone hne
      · rw [put_batches_of_ne hbb] at hsch hd hnone ⊢
        rw [put_schedulers_self]
        exact (h.delivered b' hlt hsch hd hnone).touched (failTransport_touched (w.session s b) error none) hbb
  · refine h.aside rfl ?_ fun b' => ?_
    · rw [put_schedulers_of_ne hs]
      exact ⟨_, _, _, _, _, _, id, id, rfl⟩
    · by_cases hb : b' = b
      · subst hb; rw [put_batches_self]; exact failTransport_ends (w.session self b') error none
      · rw [put_batches_of_ne hb]; exact .refl _

theorem Sound.other (h : Sound s w) {self : SchedulerId} (hs : s ≠ self) {b n : BatchId} (hn : w.nextBatch ≤ n)
    (hnew : ∀ b', w.nextBatch ≤ b' → b' < n → b' = b) (x : Session)
    (hb : b < w.nextBatch → (w.batches b).scheduler ≠ s) (hx : x.batch.scheduler ≠ s) :
    Sound s ({ w with nextBatch := n }.put self b x) := by
  have hsame : ({ w with nextBatch := n }.put self b x).schedulers s = w.schedulers s := put_schedulers_of_ne hs b x
  have hbatch : ∀ b' ≠ b, ({ w with nextBatch := n }.put self b x).batches b' = w.batches b' :=
    fun b' hb' => put_batches_of_ne hb' _ _
  have hne : ∀ b' < w.nextBatch, (w.batches b').scheduler = s → b' ≠ b := by
    rintro b' hlt hsch rfl
    exact hb hlt hsch
  refine ⟨fun b' ha => ?_, fun b' hb' => ?_, fun b' ha => ?_, fun b' ha hd => ?_, fun ha => ?_,
    fun b' hlt hsch hd he => ?_⟩
  · rw [hsame] at ha
    obtain ⟨hlt, hsch⟩ := h.owned b' ha
    rw [hbatch b' (hne b' hlt hsch)]
    exact ⟨Nat.lt_of_lt_of_le hlt hn, hsch⟩
  · rw [hsame]; exact h.fresh b' (Nat.le_trans hn hb')
  · rw [hsame] at ha ⊢
    obtain ⟨hlt, hsch⟩ := h.owned b' ha
    rw [hbatch b' (hne b' hlt hsch)]
    exact h.inFlight b' ha
  · rw [hsame] at ha
    obtain ⟨hlt, hsch⟩ := h.owned b' ha
    rw [hbatch b' (hne b' hlt hsch)] at hd ⊢
    exact h.unfinished b' ha hd
  · rw [hsame] at ha ⊢; exact h.idle ha
  · by_cases hbb : b' = b
    · subst hbb
      rw [put_batches_self] at hsch
      exact absurd hsch hx
    · rw [hbatch b' hbb] at hsch hd he ⊢
      rw [hsame]
      rcases Nat.lt_or_ge b' w.nextBatch with hlt' | hge
      · exact h.delivered b' hlt' hsch hd he
      · exact absurd (hnew b' hge hlt) hbb

/-- The batch that `s` works on changes. It is left finished, or in flight. -/
theorem Sound.own (h : Sound s w) {b n : BatchId} {x x' : Session} (hn : w.nextBatch ≤ n) (hlt : b < n)
    (hnew : ∀ b', w.nextBatch ≤ b' → b' < n → b' = b)
    (hcfg : x.scheduler.config = (w.schedulers s).config)
    (hprov : x.scheduler.provider = (w.schedulers s).provider)
    (ht : Touched b x.scheduler x'.scheduler) (hsch : x'.batch.scheduler = s)
    (hend : (x'.scheduler.active = none ∧
        (x'.scheduler.poisoned = false → x'.scheduler.closed = false → Idle x'.scheduler) ∧
        (x'.batch.error = none → Delivered x'.scheduler b x'.batch)) ∨
      (x'.scheduler.active = some b ∧ x'.batch.done = false ∧ Pipeline x'.scheduler b x'.batch ∧
        Flowing x'.scheduler ∧ x'.scheduler.config.RoomFor x'.batch.requests)) :
    Sound s ({ w with nextBatch := n }.put s b x') := by
  have hact : ∀ b', x'.scheduler.active = some b' → b' = b ∧ x'.batch.done = false ∧
      Pipeline x'.scheduler b x'.batch ∧ Flowing x'.scheduler ∧ x'.scheduler.config.RoomFor x'.batch.requests := by
    intro b' ha
    rcases hend with ⟨hnone, _⟩ | ⟨hsome, hrest⟩
    · rw [hnone] at ha; cases ha
    · rw [hsome] at ha; exact ⟨(Option.some.inj ha).symm, hrest⟩
  refine ⟨fun b' ha => ?_, fun b' hb' => ?_, fun b' ha => ?_, fun b' ha hd => ?_, fun ha hp hc => ?_,
    fun b' hlt' hsch' hd he => ?_⟩
  · rw [put_schedulers_self] at ha
    obtain ⟨rfl, _⟩ := hact b' ha
    rw [put_batches_self]
    exact ⟨hlt, hsch⟩
  · have hbb : b' ≠ b := by rintro rfl; exact absurd hlt (Nat.not_lt.mpr hb')
    rw [put_schedulers_self, ht.posted b' hbb, ht.completed b' hbb, hprov]
    exact h.fresh b' (Nat.le_trans hn hb')
  · rw [put_schedulers_self] at ha
    obtain ⟨rfl, _, hrest⟩ := hact b' ha
    rw [put_schedulers_self, put_batches_self]
    exact hrest
  · rw [put_schedulers_self] at ha
    obtain ⟨rfl, hnot, _⟩ := hact b' ha
    rw [put_batches_self, hnot] at hd
    cases hd
  · rw [put_schedulers_self] at ha hp hc ⊢
    rcases hend with ⟨_, hidle, _⟩ | ⟨hsome, _⟩
    · exact hidle hp hc
    · rw [hsome] at ha; cases ha
  · rw [put_schedulers_self]
    by_cases hbb : b' = b
    · subst hbb
      rw [put_batches_self] at hd he ⊢
      rcases hend with ⟨_, _, hdel⟩ | ⟨_, hnot, _⟩
      · exact hdel he
      · rw [hnot] at hd; cases hd
    · have hold : b' < w.nextBatch := Nat.lt_of_not_le fun hle => hbb (hnew b' hle hlt')
      rw [put_batches_of_ne hbb] at hsch' hd he ⊢
      have hdel := h.delivered b' hold hsch' hd he
      refine Delivered.touched (s := x.scheduler) ⟨?_, ?_, ?_, hdel.bytes⟩ ht hbb
      · rw [hprov, hcfg]; exact hdel.covered
      · rw [hprov]; exact hdel.completed
      · rw [hcfg]; exact hdel.counted

theorem Sound.progressed (h : Sound s w) (self : SchedulerId) (b : BatchId) (env : ProgressEnv)
    (hd : (w.batches b).done = false) (hself : (w.batches b).scheduler = self) (ha : (w.schedulers self).active = some b) :
    Sound s (w.put self b (progressBody env b (w.session self b)).1) := by
  have hnew : ∀ b', w.nextBatch ≤ b' → b' < w.nextBatch → b' = b := fun b' hle hlt => absurd hlt (Nat.not_lt.mpr hle)
  have hsch : ∀ x', (w.session self b).Works b x' → x'.batch.scheduler = self := by
    intro x' hw
    obtain ⟨_, _, hbatch⟩ := hw.batch
    rw [hbatch]; exact hself
  by_cases hs : s = self
  · subst hs
    obtain ⟨hpipe, hflow, hroom⟩ := h.inFlight b ha
    obtain ⟨hlt, _⟩ := h.owned b ha
    have hown := fun (x' : Session) ht hs' hend => h.own (x := w.session s b) (Nat.le_refl _) hlt hnew rfl rfl ht
      (hs' : x'.batch.scheduler = s) hend
    rcases progressBody_cases env b (w.session s b) with ⟨x', err, hw, he⟩ | ⟨x', n, hran, hne, he⟩ |
      ⟨x', n, hran, hex, hem, he⟩ <;> rw [he]
    · obtain ⟨hnone, hp⟩ := failTransport_active x' err (some "RDMA read progress failed")
      refine hown _ (hw.scheduler.touched.trans (failTransport_touched _ _ _)) (hsch x' hw)
        (Or.inl ⟨hnone, fun hp' => ?_, fun hnone => absurd hnone (failTransport_batch _ _ _).2⟩)
      rw [hp] at hp'; cases hp'
    · obtain ⟨hpipe', hflow'⟩ := hpipe.ran hflow hroom hran
      have hw := hran.works
      obtain ⟨_, _, hbatch⟩ := hw.batch
      refine hown _ hw.scheduler.touched (hsch x' hw)
        (Or.inr ⟨hw.scheduler.active.trans ha, ?_, hpipe', hflow' hne, ?_⟩)
      · rw [hbatch]; exact hd
      · rw [hw.scheduler.config, hbatch]; exact hroom
    · obtain ⟨hpipe', _⟩ := hpipe.ran hflow hroom hran
      obtain ⟨called, hf⟩ := finishSuccess_eq x'
      have hdel := hpipe'.delivered hex hem
      have hacc := hpipe'.accounts
      refine hown _ (hran.works.scheduler.touched.trans (finishSuccess_touched x')) ?_
        (Or.inl ⟨(finishSuccess_active x').1, fun _ _ => ?_, fun _ => ?_⟩)
      · rw [hf]; exact hsch x' hran.works
      · rw [hf]
        exact ⟨⟨hacc.next_range, hacc.key_range, hacc.qp_lt, hacc.count, hacc.depth, hacc.inflight⟩, hem⟩
      · rw [hf]
        exact ⟨hdel.covered, hdel.completed, hdel.counted, hdel.bytes⟩
  · refine h.other hs (Nat.le_refl _) hnew _ (fun _ hb => hs (hb.symm.trans hself)) fun hb => hs (hb.symm.trans ?_)
    rcases progressBody_cases env b (w.session self b) with ⟨x', err, hw, he⟩ | ⟨x', n, hran, hne, he⟩ |
      ⟨x', n, hran, hex, hem, he⟩ <;> rw [he]
    · exact hsch x' hw
    · exact hsch x' hran.works
    · obtain ⟨_, hf⟩ := finishSuccess_eq x'
      rw [hf]; exact hsch x' hran.works

theorem Sound.submitted (h : Sound s w) (self : SchedulerId) (requests : List RdmaReadRequest) (oc : OnComplete)
    (env : RefillEnv) (x' : Session) (hroom : self = s → (w.schedulers s).config.RoomFor requests)
    (hu : ensureUsable (w.schedulers self) = none) (ha : (w.schedulers self).active = none)
    (hx : SubmitEnds env w.nextBatch ((w.schedulers self).start self w.nextBatch requests oc) x'
      (totalChunks (w.schedulers self).config.chunkSize requests)) :
    Sound s ({ w with nextBatch := w.nextBatch + 1 }.put self w.nextBatch x') := by
  have hnew : ∀ b', w.nextBatch ≤ b' → b' < w.nextBatch + 1 → b' = w.nextBatch :=
    fun b' hle hlt => Nat.le_antisymm (Nat.le_of_lt_succ hlt) hle
  have hsch : x'.batch.scheduler = self := by
    rcases hx with ⟨_, rfl⟩ | ⟨_, _, _, rfl⟩ | ⟨_, _, _, _, rfl⟩
    · obtain ⟨_, hf⟩ := finishSuccess_eq ((w.schedulers self).start self w.nextBatch requests oc)
      rw [hf]; rfl
    · rfl
    · rfl
  by_cases hs : s = self
  · subst hs
    obtain ⟨hc, hp⟩ := ensureUsable_none hu
    obtain ⟨hpost, hcomp⟩ := h.fresh w.nextBatch (Nat.le_refl _)
    have hidle := h.idle ha hp hc
    have hpipe := hidle.started hpost hcomp s requests oc
    have hzero : totalChunks (w.schedulers s).config.chunkSize requests = 0 ↔ requests = [] :=
      totalChunks_eq_zero (w.schedulers s).config.chunkSize_pos
    have hworks := refill_worksFor env w.nextBatch ((w.schedulers s).start s w.nextBatch requests oc).scheduler
    refine h.own (x := (w.schedulers s).start s w.nextBatch requests oc) (Nat.le_succ _) (Nat.lt_succ_self _) hnew
      rfl rfl ?_ hsch ?_
    · rcases hx with ⟨_, rfl⟩ | ⟨_, s', hr, rfl⟩ | ⟨_, s', err, hr, rfl⟩
      · exact finishSuccess_touched _
      · rw [hr] at hworks; exact hworks.touched
      · rw [hr] at hworks
        exact hworks.touched.trans (failTransport_touched
          ⟨s', ((w.schedulers s).start s w.nextBatch requests oc).batch⟩ err _)
    · rcases hx with ⟨hz, rfl⟩ | ⟨hz, s', hr, rfl⟩ | ⟨hz, s', err, hr, rfl⟩
      · -- Without requests the batch is finished at once.
        obtain ⟨_, hf⟩ := finishSuccess_eq ((w.schedulers s).start s w.nextBatch requests oc)
        have hdel := hpipe.delivered (decide_eq_true hz) hidle.pending
        have hacc := hidle.accounts
        refine Or.inl ⟨(finishSuccess_active _).1, fun _ _ => ?_, fun _ => ?_⟩
        · rw [hf]
          exact ⟨⟨hacc.next_range, hacc.key_range, hacc.qp_lt, hacc.count, hacc.depth, hacc.inflight⟩, hidle.pending⟩
        · rw [hf]
          exact ⟨hdel.covered, hdel.completed, hdel.counted, hdel.bytes⟩
      · rw [hr] at hworks
        have hroom' := hroom rfl
        obtain ⟨hpipe', hfull⟩ := hpipe.refilled hroom' hr
        refine Or.inr ⟨hworks.active, rfl, hpipe', ?_, ?_⟩
        · exact hpipe'.flowing_of_submit rfl (fun hn => hz (hzero.mpr hn)) hfull
        · rw [hworks.config]; exact hroom'
      · obtain ⟨hnone, hp'⟩ := failTransport_active ⟨s', ((w.schedulers s).start s w.nextBatch requests oc).batch⟩ err
          (some "posting RDMA reads failed")
        refine Or.inl ⟨hnone, fun hp'' => ?_, fun he => absurd he (failTransport_batch _ _ _).2⟩
        rw [hp'] at hp''; cases hp''
  · exact h.other hs (Nat.le_succ _) hnew x' (fun hlt => absurd hlt (Nat.lt_irrefl _))
      fun hb => hs (hb.symm.trans hsch)

theorem Sound.change (hroom : EnoughIds s w₀ e) (hc : Change w₀ e w w') (h : Sound s w) :
    Sound s w' := by
  cases hc with
  | control stack tasks => exact ⟨h.owned, h.fresh, h.inFlight, h.unfinished, h.idle, h.delivered⟩
  | callbackError b error =>
      refine h.aside rfl ⟨_, _, _, _, _, _, id, id, rfl⟩ fun b' => ?_
      simp only [Function.update_apply]
      split
      · next hb => subst hb; exact ⟨rfl, rfl, rfl, rfl, rfl, rfl, rfl, rfl, id, .inr (by simp)⟩
      · exact .refl _
  | failed self b error => exact h.failed self b error
  | misfired self b error => exact h.failed self b error
  | progressed self b env _ _ hd hs ha => exact h.progressed self b env hd hs ha
  | submitted self items requests oc env x' he hi hu ha hx =>
      refine h.submitted self requests oc env x' (fun hself => ?_) hu ha hx
      subst hself
      exact hroom items oc env requests he hi
  | connected self context transitions =>
      refine h.aside rfl ?_ fun _ => .refl _
      simp only [World.setScheduler, Function.update_apply]
      split
      · next hs => subst hs; exact aside_connected _ _ _
      · exact ⟨_, _, _, _, _, _, id, id, rfl⟩
  | disconnected self args env context transitions =>
      refine h.aside rfl ?_ fun _ => .refl _
      simp only [World.setScheduler, Function.update_apply]
      split
      · next hs => subst hs; exact aside_disconnected _ _ _
      · exact ⟨_, _, _, _, _, _, id, id, rfl⟩
  | closed self env hopen =>
      have hcl := close_closes env hopen
      by_cases hs : s = self
      · subst hs
        have ht := hcl.touched w.nextBatch
        refine ⟨fun b ha => ?_, fun b hb => ?_, fun b ha => ?_, fun b ha => ?_, fun _ _ hc => ?_,
          fun b hlt hsch hd he => ?_⟩
        · rw [hcl.active] at ha; cases ha
        · rw [hcl.nextBatch] at hb
          have hb' := hcl.touched (b + 1)
          rw [hb'.posted b (Nat.ne_of_lt (Nat.lt_succ_self b)), hb'.completed b (Nat.ne_of_lt (Nat.lt_succ_self b))]
          exact h.fresh b hb
        · rw [hcl.active] at ha; cases ha
        · rw [hcl.active] at ha; cases ha
        · rw [hcl.closed] at hc; cases hc
        · rw [hcl.nextBatch] at hlt
          rcases (hcl.ends b).error with hsame | hne
          · rw [hsame] at hsch hd he ⊢
            exact (h.delivered b hlt hsch hd he).touched ht (Nat.ne_of_lt hlt)
          · exact absurd he hne
      · refine h.aside hcl.nextBatch ?_ hcl.ends
        rw [hcl.others s hs]
        exact ⟨_, _, _, _, _, _, id, id, rfl⟩

theorem Scheduler.Fresh.idle {s : Scheduler} (h : s.Fresh) :
    Idle s ∧ s.active = none ∧ ∀ b, s.provider.postedFor b = [] ∧ s.provider.completedFor b = [] := by
  obtain ⟨_, _, h⟩ := h
  rw [h]
  refine ⟨⟨⟨⟨Nat.le_refl 1, (by decide : 1 ≤ maxWrId)⟩, fun x hx => ?_, fun p hp => ?_, fun _ => rfl,
    fun _ => Nat.zero_le _, fun _ => .refl _⟩, rfl⟩, rfl, fun _ => ⟨rfl, rfl⟩⟩
  · exact absurd hx (AList.notMem_empty x)
  · cases hp

theorem Sound.initial (s : SchedulerId) (h : w.Initial) : Sound s w := by
  obtain ⟨hfresh, hnext, _, _⟩ := h
  obtain ⟨hidle, hnone, hprov⟩ := (hfresh s).idle
  refine ⟨fun b ha => ?_, fun b _ => hprov b, fun b ha => ?_, fun b ha => ?_, fun _ _ _ => hidle, fun b hlt => ?_⟩
  · rw [hnone] at ha; cases ha
  · rw [hnone] at ha; cases ha
  · rw [hnone] at ha; cases ha
  · rw [hnext] at hlt; exact absurd hlt (Nat.not_lt_zero b)

theorem Sound.run (hi : w.Initial)
    (hr : (process.when (EnoughIds s)).Reaches w w') : Sound s w' :=
  Machine.Reaches.invariant (I := Sound s)
    (fun w e h (he : w.Enabled e ∧ EnoughIds s w e) =>
      step_invariant (fun _ _ hc h => h.change he.2 hc) he.1 h) hr (.initial s hi)

/-- With no more slots than identifiers there are always enough. -/
theorem Sound.run_of_slots (hi : w.Initial)
    (hslots : (w.schedulers s).config.qpCount * (w.schedulers s).config.queueDepth ≤ maxWrId)
    (hr : process.Reaches w w') :
    Sound s w' ∧ (w'.schedulers s).config = (w.schedulers s).config := by
  refine Machine.Reaches.invariant (I := fun w' => Sound s w' ∧ (w'.schedulers s).config = (w.schedulers s).config)
    (fun w₁ e h (he : w₁.Enabled e) => ?_) hr ⟨.initial s hi, rfl⟩
  have henough : EnoughIds s w₁ e := fun _ _ _ _ _ _ => Or.inl (by rw [h.2]; exact hslots)
  refine step_invariant (I := fun w' => Sound s w' ∧ (w'.schedulers s).config = (w.schedulers s).config)
    (fun w₂ w₃ hc h => ?_) he h
  exact ⟨h.1.change henough hc, (change_config hc s).trans h.2⟩

end Rdma4py.ReadScheduler
