import Rdma4py.NvmeQueue.Lemmas.Polling

/-!
# Every event keeps the invariant

Submitting makes a free command ID pending. The events of the link move tokens from one place to the next.
-/

namespace Rdma4py.NvmeQueue

open Rdma4py.Lib

variable {w w' : World} {r : RequestId} {cid : Nat} {free : List Nat}

/-! ## Who is open -/

theorem Core.sending_open (h : Core w) (hr : r ∈ w.sending) : w.Open r := ((h.sends.mem_iff r).mp hr).1

theorem Core.awaiting_open (h : Core w) (hr : r ∈ w.awaiting) : w.Open r := ((h.awaits.mem_iff r).mp hr).1

theorem Core.posted_open (h : Core w) {x : Send}
    (hx : x ∈ w.link.undelivered ∨ x ∈ w.link.uncompleted ∨ .send x ∈ w.link.cq) : w.Open x.request := by
  rcases hx with hx | hx | hx
  · exact h.awaiting_open (List.mem_append_left _ (List.mem_append_left _ (List.mem_map_of_mem hx)))
  · exact h.sending_open (List.mem_append_left _ (List.mem_map_of_mem hx))
  · exact h.sending_open (List.mem_append_right _ (List.mem_filterMap.mpr ⟨_, hx, rfl⟩))

theorem Core.capsule_open (h : Core w) {c : Capsule} (hc : c ∈ w.link.capsules) : w.Open c.request :=
  h.awaiting_open (List.mem_append_left _ (List.mem_append_right _ (List.mem_map_of_mem hc)))

/-! ## `submit` -/

theorem Core.free_fresh (h : Core w) (hf : w.queue.free = cid :: free) :
    cid < w.queue.depth - 1 ∧ cid ∉ w.queue.pending := by
  have hids := h.ids
  rw [hf] at hids
  refine ⟨hids.head, fun hmem => ?_⟩
  exact (List.nodup_cons.mp hids.nodup).1 (List.mem_append_right _ (AList.mem_keys.mp hmem))

theorem Core.open_ne_free (h : Core w) (hf : w.queue.free = cid :: free) (ho : w.Open r) :
    (w.requests r).commandId ≠ cid := by
  rintro rfl
  exact (h.free_fresh hf).2 (AList.lookup_isSome.mp (by rw [ho]; rfl))

/-- A new `Request` exists, and its capsule lies in the slot of the command ID. -/
def World.draft (w : World) (cid : Nat) (capsule : List UInt8) (request : Request) : World :=
  { w with
      queue := { w.queue with
        commands := { w.queue.commands with mem := w.queue.commands.mem.write capsule (cid * 64) } }
      requests := Function.update w.requests w.nextRequest request
      nextRequest := w.nextRequest + 1
      record := { w.record with capsule := Function.update w.record.capsule w.nextRequest capsule } }

theorem draft_requests_of_ne {capsule : List UInt8} {request : Request} (h : r ≠ w.nextRequest) :
    (w.draft cid capsule request).requests r = w.requests r := Function.update_of_ne h ..

theorem draft_capsule_of_ne {capsule : List UInt8} {request : Request} (h : r ≠ w.nextRequest) :
    (w.draft cid capsule request).record.capsule r = w.record.capsule r := Function.update_of_ne h ..

/-- The slot of a free command ID holds no capsule of a pending command. -/
theorem Sound.draft {capsule : List UInt8} (owner : Option Nat) (h : Sound w) (hf : w.queue.free = cid :: free)
    (hlen : capsule.length = 64) : Sound (w.draft cid capsule { commandId := cid, dataOwner := owner }) := by
  obtain ⟨h, hdone⟩ := h
  have hlt : ∀ r, w.Open r → r ≠ w.nextRequest := fun r ho => Nat.ne_of_lt (h.open_unfinished ho).1
  have hnot : ¬ (w.draft cid capsule { commandId := cid, dataOwner := owner }).Open w.nextRequest := by
    intro ho
    have hself : (w.draft cid capsule { commandId := cid, dataOwner := owner }).requests w.nextRequest =
        { commandId := cid, dataOwner := owner } := Function.update_self ..
    rw [World.Open, hself] at ho
    exact Nat.lt_irrefl _ (h.keys cid _ ho).2.1
  have hopen : ∀ r, (w.draft cid capsule { commandId := cid, dataOwner := owner }).Open r ↔ w.Open r := by
    intro r
    by_cases hr : r = w.nextRequest
    · subst hr
      exact ⟨fun ho => absurd ho hnot, fun ho => absurd rfl (hlt _ ho)⟩
    · rw [World.Open, draft_requests_of_ne hr]; rfl
  have hsame : ∀ r, w.Open r →
      (w.draft cid capsule { commandId := cid, dataOwner := owner }).requests r = w.requests r :=
    fun r ho => draft_requests_of_ne (hlt r ho)
  have hdone' : ∀ r, ((w.draft cid capsule { commandId := cid, dataOwner := owner }).requests r).done =
      (w.requests r).done := by
    intro r
    by_cases hr : r = w.nextRequest
    · subst hr
      rw [h.fresh _ (Nat.le_refl _)]
      simp only [World.draft, Function.update_self]
    · rw [draft_requests_of_ne hr]
  refine ⟨⟨h.depth, h.opened, h.buffers, h.ids, fun cid' r hl => ?_, fun r ho => ?_, ?_, ?_, h.recvs, fun x hx => ?_,
    fun c hc => ?_, h.unread, h.answered, fun a ha => ?_, fun r c hc => ?_, fun r hle => ?_,
    h.finished.congr fun r => by rw [hdone'], h.handed⟩, fun r => ?_⟩
  · obtain ⟨hid, hr, hd⟩ := h.keys cid' r hl
    rw [hsame r (h.open_of_lookup hl)]
    exact ⟨hid, Nat.lt_succ_of_lt hr, hd⟩
  · have ho' := (hopen r).mp ho
    have hne := h.open_ne_free hf ho'
    rw [hsame r ho']
    rw [draft_capsule_of_ne (hlt r ho')]
    refine ⟨Eq.trans ?_ (h.slots r ho').1, (h.slots r ho').2⟩
    exact Memory.read_write_disjoint (by rw [hlen]; omega)
  · refine h.sends.congr fun r => ?_
    rw [hopen]
    exact and_congr_right fun ho => by rw [hsame r ho]
  · refine h.awaits.congr fun r => ?_
    rw [hopen]
    exact and_congr_right fun ho => by rw [hsame r ho]
  · rw [hsame _ (h.posted_open hx)]
    exact h.posted x hx
  · rw [draft_capsule_of_ne (hlt _ (h.capsule_open hc))]
    exact h.received c hc
  · obtain ⟨halt, hrest⟩ := h.answers a ha
    rw [draft_requests_of_ne (Nat.ne_of_lt halt), draft_capsule_of_ne (Nat.ne_of_lt halt)]
    exact ⟨Nat.lt_succ_of_lt halt, hrest⟩
  · by_cases hr : r = w.nextRequest
    · subst hr
      simp only [World.draft, Function.update_self, reduceCtorEq] at hc
    · rw [draft_requests_of_ne hr] at hc
      exact h.responses r c hc
  · rw [hdone']
    exact h.fresh r (Nat.le_of_succ_le hle)
  · by_cases hr : r = w.nextRequest
    · subst hr
      simp [World.draft]
    · rw [draft_requests_of_ne hr]
      exact hdone r

/-- The command of a request becomes pending. -/
def World.reserve (w : World) (cid : Nat) (free : List Nat) (r : RequestId) : World :=
  { w with queue := { w.queue with pending := w.queue.pending.insert cid r, free := free } }

/-- The capsule in a slot is posted, and the command is pending. -/
def World.post (w : World) (cid : Nat) (free : List Nat) (r : RequestId) : World :=
  { w.reserve cid free r with link := { w.link with
      undelivered := w.link.undelivered ++ [⟨sendWr cid, r⟩]
      uncompleted := w.link.uncompleted ++ [⟨sendWr cid, r⟩] } }

theorem reserve_open (hfresh : cid ∉ w.queue.pending) (hr : (w.requests r).commandId = cid) (r' : RequestId) :
    (w.reserve cid free r).Open r' ↔ r' = r ∨ w.Open r' := by
  show AList.lookup (w.requests r').commandId (w.queue.pending.insert cid r) = some r' ↔ _
  by_cases hid : (w.requests r').commandId = cid
  · rw [hid, AList.lookup_insert, Option.some.injEq]
    refine ⟨fun he => Or.inl he.symm, ?_⟩
    rintro (rfl | ho)
    · rfl
    · rw [World.Open, hid] at ho
      exact absurd (AList.lookup_isSome.mp (by rw [ho]; rfl)) hfresh
  · rw [AList.lookup_insert_ne hid]
    refine ⟨Or.inr, ?_⟩
    rintro (rfl | ho)
    · exact absurd hr hid
    · exact ho

/-- What a new request that is not posted yet has in its slot. -/
structure Drafted (w : World) (cid : Nat) (r : RequestId) : Prop where
  request : ∃ owner, w.requests r = { commandId := cid, dataOwner := owner }
  lt : r < w.nextRequest
  unanswered : ∀ a ∈ w.record.answers, a.request ≠ r
  slot : w.queue.commands.mem.read 64 (cid * 64) = w.record.capsule r
  stamped : capsuleCommandId (w.record.capsule r) = cid

/-- A new request joins the tokens. -/
theorem Sound.post (h : Sound w) (hf : w.queue.free = cid :: free) (hd : Drafted w cid r) :
    Sound (w.post cid free r) := by
  obtain ⟨h, hdone⟩ := h
  obtain ⟨⟨owner, hr⟩, hlt, hnew, hslot, hid⟩ := hd
  obtain ⟨_, hfresh⟩ := h.free_fresh hf
  have hcid : (w.requests r).commandId = cid := by rw [hr]
  have hopen : ∀ r', (w.post cid free r).Open r' ↔ r' = r ∨ w.Open r' := reserve_open hfresh hcid
  have hnot : ¬ w.Open r := fun ho => h.open_ne_free hf ho hcid
  refine ⟨⟨h.depth, h.opened, h.buffers, ?_, fun cid' r' hl => ?_, fun r' ho => ?_, ?_, ?_, h.recvs, fun x hx => ?_,
    h.received, h.unread, h.answered, fun a ha => ?_, h.responses, h.fresh, h.finished, h.handed⟩, hdone⟩
  · have hids := h.ids
    rw [hf] at hids
    refine hids.perm ?_
    show (cid :: free ++ w.queue.pending.keys).Perm (free ++ AList.keys (w.queue.pending.insert cid r))
    rw [AList.keys_insert, List.erase_of_not_mem fun hmem => hfresh (AList.mem_keys.mpr hmem)]
    exact List.perm_middle.symm
  · by_cases hc : cid' = cid
    · subst hc
      obtain rfl := Option.some.inj ((AList.lookup_insert _).symm.trans hl)
      exact ⟨hcid, hlt, by rw [World.post, World.reserve, hr]⟩
    · exact h.keys cid' r' ((AList.lookup_insert_ne hc).symm.trans hl)
  · rcases (hopen r').mp ho with rfl | ho'
    · exact ⟨(congrArg (fun cid => w.queue.commands.mem.read 64 (cid * 64)) hcid).trans hslot, hid.trans hcid.symm⟩
    · exact h.slots r' ho'
  · refine ((h.sends.cons fun hp => hnot hp.1).perm ?_).congr fun r' => ?_
    · show (r :: w.sending).Perm
        ((w.link.uncompleted ++ [(⟨sendWr cid, r⟩ : Send)]).map Send.request ++ w.link.cq.filterMap Entry.sent?)
      rw [List.map_append, List.append_assoc]
      exact List.perm_middle.symm
    · rw [hopen, or_and_right]
      refine or_congr ⟨fun he => ⟨he, ?_⟩, And.left⟩ Iff.rfl
      rw [he, World.post, World.reserve, hr]
  · refine ((h.awaits.cons fun hp => hnot hp.1).perm ?_).congr fun r' => ?_
    · show (r :: w.awaiting).Perm ((w.link.undelivered ++ [(⟨sendWr cid, r⟩ : Send)]).map Send.request ++
        w.link.capsules.map Capsule.request ++ w.link.cq.filterMap Entry.answered?)
      rw [List.map_append, List.append_assoc, List.append_assoc, World.awaiting, List.append_assoc]
      exact List.perm_middle.symm
    · rw [hopen, or_and_right]
      refine or_congr ⟨fun he => ⟨he, ?_⟩, And.left⟩ Iff.rfl
      rw [he, World.post, World.reserve, hr]
  · have hmem : x = ⟨sendWr cid, r⟩ ∨ x ∈ w.link.undelivered ∨ x ∈ w.link.uncompleted ∨ .send x ∈ w.link.cq := by
      simp only [World.post, List.mem_append, List.mem_singleton] at hx
      tauto
    rcases hmem with rfl | hx
    · rw [← hcid]; rfl
    · exact h.posted x hx
  · obtain ⟨halt, hcap, hlen, hcmd, hout⟩ := h.answers a ha
    refine ⟨halt, hcap, hlen, hcmd, ?_⟩
    simp only [World.post, List.map_append, List.map_cons, List.map_nil, List.mem_append, List.mem_singleton] at hout ⊢
    have := hnew a ha
    tauto

/-- The first part of `submit` in any state: it raises, or it drafts a request and reserves its command ID. -/
theorem submitWrite_cases (w : World) (command : List UInt8) (owner : Option Nat) :
    (∃ free e, submitWrite w command owner = ({ w with queue := { w.queue with free := free } }, .error e)) ∨
    (w.queue.closed = false ∧ command.length = 64 ∧ ∃ cid free, w.queue.free = cid :: free ∧
      submitWrite w command owner =
        ((w.draft cid (packCommandId command cid) { commandId := cid, dataOwner := owner }).reserve cid free
          w.nextRequest, .ok (cid, w.nextRequest))) := by
  unfold submitWrite
  split
  · exact .inl ⟨w.queue.free, _, rfl⟩
  next hopen =>
    split
    · exact .inl ⟨w.queue.free, _, rfl⟩
    next hlen =>
      split
      · exact .inl ⟨w.queue.free, _, rfl⟩
      next cid free hf =>
        dsimp only
        by_cases hfits : w.queue.commands.length < cid * 64 + (packCommandId command cid).length
        · rw [HostBuffer.write, if_pos hfits]
          exact .inl ⟨free, _, rfl⟩
        · rw [HostBuffer.write, if_neg hfits]
          exact .inr ⟨by simpa using hopen, not_not.mp hlen, cid, free, hf, rfl⟩

theorem submitWrite_eq {command : List UInt8} (h : Core w) (hf : w.queue.free = cid :: free)
    (hlen : command.length = 64) (owner : Option Nat) : submitWrite w command owner =
      ((w.draft cid (packCommandId command cid) { commandId := cid, dataOwner := owner }).reserve cid free
        w.nextRequest, .ok (cid, w.nextRequest)) := by
  obtain ⟨hlt, hfresh⟩ := h.free_fresh hf
  have hopened : ¬ w.queue.closed = true := by rw [h.opened]; decide
  have hwrite : ¬ w.queue.commands.length < cid * 64 + (packCommandId command cid).length := by
    have hcap : (packCommandId command cid).length = 64 := length_packCommandId hlen cid
    rw [hcap, h.buffers.1]
    omega
  unfold submitWrite
  rw [if_neg hopened, if_neg (not_not.mpr hlen)]
  simp only [hf, HostBuffer.write, if_neg hwrite]
  rfl

theorem submitPost_some (hfresh : cid ∉ w.queue.pending) (hf : w.queue.free = cid :: free) (e : Exn) :
    submitPost (w.reserve cid free r) cid r (some e) = (w, .error e) := by
  simp only [submitPost, World.reserve, Dict.erase_insert_of_notMem hfresh, ← hf]

/-- What `submit` does to a queue that is open and has a free command ID. -/
theorem submit_eq {command : List UInt8} (h : Core w) (hf : w.queue.free = cid :: free) (hlen : command.length = 64)
    (owner : Option Nat) (post : Option Exn) : submit w command owner post =
      match post with
      | some e => (w.draft cid (packCommandId command cid) { commandId := cid, dataOwner := owner }, .error e)
      | none => ((w.draft cid (packCommandId command cid) { commandId := cid, dataOwner := owner }).post cid free
          w.nextRequest, .ok w.nextRequest) := by
  rw [submit, submitWrite_eq h hf hlen]
  cases post with
  | some e =>
      exact submitPost_some (w := w.draft cid (packCommandId command cid) { commandId := cid, dataOwner := owner })
        (h.free_fresh hf).2 hf e
  | none => rfl

/-- With no free command ID, or with a capsule of another length, the first part raises and changes nothing. -/
theorem submitWrite_refused {command : List UInt8} (h : w.queue.free = [] ∨ command.length ≠ 64)
    (owner : Option Nat) : ∃ e, submitWrite w command owner = (w, .error e) := by
  unfold submitWrite
  split
  · exact ⟨_, rfl⟩
  · split
    · exact ⟨_, rfl⟩
    · next hlen =>
        rw [h.resolve_right hlen]
        exact ⟨_, rfl⟩

theorem submit_refused {command : List UInt8} (h : w.queue.free = [] ∨ command.length ≠ 64) (owner : Option Nat)
    (post : Option Exn) : ∃ e, submit w command owner post = (w, .error e) := by
  obtain ⟨e, he⟩ := submitWrite_refused h owner
  exact ⟨e, by rw [submit, he]⟩

/-- What a `submit` that returns a request has done. -/
theorem Core.submitted {command : List UInt8} {owner : Option Nat} {post : Option Exn} {w' : World} {r : RequestId}
    (h : Core w) (hs : submit w command owner post = (w', .ok r)) :
    command.length = 64 ∧ r = w.nextRequest ∧ ∃ cid free, w.queue.free = cid :: free ∧
      w' = (w.draft cid (packCommandId command cid) { commandId := cid, dataOwner := owner }).post cid free r := by
  have hrefused : w.queue.free ≠ [] ∧ command.length = 64 := by
    by_contra hn
    obtain ⟨e, he⟩ := submit_refused (by tauto) owner post
    rw [he] at hs
    cases hs
  obtain ⟨cid, free, hf⟩ := List.exists_cons_of_ne_nil hrefused.1
  rw [submit_eq h hf hrefused.2] at hs
  cases post with
  | some e => cases hs
  | none =>
      cases hs
      exact ⟨hrefused.2, rfl, cid, free, hf, rfl⟩

theorem Core.submit_raised {command : List UInt8} {owner : Option Nat} {post : Option Exn} {w' : World} {e : Exn}
    (h : Core w) (hs : submit w command owner post = (w', .error e)) :
    w'.queue.pending = w.queue.pending ∧ w'.executing = w.executing := by
  by_cases hrefused : w.queue.free = [] ∨ command.length ≠ 64
  · obtain ⟨e', he⟩ := submit_refused hrefused owner post
    rw [he] at hs
    cases hs
    exact ⟨rfl, rfl⟩
  · push Not at hrefused
    obtain ⟨cid, free, hf⟩ := List.exists_cons_of_ne_nil hrefused.1
    rw [submit_eq h hf hrefused.2] at hs
    cases post with
    | some e' => cases hs; exact ⟨rfl, rfl⟩
    | none => cases hs

/-- The capsule of a submitted command is the command with its ID stamped into it. -/
theorem Core.stamped {command : List UInt8} {owner : Option Nat} {post : Option Exn} {w' : World} {r : RequestId}
    (h : Core w) (hs : submit w command owner post = (w', .ok r)) :
    (w'.requests r).commandId < w.queue.depth - 1 ∧
      w'.queue.commands.mem.read 64 ((w'.requests r).commandId * 64) =
        packCommandId command (w'.requests r).commandId := by
  obtain ⟨hlen, rfl, cid, free, hf, rfl⟩ := h.submitted hs
  have hcap : (packCommandId command cid).length = 64 := length_packCommandId hlen cid
  have hread := Memory.read_write_self w.queue.commands.mem (packCommandId command cid) (cid * 64)
  rw [hcap] at hread
  have hreq : (((w.draft cid (packCommandId command cid) { commandId := cid, dataOwner := owner }).post cid free
      w.nextRequest).requests w.nextRequest).commandId = cid := by
    simp [World.post, World.reserve, World.draft]
  rw [hreq]
  exact ⟨(h.free_fresh hf).1, hread⟩

theorem Core.drafted {command : List UInt8} (h : Core w) (hf : w.queue.free = cid :: free)
    (hlen : command.length = 64) (owner : Option Nat) :
    Drafted (w.draft cid (packCommandId command cid) { commandId := cid, dataOwner := owner }) cid w.nextRequest := by
  have hcap : (packCommandId command cid).length = 64 := length_packCommandId hlen cid
  have hlt := (h.free_fresh hf).1
  have hdepth := h.depth.2
  have hread := Memory.read_write_self w.queue.commands.mem (packCommandId command cid) (cid * 64)
  rw [hcap] at hread
  have hself : (w.draft cid (packCommandId command cid) { commandId := cid, dataOwner := owner }).record.capsule
      w.nextRequest = packCommandId command cid := Function.update_self ..
  refine ⟨⟨owner, Function.update_self ..⟩, Nat.lt_succ_self _, fun a ha => Nat.ne_of_lt (h.answers a ha).1, ?_, ?_⟩
  · rw [hself]
    exact hread
  · rw [hself]
    exact capsuleCommandId_pack hlen (by omega)

theorem Sound.submit (h : Sound w) (command : List UInt8) (owner : Option Nat) (post : Option Exn) :
    Sound (submit w command owner post).1 ∧
      (submit w command owner post).1.queue.completed = w.queue.completed ∧
      (submit w command owner post).1.record.finished = w.record.finished := by
  by_cases hrefused : w.queue.free = [] ∨ command.length ≠ 64
  · obtain ⟨e, he⟩ := submit_refused hrefused owner post
    rw [he]
    exact ⟨h, rfl, rfl⟩
  · push Not at hrefused
    obtain ⟨hne, hlen⟩ := hrefused
    obtain ⟨cid, free, hf⟩ := List.exists_cons_of_ne_nil hne
    have hcap : (packCommandId command cid).length = 64 := length_packCommandId hlen cid
    have hdraft := h.draft owner hf hcap
    rw [submit_eq h.core hf hlen]
    cases post with
    | some e => exact ⟨hdraft, rfl, rfl⟩
    | none => exact ⟨hdraft.post hf (h.core.drafted hf hlen owner), rfl, rfl⟩

end Rdma4py.NvmeQueue
