import Rdma4py.Bindings.Lemmas.Events
import Rdma4py.Bindings.Lemmas.PollEx
import Rdma4py.Bindings.Lemmas.PostSend
import Rdma4py.Bindings.Lemmas.PostSendEx

/-!
# Bindings: results
-/

namespace Rdma4py.Bindings

open Lib

/-! ## Events of completion queues -/

/-- **Event accounting.** As long as no event arrives at the largest `int` and no argument is cast to a negative one,
`_unacked` is the difference of the counts, `ack_events` rejects what it should, and a CQ that was destroyed has every
event acknowledged. The first step that is not so small breaks this. -/
theorem event_accounting (cls : CQClass) :
    (∀ cq, ((CQ.machine cls).when CQ.Small).Reaches .create cq →
      cq.Accounted ∧ ∀ e, cq.Enabled e → cq.Small e → cq.Rejects cls e) ∧
    ∀ cq e, ((CQ.machine cls).when CQ.Small).Reaches .create cq → cq.Enabled e → ¬ cq.Small e →
      ¬ ((cq.next cls e).Accounted ∧ cq.Rejects cls e) := by
  constructor
  · intro cq h
    have hi := CQ.Inv.of_reaches h
    exact ⟨hi.toAccounted, fun e he hsmall => hi.rejects cls he hsmall⟩
  · intro cq e h he hsmall
    exact (CQ.Inv.of_reaches h).not_small cls he hsmall

/-- Two events, one of them acknowledged by the user and the other by `close`. -/
theorem event_accounting_close :
    ((CQ.machine verbsCQ).play .create [.getCqEvent, .getCqEvent, .ackEvents 1, .close 0 0]).acknowledged = 2 := by
  have hplays : ((CQ.machine verbsCQ).when CQ.Small).Plays .create
      [.getCqEvent, .getCqEvent, .ackEvents 1, .close 0 0] := by
    decide
  have hcq := ((event_accounting verbsCQ).1 _ hplays.reaches).1
  exact (hcq.destroyed (by decide)).trans (by decide)

/-- `ack_events(2 ** 32 - 1)` is accepted by a CQ that had no event. -/
theorem ack_accepts_too_many :
    ¬ ∀ cls cq, (CQ.machine cls).Reaches .create cq → cq.Accounted ∧ ∀ e, cq.Enabled e → cq.Rejects cls e := by
  intro h
  have hrej := (h efaCQ .create (.refl _)).2 (.ackEvents 4294967295) rfl
  obtain ⟨e, he⟩ := hrej (.inr (by decide))
  have haccepted : (CQ.create.ackEvents efaCQ 4294967295).1.acknowledged = 4294967295 := by decide
  have hrejected : (CQ.create.ackEvents efaCQ 4294967295).1.acknowledged = 0 := by
    rw [he]
    rfl
  omega

/-! ## Extended completion queues -/

namespace CQEx

/-- A completion says what its entry says: the immediate with its bytes in the order of the host, and the sender and the
unsolicited mark where the CQ was created to report them. -/
structure Reports (cqx : CQEx) (e : Entry) (w : WC) : Prop where
  wrId : w.wrId = e.wrId
  status : w.status = e.status
  opcode : w.opcode = e.opcode
  vendorErr : w.vendorErr = e.vendorErr
  byteLen : w.byteLen = e.byteLen
  immData : leBytes 4 w.immData.toNat = beBytes 4 e.immData.toNat
  qpNum : w.qpNum = e.qpNum
  srcQp : w.srcQp = e.srcQp
  wcFlags : w.wcFlags = e.wcFlags
  sgid : w.sgid = if cqx.ecq = true ∧ cqx.sgid = true then e.sgid else none
  unsolicited : w.unsolicited = true ↔ cqx.ecq = true ∧ cqx.unsolicited = true ∧ e.unsolicited = true

theorem read_reports (cqx : CQEx) (e : Entry) : Reports cqx e (cqx.read e) where
  wrId := rfl
  status := rfl
  opcode := rfl
  vendorErr := rfl
  byteLen := rfl
  immData := leBytes_htonl e.immData
  qpNum := rfl
  srcQp := rfl
  wcFlags := rfl
  sgid := by simp [read]
  unsolicited := by simp [read, and_assoc]

/-- Every session is closed, no call returns more than its limit, and the calls return every entry that was consumed,
each once and in the order of the CQ. -/
structure LosesNothing (cqx : CQEx) (queue : Nat → Entry) (h : History) : Prop where
  sessions : Sessions h.calls h.current
  limit : ∀ r ∈ h.results, ∀ out, r.2 = .ok out → (out.length : Int) ≤ r.1
  returned : List.Forall₂ (Reports cqx) ((List.range h.current).map queue) h.returned

/-- **Polling.** A sequence of calls of `poll` loses nothing exactly when `ibv_next_poll` fails in none of them. -/
theorem poll_loses_nothing_iff (cqx : CQEx) (queue : Nat → Entry) (ps : List Poll) :
    LosesNothing cqx queue (polls cqx queue ps) ↔ ∀ p ∈ ps, ¬ Fails cqx p := by
  have hs := polls_sound cqx queue ps
  constructor
  · intro h p hp hf
    have hlt := hs.lossy ⟨p, hp, hf⟩
    have hlen := h.returned.length_eq
    simp only [List.length_map, List.length_range] at hlen
    omega
  · intro hall
    refine ⟨hs.sessions, hs.limit, ?_⟩
    rw [hs.lossless hall, List.forall₂_map_left_iff, List.forall₂_map_right_iff, List.forall₂_same]
    exact fun i _ => read_reports cqx (queue i)

/-- `ibv_next_poll` fails after the first of two entries: it was consumed, and `poll` raises. -/
def failingPoll : Poll where
  numEntries := 2
  start := 0
  next _ := EIO
  errno := 0

theorem poll_loses_entry :
    ¬ ∀ cqx queue ps, LosesNothing cqx queue (polls cqx queue ps) := by
  intro h
  have hentry := (h ⟨true, true, false, false⟩ (fun _ => ⟨0, 0, 0, 0, 0, 0, 0, 0, 0, none, false⟩) [failingPoll]).returned
  have hlen := hentry.length_eq
  revert hlen
  decide

end CQEx

/-! ## Posting to an EFA queue pair -/

namespace Efa

/-- **Sessions.** A list is posted as a whole or not at all exactly when it fits into the C integers that count it, or is
rejected before they matter. -/
theorem post_send_all_or_nothing_iff (allowed : UInt64) (wrs : List SendWR) (stack : Buffers) (rc : Int) :
    AllOrNothing allowed wrs rc (postSendEx allowed wrs stack rc) ↔ Fits allowed wrs := by
  constructor
  · exact fits_of_allOrNothing
  · rintro (⟨hvalid, hlen⟩ | hrejected)
    · exact allOrNothing_of_valid hvalid hlen stack rc
    · exact allOrNothing_of_rejected hrejected stack rc

/-- A send of one entry to an open address handle. -/
def oneSend : SendWR where
  wrId := 1
  sgList := [⟨0x1000, 8, 1⟩]
  opcode := WR_SEND
  sendFlags := 2
  remoteAddr := 0
  rkey := 0
  immData := 0
  ah := some ⟨some 0x5000⟩
  remoteQpn := 7
  remoteQkey := 0x1234

/-- A session over `2 ** 31` work requests has none of them. -/
theorem post_send_loses_long_list : ¬ ∀ allowed wrs stack rc, AllOrNothing allowed wrs rc (postSendEx allowed wrs stack rc) := by
  intro h
  have hvalid : Valid OPS_SEND oneSend := ⟨⟨_, rfl⟩, by decide, .send, .send rfl, by decide⟩
  have hall : ∀ w ∈ List.replicate (2 ^ 31) oneSend, Valid OPS_SEND w := fun w hw => List.eq_of_mem_replicate hw ▸ hvalid
  rcases fits_of_allOrNothing (h OPS_SEND (List.replicate (2 ^ 31) oneSend) ⟨fun _ => ⟨0, 0, 0⟩, fun _ => (0, 0)⟩ 0) with
    ⟨-, hlen⟩ | ⟨w, hw, hbad⟩
  · rw [List.length_replicate] at hlen
    omega
  · exact hbad (hall w (List.mem_of_mem_take hw)).accepted

end Efa

/-! ## Posting to a queue pair of libibverbs -/

namespace Verbs

/-- **Chains.** The provider is given the chain of the list, for sends and for receives, exactly when the two counts fit
into C integers, or are so that nothing can be allocated. -/
theorem work_request_chains_iff (sendWrs : List SendWR) (recvWrs : List RecvWR) :
    ((∀ env, Posts sends Holds sendWrs (postSend env sendWrs)) ↔ Fits sends sendWrs) ∧
    ((∀ env, Posts recvs (fun _ _ => True) recvWrs (postRecvChain env recvWrs)) ↔ Fits recvs recvWrs) := by
  constructor
  · exact ⟨fits_of_posts, posts_of_fits sendFields_holds⟩
  · exact ⟨fits_of_posts, posts_of_fits fun _ => trivial⟩

/-- A receive of `65536` entries. -/
def manySges : RecvWR := ⟨1, List.replicate 65536 ⟨0x1000, 8, 1⟩⟩

/-- `65536` of them have `2 ** 32` entries, for which one is allocated. -/
theorem chain_overflows_sges : ¬ ∀ wrs env, Posts recvs (fun _ _ => True) wrs (postRecvChain env wrs) := by
  intro h
  obtain ⟨wrs, hlen, htotal⟩ : ∃ wrs : List RecvWR, wrs.length = 65536 ∧ total recvs wrs = 65536 * 65536 := by
    refine ⟨List.replicate 65536 manySges, List.length_replicate, ?_⟩
    have hsges : (recvs.sgList manySges).length = 65536 := List.length_replicate
    rw [total_replicate, hsges]
  rcases fits_of_posts (h wrs) with ⟨-, hlt⟩ | ⟨-, hneg⟩
  · omega
  · rw [hlen, htotal] at hneg
    revert hneg
    decide

end Verbs

end Rdma4py.Bindings
