import Rdma4py.Endpoint.Theorems
import Rdma4py.ProcessGroup.Lemmas.Framing
import Rdma4py.ProcessGroup.Rendezvous

/-!
# What a rendezvous keeps

The connection of an attempt is the last one that its rank dialed, and the connection that a rank answers is the last one
that it accepted. So a listener that has answered a connection is never given an older one.
-/

namespace Rdma4py.ProcessGroup.Rendezvous

open Lib Control

variable {S : Setting} {w w' : World} {rank r c p : Nat} {lanes : Lanes} {message request : PyValue} {a : Joined}

/-! ## Bytes and messages -/

/-- Some of the bytes are read as the message. -/
def Delivers (S : Setting) (bytes : List UInt8) (message : PyValue) : Prop :=
  ∃ s : Stream, s.bytes <+: bytes ∧ (recvFrame S.json s).1 = .ok message

/-- The bytes are those of a frame that `_send_frame` sends. -/
structure Sent (S : Setting) (message : PyValue) (bytes : List UInt8) : Prop where
  length : (S.dumps message).length ≤ maxFrame
  bytes_eq : bytes = frame S.json message

theorem Delivers.mono {bytes bytes' : List UInt8} (h : Delivers S bytes message) (hle : bytes <+: bytes') :
    Delivers S bytes' message := by
  obtain ⟨s, hs, hmessage⟩ := h
  exact ⟨s, hs.trans hle, hmessage⟩

theorem not_delivers_nil : ¬ Delivers S [] message := by
  rintro ⟨s, hs, hmessage⟩
  have htruncated : Truncated s.bytes := by
    rw [List.prefix_nil.mp hs]
    exact .inl (by decide)
  obtain ⟨s', hs'⟩ := recvFrame_truncated S.json htruncated
  rw [hs'] at hmessage
  cases hmessage

/-- A whole frame is read as what its payload is parsed to. -/
theorem recvFrame_frame {json : Json PyValue} {s : Stream} {v : PyValue} (hlength : (json.dumps v).length ≤ maxFrame)
    (hbytes : s.bytes = frame json v) (hmessage : (recvFrame json s).1 = .ok message) :
    json.loads (json.dumps v) = some message := by
  have hsize : (json.dumps v).length < 2 ^ 32 := Nat.lt_of_le_of_lt hlength (by decide)
  obtain ⟨s', hs', hrest⟩ := recvFrame_of_size json hsize hbytes
  have hpayload : (json.dumps v).length ≤ s'.bytes.length := by rw [hrest]
  obtain ⟨s'', hs'', -⟩ := recvExact_ok hpayload
  rw [hrest, List.take_length] at hs''
  rw [hs', recvPayload, if_neg (Nat.not_lt.mpr hlength), hs''] at hmessage
  dsimp only at hmessage
  cases hloads : json.loads (json.dumps v) with
  | none => simp [hloads] at hmessage
  | some value =>
      simp only [hloads] at hmessage
      split at hmessage
      · simpa using hmessage
      · cases hmessage

/-- What is delivered of a frame is its message. -/
theorem Sent.loads {v : PyValue} {bytes : List UInt8} (h : Sent S v bytes) (hd : Delivers S bytes message) :
    S.loads (S.dumps v) = some message := by
  obtain ⟨s, hs, hmessage⟩ := hd
  rw [h.bytes_eq] at hs
  by_cases hwhole : s.bytes = frame S.json v
  · exact @recvFrame_frame _ S.json s v h.length hwhole hmessage
  · have htruncated := truncated_of_prefix h.length hs hwhole
    obtain ⟨s', hs'⟩ := recvFrame_truncated S.json htruncated
    rw [hs'] at hmessage
    cases hmessage

/-- What a send that does not raise has sent on a fresh connection. -/
theorem send_ok {broken : Option Nat} {bytes : List UInt8} (h : send S message broken [] = (bytes, true)) :
    Sent S message bytes := by
  by_cases hlength : (S.dumps message).length ≤ maxFrame
  · have hsend : sendFrame S.json message [] = (.ok (), [] ++ frame S.json message) := sendFrame_ok hlength []
    cases broken with
    | none =>
        simp only [send, hsend, List.nil_append, Prod.mk.injEq, and_true] at h
        exact ⟨hlength, h.symm⟩
    | some n => simp [send] at h
  · have hsend : sendFrame S.json message [] = (.error tooLarge, []) := if_pos (Nat.not_le.mp hlength)
    cases broken with
    | none => simp [send, hsend] at h
    | some n => simp [send] at h

/-! ## The listener -/

/-- The listener has yielded the connection. -/
structure Accepted (w : World) (rank c : Nat) : Prop where
  lt : c < w.count
  target : (w.conns c).target = rank
  popped : c ∉ w.backlog rank

/-- Connections are yielded in the order of their numbers, and nothing was answered before. -/
structure Queue (w : World) (rank : Nat) : Prop where
  sorted : (w.backlog rank).Pairwise (· < ·)
  waiting : ∀ c ∈ w.backlog rank, c < w.count ∧ (w.conns c).target = rank ∧ (w.conns c).down = []
  fifo : ∀ c, Accepted w rank c → ∀ c' ∈ w.backlog rank, c < c'

/-- Connections may have come to the backlog; those that were in it are as they were. -/
structure Extends (w w' : World) (rank : Nat) : Prop where
  count : w.count ≤ w'.count
  target : ∀ c < w.count, (w'.conns c).target = (w.conns c).target
  down : ∀ c ∈ w.backlog rank, (w'.conns c).down = (w.conns c).down
  backlog : ∃ new, w'.backlog rank = w.backlog rank ++ new ∧ new.Pairwise (· < ·) ∧
    ∀ c ∈ new, w.count ≤ c ∧ c < w'.count ∧ (w'.conns c).target = rank ∧ (w'.conns c).down = []
  fresh : ∀ c, w.count ≤ c → c < w'.count → (w'.conns c).target = rank → c ∈ w'.backlog rank

theorem Extends.accepted_iff (h : Extends w w' rank) : Accepted w' rank c ↔ Accepted w rank c := by
  obtain ⟨new, hbacklog, -, hnew⟩ := h.backlog
  constructor
  · intro ha
    have hlt : c < w.count := by
      by_contra hle
      exact ha.popped (h.fresh c (Nat.not_lt.mp hle) ha.lt ha.target)
    have hpopped := ha.popped
    rw [hbacklog, List.mem_append, not_or] at hpopped
    exact ⟨hlt, by rw [← h.target c hlt]; exact ha.target, hpopped.1⟩
  · intro ha
    refine ⟨Nat.lt_of_lt_of_le ha.lt h.count, by rw [h.target c ha.lt]; exact ha.target, ?_⟩
    rw [hbacklog, List.mem_append, not_or]
    refine ⟨ha.popped, fun hc => ?_⟩
    have := (hnew c hc).1
    have := ha.lt
    omega

theorem Queue.extend (hq : Queue w rank) (h : Extends w w' rank) : Queue w' rank := by
  obtain ⟨new, hbacklog, hsorted, hnew⟩ := h.backlog
  constructor
  · rw [hbacklog, List.pairwise_append]
    refine ⟨hq.sorted, hsorted, fun c hc c' hc' => ?_⟩
    have := (hq.waiting c hc).1
    have := (hnew c' hc').1
    omega
  · intro c hc
    rw [hbacklog, List.mem_append] at hc
    rcases hc with hc | hc
    · obtain ⟨hlt, htarget, hdown⟩ := hq.waiting c hc
      exact ⟨Nat.lt_of_lt_of_le hlt h.count, by rw [h.target c hlt, htarget], by rw [h.down c hc, hdown]⟩
    · exact (hnew c hc).2
  · intro c hc c' hc'
    rw [h.accepted_iff] at hc
    rw [hbacklog, List.mem_append] at hc'
    rcases hc' with hc' | hc'
    · exact hq.fifo c hc c' hc'
    · have := hc.lt
      have := (hnew c' hc').1
      omega

/-- The oldest connection is yielded: it comes behind all that were yielded before. -/
theorem Queue.pop {rest : List Nat} (hq : Queue w rank) (hbacklog : w.backlog rank = c :: rest) :
    Queue (w.popBacklog rank) rank ∧ Accepted (w.popBacklog rank) rank c ∧ (w.conns c).down = [] ∧
      ∀ c', Accepted (w.popBacklog rank) rank c' → c' ≤ c := by
  have htail : (w.popBacklog rank).backlog rank = rest := by
    simp [World.popBacklog, hbacklog]
  have hsorted := hq.sorted
  rw [hbacklog, List.pairwise_cons] at hsorted
  obtain ⟨hlt, htarget, hdown⟩ := hq.waiting c (by rw [hbacklog]; exact List.mem_cons_self)
  have hpopped : ∀ c', Accepted (w.popBacklog rank) rank c' → c' ≤ c := by
    intro c' hc'
    by_cases hmem : c' ∈ w.backlog rank
    · rw [hbacklog, List.mem_cons] at hmem
      rcases hmem with rfl | hmem
      · exact Nat.le_refl _
      · exact absurd (htail ▸ hmem) hc'.popped
    · exact Nat.le_of_lt (hq.fifo c' ⟨hc'.lt, hc'.target, hmem⟩ c (by rw [hbacklog]; exact List.mem_cons_self))
  refine ⟨⟨?_, ?_, ?_⟩, ⟨hlt, htarget, ?_⟩, hdown, hpopped⟩
  · rw [htail]
    exact hsorted.2
  · intro c' hc'
    rw [htail] at hc'
    exact hq.waiting c' (by rw [hbacklog]; exact List.mem_cons_of_mem _ hc')
  · intro c' hc' c'' hc''
    rw [htail] at hc''
    exact Nat.lt_of_le_of_lt (hpopped c' hc') (hsorted.1 c'' hc'')
  · rw [htail]
    intro hmem
    exact Nat.lt_irrefl _ (hsorted.1 c hmem)

/-! ## The attempts -/

/-- The connection is the last one that the rank dialed. -/
structure Dialed (w : World) (rank c : Nat) : Prop where
  lt : c < w.count
  dialer : (w.conns c).dialer = some rank
  last : ∀ c' < w.count, (w.conns c').dialer = some rank → c' ≤ c

/-- An attempt of a member with lanes that it created. -/
structure Begun (S : Setting) (rank : Nat) (lanes : Lanes) : Prop where
  rank_lt : rank < S.size
  created : ∃ created, lanes = S.lanesFrom created

/-- An attempt that has sent its request. -/
structure Requested (S : Setting) (w : World) (rank : Nat) (lanes : Lanes) (c : Nat) : Prop extends
    Begun S rank lanes, Dialed w rank c where
  sent : Sent S (S.request rank lanes) (w.conns c).up

/-- An attempt that takes a connection for that of the previous rank. No later one was answered. -/
structure Taken (S : Setting) (w : World) (rank p : Nat) (request : PyValue) : Prop extends Accepted w rank p where
  last : ∀ c < w.count, (w.conns c).target = rank → (w.conns c).down ≠ [] → c ≤ p
  delivers : Delivers S (w.conns p).up request
  matching : S.matching (S.handle (S.prev rank)) request = true

/-- An attempt that has sent its response. -/
structure Answered (S : Setting) (w : World) (rank : Nat) (lanes : Lanes) (c p : Nat) (request : PyValue) : Prop where
  requested : Requested S w rank lanes c
  taken : Taken S w rank p request
  sent : Sent S (S.response rank lanes) (w.conns p).down

/-- What an attempt has read from the two messages. -/
structure Read (S : Setting) (rank : Nat) (a : Joined) (request response : PyValue) : Prop where
  matching : S.matching (S.handle (S.next rank)) response = true
  nextInfos : S.infosOf response "incoming" = .ok a.nextInfos
  prevInfos : S.infosOf request "outgoing" = .ok a.prevInfos
  lengths : a.nextInfos.length = S.qps ∧ a.prevInfos.length = S.qps
  nextBuffers : S.buffersOf response = .ok a.nextBuffers

/-- An attempt that has read both messages. -/
def Joins (S : Setting) (w : World) (rank : Nat) (a : Joined) : Prop :=
  ∃ request response, Answered S w rank a.lanes a.nextSocket a.prevSocket request ∧
    Delivers S (w.conns a.nextSocket).down response ∧ Read S rank a request response

/-- What is known of a member in a phase. -/
def PhaseOk (S : Setting) (w : World) (rank : Nat) : Phase → Prop
  | .idle => True
  | .dialing lanes => Begun S rank lanes
  | .sending lanes c => Begun S rank lanes ∧ Dialed w rank c ∧ (w.conns c).up = []
  | .accepting lanes c => Requested S w rank lanes c
  | .reading lanes c socket => Requested S w rank lanes c ∧ Accepted w rank socket ∧ (w.conns socket).down = [] ∧
      ∀ c', Accepted w rank c' → c' ≤ socket
  | .responding lanes c p request => Requested S w rank lanes c ∧ Taken S w rank p request ∧ (w.conns p).down = []
  | .waiting lanes c p request => Answered S w rank lanes c p request
  | .joining a => Joins S w rank a
  | .done a => Joins S w rank a

/-- What others do to a member: they connect, they send on what they dialed and on what they accepted. -/
structure Undisturbed (w w' : World) (rank : Nat) : Prop extends Extends w w' rank where
  dialer : ∀ c < w.count, (w'.conns c).dialer = (w.conns c).dialer
  up : ∀ c < w.count, (w.conns c).up <+: (w'.conns c).up ∧
    ((w.conns c).dialer = some rank → (w'.conns c).up = (w.conns c).up)
  sentDown : ∀ c < w.count, (w.conns c).down <+: (w'.conns c).down ∧
    ((w.conns c).target = rank → (w'.conns c).down = (w.conns c).down)
  others : ∀ c, w.count ≤ c → c < w'.count → (w'.conns c).dialer ≠ some rank ∧ (w'.conns c).down = []

theorem Dialed.undisturbed (hd : Dialed w rank c) (h : Undisturbed w w' rank) : Dialed w' rank c := by
  refine ⟨Nat.lt_of_lt_of_le hd.lt h.count, by rw [h.dialer c hd.lt, hd.dialer], fun c' hlt hdialer => ?_⟩
  by_cases hold : c' < w.count
  · rw [h.dialer c' hold] at hdialer
    exact hd.last c' hold hdialer
  · exact absurd hdialer (h.others c' (Nat.not_lt.mp hold) hlt).1

theorem Requested.undisturbed (hr : Requested S w rank lanes c) (h : Undisturbed w w' rank) :
    Requested S w' rank lanes c := by
  refine ⟨hr.toBegun, hr.toDialed.undisturbed h, ?_⟩
  rw [(h.up c hr.toDialed.lt).2 hr.dialer]
  exact hr.sent

theorem Taken.undisturbed (ht : Taken S w rank p request) (h : Undisturbed w w' rank) : Taken S w' rank p request := by
  refine ⟨h.accepted_iff.mpr ht.toAccepted, fun c hlt htarget hdown => ?_, ht.delivers.mono (h.up p ht.lt).1,
    ht.matching⟩
  by_cases hold : c < w.count
  · rw [h.target c hold] at htarget
    rw [(h.sentDown c hold).2 htarget] at hdown
    exact ht.last c hold htarget hdown
  · exact absurd (h.others c (Nat.not_lt.mp hold) hlt).2 hdown

theorem Answered.undisturbed (ha : Answered S w rank lanes c p request) (h : Undisturbed w w' rank) :
    Answered S w' rank lanes c p request := by
  refine ⟨ha.requested.undisturbed h, ha.taken.undisturbed h, ?_⟩
  rw [(h.sentDown p ha.taken.lt).2 ha.taken.target]
  exact ha.sent

theorem Joins.undisturbed (hj : Joins S w rank a) (h : Undisturbed w w' rank) : Joins S w' rank a := by
  obtain ⟨request, response, hanswered, hdelivers, hjoin⟩ := hj
  exact ⟨request, response, hanswered.undisturbed h,
    hdelivers.mono (h.sentDown _ hanswered.requested.toDialed.lt).1, hjoin⟩

theorem PhaseOk.undisturbed {phase : Phase} (hp : PhaseOk S w rank phase) (h : Undisturbed w w' rank) :
    PhaseOk S w' rank phase := by
  cases phase with
  | idle => trivial
  | dialing lanes => exact hp
  | sending lanes c =>
      obtain ⟨hbegun, hdialed, hup⟩ := hp
      refine ⟨hbegun, hdialed.undisturbed h, ?_⟩
      rw [(h.up c hdialed.lt).2 hdialed.dialer, hup]
  | accepting lanes c => exact Requested.undisturbed hp h
  | reading lanes c socket =>
      obtain ⟨hrequested, haccepted, hdown, hlast⟩ := hp
      refine ⟨hrequested.undisturbed h, h.accepted_iff.mpr haccepted, ?_, ?_⟩
      · rw [(h.sentDown socket haccepted.lt).2 haccepted.target, hdown]
      · intro c' hc'
        exact hlast c' (h.accepted_iff.mp hc')
  | responding lanes c p request =>
      obtain ⟨hrequested, htaken, hdown⟩ := hp
      refine ⟨hrequested.undisturbed h, htaken.undisturbed h, ?_⟩
      rw [(h.sentDown p htaken.lt).2 htaken.target, hdown]
  | waiting lanes c p request => exact Answered.undisturbed hp h
  | joining a => exact Joins.undisturbed hp h
  | done a => exact Joins.undisturbed hp h

/-! ## The invariant -/

/-- A connection goes from a member to the next one, or what was sent on it is harmless. -/
def Wired (S : Setting) (conn : Conn) : Prop :=
  match conn.dialer with
  | some rank => rank < S.size ∧ conn.target = S.next rank
  | none => Harmless S conn.target conn.up

structure Sound (S : Setting) (w : World) : Prop where
  wired : ∀ c < w.count, Wired S (w.conns c)
  queue : ∀ rank, Queue w rank
  phase : ∀ rank, PhaseOk S w rank (w.phase rank)

theorem sound_initial (h : w.Initial) : Sound S w where
  wired c hc := by
    rw [h.count] at hc
    exact absurd hc (Nat.not_lt_zero c)
  queue rank := by
    constructor
    · rw [h.backlog]
      exact .nil
    · intro c hc
      rw [h.backlog] at hc
      cases hc
    · intro c hc c' hc'
      rw [h.backlog] at hc'
      cases hc'
  phase rank := by
    rw [h.phase]
    trivial

/-- One member moves, and the others are undisturbed. -/
theorem Sound.move (hs : Sound S w) (hwired : ∀ c < w'.count, Wired S (w'.conns c)) (hqueue : Queue w' rank)
    (hphase : PhaseOk S w' rank (w'.phase rank))
    (hothers : ∀ r ≠ rank, w'.phase r = w.phase r ∧ Undisturbed w w' r) : Sound S w' := by
  refine ⟨hwired, fun r => ?_, fun r => ?_⟩
  · by_cases hr : r = rank
    · exact hr ▸ hqueue
    · exact (hs.queue r).extend (hothers r hr).2.toExtends
  · by_cases hr : r = rank
    · exact hr ▸ hphase
    · rw [(hothers r hr).1]
      exact (hs.phase r).undisturbed (hothers r hr).2

end Rdma4py.ProcessGroup.Rendezvous
