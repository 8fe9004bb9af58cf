import Rdma4py.ProcessGroup.Lemmas.RendezvousSteps

/-!
# Agreement of the members

When two neighbours have joined, each is connected to the lanes that the other created in the attempt that joined, in
whatever order the attempts ran, and however many of them failed.
-/

namespace Rdma4py.ProcessGroup.Rendezvous

open Lib Control

variable {S : Setting} {w w₀ : World} {rank : Nat} {a b : Joined}

/-- JSON text is read back as the same value. -/
def ReadsBack (S : Setting) (message : PyValue) : Prop :=
  ∃ v, S.loads (S.dumps message) = some v ∧ PyValue.Same message v

/-- JSON reads the messages back, and the constructor accepts what `local_qp_info` gives. -/
structure Faithful (S : Setting) : Prop where
  request : ∀ rank < S.size, ∀ created, ReadsBack S (S.request rank (S.lanesFrom created))
  response : ∀ rank < S.size, ∀ created, ReadsBack S (S.response rank (S.lanesFrom created))
  valid : Valid S

/-- Two neighbours are connected: `connect_rc` was called for each outgoing lane of the rank with the QP of the incoming
lane of the next rank, and the other way round, and the rank has the buffers of the next. -/
structure Paired (S : Setting) (rank : Nat) (a b : Joined) : Prop where
  lanes : ∀ k < S.qps, ∃ x y, a.lanes.outgoing[k]? = some x ∧ b.lanes.incoming[k]? = some y ∧
    (x, S.info (S.next rank) y) ∈ a.connected ∧ (y, S.info rank x) ∈ b.connected
  buffers : a.nextBuffers = S.buffers (S.next rank)

/-- And they hold the two ends of one connection. It is the last one that the rank dialed, and the last one that the next
rank answered: nothing that is left of other attempts was matched. -/
structure Agree (S : Setting) (w : World) (rank : Nat) (a b : Joined) : Prop extends Paired S rank a b where
  socket : a.nextSocket = b.prevSocket
  dialed : ∀ c < w.count, (w.conns c).dialer = some rank → c ≤ a.nextSocket
  answered : ∀ c < w.count, (w.conns c).target = S.next rank → (w.conns c).down ≠ [] → c ≤ b.prevSocket

theorem next_injective {i j : Nat} (hi : i < S.size) (hj : j < S.size) (h : S.next i = S.next j) : i = j := by
  rw [Setting.next, Setting.next] at h
  by_cases hi' : i + 1 = S.size
  · by_cases hj' : j + 1 = S.size
    · omega
    · rw [hi', Nat.mod_self, Nat.mod_eq_of_lt (by omega)] at h
      omega
  · rw [Nat.mod_eq_of_lt (by omega)] at h
    by_cases hj' : j + 1 = S.size
    · rw [hj', Nat.mod_self] at h
      omega
    · rw [Nat.mod_eq_of_lt (by omega)] at h
      omega

/-- The member that a connection with a matching message comes from. -/
theorem dialer_of_taken (hs : Sound S w) {i p : Nat} {request : PyValue} (hi : i < S.size)
    (ht : Taken S w (S.next i) p request) : (w.conns p).dialer = some i := by
  have hwired := hs.wired p ht.lt
  rw [Wired] at hwired
  cases hdialer : (w.conns p).dialer with
  | none =>
      rw [hdialer, ht.target] at hwired
      obtain ⟨s, hstream, hrecv⟩ := ht.delivers
      have hmatching := hwired s hstream request hrecv
      rw [ht.matching] at hmatching
      cases hmatching
  | some r =>
      rw [hdialer] at hwired
      obtain ⟨hr, htarget⟩ := hwired
      rw [ht.target] at htarget
      rw [next_injective hi hr htarget]

/-- The connection that a rank dialed last is the one that the next rank took last. -/
theorem sockets_agree (hs : Sound S w) {c p : Nat} {lanes : Lanes} {request response : PyValue}
    (hr : Requested S w rank lanes c) (hd : Delivers S (w.conns c).down response)
    (ht : Taken S w (S.next rank) p request) : c = p := by
  have hwired := hs.wired c hr.lt
  rw [Wired, hr.dialer] at hwired
  have hdown : (w.conns c).down ≠ [] := by
    intro hnil
    rw [hnil] at hd
    exact not_delivers_nil hd
  have hle : c ≤ p := ht.last c hr.lt hwired.2 hdown
  have hge : p ≤ c := hr.toDialed.last p ht.lt (dialer_of_taken hs hr.rank_lt ht)
  exact Nat.le_antisymm hle hge

theorem Sent.same {message v : PyValue} {bytes : List UInt8} (h : Sent S message bytes) (hd : Delivers S bytes v)
    (hback : ReadsBack S message) : PyValue.Same message v := by
  obtain ⟨v', hloads, hsame⟩ := hback
  rw [h.loads hd] at hloads
  rw [Option.some.inj hloads]
  exact hsame

theorem mem_zip_of_getElem? {α β : Type} {xs : List α} {ys : List β} {k : Nat} {x : α} {y : β}
    (hx : xs[k]? = some x) (hy : ys[k]? = some y) : (x, y) ∈ xs.zip ys :=
  List.mem_of_getElem? (List.getElem?_zip_eq_some.mpr ⟨hx, hy⟩)

theorem lanesFrom_getElem? {created k : Nat} (hk : k < S.qps) :
    (S.lanesFrom created).outgoing[k]? = some (created + 2 * k) ∧
      (S.lanesFrom created).incoming[k]? = some (created + 2 * k + 1) := by
  simp [Setting.lanesFrom, Group.createLanes, hk]

theorem Sound.run (h₀ : w₀.Initial) (h : (process S).Reaches w₀ w) : Sound S w :=
  h.invariant (fun _ _ hs he => hs.step he) (sound_initial h₀)

/-- Neighbours that have joined agree. -/
theorem Sound.agree (hs : Sound S w) (hS : Faithful S) (ha : w.phase rank = .done a)
    (hb : w.phase (S.next rank) = .done b) : Agree S w rank a b := by
  have hja : Joins S w rank a := by
    have := hs.phase rank
    rwa [ha] at this
  have hjb : Joins S w (S.next rank) b := by
    have := hs.phase (S.next rank)
    rwa [hb] at this
  obtain ⟨_, response, hanswered, hdelivers, hreada⟩ := hja
  obtain ⟨request, _, hanswered', -, hreadb⟩ := hjb
  have hsocket := sockets_agree hs hanswered.requested hdelivers hanswered'.taken
  obtain ⟨created, hlanes⟩ := hanswered.requested.created
  obtain ⟨created', hlanes'⟩ := hanswered'.requested.created
  have hrequest : PyValue.Same (S.request rank a.lanes) request := by
    have hdelivers' := hanswered'.taken.delivers
    rw [← hsocket] at hdelivers'
    refine hanswered.requested.sent.same hdelivers' ?_
    rw [hlanes]
    exact hS.request rank hanswered.requested.rank_lt created
  have hresponse : PyValue.Same (S.response (S.next rank) b.lanes) response := by
    have hsent := hanswered'.sent
    rw [← hsocket] at hsent
    refine hsent.same hdelivers ?_
    rw [hlanes']
    exact hS.response _ hanswered'.requested.rank_lt created'
  have hnext : a.nextInfos = b.lanes.incoming.map (S.info (S.next rank)) := by
    have := hreada.nextInfos
    rw [infosOf_of_same hS.valid rfl hresponse] at this
    exact (Except.ok.inj this).symm
  have hprev : b.prevInfos = a.lanes.outgoing.map (S.info rank) := by
    have := hreadb.prevInfos
    rw [infosOf_of_same hS.valid rfl hrequest] at this
    exact (Except.ok.inj this).symm
  refine ⟨⟨fun k hk => ⟨created + 2 * k, created' + 2 * k + 1, ?_⟩, ?_⟩, hsocket, hanswered.requested.toDialed.last,
    hanswered'.taken.last⟩
  · have hout : a.lanes.outgoing[k]? = some (created + 2 * k) := by
      rw [hlanes]
      exact (lanesFrom_getElem? hk).1
    have hin : b.lanes.incoming[k]? = some (created' + 2 * k + 1) := by
      rw [hlanes']
      exact (lanesFrom_getElem? hk).2
    refine ⟨hout, hin, List.mem_append_left _ (mem_zip_of_getElem? hout ?_),
      List.mem_append_right _ (mem_zip_of_getElem? hin ?_)⟩
    · rw [hnext, List.getElem?_map, hin, Option.map_some]
    · rw [hprev, List.getElem?_map, hout, Option.map_some]
  · have := hreada.nextBuffers
    rw [buffersOf_of_same rfl hresponse] at this
    exact (Except.ok.inj this).symm

/-- **Agreement of neighbours.** All members call `_reconfigure` with one list and one number, and call it again when it
has failed. In every state that their attempts lead to, whatever strangers send: a rank that has joined and a next rank
that has joined agree, also while others still fail. -/
theorem reconfigure_agreement (hS : Faithful S) (h₀ : w₀.Initial) (h : (process S).Reaches w₀ w)
    (ha : w.phase rank = .done a) (hb : w.phase (S.next rank) = .done b) : Agree S w rank a b :=
  (Sound.run h₀ h).agree hS ha hb

/-- **Agreement of the ring.** When all members have joined, each is connected to the lanes that the next rank created in
the attempt that joined. -/
theorem reconfigured_ring (hS : Faithful S) (h₀ : w₀.Initial) (h : (process S).Reaches w₀ w)
    (hdone : ∀ rank < S.size, ∃ a, w.phase rank = .done a) :
    ∀ rank < S.size, ∃ a b, w.phase rank = .done a ∧ w.phase (S.next rank) = .done b ∧ Paired S rank a b := by
  intro rank hrank
  have hnext : S.next rank < S.size := Nat.mod_lt _ (Nat.zero_lt_of_lt hrank)
  obtain ⟨a, ha⟩ := hdone rank hrank
  obtain ⟨b, hb⟩ := hdone (S.next rank) hnext
  exact ⟨a, b, ha, hb, ((Sound.run h₀ h).agree hS ha hb).toPaired⟩

/-! ## Two members -/

namespace Pair

/-- The handles are `a` and `b`, and the QPs of a rank have one number. -/
def handle (rank : Nat) : PyStr := if rank = 0 then [97] else [98]

def qpNum (rank : Nat) : Int := if rank = 0 then 5 else 6

def info (rank : Nat) : QPInfo := ⟨qpNum rank, 0, 0, List.replicate 16 0, 1, 1⟩

def bytes (s : String) : List UInt8 := (pyStr s).map UInt8.ofNat

/-- The JSON text of the request and of the response of a rank. -/
def text (key : String) (rank : Nat) : List UInt8 :=
  bytes "\x7b\"buffers\":\x7b\"scratch_addr\":4096,\"scratch_rkey\":2,\"work_addr\":8192,\"work_rkey\":1\x7d,\"handle\":\"" ++
    (handle rank).map UInt8.ofNat ++ bytes "\",\"" ++ bytes key ++
    bytes "\":[\x7b\"gid\":\"00000000000000000000000000000000\",\"lid\":0,\"mtu\":1,\"port\":1,\"psn\":0,\"qp_num\":" ++
    [UInt8.ofNat (48 + (qpNum rank).toNat)] ++ bytes "\x7d],\"uuid\":7\x7d"

/-- What the text is parsed to, with the keys in the order of the text. -/
def parsed (key : String) (rank : Nat) : PyValue :=
  .dict [(pyStr "buffers", .dict [(pyStr "scratch_addr", .int 4096), (pyStr "scratch_rkey", .int 2),
      (pyStr "work_addr", .int 8192), (pyStr "work_rkey", .int 1)]),
    (pyStr "handle", .str (handle rank)),
    (pyStr key, .list [.dict [(pyStr "gid", .str (PyValue.hex (List.replicate 16 0))), (pyStr "lid", .int 0),
      (pyStr "mtu", .int 1), (pyStr "port", .int 1), (pyStr "psn", .int 0), (pyStr "qp_num", .int (qpNum rank))]]),
    (pyStr "uuid", .int 7)]

def keyOf (items : List (PyStr × PyValue)) : String :=
  if (PyValue.lookup items "outgoing").isSome then "outgoing" else "incoming"

def dumps : PyValue → List UInt8
  | .dict items => text (keyOf items) (if (PyValue.get items "handle").eqStr [97] then 0 else 1)
  | _ => []

def loads (t : List UInt8) : Option PyValue :=
  if t = text "outgoing" 0 then some (parsed "outgoing" 0)
  else if t = text "incoming" 0 then some (parsed "incoming" 0)
  else if t = text "outgoing" 1 then some (parsed "outgoing" 1)
  else if t = text "incoming" 1 then some (parsed "incoming" 1)
  else none

def setting : Setting where
  dumps := dumps
  loads := loads
  parse _ := none
  uuid := 7
  handles := [[97], [98]]
  qps := 1
  buffers _ := ⟨8192, 1, 4096, 2⟩
  info rank _ := info rank

theorem loads_text {key : String} (hkey : key = "outgoing" ∨ key = "incoming") {rank : Nat} (hrank : rank < 2) :
    loads (text key rank) = some (parsed key rank) := by
  obtain rfl | rfl : rank = 0 ∨ rank = 1 := by omega
  · rcases hkey with rfl | rfl
    · exact if_pos rfl
    · exact (if_neg (by decide)).trans (if_pos rfl)
  · rcases hkey with rfl | rfl
    · exact (if_neg (by decide)).trans ((if_neg (by decide)).trans (if_pos rfl))
    · exact (if_neg (by decide)).trans ((if_neg (by decide)).trans
        ((if_neg (by decide)).trans (if_pos rfl)))

theorem length_text {key : String} (hkey : key = "outgoing" ∨ key = "incoming") {rank : Nat} (hrank : rank < 2) :
    (text key rank).length ≤ maxFrame := by
  obtain rfl | rfl : rank = 0 ∨ rank = 1 := by omega
  · rcases hkey with rfl | rfl <;> decide +kernel
  · rcases hkey with rfl | rfl <;> decide +kernel

theorem same_info (rank : Nat) : PyValue.Same (info rank).toDict
    (.dict [(pyStr "gid", .str (PyValue.hex (List.replicate 16 0))), (pyStr "lid", .int 0), (pyStr "mtu", .int 1),
      (pyStr "port", .int 1), (pyStr "psn", .int 0), (pyStr "qp_num", .int (qpNum rank))]) := by
  refine PyValue.same_dict (by simp) ?_
  simp only [List.map_cons, List.map_nil, List.forall_mem_cons]
  exact ⟨.some (.int _), .some (.int _), .some (.int _), .some (.str _), .some (.int _), .some (.int _), by simp⟩

theorem same_buffers (rank : Nat) : PyValue.Same (setting.bufferInfo rank)
    (.dict [(pyStr "scratch_addr", .int 4096), (pyStr "scratch_rkey", .int 2), (pyStr "work_addr", .int 8192),
      (pyStr "work_rkey", .int 1)]) := by
  refine PyValue.same_dict (by simp) ?_
  simp only [List.map_cons, List.map_nil, List.forall_mem_cons]
  exact ⟨.some (.int _), .some (.int _), .some (.int _), .some (.int _), by simp⟩

theorem same_message {key : String} (hkey : key = "outgoing" ∨ key = "incoming") (rank : Nat) :
    PyValue.Same (.dict [(pyStr "uuid", .int 7), (pyStr "handle", .str (handle rank)),
      (pyStr key, .list [(info rank).toDict]), (pyStr "buffers", setting.bufferInfo rank)]) (parsed key rank) := by
  refine PyValue.same_dict (by simp) ?_
  simp only [List.map_cons, List.map_nil, List.forall_mem_cons]
  rcases hkey with rfl | rfl <;>
    exact ⟨.some (.int _), .some (.str _), .some (.list (.cons (same_info rank) .nil)), .some (same_buffers rank), by simp⟩

theorem dumps_request {rank : Nat} (hrank : rank < 2) (created : Nat) :
    dumps (setting.request rank (setting.lanesFrom created)) = text "outgoing" rank := by
  obtain rfl | rfl : rank = 0 ∨ rank = 1 := by omega
  · rfl
  · rfl

theorem dumps_response {rank : Nat} (hrank : rank < 2) (created : Nat) :
    dumps (setting.response rank (setting.lanesFrom created)) = text "incoming" rank := by
  obtain rfl | rfl : rank = 0 ∨ rank = 1 := by omega
  · rfl
  · rfl

theorem setting_dumps : setting.dumps = dumps := rfl

theorem setting_loads : setting.loads = loads := rfl

theorem handle_eq {rank : Nat} (hrank : rank < 2) : setting.handle rank = handle rank := by
  obtain rfl | rfl : rank = 0 ∨ rank = 1 := by omega
  · rfl
  · rfl

theorem info_valid (rank : Nat) : IsBytes (info rank).gid ∧ (info rank).postInit = .ok (info rank) := by
  by_cases hrank : rank = 0
  · have hinfo : info rank = ⟨5, 0, 0, List.replicate 16 0, 1, 1⟩ := by simp [info, qpNum, hrank]
    rw [hinfo]
    decide
  · have hinfo : info rank = ⟨6, 0, 0, List.replicate 16 0, 1, 1⟩ := by simp [info, qpNum, hrank]
    rw [hinfo]
    decide

theorem faithful : Faithful setting where
  request rank hrank created := by
    refine ⟨parsed "outgoing" rank, ?_, ?_⟩
    · rw [setting_dumps, setting_loads, dumps_request hrank, loads_text (.inl rfl) hrank]
    · rw [Setting.request, handle_eq hrank]
      exact same_message (.inl rfl) rank
  response rank hrank created := by
    refine ⟨parsed "incoming" rank, ?_, ?_⟩
    · rw [setting_dumps, setting_loads, dumps_response hrank, loads_text (.inr rfl) hrank]
    · rw [Setting.response, handle_eq hrank]
      exact same_message (.inr rfl) rank
  valid rank _ := info_valid rank

/-- The frame of a message. -/
def packet (key : String) (rank : Nat) : List UInt8 := beBytes 4 (text key rank).length ++ text key rank

theorem packet_ne_nil (key : String) (rank : Nat) : packet key rank ≠ [] := by
  intro h
  have := congrArg List.length h
  rw [packet, List.length_append, length_beBytes] at this
  simp at this

/-- A frame that arrives in one piece. -/
def whole (key : String) (rank : Nat) : Stream := [⟨packet key rank, packet_ne_nil key rank⟩]

theorem bytes_whole (key : String) (rank : Nat) : (whole key rank).bytes = packet key rank := by
  simp [whole]

variable {key : String}

theorem recv_whole (hkey : key = "outgoing" ∨ key = "incoming") (hrank : rank < 2) :
    (recvFrame setting.json (whole key rank)).1 = .ok (parsed key rank) := by
  have hlength := length_text hkey hrank
  have hsize : (text key rank).length < 2 ^ 32 := Nat.lt_of_le_of_lt hlength (by decide)
  obtain ⟨s', hs', hrest⟩ := recvFrame_of_size setting.json hsize (bytes_whole key rank)
  have hpayload : (text key rank).length ≤ s'.bytes.length := by rw [hrest]
  obtain ⟨s'', hs'', -⟩ := recvExact_ok hpayload
  rw [hrest, List.take_length] at hs''
  rw [hs', recvPayload, if_neg (Nat.not_lt.mpr hlength), hs'']
  have hloads : setting.json.loads (text key rank) = some (parsed key rank) := loads_text hkey hrank
  simp only [hloads]
  rfl

theorem send_request (hrank : rank < 2) (created : Nat) :
    send setting (setting.request rank (setting.lanesFrom created)) none [] = (packet "outgoing" rank, true) := by
  have hlength : ¬ maxFrame < (text "outgoing" rank).length := Nat.not_lt.mpr (length_text (.inl rfl) hrank)
  have hdumps : setting.json.dumps (setting.request rank (setting.lanesFrom created)) = text "outgoing" rank :=
    dumps_request hrank created
  simp only [send, sendFrame, hdumps, if_neg hlength]
  rfl

theorem send_response (hrank : rank < 2) (created : Nat) :
    send setting (setting.response rank (setting.lanesFrom created)) none [] = (packet "incoming" rank, true) := by
  have hlength : ¬ maxFrame < (text "incoming" rank).length := Nat.not_lt.mpr (length_text (.inr rfl) hrank)
  have hdumps : setting.json.dumps (setting.response rank (setting.lanesFrom created)) = text "incoming" rank :=
    dumps_response hrank created
  simp only [send, sendFrame, hdumps, if_neg hlength]
  rfl

theorem matching_parsed (hkey : key = "outgoing" ∨ key = "incoming") (hrank : rank < 2) :
    setting.matching (handle rank) (parsed key rank) = true := by
  obtain rfl | rfl : rank = 0 ∨ rank = 1 := by omega
  · rcases hkey with rfl | rfl <;> decide
  · rcases hkey with rfl | rfl <;> decide

/-- What a rank makes of the messages of the other. -/
theorem join_parsed {other : Nat} (hother : other < 2) (hnext : setting.next rank = other) (lanes : Lanes) (c p : Nat) :
    setting.join rank lanes c p (parsed "outgoing" other) (parsed "incoming" other) =
      .ok ⟨lanes, c, p, [info other], [info other], ⟨8192, 1, 4096, 2⟩⟩ := by
  have hmatching : setting.matching (setting.handle (setting.next rank)) (parsed "incoming" other) = true := by
    rw [hnext, handle_eq hother]
    exact matching_parsed (.inr rfl) hother
  have hincoming : setting.infosOf (parsed "incoming" other) "incoming" = .ok [info other] :=
    @infosOf_of_same _ _ _ faithful.valid _ _ [0] rfl (same_message (.inr rfl) other)
  have houtgoing : setting.infosOf (parsed "outgoing" other) "outgoing" = .ok [info other] :=
    @infosOf_of_same _ _ _ faithful.valid _ _ [0] rfl (same_message (.inl rfl) other)
  have hbuffers : setting.buffersOf (parsed "incoming" other) = .ok ⟨8192, 1, 4096, 2⟩ :=
    buffersOf_of_same rfl (same_message (.inr rfl) other)
  have hqps : setting.qps = 1 := rfl
  simp [Setting.join, hmatching, hincoming, houtgoing, hbuffers, hqps, bind_eq, pure_eq, Except.bind]

/-- Nothing has happened. -/
def nothing : World := ⟨fun _ => .idle, fun _ => 0, fun _ => ⟨none, 0, [], []⟩, 0, fun _ => []⟩

/-- Rank 0 dials, loses its connection and starts again. Rank 1 gives the lost connection up and takes the next one. -/
def events : List Event :=
  [.start 0, .dial 0, .sendRequest 0 (some 3), .start 1, .dial 1, .sendRequest 1 none, .start 0, .dial 0,
    .sendRequest 0 none, .accept 1, .skip 1, .accept 1, .take 1 (whole "outgoing" 0), .sendResponse 1 none, .accept 0,
    .take 0 (whole "outgoing" 1), .sendResponse 0 none, .receive 1 (whole "incoming" 0),
    .receive 0 (whole "incoming" 1), .commit 0, .commit 1]

end Pair

open Pair in
/-- Both members join. -/
theorem events_join : ∃ w a b, (process setting).Reaches nothing w ∧ w.phase 0 = .done a ∧ w.phase 1 = .done b := by
  have hsize : setting.size = 2 := rfl
  have hqps : setting.qps = 1 := rfl
  have hnext₀ : setting.next 0 = 1 := rfl
  have hnext₁ : setting.next 1 = 0 := rfl
  have hprev₀ : setting.prev 0 = 1 := rfl
  have hprev₁ : setting.prev 1 = 0 := rfl
  have hsend : ∀ m, (send setting m (some 3) []).2 = false := fun _ => rfl
  have hrequest₀ := @send_request 0 (by decide)
  have hrequest₁ := @send_request 1 (by decide)
  have hresponse₀ := @send_response 0 (by decide)
  have hresponse₁ := @send_response 1 (by decide)
  have hhandle₀ : setting.handle 0 = handle 0 := rfl
  have hhandle₁ : setting.handle 1 = handle 1 := rfl
  have hm₀ := @matching_parsed 0 "outgoing" (.inl rfl) (by decide)
  have hm₁ := @matching_parsed 1 "outgoing" (.inl rfl) (by decide)
  have hr₀ := @recv_whole 0 "outgoing" (.inl rfl) (by decide)
  have hr₁ := @recv_whole 1 "outgoing" (.inl rfl) (by decide)
  have hs₀ := @recv_whole 0 "incoming" (.inr rfl) (by decide)
  have hs₁ := @recv_whole 1 "incoming" (.inr rfl) (by decide)
  have hj₀ := @join_parsed 0 1 (by decide) rfl
  have hj₁ := @join_parsed 1 0 (by decide) rfl
  have hplays : ∃ a b, (process setting).Plays nothing events ∧
      ((process setting).play nothing events).phase 0 = .done a ∧
      ((process setting).play nothing events).phase 1 = .done b := by
    simp [events, Machine.Plays, Machine.play, process, Enabled, next, nothing, World.setPhase, World.connect,
      World.popBacklog, World.setUp, World.setDown, Function.update_apply, bytes_whole, *]
  obtain ⟨a, b, hplays, ha, hb⟩ := hplays
  exact ⟨_, a, b, hplays.reaches, ha, hb⟩

open Pair in
theorem reconfigure_agreement_pair : ∃ w a b, (process setting).Reaches nothing w ∧ w.phase 0 = .done a ∧
    w.phase 1 = .done b ∧ Agree setting w 0 a b ∧ Agree setting w 1 b a := by
  obtain ⟨w, a, b, hreaches, ha, hb⟩ := events_join
  have hnothing : nothing.Initial := ⟨fun _ => rfl, rfl, fun _ => rfl⟩
  exact ⟨w, a, b, hreaches, ha, hb, reconfigure_agreement faithful hnothing hreaches ha hb,
    reconfigure_agreement faithful hnothing hreaches hb ha⟩

open Pair in
theorem reconfigured_ring_pair : ∃ w, (process setting).Reaches nothing w ∧ ∀ rank < 2,
    ∃ a b, w.phase rank = .done a ∧ w.phase (setting.next rank) = .done b ∧ Paired setting rank a b := by
  obtain ⟨w, a, b, hreaches, ha, hb⟩ := events_join
  have hnothing : nothing.Initial := ⟨fun _ => rfl, rfl, fun _ => rfl⟩
  have hdone : ∀ rank < setting.size, ∃ a, w.phase rank = .done a := by
    intro rank hrank
    obtain rfl | rfl : rank = 0 ∨ rank = 1 := Nat.le_one_iff_eq_zero_or_eq_one.mp (Nat.le_of_lt_succ hrank)
    · exact ⟨a, ha⟩
    · exact ⟨b, hb⟩
  exact ⟨w, hreaches, reconfigured_ring faithful hnothing hreaches hdone⟩

end Rdma4py.ProcessGroup.Rendezvous
