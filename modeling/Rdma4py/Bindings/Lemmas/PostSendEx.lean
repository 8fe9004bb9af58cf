import Rdma4py.Bindings.Lemmas.Words
import Rdma4py.Bindings.PostSendEx

/-!
# `_post_send_ex`: what a session consists of

A work request that passes the checks adds its own calls, and what an earlier one left in the arrays is not read.
-/

namespace Rdma4py.Bindings.Efa

open Lib

variable {allowed : UInt64} {w : SendWR} {wrs : List SendWR} {b : Buffers} {rc : Int}

/-! ## Work requests -/

/-- The builder of a work request: the one of its opcode, with its own key, address and immediate. -/
inductive BuilderOf (w : SendWR) : Op → Prop
  | send (hop : w.opcode = WR_SEND) : BuilderOf w .send
  | sendImm (hop : w.opcode = WR_SEND_WITH_IMM) : BuilderOf w (.sendImm (htonl w.immData))
  | rdmaRead (hop : w.opcode = WR_RDMA_READ) : BuilderOf w (.rdmaRead w.rkey w.remoteAddr)
  | rdmaWrite (hop : w.opcode = WR_RDMA_WRITE) : BuilderOf w (.rdmaWrite w.rkey w.remoteAddr)
  | rdmaWriteImm (hop : w.opcode = WR_RDMA_WRITE_WITH_IMM) :
      BuilderOf w (.rdmaWriteImm w.rkey w.remoteAddr (htonl w.immData))

/-- The bit of `send_ops_flags` that installs a builder. -/
def Op.bit : Op → UInt64
  | .send => OPS_SEND
  | .sendImm _ => OPS_SEND_WITH_IMM
  | .rdmaRead .. => OPS_RDMA_READ
  | .rdmaWrite .. => OPS_RDMA_WRITE
  | .rdmaWriteImm .. => OPS_RDMA_WRITE_WITH_IMM

/-- The opcode is supported, and the queue pair was created with its builder. -/
def Enabled (allowed : UInt64) (w : SendWR) : Prop := ∃ o, BuilderOf w o ∧ allowed &&& o.bit ≠ 0

/-- The list of the entries, with their keys unless they are inline. -/
def listOf (w : SendWR) : Call :=
  if w.sendFlags &&& SEND_INLINE ≠ 0 then
    .setInlineDataList (.ofNat w.sgList.length) (w.sgList.map fun s => (s.addr, s.length))
  else .setSgeList (.ofNat w.sgList.length) w.sgList

/-- The calls of a work request: its builder, its destination and its entries. -/
inductive CallsOf (w : SendWR) : List Call → Prop
  | calls {p : UInt64} {o : Op} (hah : w.ah = some ⟨some p⟩) (ho : BuilderOf w o) :
      CallsOf w [.build w.wrId w.sendFlags o, .setUdAddr p w.remoteQpn w.remoteQkey, listOf w]

/-- An open address handle, at most 64 entries, and an opcode that is supported and enabled. -/
structure Valid (allowed : UInt64) (w : SendWR) : Prop where
  ah : ∃ p, w.ah = some ⟨some p⟩
  sges : w.sgList.length ≤ 64
  enabled : Enabled allowed w

/-- What the code checks: the number of entries is the one that a C `int` holds. -/
structure Accepted (allowed : UInt64) (w : SendWR) : Prop where
  ah : ∃ p, w.ah = some ⟨some p⟩
  sges : ¬ 64 < cInt w.sgList.length
  enabled : Enabled allowed w

/-- What a work request that is not valid raises. -/
inductive RejectedWith (allowed : UInt64) (w : SendWR) : Exn → Prop
  | noDestination (h : w.ah = none) : RejectedWith allowed w (.valueError
      "EFA sends are connectionless: each SendWR needs a destination (dest=Peer or ah/remote_qpn/remote_qkey)")
  | closed (h : w.ah = some ⟨none⟩) : RejectedWith allowed w (.efaError "address handle is closed" EBADF none)
  | tooMany (h : 64 < w.sgList.length) : RejectedWith allowed w (.valueError "at most 64 SGEs per work request")
  | unsupported (h : ∀ o, ¬ BuilderOf w o) : RejectedWith allowed w (unsupported w.opcode)
  | disabled {o : Op} (ho : BuilderOf w o) (h : allowed &&& o.bit = 0) :
      RejectedWith allowed w (.valueError s!"opcode {w.opcode} is not enabled in this QP's send_ops_flags")

theorem Valid.accepted (h : Valid allowed w) : Accepted allowed w := by
  refine ⟨h.ah, ?_, h.enabled⟩
  have := h.sges
  rw [show (64 : Int32) = cInt 64 from rfl, lt_cInt_iff (by omega) (by omega)]
  omega

/-- The branches of `op` are the builders, each with the bit that the code asks for. -/
theorem op_eq_some_iff {o : Op} : op w = some o ↔ BuilderOf w o := by
  constructor
  · intro h
    unfold op at h
    split_ifs at h with h1 h2 h3 h4 h5
    all_goals cases h
    · exact .send h1
    · exact .sendImm h2
    · exact .rdmaRead h3
    · exact .rdmaWrite h4
    · exact .rdmaWriteImm h5
  · rintro (hop | hop | hop | hop | hop)
    all_goals
      rw [op, hop]
      rfl

theorem BuilderOf.bit {o : Op} (h : BuilderOf w o) : opRequiredBit w.opcode = o.bit := by
  rcases h with hop | hop | hop | hop | hop
  all_goals
    rw [hop]
    rfl

theorem Op.bit_ne_zero (o : Op) : o.bit ≠ 0 := by
  cases o
  all_goals
    rw [Op.bit]
    decide

/-- No builder, no bit. -/
theorem opRequiredBit_eq_zero_iff : opRequiredBit w.opcode = 0 ↔ ∀ o, ¬ BuilderOf w o := by
  constructor
  · intro h o ho
    exact o.bit_ne_zero (ho.bit ▸ h)
  · intro h
    have hsend : w.opcode ≠ WR_SEND := fun hop => h _ (.send hop)
    have hsendImm : w.opcode ≠ WR_SEND_WITH_IMM := fun hop => h _ (.sendImm hop)
    have hread : w.opcode ≠ WR_RDMA_READ := fun hop => h _ (.rdmaRead hop)
    have hwrite : w.opcode ≠ WR_RDMA_WRITE := fun hop => h _ (.rdmaWrite hop)
    have hwriteImm : w.opcode ≠ WR_RDMA_WRITE_WITH_IMM := fun hop => h _ (.rdmaWriteImm hop)
    rw [opRequiredBit, if_neg hsend, if_neg hsendImm, if_neg hread, if_neg hwrite, if_neg hwriteImm]

theorem enabled_iff : Enabled allowed w ↔ opRequiredBit w.opcode ≠ 0 ∧ allowed &&& opRequiredBit w.opcode ≠ 0 := by
  constructor
  · rintro ⟨o, ho, hbit⟩
    rw [ho.bit]
    exact ⟨o.bit_ne_zero, hbit⟩
  · rintro ⟨hne, hbit⟩
    obtain ⟨o, ho⟩ : ∃ o, BuilderOf w o := by
      by_contra hnone
      exact hne (opRequiredBit_eq_zero_iff.mpr fun o ho => hnone ⟨o, ho⟩)
    exact ⟨o, ho, ho.bit ▸ hbit⟩

theorem check_of_accepted (h : Accepted allowed w) : ∃ p, w.ah = some ⟨some p⟩ ∧ check allowed w = .ok p := by
  obtain ⟨p, hp⟩ := h.ah
  obtain ⟨hsupported, henabled⟩ := enabled_iff.mp h.enabled
  exact ⟨p, hp, by simp [check, hp, h.sges, hsupported, henabled]⟩

theorem check_of_not_accepted (h : ¬ Accepted allowed w) : ∃ e, check allowed w = .error e ∧ RejectedWith allowed w e := by
  unfold check
  rcases hah : w.ah with _ | ⟨_ | p⟩
  · exact ⟨_, rfl, .noDestination hah⟩
  · exact ⟨_, rfl, .closed hah⟩
  by_cases hsges : 64 < cInt w.sgList.length
  · refine ⟨_, if_pos hsges, .tooMany ?_⟩
    by_contra hle
    rw [show (64 : Int32) = cInt 64 from rfl, lt_cInt_iff (by omega) (by omega)] at hsges
    exact hle hsges
  by_cases hsupported : opRequiredBit w.opcode = 0
  · exact ⟨_, by simp [hsges, hsupported], .unsupported (opRequiredBit_eq_zero_iff.mp hsupported)⟩
  by_cases henabled : allowed &&& opRequiredBit w.opcode = 0
  · obtain ⟨o, ho⟩ : ∃ o, BuilderOf w o := by
      by_contra hnone
      exact hsupported (opRequiredBit_eq_zero_iff.mpr fun o ho => hnone ⟨o, ho⟩)
    exact ⟨_, by simp [hsges, hsupported, henabled], .disabled ho (ho.bit ▸ henabled)⟩
  · exact absurd ⟨⟨p, hah⟩, hsges, enabled_iff.mpr ⟨hsupported, henabled⟩⟩ h

/-- The entries of a list that is not too long, whatever the arrays had before. -/
theorem setList_of_le (h : w.sgList.length ≤ 64) (b : Buffers) :
    (setList w b).1 = listOf w := by
  have hlt : w.sgList.length < 2 ^ 31 := by omega
  have hsize : (UInt64.ofNat w.sgList.length).toNat = w.sgList.length :=
    UInt64.toNat_ofNat_of_lt' (by simp [UInt64.size]; omega)
  have hnum : cSize (cInt w.sgList.length) = .ofNat w.sgList.length := by
    rw [← UInt64.toNat_inj, hsize, toNat_cSize_of_lt hlt]
  have hall : w.sgList.take (cRange (cInt w.sgList.length)) = w.sgList := by
    rw [cRange_cInt_of_lt hlt, List.take_length]
  simp only [setList, listOf, hall, hnum, hsize, arrayLength, Nat.min_eq_left h]
  split_ifs
  · have hread := Memory.read_write_self b.bufs (w.sgList.map fun s => (s.addr, s.length)) 0
    rw [List.length_map] at hread
    rw [hread]
  · rw [Memory.read_write_self]

theorem postOne_of_accepted (h : Accepted allowed w) (b : Buffers) : ∃ p o b', w.ah = some ⟨some p⟩ ∧ BuilderOf w o ∧
    postOne allowed w b =
      .ok ([.build w.wrId w.sendFlags o, .setUdAddr p w.remoteQpn w.remoteQkey, (setList w b).1], b') := by
  obtain ⟨p, hp, hcheck⟩ := check_of_accepted h
  obtain ⟨o, ho, -⟩ := h.enabled
  exact ⟨p, o, (setList w b).2, hp, ho, by simp only [postOne, hcheck, op_eq_some_iff.mpr ho]⟩

theorem postOne_of_not_accepted (h : ¬ Accepted allowed w) (b : Buffers) :
    ∃ e, postOne allowed w b = .error e ∧ RejectedWith allowed w e := by
  obtain ⟨e, he, hrejected⟩ := check_of_not_accepted h
  exact ⟨e, by rw [postOne, he], hrejected⟩

theorem postOne_of_valid (h : Valid allowed w) (b : Buffers) :
    ∃ calls b', CallsOf w calls ∧ postOne allowed w b = .ok (calls, b') := by
  obtain ⟨p, o, b', hp, ho, heq⟩ := postOne_of_accepted h.accepted b
  rw [setList_of_le h.sges] at heq
  exact ⟨_, b', .calls hp ho, heq⟩

/-! ## Batches -/

/-- The calls between the start and the end of a session: only builders that are enabled. -/
def Call.Within (allowed : UInt64) : Call → Prop
  | .start | .complete _ | .abort => False
  | .build _ _ o => allowed &&& o.bit ≠ 0
  | .setUdAddr .. | .setInlineDataList .. | .setSgeList .. => True

theorem setList_within (allowed : UInt64) (w : SendWR) (b : Buffers) : (setList w b).1.Within allowed := by
  rw [setList]
  split_ifs <;> trivial

theorem postAll_valid (h : ∀ w ∈ wrs, Valid allowed w) (b : Buffers) :
    ∃ groups, List.Forall₂ CallsOf wrs groups ∧ postAll allowed wrs b = (groups.flatten, none) := by
  induction wrs generalizing b with
  | nil => exact ⟨[], .nil, rfl⟩
  | cons w wrs ih =>
      obtain ⟨calls, b', hcalls, heq⟩ := postOne_of_valid (h w (by simp)) b
      obtain ⟨groups, hgroups, hrest⟩ := ih (fun w' hw' => h w' (by simp [hw'])) b'
      exact ⟨calls :: groups, .cons hcalls hgroups, by simp [postAll, heq, hrest]⟩

theorem postAll_within (allowed : UInt64) (wrs : List SendWR) (b : Buffers) :
    ∀ c ∈ (postAll allowed wrs b).1, c.Within allowed := by
  induction wrs generalizing b with
  | nil => simp [postAll]
  | cons w wrs ih =>
      by_cases hw : Accepted allowed w
      · obtain ⟨p, o, b', hp, ho, heq⟩ := postOne_of_accepted hw b
        have hbit : allowed &&& o.bit ≠ 0 := ho.bit ▸ (enabled_iff.mp hw.enabled).2
        have hlist := setList_within allowed w b
        simp only [postAll, heq]
        intro c hc
        rcases List.mem_append.mp hc with hc | hc
        · simp only [List.mem_cons, List.not_mem_nil, or_false] at hc
          rcases hc with rfl | rfl | rfl
          · exact hbit
          · trivial
          · exact hlist
        · exact ih b' c hc
      · obtain ⟨e, heq, -⟩ := postOne_of_not_accepted hw b
        simp [postAll, heq]

/-- The loop gets through exactly when every check does. -/
theorem postAll_raised (b : Buffers) : (postAll allowed wrs b).2 = none ↔ ∀ w ∈ wrs, Accepted allowed w := by
  induction wrs generalizing b with
  | nil => simp [postAll]
  | cons w wrs ih =>
      by_cases hw : Accepted allowed w
      · obtain ⟨p, o, b', hp, ho, heq⟩ := postOne_of_accepted hw b
        simp [postAll, heq, ih b', hw]
      · obtain ⟨e, heq, -⟩ := postOne_of_not_accepted hw b
        simp [postAll, heq, hw]

/-- What the loop raises, a work request is rejected with. -/
theorem postAll_error {e : Exn} (h : (postAll allowed wrs b).2 = some e) : ∃ w ∈ wrs, RejectedWith allowed w e := by
  induction wrs generalizing b with
  | nil => simp [postAll] at h
  | cons w wrs ih =>
      by_cases hw : Accepted allowed w
      · obtain ⟨p, o, b', hp, ho, heq⟩ := postOne_of_accepted hw b
        obtain ⟨w', hw', hraised⟩ := ih (b := b') (by simpa [postAll, heq] using h)
        exact ⟨w', by simp [hw'], hraised⟩
      · obtain ⟨e', heq, hrejected⟩ := postOne_of_not_accepted hw b
        obtain rfl : e' = e := by simpa [postAll, heq] using h
        exact ⟨w, by simp, hrejected⟩

theorem CallsOf.length {calls : List Call} (h : CallsOf w calls) : calls.length = 3 := by
  cases h
  rfl

theorem length_flatten {groups : List (List Call)} (h : List.Forall₂ CallsOf wrs groups) :
    groups.flatten.length = 3 * wrs.length := by
  induction h with
  | nil => rfl
  | cons hcalls hgroups ih =>
      simp only [List.flatten_cons, List.length_append, hcalls.length, ih, List.length_cons]
      omega

/-! ## Sessions -/

/-- One session over the whole list: it is completed when every work request is valid, and then has the calls of all of
them in their order. Otherwise it is aborted, and raises what one of them is rejected with. -/
structure AllOrNothing (allowed : UInt64) (wrs : List SendWR) (rc : Int) (run : List Call × Except Exn Unit) : Prop where
  empty : wrs = [] → run = ([], .ok ())
  complete : wrs ≠ [] → (∀ w ∈ wrs, Valid allowed w) → ∃ groups, List.Forall₂ CallsOf wrs groups ∧
    run.1 = .start :: groups.flatten ++ [.complete rc] ∧ (∀ c ∈ groups.flatten, c.Within allowed) ∧
    run.2 = if rc = 0 then .ok () else .error (.efaError "ibv_wr_complete" rc none)
  abort : ¬ (∀ w ∈ wrs, Valid allowed w) → ∃ calls e, run = (.start :: calls ++ [.abort], .error e) ∧
    (∀ c ∈ calls, c.Within allowed) ∧ ∃ w ∈ wrs, RejectedWith allowed w e

/-- All of the list is valid and its length fits into a C `int`, or a work request does not pass the checks before the
`int` ends the loop. -/
def Fits (allowed : UInt64) (wrs : List SendWR) : Prop :=
  ((∀ w ∈ wrs, Valid allowed w) ∧ wrs.length < 2 ^ 31) ∨
    ∃ w ∈ wrs.take (cRange (cInt wrs.length)), ¬ Accepted allowed w

theorem allOrNothing_of_valid (h : ∀ w ∈ wrs, Valid allowed w) (hlen : wrs.length < 2 ^ 31) (b : Buffers) (rc : Int) :
    AllOrNothing allowed wrs rc (postSendEx allowed wrs b rc) := by
  have hall : wrs.take (cRange (cInt wrs.length)) = wrs := by
    rw [cRange_cInt_of_lt hlen, List.take_length]
  have hwithin := postAll_within allowed wrs b
  obtain ⟨groups, hgroups, hpost⟩ := postAll_valid h b
  rw [hpost] at hwithin
  constructor
  case empty =>
      rintro rfl
      rfl
  case complete =>
      intro hne _
      have hn : cInt wrs.length ≠ 0 := by
        rw [Ne, cInt_eq_zero_iff hlen]
        exact fun h0 => hne (List.length_eq_zero_iff.mp h0)
      refine ⟨groups, hgroups, by simp [postSendEx, hn, hall, hpost], hwithin, ?_⟩
      simp only [postSendEx, hn, hall, hpost, ↓reduceIte]
      split_ifs <;> simp_all
  case abort => exact fun hbad => absurd h hbad

theorem allOrNothing_of_rejected (h : ∃ w ∈ wrs.take (cRange (cInt wrs.length)), ¬ Accepted allowed w) (b : Buffers)
    (rc : Int) : AllOrNothing allowed wrs rc (postSendEx allowed wrs b rc) := by
  obtain ⟨w, hw, hrejected⟩ := h
  have hbad : ¬ ∀ w ∈ wrs, Valid allowed w := fun hall => hrejected (hall w (List.mem_of_mem_take hw)).accepted
  have hn : cInt wrs.length ≠ 0 := by
    intro h0
    simp [h0, cRange] at hw
  constructor
  case empty =>
      rintro rfl
      simp at hw
  case complete => exact fun _ hall => absurd hall hbad
  case abort =>
      intro _
      have hwithin := postAll_within allowed (wrs.take (cRange (cInt wrs.length))) b
      cases hpost : postAll allowed (wrs.take (cRange (cInt wrs.length))) b with
      | mk calls raised =>
          rw [hpost] at hwithin
          cases raised with
          | none =>
              have hall := (postAll_raised b).mp (congrArg Prod.snd hpost)
              exact absurd (hall w hw) hrejected
          | some e =>
              obtain ⟨w', hw', hraised⟩ := postAll_error (congrArg Prod.snd hpost)
              have hrun : postSendEx allowed wrs b rc = (.start :: calls ++ [.abort], .error e) := by
                rw [postSendEx, if_neg hn, hpost]
              exact ⟨calls, e, hrun, hwithin, w', List.mem_of_mem_take hw', hraised⟩

/-- A length that does not fit leaves work requests out, and a rejection that does not come leaves none to abort for. -/
theorem fits_of_allOrNothing (h : AllOrNothing allowed wrs rc (postSendEx allowed wrs b rc)) : Fits allowed wrs := by
  by_cases hrejected : ∃ w ∈ wrs.take (cRange (cInt wrs.length)), ¬ Accepted allowed w
  · exact .inr hrejected
  push Not at hrejected
  have hnone := (postAll_raised b).mpr hrejected
  cases hpost : postAll allowed (wrs.take (cRange (cInt wrs.length))) b with
  | mk calls raised =>
      obtain rfl : raised = none := by simpa [hpost] using hnone
      have hrun : (postSendEx allowed wrs b rc).1 = if cInt wrs.length = 0 then [] else
          .start :: calls ++ [.complete rc] := by
        rw [postSendEx, hpost]
        by_cases hn : cInt wrs.length = 0
        · simp [hn]
        · simp [hn]
      by_cases hvalid : ∀ w ∈ wrs, Valid allowed w
      · refine .inl ⟨hvalid, ?_⟩
        by_contra hlen
        have hne : wrs ≠ [] := by
          rintro rfl
          simp at hlen
        obtain ⟨groups, hgroups, hcomplete, -⟩ := h.complete hne hvalid
        rw [hrun] at hcomplete
        split_ifs at hcomplete with hn
        · simp at hcomplete
        · -- the loop ends before the list does
          have htake : ∀ w ∈ wrs.take (cRange (cInt wrs.length)), Valid allowed w := fun w hw =>
            hvalid w (List.mem_of_mem_take hw)
          obtain ⟨groups', hgroups', hpost'⟩ := postAll_valid htake b
          rw [hpost'] at hpost
          obtain ⟨rfl, -⟩ := Prod.mk.inj hpost
          have hsame := congrArg List.length hcomplete
          have hshort := cRange_lt (cInt wrs.length)
          simp only [List.length_append, List.length_cons, length_flatten hgroups', length_flatten hgroups,
            List.length_take] at hsame
          omega
      · obtain ⟨calls', e, heq, -⟩ := h.abort hvalid
        have hlog : (postSendEx allowed wrs b rc).1 = .start :: calls' ++ [.abort] := by rw [heq]
        rw [hrun] at hlog
        split_ifs at hlog
        · simp at hlog
        · have hlast := congrArg List.getLast? hlog
          simp [List.getLast?_cons, List.getLast?_append] at hlast

end Rdma4py.Bindings.Efa
