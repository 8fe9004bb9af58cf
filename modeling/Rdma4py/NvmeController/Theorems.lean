import Rdma4py.NvmeController.Lemmas.Buffers
import Rdma4py.NvmeController.Lemmas.Transfer
import Rdma4py.NvmeQueue.Lemmas.Runs

/-!
# The theorems about the controller

What the builders encode reads back exactly, and a transfer is split into commands that cover its range. A buffer of
`identify_namespace` outlives its command, unless the call ends while the command is pending.
-/

namespace Rdma4py.NvmeController

open Rdma4py.Lib
open NvmeQueue (Exn Turn)

/-! ## Encoding -/

/-- What the records of the initiator say to the target. A field is an offset, a width and the number that is read
there; all bytes outside the fields are zero. -/
structure WireFaithful : Prop where
  connect : ∀ qid depth buffer kato c, fabricsConnect qid depth buffer kato = .ok c →
    Encodes c [(0, 1, 0x7F), (1, 1, 0x40), (4, 1, 0x01), (24, 8, buffer.addr), (32, 3, 1024), (35, 4, buffer.rkey),
      (39, 1, 0x40), (42, 2, qid), (44, 2, depth - 1), (48, 4, kato)]
  get : ∀ offset size c, propertyGet offset size = .ok c → (size = 4 ∨ size = 8) ∧
    Encodes c [(0, 1, 0x7F), (1, 1, 0x40), (4, 1, 0x04), (39, 1, 0x40), (40, 1, if size = 8 then 1 else 0),
      (44, 4, offset)]
  set : ∀ offset value size c, propertySet offset value size = .ok c → (size = 4 ∨ size = 8) ∧
    Encodes c [(0, 1, 0x7F), (1, 1, 0x40), (4, 1, 0x00), (39, 1, 0x40), (40, 1, if size = 8 then 1 else 0),
      (44, 4, offset), (48, 8, value)]
  identified : ∀ buffer nsid controller c, identify buffer nsid controller = .ok c →
    Encodes c [(0, 1, 0x06), (1, 1, 0x40), (4, 4, nsid), (24, 8, buffer.addr), (32, 3, 4096), (35, 4, buffer.rkey),
      (39, 1, 0x40), (40, 1, if controller then 1 else 0)]
  features : ∀ featureId value c, setFeatures featureId value = .ok c →
    Encodes c [(0, 1, 0x09), (1, 1, 0x40), (39, 1, 0x40), (40, 4, featureId), (44, 4, value)]
  flush : ∀ nsid c, command opcFlush nsid = .ok c → Encodes c [(0, 1, 0x00), (1, 1, 0x40), (4, 4, nsid), (39, 1, 0x40)]
  /-- The number of blocks is zero-based. -/
  rw : ∀ opcode nsid slba blocks buffer lbaSize offset c,
    rwCommand opcode nsid slba blocks buffer lbaSize offset = .ok c → (opcode = opcRead ∨ opcode = opcWrite) ∧
    Encodes c [(0, 1, opcode), (1, 1, 0x40), (4, 4, nsid), (24, 8, buffer.addr + offset), (32, 3, blocks * lbaSize),
      (35, 4, buffer.rkey), (39, 1, 0x40), (40, 8, slba), (48, 2, blocks - 1)]
  /-- `submit` stores the command with its ID in the slot of that ID, and the ID fits. -/
  stamped : ∀ w₀ w w' command owner post r, w₀.Initial → NvmeQueue.process.Reaches w₀ w →
    NvmeQueue.submit w command owner post = (w', .ok r) → (w'.requests r).commandId < 2 ^ 16 ∧
    w'.queue.commands.mem.read 64 ((w'.requests r).commandId * 64) =
      NvmeQueue.packCommandId command (w'.requests r).commandId
  /-- Each SGL that is accepted is a range of its buffer. -/
  sgl : ∀ command buffer length offset c, setKeyedSgl command buffer length offset = .ok c →
    SglFits buffer (length.getD (buffer.length - offset)) offset
  request : ∀ qid depth controllerId c, rdmaCmRequest qid depth controllerId = .ok c →
    Reads c 32 [(0, 2, 0), (2, 2, qid), (4, 2, depth), (6, 2, depth - 1), (8, 2, if qid ≠ 0 then controllerId else 0)]
  data : ∀ hostUuid subsystemNqn hostNqn controllerId d, connectData hostUuid subsystemNqn hostNqn controllerId = .ok d →
    ConnectDataReads d hostUuid subsystemNqn hostNqn controllerId

/-- The wire encoding is faithful. -/
theorem wire_encoding : WireFaithful where
  connect _ _ _ _ _ h := (fabricsConnect_encodes h).2
  get _ _ _ h := propertyGet_encodes h
  set _ _ _ _ h := propertySet_encodes h
  identified _ _ _ _ h := (identify_encodes h).2
  features _ _ _ h := setFeatures_encodes h
  flush _ _ h := flush_encodes h
  rw _ _ _ _ _ _ _ _ h := ⟨(rwCommand_encodes h).1.opcode, (rwCommand_encodes h).2⟩
  stamped _ w _ _ _ _ _ hi hr hs := by
    have h := (NvmeQueue.Settled.run hi hr).sound.core
    obtain ⟨hlt, hread⟩ := h.stamped hs
    have hdepth := h.depth.2
    exact ⟨by omega, hread⟩
  sgl _ _ _ _ _ h := (setKeyedSgl_eq_ok.mp h).1
  request _ _ _ _ h := rdmaCmRequest_reads h
  data _ _ _ _ _ h := connectData_reads h

/-- A read of eight blocks of 4096 bytes: address, length, key, first block and zero-based count. -/
theorem wire_encoding_read : ∃ c, rwCommand opcRead 9 0x1122334455667788 8 ⟨0x12345000, 2 ^ 20, 0x89ABCDEF⟩ 4096 4096 =
    .ok c ∧ c.length = 64 ∧ leNat (slice c 24 8) = 0x12346000 ∧ leNat (slice c 32 3) = 8 * 4096 ∧
      leNat (slice c 35 4) = 0x89ABCDEF ∧ leNat (slice c 40 8) = 0x1122334455667788 ∧ leNat (slice c 48 2) = 7 := by
  cases hc : rwCommand opcRead 9 0x1122334455667788 8 ⟨0x12345000, 2 ^ 20, 0x89ABCDEF⟩ 4096 4096 with
  | error e =>
      have hok : (rwCommand opcRead 9 0x1122334455667788 8 ⟨0x12345000, 2 ^ 20, 0x89ABCDEF⟩ 4096 4096).isOk = true := by
        decide
      rw [hc] at hok
      cases hok
  | ok c =>
      obtain ⟨hlength, hread, -⟩ := (wire_encoding.rw _ _ _ _ _ _ _ _ hc).2.reads
      have haddr := hread (24, 8, 0x12345000 + 4096) (by simp)
      have hbytes := hread (32, 3, 8 * 4096) (by simp)
      have hrkey := hread (35, 4, 0x89ABCDEF) (by simp)
      have hslba := hread (40, 8, 0x1122334455667788) (by simp)
      have hcount := hread (48, 2, 8 - 1) (by simp)
      refine ⟨c, rfl, hlength, ?_, ?_, ?_, ?_, ?_⟩ <;> dsimp only at * <;> omega

/-! ## Splitting -/

/-- The checks at the top of a transfer. -/
structure Checked (ns : Namespace) (buffer : Region) (slba : Int) (blocks : Option Int) (offset : Int) : Prop where
  whole : blocks = none → (buffer.length - offset) % ns.lbaSize = 0
  positive : 0 < ns.blocks buffer blocks offset
  start : 0 ≤ slba
  stop : slba + ns.blocks buffer blocks offset ≤ ns.sizeLbas
  offset_nonneg : 0 ≤ offset
  fits : ns.blocks buffer blocks offset * ns.lbaSize ≤ buffer.length - offset

/-- A transfer that passes the checks issues commands that cover its range, or as many of them as come before an
`execute` that raises; no builder raises. One that fails a check issues nothing, and neither does one whose blocks are
larger than the controller's limit. Fuel for one iteration more than there are blocks is enough. -/
theorem transfer_splits (ns : Namespace) (opcode : Int) (buffer : Region)
    (hop : opcode = opcRead ∨ opcode = opcWrite) (hsize : ∃ k, 9 ≤ k ∧ ns.lbaSize = 2 ^ k)
    (hlbas : ns.sizeLbas ≤ 2 ^ 64 - 1) (hnsid : 0 ≤ ns.nsid ∧ ns.nsid < 2 ^ 32)
    (hmax : 1 ≤ ns.maxTransferBytes ∧ ns.maxTransferBytes ≤ 2 ^ 24 - 1)
    (haddr : 0 ≤ buffer.addr ∧ buffer.addr + buffer.length ≤ 2 ^ 64) (hrkey : 0 ≤ buffer.rkey ∧ buffer.rkey < 2 ^ 32)
    (gpu : Bool) (slba : Int) (blocks : Option Int) (offset : Int) (execute : Nat → Option Exn) :
    ∃ actions result,
      (∀ fuel : Nat, ns.blocks buffer blocks offset < fuel →
        ns.transfer fuel opcode buffer gpu slba blocks offset execute = some (actions, result)) ∧
      (Checked ns buffer slba blocks offset → ns.lbaSize ≤ ns.maxTransferBytes →
        ∃ cs, Covers ns opcode buffer slba (ns.blocks buffer blocks offset) offset cs ∧
          Ends execute 0 cs (issued actions) result) ∧
      (Checked ns buffer slba blocks offset → ns.maxTransferBytes < ns.lbaSize → issued actions = [] ∧
        result = .error (.runtimeError "namespace LBA size exceeds the controller transfer limit")) ∧
      (¬ Checked ns buffer slba blocks offset → issued actions = [] ∧ ∃ text, result = .error (.valueError text)) := by
  have hpos : 0 < ns.lbaSize := by
    obtain ⟨k, _, hk⟩ := hsize
    rw [hk]; exact Int.pow_pos (by omega)
  by_cases hwhole : blocks = none ∧ (buffer.length - offset) % ns.lbaSize ≠ 0
  · have hnot : ¬ Checked ns buffer slba blocks offset := fun hc => hwhole.2 (hc.whole hwhole.1)
    refine ⟨[], .error (.valueError "buffer length is not a whole number of LBAs"), fun fuel _ => ?_,
      fun hc => absurd hc hnot, fun hc => absurd hc hnot, fun _ => ⟨rfl, _, rfl⟩⟩
    rw [Namespace.transfer, if_pos hwhole]
  by_cases hrange : ns.blocks buffer blocks offset ≤ 0 ∨ slba < 0 ∨ ns.sizeLbas < slba + ns.blocks buffer blocks offset
  · have hnot : ¬ Checked ns buffer slba blocks offset := fun hc => by
      have := hc.positive; have := hc.start; have := hc.stop; omega
    refine ⟨[], .error (.valueError "I/O range is outside the namespace"), fun fuel _ => ?_,
      fun hc => absurd hc hnot, fun hc => absurd hc hnot, fun _ => ⟨rfl, _, rfl⟩⟩
    simp only [Namespace.transfer, if_neg hwhole, if_pos hrange]
  by_cases hbytes : offset < 0 ∨ buffer.length - offset < ns.blocks buffer blocks offset * ns.lbaSize
  · have hnot : ¬ Checked ns buffer slba blocks offset := fun hc => by
      have := hc.offset_nonneg; have := hc.fits; omega
    refine ⟨[], .error (.valueError "I/O range is outside the registered buffer"), fun fuel _ => ?_,
      fun hc => absurd hc hnot, fun hc => absurd hc hnot, fun _ => ⟨rfl, _, rfl⟩⟩
    simp only [Namespace.transfer, if_neg hwhole, if_neg hrange, if_pos hbytes]
  have hchecked : Checked ns buffer slba blocks offset :=
    ⟨fun hb => by by_contra hne; exact hwhole ⟨hb, hne⟩, by omega, by omega, by omega, by omega, by omega⟩
  by_cases hzero : min 65536 (ns.maxTransferBytes / ns.lbaSize) = 0
  · refine ⟨if gpu ∧ opcode = opcWrite then [.synchronize] else [],
      .error (.runtimeError "namespace LBA size exceeds the controller transfer limit"), fun fuel _ => ?_,
      fun _ hle => ?_, fun _ _ => ⟨?_, rfl⟩, fun hn => absurd hchecked hn⟩
    · simp only [Namespace.transfer, if_neg hwhole, if_neg hrange, if_neg hbytes, if_pos hzero]
    · have : 0 < ns.maxTransferBytes / ns.lbaSize := (Int.le_ediv_iff_mul_le hpos).mpr (by omega)
      omega
    · split <;> rfl
  have hroom : Room ns opcode buffer (min 65536 (ns.maxTransferBytes / ns.lbaSize)) (ns.blocks buffer blocks offset)
      offset slba := by
    have hdiv : ns.maxTransferBytes / ns.lbaSize * ns.lbaSize ≤ ns.maxTransferBytes := Int.ediv_mul_le _ (by omega)
    have hnonneg : 0 ≤ ns.maxTransferBytes / ns.lbaSize := Int.ediv_nonneg (by omega) hpos.le
    have hmul : min 65536 (ns.maxTransferBytes / ns.lbaSize) * ns.lbaSize ≤
        ns.maxTransferBytes / ns.lbaSize * ns.lbaSize := Int.mul_le_mul_of_nonneg_right (by omega) hpos.le
    exact ⟨hop, hnsid, haddr, hrkey, hpos, by omega, by omega, by omega, by omega, by omega⟩
  obtain ⟨cs, actions, result, hloop, hcov, hends⟩ := transferLoop_covers execute
    ((ns.blocks buffer blocks offset).toNat + 1) 0 hroom (by omega)
  obtain ⟨hissued, hresult⟩ := surround_issued gpu opcode actions result
  generalize hx : surround (if gpu ∧ opcode = opcWrite then [.synchronize] else [])
    (if gpu ∧ opcode = opcRead then [.flushGpudirectWrites] else []) (actions, result) = x at hissued hresult
  refine ⟨x.1, x.2, fun fuel hfuel => ?_, fun _ _ => ⟨cs, hcov, ?_⟩, fun _ hlt => ?_,
    fun hn => absurd hchecked hn⟩
  · simp only [Namespace.transfer, if_neg hwhole, if_neg hrange, if_neg hbytes, if_neg hzero,
      transferLoop_mono (show _ ≤ fuel by omega) hloop, Option.map_some, hx]
  · rw [hissued, hresult]
    exact hends
  · have : ns.maxTransferBytes / ns.lbaSize = 0 := Int.ediv_eq_zero_of_lt (by omega) hlt
    omega

/-- Five blocks of 512 bytes with a limit of 1024 bytes, where the second of the three commands fails. -/
theorem transfer_splits_five_blocks :
    let ns : Namespace := ⟨1, 512, 100, 1024⟩
    let buffer : Region := ⟨4096, 4096, 7⟩
    let execute := fun k => if k = 1 then some (Exn.timeoutError "NVMe command timed out") else none
    (ns.transfer 6 opcRead buffer false 10 (some 5) 512 execute).map (fun x => (issued x.1).map lbaRange) =
      some [(10, 2), (12, 2)] ∧ ∃ cs, Covers ns opcRead buffer 10 5 512 cs := by
  intro ns buffer execute
  obtain ⟨_, _, _, hsplit, _⟩ := transfer_splits ns opcRead buffer (.inl rfl) ⟨9, by decide, by decide⟩
    (by decide) (by decide) (by decide) (by decide) (by decide) false 10 (some 5) 512 execute
  obtain ⟨cs, hcov, _⟩ := hsplit ⟨by simp, by decide, by decide, by decide, by decide, by decide⟩ (by decide)
  exact ⟨by decide, cs, hcov⟩

/-! ## Buffers -/

/-- A controller that has just connected. -/
def Controller.fresh : Controller where
  admin := .initial 32 (fun _ => 0) (fun _ => 0)
  io := .initial 2 (fun _ => 0) (fun _ => 0)
  namespaceCount := 1
  maxTransferBytes := 4096
  timeout := 30
  buffers := []
  identifying := none

theorem Controller.fresh_initial : Controller.fresh.Initial := ⟨rfl, fun _ _ h => (by cases h), rfl, rfl, rfl⟩

end Rdma4py.NvmeController
