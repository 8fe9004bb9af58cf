import Rdma4py.Lib.Outcome
import Rdma4py.NvmeController.Commands

/-!
# The layout of the records

What each builder accepts, and which fields the record that it returns has.
-/

namespace Rdma4py.NvmeController

open Rdma4py.Lib
open NvmeQueue (Exn)

variable {b b' data : List UInt8} {fields : List Field} {buffer : Region} {items : List (Nat × Int)} {n offset : Nat}

/-! ## Packing -/

/-- The items fit their formats. -/
def Fits (items : List (Nat × Int)) : Prop := ∀ x ∈ items, 0 ≤ x.2 ∧ x.2 < 256 ^ x.1

/-- The bytes of the items. -/
def itemBytes (items : List (Nat × Int)) : List UInt8 := packed (items.map fun x => (x.1, x.2.toNat))

theorem pack_eq_ok : pack items = .ok data ↔ Fits items ∧ itemBytes items = data := by
  rw [pack]
  split
  · next h => simp only [Except.ok.injEq, show Fits items from h, true_and, itemBytes]
  · next h => simp only [reduceCtorEq, show ¬ Fits items from h, false_and]

theorem packInto_eq_ok :
    packInto b offset items = .ok b' ↔ Fits items ∧ patch b offset (itemBytes items) = b' := by
  rw [packInto, map_eq_ok]
  simp only [pack_eq_ok, and_assoc, exists_and_left, exists_eq_left']

/-! ## Commands -/

theorem command_eq_ok {opcode nsid : Int} : command opcode nsid = .ok b ↔ (0 ≤ opcode ∧ opcode < 256) ∧
    (0 ≤ nsid ∧ nsid < 256 ^ 4) ∧ patch (patch (List.replicate 64 0) 0
      (itemBytes [(1, opcode), (1, psdtSgl.toNat), (2, 0), (4, nsid)])) 39 [keyedDataBlock] = b := by
  have hfits : Fits [(1, opcode), (1, (psdtSgl.toNat : Int)), (2, 0), (4, nsid)] ↔
      (0 ≤ opcode ∧ opcode < 256) ∧ 0 ≤ nsid ∧ nsid < 256 ^ 4 := by
    simp [Fits, psdtSgl]
  simp only [command, bind_eq, bind_eq_ok, packInto_eq_ok, hfits, pure_eq, Except.ok.injEq, and_assoc,
    exists_and_left, exists_eq_left']

/-- The fields of a new command. -/
theorem command_layout {opcode nsid : Int} (h : command opcode nsid = .ok b) :
    Layout b 64 [.number 1 1 64, .number 39 1 64, .number 0 1 opcode.toNat, .number 4 4 nsid.toNat] := by
  obtain ⟨_, _, rfl⟩ := command_eq_ok.mp h
  have h₁ := (Layout.zeros 64).addNumbers 0 [(1, opcode.toNat), (1, 64), (2, 0), (4, nsid.toNat)] (by simp) (by simp)
  have h₂ := h₁.add (f := .number 39 1 64) (by simp) (by simp [Field.numbers, Field.Apart])
  exact h₂.keep _ (by simp [Field.numbers]) (by simp [Field.numbers, leBytes])

/-- The fields of a new Fabrics command. -/
theorem fabrics_layout (fctype : UInt8) (h : command opcFabrics 0 = .ok b) : Layout (patch b 4 [fctype]) 64
    [.number 1 1 64, .number 39 1 64, .number 0 1 0x7F, .number 4 1 fctype.toNat] := by
  have h₁ := (command_layout h).keep [.number 1 1 64, .number 39 1 64, .number 0 1 0x7F] (by simp [opcFabrics])
    (by simp [opcFabrics, leBytes])
  have h₂ := h₁.add (f := .number 4 1 fctype.toNat) (by simp) (by simp [Field.Apart])
  have hdata : (Field.number 4 1 fctype.toNat).data = [fctype] := by simp [leBytes]
  rw [hdata] at h₂
  exact h₂.keep _ (by simp) (by simp)

/-- The range of a keyed SGL: not empty, inside the buffer, and representable. -/
structure SglFits (buffer : Region) (length offset : Int) : Prop where
  offset_nonneg : 0 ≤ offset
  nonempty : 0 < length
  inside : offset + length ≤ buffer.length
  length_lt : length < 2 ^ 24
  addr : 0 ≤ buffer.addr + offset
  addr_lt : buffer.addr + offset < 2 ^ 64
  rkey : 0 ≤ buffer.rkey
  rkey_lt : buffer.rkey < 2 ^ 32

/-- A command with a keyed SGL. -/
def withSgl (command : List UInt8) (addr length rkey : Nat) : List UInt8 :=
  patch (patch (patch (patch (patch command 1 [command.getD 1 0 ||| psdtSgl]) 24 (leBytes 8 addr)) 32
    (leBytes 3 length)) 35 (leBytes 4 rkey)) 39 [keyedDataBlock]

/-- Which SGLs are accepted. -/
theorem setKeyedSgl_eq_ok {length : Option Int} {off : Int} : setKeyedSgl b buffer length off = .ok b' ↔
    SglFits buffer (length.getD (buffer.length - off)) off ∧
    withSgl b (buffer.addr + off).toNat (length.getD (buffer.length - off)).toNat buffer.rkey.toNat = b' := by
  simp only [setKeyedSgl, ite_error_eq_ok, Except.ok.injEq, withSgl, maxKeyedSglLength]
  constructor
  · rintro ⟨h₁, h₂, h₃, h₄, h₅, h⟩
    have e₂₄ : (1 : Int) <<< 24 = 2 ^ 24 := rfl
    have e₃₂ : (1 : Int) <<< 32 = 2 ^ 32 := rfl
    have e₆₄ : (1 : Int) <<< 64 = 2 ^ 64 := rfl
    exact ⟨⟨by omega, by omega, by omega, by omega, by omega, by omega, by omega, by omega⟩, h⟩
  · rintro ⟨⟨_, _, _, _, _, _, _, _⟩, h⟩
    have e₂₄ : (1 : Int) <<< 24 = 2 ^ 24 := rfl
    have e₃₂ : (1 : Int) <<< 32 = 2 ^ 32 := rfl
    have e₆₄ : (1 : Int) <<< 64 = 2 ^ 64 := rfl
    exact ⟨by omega, by omega, by omega, by omega, by omega, h⟩

/-- The SGL adds its fields to a command that has the flag and the type already. -/
theorem withSgl_layout (h : Layout b 64 (.number 1 1 64 :: .number 39 1 64 :: fields)) (addr length rkey : Nat)
    (hd : ∀ g ∈ fields, Field.Apart ⟨1, [0]⟩ g ∧ Field.Apart ⟨24, List.replicate 16 0⟩ g) :
    Layout (withSgl b addr length rkey) 64 (.number 1 1 64 :: .number 39 1 64 :: .number 24 8 addr ::
      .number 32 3 length :: .number 35 4 rkey :: fields) := by
  have hflag : b.getD 1 0 ||| psdtSgl = 64 := by
    have hs := (h.field (.number 1 1 64) (by simp)).2
    have hget : b[1]? = some 64 := by
      have hslice : (slice b 1 1)[0]? = b[1]? := getElem?_slice (by omega)
      simp only [Field.number_offset, Field.number_data, length_leBytes] at hs
      rw [← hslice, hs]; rfl
    rw [List.getD_eq_getElem?_getD, hget]
    rfl
  have hd' : ∀ g ∈ fields, ∀ o w v, 24 ≤ o → o + w ≤ 40 → (Field.number o w v).Apart g := by
    intro g hg o w v hlo hhi
    have := (hd g hg).2
    simp only [Field.Apart, List.length_replicate, Field.number_offset, Field.number_data, length_leBytes] at this ⊢
    omega
  rw [withSgl, hflag]
  have h₁ := h.replace (f := .number 1 1 64) rfl rfl (by
    simp only [List.mem_cons, forall_eq_or_imp]
    exact ⟨by simp [Field.Apart], fun g hg => by
      have := (hd g hg).1
      simp only [Field.Apart, List.length_cons, List.length_nil, Field.number_offset, Field.number_data,
        length_leBytes] at this ⊢
      omega⟩)
  have h₂ := h₁.add (f := .number 24 8 addr) (by simp) (by
    simp only [List.mem_cons, forall_eq_or_imp]
    exact ⟨by simp [Field.Apart], by simp [Field.Apart], fun g hg => hd' g hg _ _ _ (by omega) (by omega)⟩)
  have h₃ := h₂.add (f := .number 32 3 length) (by simp) (by
    simp only [List.mem_cons, forall_eq_or_imp]
    exact ⟨by simp [Field.Apart], by simp [Field.Apart], by simp [Field.Apart],
      fun g hg => hd' g hg _ _ _ (by omega) (by omega)⟩)
  have h₄ := h₃.add (f := .number 35 4 rkey) (by simp) (by
    simp only [List.mem_cons, forall_eq_or_imp]
    exact ⟨by simp [Field.Apart], by simp [Field.Apart], by simp [Field.Apart], by simp [Field.Apart],
      fun g hg => hd' g hg _ _ _ (by omega) (by omega)⟩)
  have h₄' := h₄.keep (.number 39 1 64 :: .number 1 1 64 :: .number 24 8 addr :: .number 32 3 length :: .number 35 4 rkey ::
    fields) (by simp; tauto) (by simp; tauto)
  have h₅ := h₄'.replace (f := .number 39 1 64) rfl rfl (by
    simp only [List.mem_cons, forall_eq_or_imp]
    exact ⟨by simp [Field.Apart], by simp [Field.Apart], by simp [Field.Apart], by simp [Field.Apart],
      fun g hg => hd' g hg _ _ _ (by omega) (by omega)⟩)
  exact h₅.keep _ (by simp; tauto) (by simp; tauto)

/-- The fields of a command read back exactly, before and after `submit` stamps it, and the stamp changes two bytes. -/
structure Encodes (b : List UInt8) (fields : List (Nat × Nat × Int)) : Prop where
  reads : Reads b 64 fields
  stamped : ∀ cid < 2 ^ 16, Reads (NvmeQueue.packCommandId b cid) 64 ((2, 2, (cid : Int)) :: fields)
  stamp : ∀ cid i, i ≠ 2 → i ≠ 3 → (NvmeQueue.packCommandId b cid)[i]? = b[i]?

theorem packCommandId_eq (b : List UInt8) (cid : Nat) : NvmeQueue.packCommandId b cid = patch b 2 (leBytes 2 cid) := by
  simp [NvmeQueue.packCommandId, patch]

/-- The stamp leaves the fields outside of its two bytes. -/
theorem slice_stamped (h : b.length = 64) (cid : Nat) (ho : offset + n ≤ 2 ∨ 4 ≤ offset) :
    slice (NvmeQueue.packCommandId b cid) offset n = slice b offset n := by
  rw [packCommandId_eq]
  have hfits : 2 + (leBytes 2 cid).length ≤ b.length := by
    rw [length_leBytes, h]
    omega
  apply slice_congr (length_patch hfits)
  intro i hlo hhi
  apply getElem?_patch_outside hfits
  rw [length_leBytes]
  omega

theorem Encodes.of_layout {fields : List (Nat × Nat × Int)}
    (h : Layout b 64 (fields.map fun x => .number x.1 x.2.1 x.2.2.toNat))
    (hv : ∀ x ∈ fields, 0 ≤ x.2.2 ∧ x.2.2 < 256 ^ x.2.1) (hd : ∀ x ∈ fields, x.1 + x.2.1 ≤ 2 ∨ 4 ≤ x.1) :
    Encodes b fields := by
  refine ⟨h.reads hv, fun cid hcid => ?_, fun cid i h₂ h₃ => ?_⟩
  · have hadd := h.add (f := .number 2 2 cid) (by simp) fun g hg => by
      obtain ⟨x, hx, rfl⟩ := List.mem_map.mp hg
      have := hd x hx
      simp only [Field.Apart, Field.number_offset, Field.number_data, length_leBytes]
      omega
    rw [packCommandId_eq]
    have hlayout : Layout (patch b 2 (leBytes 2 cid)) 64
        (((2, 2, (cid : Int)) :: fields).map fun x => .number x.1 x.2.1 x.2.2.toNat) := by simpa using hadd
    refine hlayout.reads fun x hx => ?_
    rcases List.mem_cons.mp hx with rfl | hx
    · exact ⟨by simp, by simp only; omega⟩
    · exact hv x hx
  · rw [packCommandId_eq, getElem?_patch_outside (by rw [h.length]; simp) (by simp only [length_leBytes]; omega)]

/-! ## The builders -/

theorem fabricsConnect_encodes {qid depth kato : Int} (h : fabricsConnect qid depth buffer kato = .ok b) :
    SglFits buffer 1024 0 ∧ Encodes b [(0, 1, 0x7F), (1, 1, 0x40), (4, 1, 0x01), (24, 8, buffer.addr), (32, 3, 1024),
      (35, 4, buffer.rkey), (39, 1, 0x40), (42, 2, qid), (44, 2, depth - 1), (48, 4, kato)] := by
  simp only [fabricsConnect, throw_eq, bind_eq, error_bind, ite_error_eq_ok, bind_eq_ok, setKeyedSgl_eq_ok,
    packInto_eq_ok] at h
  obtain ⟨_, b₀, hc, b₁, ⟨hfits, rfl⟩, hitems, rfl⟩ := h
  have h₁ := withSgl_layout (fabrics_layout fctypeConnect hc) (buffer.addr + 0).toNat 1024 buffer.rkey.toNat
    (by simp [Field.Apart])
  have h₂ := h₁.addNumbers 40 [(2, 0), (2, qid.toNat), (2, (depth - 1).toNat), (1, 0), (1, 0), (4, kato.toNat)] (by simp)
    (by simp [Field.Apart])
  refine ⟨hfits, .of_layout (h₂.keep _ ?_ ?_) ?_ (by simp)⟩
  · simp [Field.numbers, fctypeConnect]
  · simp [Field.numbers, fctypeConnect, leBytes]
  · have := hfits.addr
    have := hfits.addr_lt
    have := hfits.rkey
    have := hfits.rkey_lt
    simp [Fits] at hitems ⊢
    omega

theorem propertyGet_encodes {off size : Int} (h : propertyGet off size = .ok b) : (size = 4 ∨ size = 8) ∧
    Encodes b [(0, 1, 0x7F), (1, 1, 0x40), (4, 1, 0x04), (39, 1, 0x40), (40, 1, if size = 8 then 1 else 0), (44, 4, off)] := by
  simp only [propertyGet, throw_eq, bind_eq, error_bind, ite_error_eq_ok, bind_eq_ok, packInto_eq_ok] at h
  obtain ⟨hsize, b₀, hc, hitems, rfl⟩ := h
  have hdata : [if size = 8 then (1 : UInt8) else 0] = leBytes 1 (if size = 8 then 1 else 0) := by split <;> rfl
  rw [hdata]
  have h₁ := (fabrics_layout fctypePropertyGet hc).add (f := .number 40 1 (if size = 8 then 1 else 0)) (by simp)
    (by simp [Field.Apart])
  have h₂ := h₁.addNumbers 44 [(4, off.toNat)] (by simp) (by simp [Field.Apart])
  refine ⟨by omega, .of_layout (h₂.keep _ ?_ ?_) ?_ (by simp)⟩
  · simp [Field.numbers, fctypePropertyGet, apply_ite Int.toNat]
  · simp [Field.numbers, fctypePropertyGet, apply_ite Int.toNat]
  · simp [Fits] at hitems ⊢
    split <;> omega

theorem propertySet_encodes {off value size : Int} (h : propertySet off value size = .ok b) : (size = 4 ∨ size = 8) ∧
    Encodes b [(0, 1, 0x7F), (1, 1, 0x40), (4, 1, 0x00), (39, 1, 0x40), (40, 1, if size = 8 then 1 else 0), (44, 4, off),
      (48, 8, value)] := by
  simp only [propertySet, throw_eq, bind_eq, error_bind, ite_error_eq_ok, bind_eq_ok, packInto_eq_ok] at h
  obtain ⟨hsize, b₀, hc, hitems, rfl⟩ := h
  have hdata : [if size = 8 then (1 : UInt8) else 0] = leBytes 1 (if size = 8 then 1 else 0) := by split <;> rfl
  rw [hdata]
  have h₁ := (fabrics_layout fctypePropertySet hc).add (f := .number 40 1 (if size = 8 then 1 else 0)) (by simp)
    (by simp [Field.Apart])
  have h₂ := h₁.addNumbers 44 [(4, off.toNat), (8, value.toNat)] (by simp) (by simp [Field.Apart])
  refine ⟨by omega, .of_layout (h₂.keep _ ?_ ?_) ?_ (by simp)⟩
  · simp [Field.numbers, fctypePropertySet, apply_ite Int.toNat]
  · simp [Field.numbers, fctypePropertySet, apply_ite Int.toNat]
  · simp [Fits] at hitems ⊢
    split <;> omega

theorem identify_encodes {nsid : Int} {controller : Bool} (h : identify buffer nsid controller = .ok b) :
    SglFits buffer 4096 0 ∧ Encodes b [(0, 1, 0x06), (1, 1, 0x40), (4, 4, nsid), (24, 8, buffer.addr), (32, 3, 4096),
      (35, 4, buffer.rkey), (39, 1, 0x40), (40, 1, if controller then 1 else 0)] := by
  simp only [identify, bind_eq, bind_eq_ok, setKeyedSgl_eq_ok, pure_eq, Except.ok.injEq] at h
  obtain ⟨b₀, hc, b₁, ⟨hfits, rfl⟩, rfl⟩ := h
  have hdata : [if controller then (1 : UInt8) else 0] = leBytes 1 (if controller then 1 else 0) := by split <;> rfl
  rw [hdata]
  have h₁ := withSgl_layout (command_layout hc) (buffer.addr + 0).toNat 4096 buffer.rkey.toNat (by simp [Field.Apart])
  have h₂ := h₁.add (f := .number 40 1 (if controller then 1 else 0)) (by simp) (by simp [Field.Apart])
  refine ⟨hfits, .of_layout (h₂.keep _ ?_ ?_) ?_ (by simp)⟩
  · simp [opcIdentify, apply_ite Int.toNat]
  · simp [opcIdentify, apply_ite Int.toNat]
  · have hnsid := (command_eq_ok.mp hc).2.1
    have := hfits.addr
    have := hfits.addr_lt
    have := hfits.rkey
    have := hfits.rkey_lt
    simp at hnsid ⊢
    split <;> omega

theorem setFeatures_encodes {featureId value : Int} (h : setFeatures featureId value = .ok b) :
    Encodes b [(0, 1, 0x09), (1, 1, 0x40), (39, 1, 0x40), (40, 4, featureId), (44, 4, value)] := by
  simp only [setFeatures, bind_eq, bind_eq_ok, packInto_eq_ok] at h
  obtain ⟨b₀, hc, hitems, rfl⟩ := h
  have h₁ := (command_layout hc).addNumbers 40 [(4, featureId.toNat), (4, value.toNat)] (by simp)
    (by simp [Field.Apart])
  refine .of_layout (h₁.keep _ ?_ ?_) ?_ (by simp)
  · simp [Field.numbers, opcSetFeatures]
  · simp [Field.numbers, opcSetFeatures, leBytes]
  · simp [Fits] at hitems ⊢
    omega

/-- A flush is a command without an SGL. -/
theorem flush_encodes {nsid : Int} (h : command opcFlush nsid = .ok b) :
    Encodes b [(0, 1, 0x00), (1, 1, 0x40), (4, 4, nsid), (39, 1, 0x40)] := by
  refine .of_layout ((command_layout h).keep _ ?_ ?_) ?_ (by simp)
  · simp [opcFlush]
  · simp [opcFlush]
  · have hnsid := (command_eq_ok.mp h).2.1
    simp at hnsid ⊢
    omega

/-- The arguments that `rw_command` accepts. -/
structure RwFits (opcode nsid slba blocks : Int) (buffer : Region) (lbaSize bufferOffset : Int) : Prop where
  opcode : opcode = opcRead ∨ opcode = opcWrite
  nsid_nonneg : 0 ≤ nsid
  nsid_lt : nsid < 2 ^ 32
  slba_nonneg : 0 ≤ slba
  slba_lt : slba < 2 ^ 64
  blocks_pos : 0 < blocks
  blocks_le : blocks ≤ 65536
  lbaSize_pos : 0 < lbaSize
  sgl : SglFits buffer (blocks * lbaSize) bufferOffset

/-- Which transfers are accepted. -/
theorem rwCommand_eq_ok {opcode nsid slba blocks lbaSize off : Int} :
    rwCommand opcode nsid slba blocks buffer lbaSize off = .ok b ↔ RwFits opcode nsid slba blocks buffer lbaSize off ∧
      ∃ b₀, command opcode nsid = .ok b₀ ∧
        patch (withSgl b₀ (buffer.addr + off).toNat (blocks * lbaSize).toNat buffer.rkey.toNat) 40
          (itemBytes [(8, slba), (2, blocks - 1)]) = b := by
  have e₆₄ : (1 : Int) <<< 64 = 2 ^ 64 := rfl
  simp only [rwCommand, throw_eq, bind_eq, error_bind, ite_error_eq_ok, bind_eq_ok, setKeyedSgl_eq_ok, packInto_eq_ok,
    Option.getD_some]
  constructor
  · rintro ⟨hop, hslba, hblocks, hsize, b₀, hc, b₁, ⟨hsgl, rfl⟩, hitems, rfl⟩
    obtain ⟨_, hnsid, _⟩ := command_eq_ok.mp hc
    exact ⟨⟨by omega, by omega, by omega, by omega, by omega, by omega, by omega, by omega, hsgl⟩, b₀, hc, rfl⟩
  · rintro ⟨⟨hop, _, _, _, _, _, _, _, hsgl⟩, b₀, hc, rfl⟩
    refine ⟨by omega, by omega, by omega, by omega, b₀, hc, _, ⟨hsgl, rfl⟩, ?_, rfl⟩
    simp [Fits]
    omega

theorem rwCommand_encodes {opcode nsid slba blocks lbaSize off : Int}
    (h : rwCommand opcode nsid slba blocks buffer lbaSize off = .ok b) :
    RwFits opcode nsid slba blocks buffer lbaSize off ∧
    Encodes b [(0, 1, opcode), (1, 1, 0x40), (4, 4, nsid), (24, 8, buffer.addr + off), (32, 3, blocks * lbaSize),
      (35, 4, buffer.rkey), (39, 1, 0x40), (40, 8, slba), (48, 2, blocks - 1)] := by
  obtain ⟨hfits, b₀, hc, rfl⟩ := rwCommand_eq_ok.mp h
  have h₁ := withSgl_layout (command_layout hc) (buffer.addr + off).toNat (blocks * lbaSize).toNat buffer.rkey.toNat
    (by simp [Field.Apart])
  have h₂ := h₁.addNumbers 40 [(8, slba.toNat), (2, (blocks - 1).toNat)] (by simp)
    (by simp [Field.Apart])
  refine ⟨hfits, .of_layout (h₂.keep _ ?_ ?_) ?_ (by simp)⟩
  · simp [Field.numbers]
  · simp [Field.numbers]
  · obtain ⟨hop, _, _, _, _, _, _, _, ⟨_, _, _, _, _, _, _, _⟩⟩ := hfits
    simp only [opcRead, opcWrite] at hop
    simp
    omega

/-- Every transfer that fits has its command. -/
theorem RwFits.accepted {opcode nsid slba blocks lbaSize off : Int}
    (h : RwFits opcode nsid slba blocks buffer lbaSize off) :
    ∃ b, rwCommand opcode nsid slba blocks buffer lbaSize off = .ok b := by
  have hop : 0 ≤ opcode ∧ opcode < 256 := by
    have := h.opcode
    simp only [opcRead, opcWrite] at this
    omega
  exact ⟨_, rwCommand_eq_ok.mpr ⟨h, _, command_eq_ok.mpr ⟨hop, ⟨h.nsid_nonneg, by have := h.nsid_lt; omega⟩, rfl⟩, rfl⟩⟩

/-! ## Connection data -/

theorem rdmaCmRequest_reads {qid depth controllerId : Int} (h : rdmaCmRequest qid depth controllerId = .ok b) :
    Reads b 32 [(0, 2, 0), (2, 2, qid), (4, 2, depth), (6, 2, depth - 1),
      (8, 2, if qid ≠ 0 then controllerId else 0)] := by
  simp only [rdmaCmRequest, throw_eq, bind_eq, error_bind, ite_error_eq_ok, bind_eq_ok, pack_eq_ok, pure_eq,
    Except.ok.injEq] at h
  obtain ⟨_, _, _, _, ⟨hitems, rfl⟩, rfl⟩ := h
  have h₁ := (Layout.zeros 32).addNumbers 0 [(2, 0), (2, qid.toNat), (2, depth.toNat),
    (2, (depth - 1).toNat), (2, (if qid ≠ 0 then controllerId else 0).toNat)] (by simp) (by simp)
  rw [patch_replicate] at h₁
  refine Layout.reads (h₁.keep _ ?_ ?_) ?_
  · simp [Field.numbers]
  · simp [Field.numbers]
  · simpa [Fits] using hitems

/-- What `connect_data` returns. -/
structure ConnectDataReads (d : List UInt8) (hostUuid : Vector UInt8 16) (subsystemNqn hostNqn : String)
    (controllerId : Int) : Prop where
  length : d.length = 1024
  uuid : slice d 0 16 = hostUuid.toList
  cntlid : (leNat (slice d 16 2) : Int) = controllerId
  /-- Read up to the first NUL, each NQN is the one that was given; they end before the next field begins. -/
  subsystem : (d.drop 256).takeWhile (· ≠ 0) = utf8 subsystemNqn ∧ 256 + (utf8 subsystemNqn).length < 512
  host : (d.drop 512).takeWhile (· ≠ 0) = utf8 hostNqn ∧ 512 + (utf8 hostNqn).length < 1024
  zero : ∀ i < 1024, 18 ≤ i → (i < 256 ∨ 256 + (utf8 subsystemNqn).length ≤ i) →
    (i < 512 ∨ 512 + (utf8 hostNqn).length ≤ i) → d[i]? = some 0

theorem storeNqn_eq_ok {value name : String} {d d' : List UInt8} : storeNqn d offset value name = .ok d' ↔
    (11 ≤ (utf8 value).length ∧ (utf8 value).length ≤ 223 ∧ 0 ∉ utf8 value) ∧ patch d offset (utf8 value) = d' := by
  simp only [storeNqn, ite_error_eq_ok, Except.ok.injEq, not_or, Nat.not_lt]

theorem connectData_reads {hostUuid : Vector UInt8 16} {subsystemNqn hostNqn : String} {controllerId : Int}
    (h : connectData hostUuid subsystemNqn hostNqn controllerId = .ok data) :
    ConnectDataReads data hostUuid subsystemNqn hostNqn controllerId := by
  simp only [connectData, bind_eq, bind_eq_ok, packInto_eq_ok, storeNqn_eq_ok] at h
  obtain ⟨_, ⟨hitems, rfl⟩, _, ⟨⟨hs₁, hs₂, hs₃⟩, rfl⟩, ⟨hh₁, hh₂, hh₃⟩, rfl⟩ := h
  have h₁ := (Layout.zeros 1024).add (f := ⟨0, hostUuid.toList⟩) (by simp) (by simp)
  have h₂ := h₁.addNumbers 16 [(2, controllerId.toNat)] (by simp) (by simp [Field.Apart])
  have h₃ := h₂.add (f := ⟨256, utf8 subsystemNqn⟩) (by simp only; omega) (by simp [Field.Apart, Field.numbers])
  have h₄ := h₃.add (f := ⟨512, utf8 hostNqn⟩) (by simp only; omega) (by
    simp [Field.Apart, Field.numbers]
    omega)
  have hid : 0 ≤ controllerId ∧ controllerId < 65536 := by simpa [Fits] using hitems
  refine ⟨h₄.length, ?_, ?_, ⟨?_, by omega⟩, ⟨?_, by omega⟩, fun i hi h18 hsub hhost => ?_⟩
  · have hs := (h₄.field ⟨0, hostUuid.toList⟩ (by simp)).2
    simp only [Vector.length_toList] at hs
    exact hs
  · have hnum := h₄.number (o := 16) (w := 2) (v := controllerId.toNat) (by simp [Field.numbers]) (by omega)
    simp only [itemBytes, List.map_cons, List.map_nil]
    rw [hnum]; omega
  · exact h₄.takeWhile_field (f := ⟨256, utf8 subsystemNqn⟩) (by simp) hs₃ (by simp only; omega) (by
      simp [Field.Covers, Field.numbers]
      omega)
  · exact h₄.takeWhile_field (f := ⟨512, utf8 hostNqn⟩) (by simp) hh₃ (by simp only; omega) (by
      simp [Field.Covers, Field.numbers]
      omega)
  · refine h₄.zero i hi ?_
    simp [Field.Covers, Field.numbers]
    omega

end Rdma4py.NvmeController
