import Mathlib.Tactic.NormNum.Basic
import Rdma4py.Endpoint.Wire
import Rdma4py.ProcessGroup.Lemmas.ControlData

/-!
# Endpoint codecs

Accepted endpoints and accepted byte strings are in one-to-one correspondence, and the dictionary carries the same
information.
-/

namespace Rdma4py

open Lib

theorem map_ofNat_map_toNat (bytes : List UInt8) : (bytes.map UInt8.toNat).map UInt8.ofNat = bytes := by
  induction bytes with
  | nil => rfl
  | cons b bs ih => rw [List.map_cons, List.map_cons, ih, UInt8.ofNat_toNat]

namespace ProcessGroup.Control

theorem IsBytes.map_toNat {bytes : List Nat} (h : IsBytes bytes) : (bytes.map UInt8.ofNat).map UInt8.toNat = bytes := by
  induction bytes with
  | nil => rfl
  | cons b bs ih =>
      obtain ⟨hb, hbs⟩ := List.forall_mem_cons.mp h
      rw [List.map_cons, List.map_cons, ih hbs, UInt8.toNat_ofNat_of_lt' hb]

namespace QPInfo

variable {info : QPInfo} {data : List UInt8} {parse : PyStr → Option Int}

theorem postInit_of_inRange (h : info.InRange) : info.postInit = .ok info := by
  obtain ⟨hqp, hpsn, hlid, hgid, hport, hmtu⟩ := h
  unfold postInit
  rw [if_neg (by omega), if_neg (by omega), if_neg (by omega), if_neg (by omega), if_neg (by omega), if_neg (by omega)]

theorem postInit_ok {info' : QPInfo} (h : info.postInit = .ok info') : info' = info ∧ info.InRange := by
  rcases postInit_cases info with ⟨hok, hrange⟩ | herror
  · rw [hok] at h
    exact ⟨(Except.ok.inj h).symm, hrange⟩
  · rw [herror] at h
    cases h

/-! ## The fixed format -/

theorem fits_values (h : info.InRange) : Struct.Fits format info.values := by
  obtain ⟨hqp, hpsn, hlid, hgid, hport, hmtu⟩ := h
  have hgid' : (info.gid.map UInt8.ofNat).length = 16 := by rw [List.length_map, hgid]
  have hqp' : 0 ≤ info.qpNum ∧ info.qpNum < 256 ^ 4 := by omega
  have hpsn' : 0 ≤ info.psn ∧ info.psn < 256 ^ 4 := by omega
  have hlid' : 0 ≤ info.lid ∧ info.lid < 256 ^ 2 := by omega
  have hport' : 0 ≤ info.port ∧ info.port < 256 ^ 1 := by omega
  have hmtu' : 0 ≤ info.mtu ∧ info.mtu < 256 ^ 1 := by omega
  exact ⟨hqp', hpsn', hlid', hgid', hport', hmtu', trivial⟩

theorem ofValues_values (h : IsBytes info.gid) : ofValues info.values = info := by
  simp only [ofValues, values, h.map_toNat]

theorem values_ofValues (v : Struct.Values format) : (ofValues v).values = v := by
  simp only [ofValues, values, map_ofNat_map_toNat]

/-- The length is that of the format, and the fields that are narrower than their bytes are in range. -/
structure Readable (data : List UInt8) : Prop where
  length : data.length = 28
  qpNum : beNat (slice data 0 4) < 2 ^ 24
  psn : beNat (slice data 4 4) < 2 ^ 24
  port : 1 ≤ beNat (slice data 26 1)
  mtu : 1 ≤ beNat (slice data 27 1) ∧ beNat (slice data 27 1) ≤ 5

theorem ofValues_unpack (data : List UInt8) : ofValues (Struct.unpack format data) =
    ⟨beNat (slice data 0 4), beNat (slice data 4 4), beNat (slice data 8 2), (slice data 10 16).map UInt8.toNat,
      beNat (slice data 26 1), beNat (slice data 27 1)⟩ := by
  simp [ofValues, Struct.unpack, Struct.Code.unpack, Struct.Code.width, slice]

theorem inRange_unpack_iff (h : data.length = 28) :
    (ofValues (Struct.unpack format data)).InRange ↔ Readable data := by
  have hlid := beNat_lt (slice data 8 2)
  have hport := beNat_lt (slice data 26 1)
  rw [length_slice (by omega)] at hlid hport
  have hgid : ((slice data 10 16).map UInt8.toNat).length = 16 := by rw [List.length_map, length_slice (by omega)]
  rw [ofValues_unpack]
  constructor
  · rintro ⟨hqp, hpsn, -, -, hone, hmtu⟩
    dsimp only at hqp hpsn hone hmtu
    exact ⟨h, by omega, by omega, by omega, by omega⟩
  · rintro ⟨-, hqp, hpsn, hone, hmtu⟩
    refine ⟨?_, ?_, ?_, hgid, ?_, ?_⟩ <;> dsimp only <;> omega

theorem fromBytes_cases (data : List UInt8) : (fromBytes data = .error .valueError ∧ ¬ Readable data) ∨
    (fromBytes data = .ok (ofValues (Struct.unpack format data)) ∧ Readable data) := by
  unfold fromBytes
  split
  next hlength =>
    refine .inl ⟨rfl, ?_⟩
    intro hr
    exact hlength hr.length
  next hlength =>
    have hsize : data.length = 28 := not_not.mp hlength
    rw [← inRange_unpack_iff hsize]
    rcases postInit_cases (ofValues (Struct.unpack format data)) with ⟨hok, hrange⟩ | herror
    · exact .inr ⟨hok, hrange⟩
    · refine .inl ⟨herror, ?_⟩
      intro hrange
      rw [postInit_of_inRange hrange] at herror
      cases herror

theorem fromBytes_toBytes (hgid : IsBytes info.gid) (h : info.InRange) :
    ∃ data, info.toBytes = some data ∧ data.length = 28 ∧ fromBytes data = .ok info := by
  obtain ⟨data, hpack, hsize, hunpack⟩ := Struct.exists_pack (fits_values h)
  have hlength : data.length = 28 := hsize
  have hvalues : ofValues (Struct.unpack format data) = info := by rw [hunpack, ofValues_values hgid]
  refine ⟨data, hpack, hlength, ?_⟩
  rcases fromBytes_cases data with ⟨-, hnot⟩ | ⟨hok, -⟩
  · exact absurd ((inRange_unpack_iff hlength).mp (hvalues ▸ h)) hnot
  · rw [hok, hvalues]

theorem toBytes_of_fromBytes (h : fromBytes data = .ok info) : info.toBytes = some data := by
  rcases fromBytes_cases data with ⟨herror, -⟩ | ⟨hok, hr⟩
  · rw [herror] at h
    cases h
  · rw [hok] at h
    obtain rfl := Except.ok.inj h
    rw [toBytes, values_ofValues]
    exact (Struct.pack_unpack hr.length).2

/-! ## The dictionary -/

theorem lookup_toDict (info : QPInfo) : ∃ items, info.toDict = .dict items ∧
    PyValue.lookup items "qp_num" = some (.int info.qpNum) ∧ PyValue.lookup items "psn" = some (.int info.psn) ∧
    PyValue.lookup items "lid" = some (.int info.lid) ∧
    PyValue.lookup items "gid" = some (.str (PyValue.hex info.gid)) ∧
    PyValue.lookup items "port" = some (.int info.port) ∧ PyValue.lookup items "mtu" = some (.int info.mtu) :=
  ⟨_, rfl, rfl, rfl, rfl, rfl, rfl, rfl⟩

theorem fromDict_toDict (hgid : IsBytes info.gid) (h : info.InRange) : qpInfoFromDict parse info.toDict = .ok info := by
  obtain ⟨items, hdict, hqp, hpsn, hlid, hhex, hport, hmtu⟩ := info.lookup_toDict
  have htry : qpInfoTry parse info.toDict = .ok info := by
    simp [hdict, qpInfoTry, intItem, bytesItem, PyValue.getItem, hqp, hpsn, hlid, hhex, hport, hmtu, PyValue.toInt,
      PyValue.toBytes, PyValue.fromhex_hex hgid, bind_eq, Except.bind, postInit_of_inRange h]
  rw [qpInfoFromDict, htry]

end QPInfo

end ProcessGroup.Control

namespace Efa.EndpointInfo

variable {info : EndpointInfo} {data : List UInt8}

/-- The fields of an endpoint are in range. -/
structure InRange (info : EndpointInfo) : Prop where
  gid : info.gid.length = 16
  qpNum : 0 ≤ info.qpNum ∧ info.qpNum < 2 ^ 24
  qkey : 0 ≤ info.qkey ∧ info.qkey < 2 ^ 32

theorem postInit_cases (info : EndpointInfo) :
    (info.postInit = .ok info ∧ info.InRange) ∨ (info.postInit = .error .valueError ∧ ¬ info.InRange) := by
  unfold postInit
  split_ifs with hgid hqp hqkey
  · exact .inr ⟨rfl, fun hr => hgid hr.gid⟩
  · exact .inl ⟨rfl, not_not.mp hgid, by omega, by omega⟩
  · exact .inr ⟨rfl, fun hr => absurd hr.qkey (by omega)⟩
  · exact .inr ⟨rfl, fun hr => absurd hr.qpNum (by omega)⟩

theorem fits_values (h : info.InRange) : Struct.Fits format info.values := by
  obtain ⟨hgid, hqp, hqkey⟩ := h
  have hqp' : 0 ≤ info.qpNum ∧ info.qpNum < 256 ^ 4 := by omega
  have hqkey' : 0 ≤ info.qkey ∧ info.qkey < 256 ^ 4 := by omega
  exact ⟨hgid, hqp', hqkey', trivial⟩

/-- The length is that of the format, and the number of the QP has 24 bits. -/
structure Readable (data : List UInt8) : Prop where
  length : data.length = 24
  qpNum : beNat (slice data 16 4) < 2 ^ 24

theorem ofValues_unpack (data : List UInt8) : ofValues (Struct.unpack format data) =
    ⟨slice data 0 16, beNat (slice data 16 4), beNat (slice data 20 4)⟩ := by
  simp [ofValues, Struct.unpack, Struct.Code.unpack, Struct.Code.width, slice]

theorem inRange_unpack_iff (h : data.length = 24) :
    (ofValues (Struct.unpack format data)).InRange ↔ Readable data := by
  have hqkey := beNat_lt (slice data 20 4)
  rw [length_slice (by omega)] at hqkey
  rw [ofValues_unpack]
  constructor
  · rintro ⟨-, hqp, -⟩
    dsimp only at hqp
    exact ⟨h, by omega⟩
  · rintro ⟨-, hqp⟩
    refine ⟨length_slice (by omega), ?_, ?_⟩ <;> dsimp only <;> omega

theorem fromBytes_cases (data : List UInt8) : (fromBytes data = .error .valueError ∧ ¬ Readable data) ∨
    (fromBytes data = .ok (ofValues (Struct.unpack format data)) ∧ Readable data) := by
  unfold fromBytes
  split
  next hlength =>
    refine .inl ⟨rfl, ?_⟩
    intro hr
    exact hlength hr.length
  next hlength =>
    have hsize : data.length = 24 := not_not.mp hlength
    rw [← inRange_unpack_iff hsize]
    rcases postInit_cases (ofValues (Struct.unpack format data)) with ⟨hok, hrange⟩ | ⟨herror, hrange⟩
    · exact .inr ⟨hok, hrange⟩
    · exact .inl ⟨herror, hrange⟩

theorem fromBytes_toBytes (h : info.InRange) :
    ∃ data, info.toBytes = some data ∧ data.length = 24 ∧ fromBytes data = .ok info := by
  obtain ⟨data, hpack, hsize, hunpack⟩ := Struct.exists_pack (fits_values h)
  have hlength : data.length = 24 := hsize
  have hvalues : ofValues (Struct.unpack format data) = info := by
    rw [hunpack]
    rfl
  refine ⟨data, hpack, hlength, ?_⟩
  rcases fromBytes_cases data with ⟨-, hnot⟩ | ⟨hok, -⟩
  · exact absurd ((inRange_unpack_iff hlength).mp (hvalues ▸ h)) hnot
  · rw [hok, hvalues]

theorem toBytes_of_fromBytes (h : fromBytes data = .ok info) : info.toBytes = some data := by
  rcases fromBytes_cases data with ⟨herror, -⟩ | ⟨hok, hr⟩
  · rw [herror] at h
    cases h
  · rw [hok] at h
    obtain rfl := Except.ok.inj h
    exact (Struct.pack_unpack hr.length).2

end Efa.EndpointInfo

namespace Endpoint

open ProcessGroup.Control Efa

/-- **Endpoint codecs.** An endpoint that its constructor accepts is read back from its wire form and from its dictionary.
Bytes are refused with a `ValueError` exactly when their length is wrong or a field is out of range, and are otherwise the
wire form of what they are read as. -/
theorem endpoint_codecs (parse : PyStr → Option Int) :
    (∀ info : QPInfo, IsBytes info.gid → info.postInit = .ok info →
      (∃ data, info.toBytes = some data ∧ data.length = 28 ∧ QPInfo.fromBytes data = .ok info) ∧
        qpInfoFromDict parse info.toDict = .ok info) ∧
    (∀ data : List UInt8, ((∃ e, QPInfo.fromBytes data = .error e) ↔ ¬ QPInfo.Readable data) ∧
      (∀ e, QPInfo.fromBytes data = .error e → e = .valueError) ∧
        ∀ info, QPInfo.fromBytes data = .ok info → info.toBytes = some data) ∧
    (∀ info : EndpointInfo, info.postInit = .ok info →
      ∃ data, info.toBytes = some data ∧ data.length = 24 ∧ EndpointInfo.fromBytes data = .ok info) ∧
    ∀ data : List UInt8, ((∃ e, EndpointInfo.fromBytes data = .error e) ↔ ¬ EndpointInfo.Readable data) ∧
      (∀ e, EndpointInfo.fromBytes data = .error e → e = .valueError) ∧
        ∀ info, EndpointInfo.fromBytes data = .ok info → info.toBytes = some data := by
  refine ⟨?_, ?_, ?_, ?_⟩
  · intro info hgid haccepted
    obtain ⟨-, hrange⟩ := QPInfo.postInit_ok haccepted
    exact ⟨QPInfo.fromBytes_toBytes hgid hrange, QPInfo.fromDict_toDict hgid hrange⟩
  · intro data
    refine ⟨?_, ?_, fun info => QPInfo.toBytes_of_fromBytes⟩
    · rcases QPInfo.fromBytes_cases data with ⟨h, hr⟩ | ⟨h, hr⟩ <;> simp [h, hr]
    · rcases QPInfo.fromBytes_cases data with ⟨h, -⟩ | ⟨h, -⟩ <;> simp [h]
  · intro info haccepted
    rcases EndpointInfo.postInit_cases info with ⟨-, hrange⟩ | ⟨herror, -⟩
    · exact EndpointInfo.fromBytes_toBytes hrange
    · rw [herror] at haccepted
      cases haccepted
  · intro data
    refine ⟨?_, ?_, fun info => EndpointInfo.toBytes_of_fromBytes⟩
    · rcases EndpointInfo.fromBytes_cases data with ⟨h, hr⟩ | ⟨h, hr⟩ <;> simp [h, hr]
    · rcases EndpointInfo.fromBytes_cases data with ⟨h, -⟩ | ⟨h, -⟩ <;> simp [h]

/-- The endpoint of a QP with a GID of sixteen bytes. -/
def someInfo : QPInfo := ⟨0xABCDEF, 0x123456, 7, List.range 16, 1, 5⟩

theorem endpoint_codecs_some :
    (∃ data, someInfo.toBytes = some data ∧ data.length = 28 ∧ QPInfo.fromBytes data = .ok someInfo) ∧
      qpInfoFromDict (fun _ => none) someInfo.toDict = .ok someInfo ∧
        ∃ data, EndpointInfo.toBytes ⟨List.replicate 16 1, 5, 9⟩ = some data ∧
          EndpointInfo.fromBytes data = .ok ⟨List.replicate 16 1, 5, 9⟩ := by
  obtain ⟨hinfo, -, hendpoint, -⟩ := endpoint_codecs fun _ => none
  obtain ⟨hwire, hdict⟩ := hinfo someInfo (by decide) (by decide)
  obtain ⟨data, hdata, -, hread⟩ := hendpoint ⟨List.replicate 16 1, 5, 9⟩ (by decide)
  exact ⟨hwire, hdict, data, hdata, hread⟩

end Endpoint

end Rdma4py
