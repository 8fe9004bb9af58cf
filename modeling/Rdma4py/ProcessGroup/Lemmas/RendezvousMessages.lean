import Rdma4py.Lib.Outcome
import Rdma4py.ProcessGroup.Lemmas.Rendezvous

/-!
# The messages of a rendezvous

A member makes of a message what its sender put into it, whatever JSON does to the order of the keys.
-/

namespace Rdma4py.ProcessGroup.Rendezvous

open Lib Control

variable {S : Setting} {rank c p : Nat} {lanes : Lanes} {request response message : PyValue} {a : Joined}

/-! ## `join` -/

theorem join_eq_ok (h : S.join rank lanes c p request response = .ok a) :
    a.lanes = lanes ∧ a.nextSocket = c ∧ a.prevSocket = p ∧ Read S rank a request response := by
  simp only [Setting.join, bind_eq, throw_eq, pure_eq] at h
  by_cases hmatching : S.matching (S.handle (S.next rank)) response = false
  · simp [hmatching, error_bind] at h
  rw [if_neg hmatching] at h
  obtain ⟨-, -, h⟩ := bind_eq_ok.mp h
  obtain ⟨nextInfos, hnext, h⟩ := bind_eq_ok.mp h
  obtain ⟨prevInfos, hprev, h⟩ := bind_eq_ok.mp h
  by_cases hlengths : nextInfos.length ≠ S.qps ∨ prevInfos.length ≠ S.qps
  · simp [hlengths, error_bind] at h
  rw [if_neg hlengths] at h
  obtain ⟨-, -, h⟩ := bind_eq_ok.mp h
  obtain ⟨nextBuffers, hbuffers, h⟩ := bind_eq_ok.mp h
  obtain rfl := Except.ok.inj h
  rw [not_or, not_not, not_not] at hlengths
  exact ⟨rfl, rfl, rfl, by simpa using hmatching, hnext, hprev, hlengths, hbuffers⟩

/-! ## What was sent is read -/

variable {parse : PyStr → Option Int} {info : QPInfo} {v : PyValue}

/-- A `QPInfo` is read from every dictionary that is the same as its own. -/
theorem qpInfoFromDict_of_same (hgid : IsBytes info.gid) (hinit : info.postInit = .ok info)
    (h : PyValue.Same info.toDict v) : qpInfoFromDict parse v = .ok info := by
  obtain ⟨items, hdict, hqp, hpsn, hlid, hhex, hport, hmtu⟩ := info.lookup_toDict
  rw [hdict] at h
  obtain ⟨items', rfl, hsame⟩ := PyValue.exists_of_same_dict h
  have hint : ∀ {key : String} {k : Int}, PyValue.lookup items key = some (.int k) →
      PyValue.lookup items' key = some (.int k) := by
    intro key k hkey
    obtain ⟨w, hw, hs⟩ := PyValue.lookup_of_rel hsame hkey
    rw [hw, PyValue.same_int_iff.mp hs]
  have hhex' : PyValue.lookup items' "gid" = some (.str (PyValue.hex info.gid)) := by
    obtain ⟨w, hw, hs⟩ := PyValue.lookup_of_rel hsame hhex
    rw [hw, PyValue.same_str_iff.mp hs]
  have htry : qpInfoTry parse (.dict items') = .ok info := by
    simp [qpInfoTry, intItem, bytesItem, PyValue.getItem, hint hqp, hint hpsn, hint hlid, hhex', hint hport, hint hmtu,
      PyValue.toInt, PyValue.toBytes, PyValue.fromhex_hex hgid, bind_eq, Except.bind, hinit]
  rw [qpInfoFromDict, htry]

/-- The constructor accepts what `local_qp_info` gives. -/
def Valid (S : Setting) : Prop :=
  ∀ rank lane, IsBytes (S.info rank lane).gid ∧ (S.info rank lane).postInit = .ok (S.info rank lane)

theorem mapM_infos (hv : Valid S) {ls : List Nat} {vs : List PyValue}
    (h : List.Forall₂ PyValue.Same (ls.map fun lane => (S.info rank lane).toDict) vs) :
    vs.mapM (qpInfoFromDict S.parse) = .ok (ls.map (S.info rank)) := by
  rw [List.forall₂_map_left_iff] at h
  rw [mapM_ok_iff, List.forall₂_map_right_iff]
  refine List.Forall₂.flip (h.imp fun lane v hsame => ?_)
  obtain ⟨hgid, hinit⟩ := hv rank lane
  exact qpInfoFromDict_of_same hgid hinit hsame

/-- A key of a message that has the lanes of its sender. -/
theorem infosOf_of_same (hv : Valid S) {items : List (PyStr × PyValue)} {key : String} {ls : List Nat}
    (hkey : PyValue.lookup items key = some (S.laneInfos rank ls)) (h : PyValue.Same (.dict items) message) :
    S.infosOf message key = .ok (ls.map (S.info rank)) := by
  obtain ⟨items', rfl, hsame⟩ := PyValue.exists_of_same_dict h
  obtain ⟨w, hw, hs⟩ := PyValue.lookup_of_rel hsame hkey
  obtain ⟨vs, rfl, hvs⟩ := PyValue.exists_of_same_list hs
  simp [Setting.infosOf, PyValue.getItem, hw, Setting.uncaught, Except.mapError, bind_eq, Except.bind, PyValue.iterate,
    mapM_infos hv hvs]

theorem buffersOf_of_same {items : List (PyStr × PyValue)}
    (hkey : PyValue.lookup items "buffers" = some (S.bufferInfo rank)) (h : PyValue.Same (.dict items) message) :
    S.buffersOf message = .ok (S.buffers rank) := by
  obtain ⟨items', rfl, hsame⟩ := PyValue.exists_of_same_dict h
  obtain ⟨w, hw, hs⟩ := PyValue.lookup_of_rel hsame hkey
  obtain ⟨entries, rfl, hentries⟩ := PyValue.exists_of_same_dict hs
  have hint : ∀ {key : String} {k : Int},
      PyValue.lookup [(pyStr "work_addr", .int (S.buffers rank).workAddr), (pyStr "work_rkey", .int (S.buffers rank).workRkey),
        (pyStr "scratch_addr", .int (S.buffers rank).scratchAddr),
        (pyStr "scratch_rkey", .int (S.buffers rank).scratchRkey)] key = some (.int k) →
      PyValue.lookup entries key = some (.int k) := by
    intro key k hkey
    obtain ⟨w, hw, hs⟩ := PyValue.lookup_of_rel hentries hkey
    rw [hw, PyValue.same_int_iff.mp hs]
  have h₁ := @hint "work_addr" _ rfl
  have h₂ := @hint "work_rkey" _ rfl
  have h₃ := @hint "scratch_addr" _ rfl
  have h₄ := @hint "scratch_rkey" _ rfl
  simp [Setting.buffersOf, PyValue.getItem, hw, Setting.uncaught, Except.mapError, bind_eq, Except.bind, intItem, h₁, h₂,
    h₃, h₄, PyValue.toInt, pure_eq]

end Rdma4py.ProcessGroup.Rendezvous
