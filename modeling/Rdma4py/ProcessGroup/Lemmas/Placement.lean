import Mathlib.Data.List.Perm.Basic
import Mathlib.Data.Prod.Lex
import Mathlib.Data.String.Basic
import Rdma4py.ProcessGroup.Lemmas.Group
import Rdma4py.ProcessGroup.Placement

/-!
# Members in order

A list gives the members in its own order. Any other iterable gives them sorted, and the sorted members do not depend on
the order in which it lists its elements.
-/

namespace Rdma4py.ProcessGroup

open Lib

variable {cfg : Config} {payload : String → Option Payload} {raw raw' : List String} {members members' : List Member}

/-! ## Decoding -/

theorem decodeHandle_raw {handle : String} {m : Member} (h : decodeHandle payload handle = .ok m) : m.raw = handle := by
  unfold decodeHandle at h
  split at h
  · cases h
  · split at h
    · cases h
    · split at h
      · cases h
      · split at h <;> cases h
        rfl

/-- The members that the handles decode to, in the order of the handles. -/
def Decodes (payload : String → Option Payload) (raw : List String) (members : List Member) : Prop :=
  List.Forall₂ (fun handle m => decodeHandle payload handle = .ok m) raw members

namespace Decodes

theorem map_raw (h : Decodes payload raw members) : members.map (·.raw) = raw := by
  induction h with
  | nil => rfl
  | cons hm _ ih => rw [List.map_cons, ih, decodeHandle_raw hm]

theorem unique (h : Decodes payload raw members) (h' : Decodes payload raw members') : members = members' := by
  induction h generalizing members' with
  | nil =>
      cases h'
      rfl
  | cons hm _ ih =>
      cases h' with
      | cons hm' hrest =>
          rw [hm] at hm'
          rw [Except.ok.inj hm', ih hrest]

/-- Another order of the handles gives another order of the members. -/
theorem perm (h : Decodes payload raw members) (hperm : raw.Perm raw') :
    ∃ members', Decodes payload raw' members' ∧ members.Perm members' := by
  obtain ⟨members', hdecodes, hmembers⟩ := List.perm_comp_forall₂ hperm.symm h
  exact ⟨members', hdecodes, hmembers.symm⟩

theorem exists_decode (h : Decodes payload raw members) {m : Member} (hm : m ∈ members) :
    decodeHandle payload m.raw = .ok m := by
  obtain ⟨handle, -, hhandle⟩ := exists_of_mapM_ok (mapM_ok_iff.mpr h) m hm
  rwa [decodeHandle_raw hhandle]

/-- The handle of a member determines it. -/
theorem eq_of_raw (h : Decodes payload raw members) {m m' : Member} (hm : m ∈ members) (hm' : m' ∈ members)
    (hraw : m.raw = m'.raw) : m = m' := by
  have hdecode := h.exists_decode hm
  rw [hraw, h.exists_decode hm'] at hdecode
  exact (Except.ok.inj hdecode).symm

/-- The index of a member is that of its handle. -/
theorem findIdx_eq (h : Decodes payload raw members) (hnodup : raw.Nodup) {rank : Nat} {handle : String}
    (hhandle : raw[rank]? = some handle) : members.findIdx (fun m => decide (m.raw = handle)) = rank := by
  obtain ⟨hlt, hget⟩ := List.getElem?_eq_some_iff.mp hhandle
  have hlength : members.length = raw.length := by rw [← h.map_raw, List.length_map]
  have hraw : ∀ i (hi : i < members.length) (hi' : i < raw.length), members[i].raw = raw[i] := by
    intro i hi hi'
    simp [← h.map_raw]
  apply (List.findIdx_eq (by omega)).mpr
  refine ⟨by simp [hraw rank (by omega) hlt, hget], ?_⟩
  intro j hj
  have hne : raw[j] ≠ raw[rank] := by
    intro heq
    have := (List.Nodup.getElem_inj_iff hnodup).mp heq
    omega
  simpa [hraw j (by omega) (by omega), ← hget] using hne

end Decodes

/-! ## Sorting -/

/-- The sort key, in the order of pairs. -/
def Member.key (m : Member) : Int ×ₗ String := toLex (m.stableRank, m.raw)

theorem Member.before_iff {a b : Member} : a.Before b ↔ a.key ≤ b.key := by
  rw [Member.key, Member.key, Prod.Lex.toLex_le_toLex]
  rfl

instance : Std.Total Member.Before where
  total a b := by
    rw [Member.before_iff, Member.before_iff]
    exact le_total a.key b.key

instance : IsTrans Member Member.Before where
  trans a b c hab hbc := by
    rw [Member.before_iff] at *
    exact le_trans hab hbc

theorem Member.Before.raw_eq {a b : Member} (h : a.Before b) (h' : b.Before a) : a.raw = b.raw := by
  rw [Member.before_iff] at h h'
  exact congrArg (fun key => (ofLex key).2) (le_antisymm h h')

/-- The sorted members do not depend on the order of the handles. -/
theorem insertionSort_eq (h : Decodes payload raw members) (hperm : members.Perm members') :
    members.insertionSort Member.Before = members'.insertionSort Member.Before := by
  have hsorted : (members.insertionSort Member.Before).Perm (members'.insertionSort Member.Before) :=
    (List.perm_insertionSort _ _).trans (hperm.trans (List.perm_insertionSort _ _).symm)
  refine hsorted.eq_of_pairwise ?_ (List.pairwise_insertionSort _ _) (List.pairwise_insertionSort _ _)
  intro a b ha hb hab hba
  have ha := (List.perm_insertionSort _ _).mem_iff.mp ha
  have hb := hperm.mem_iff.mpr ((List.perm_insertionSort _ _).mem_iff.mp hb)
  exact h.eq_of_raw ha hb (hab.raw_eq hba)

/-! ## Acceptance -/

/-- What `_reconfigure` checks of the members. -/
structure Compatible (cfg : Config) (members : List Member) : Prop where
  one : members.countP (fun m => decide (m.raw = cfg.handle)) = 1
  nodup : (members.map (·.stableRank)).Nodup
  checked : ∀ m ∈ members, checkMember cfg m = .ok ()

theorem checkHandles_eq_ok {ordered : Bool} : checkHandles cfg ⟨ordered, .ok raw⟩ = .ok members ↔
    raw.isEmpty = false ∧ raw.Nodup ∧ ∃ ms, Decodes cfg.payload raw ms ∧
      members = (if ordered then ms else ms.insertionSort Member.Before) ∧ Compatible cfg members := by
  simp only [checkHandles, throw_eq, bind_eq, error_bind, bind_eq_ok, ite_error_eq_ok, pure_eq, Except.ok.injEq]
  constructor
  · rintro ⟨_, rfl, hempty, hnodup, ms, hdecode, hone, hranks, _, hcheck, rfl⟩
    refine ⟨by simpa using hempty, by simpa using hnodup, ms, mapM_ok_iff.mp hdecode, rfl, ?_⟩
    exact ⟨by simpa using hone, by simpa using hranks, forM_eq_ok.mp hcheck⟩
  · rintro ⟨hempty, hnodup, ms, hdecodes, rfl, hcompatible⟩
    refine ⟨raw, rfl, by simp [hempty], by simpa using hnodup, ms, mapM_ok_iff.mpr hdecodes, ?_⟩
    exact ⟨by simpa using hcompatible.one, by simpa using hcompatible.nodup, ⟨⟩, forM_eq_ok.mpr hcompatible.checked, rfl⟩

theorem checkHandles_perm (hperm : raw.Perm raw') (h : checkHandles cfg ⟨false, .ok raw⟩ = .ok members) :
    checkHandles cfg ⟨false, .ok raw'⟩ = .ok members := by
  obtain ⟨hempty, hnodup, ms, hdecodes, rfl, hcompatible⟩ := checkHandles_eq_ok.mp h
  obtain ⟨ms', hdecodes', hms⟩ := hdecodes.perm hperm
  refine checkHandles_eq_ok.mpr ⟨?_, hperm.nodup_iff.mp hnodup, ms', hdecodes', ?_, hcompatible⟩
  · rwa [← hperm.isEmpty_eq]
  · exact insertionSort_eq hdecodes hms

variable {g : Group} {uuid : Int} {handles : Handles} {timeout : Option Duration} {p : Placement}

theorem place_eq_ok : g.place cfg uuid handles timeout = .ok p ↔
    g.closed = false ∧ uuid ∉ g.usedUuids ∧ (∃ s, seconds timeout cfg.timeout = .ok s) ∧
      ∃ members, checkHandles cfg handles = .ok members ∧
        p = .at members (members.findIdx fun m => decide (m.raw = cfg.handle)) := by
  simp only [Group.place, Group.validateReconfigure, throw_eq, bind_eq, error_bind, bind_eq_ok, ite_error_eq_ok, pure_eq,
    Except.ok.injEq]
  constructor
  · rintro ⟨_, ⟨hclosed, hfresh, members, hmembers, s, hs, rfl⟩, members', hmembers', rfl⟩
    rw [hmembers] at hmembers'
    obtain rfl := Except.ok.inj hmembers'
    exact ⟨by simpa using hclosed, hfresh, ⟨s, hs⟩, members, hmembers, rfl⟩
  · rintro ⟨hclosed, hfresh, ⟨s, hs⟩, members, hmembers, rfl⟩
    exact ⟨_, ⟨by simp [hclosed], hfresh, members, hmembers, s, hs, rfl⟩, members, hmembers, rfl⟩

end Rdma4py.ProcessGroup
