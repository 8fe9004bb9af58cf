import Rdma4py.ProcessGroup.Lemmas.Placement
import Rdma4py.ProcessGroup.Theorems

/-!
# Rank assignment

Members that accept the same list agree on the ring, and a member that accepts another iterable does not depend on its
order.
-/

namespace Rdma4py.ProcessGroup

open Lib

variable {cfg : Config} {g : Group} {uuid : Int} {timeout : Option Duration} {raw raw' : List String} {p : Placement}
  {rank : Nat}

/-- What a member computes from a list in which it stands at an index. -/
theorem place_of_list (hhandle : raw[rank]? = some cfg.handle)
    (h : g.place cfg uuid ⟨true, .ok raw⟩ timeout = .ok p) :
    ∃ members, Decodes cfg.payload raw members ∧ p = .at members rank := by
  obtain ⟨-, -, -, members, hmembers, rfl⟩ := place_eq_ok.mp h
  obtain ⟨-, hnodup, ms, hdecodes, heq, -⟩ := checkHandles_eq_ok.mp hmembers
  obtain rfl : members = ms := heq
  exact ⟨members, hdecodes, by rw [hdecodes.findIdx_eq hnodup hhandle]⟩

theorem place_perm (hperm : raw.Perm raw') (h : g.place cfg uuid ⟨false, .ok raw⟩ timeout = .ok p) :
    g.place cfg uuid ⟨false, .ok raw'⟩ timeout = .ok p := by
  obtain ⟨hclosed, hfresh, hseconds, members, hmembers, rfl⟩ := place_eq_ok.mp h
  exact place_eq_ok.mpr ⟨hclosed, hfresh, hseconds, members, checkHandles_perm hperm hmembers, rfl⟩

namespace Placement

variable {payload : String → Option Payload} {members : List Member}

theorem map_getElem? (h : Decodes payload raw members) (i : Nat) : members[i]?.map (·.raw) = raw[i]? := by
  rw [← h.map_raw, List.getElem?_map]

/-- The previous rank, counted up from zero. -/
theorem prev_eq (hrank : rank < raw.length) :
    (((rank : Int) - 1) % raw.length).toNat = if rank = 0 then raw.length - 1 else rank - 1 := by
  split
  next hzero =>
    have hmod : ((0 : Int) - 1) % raw.length = (raw.length : Int) - 1 := by
      rw [← Int.add_emod_right, Int.emod_eq_of_lt (by omega) (by omega)]
      omega
    rw [hzero, Int.natCast_zero, hmod]
    omega
  · rw [Int.emod_eq_of_lt (by omega) (by omega)]
    omega

theorem at_length (h : Decodes payload raw members) (rank : Nat) : (Placement.at members rank).size = raw.length := by
  rw [← h.map_raw, List.length_map]
  rfl

theorem at_next (h : Decodes payload raw members) (rank : Nat) :
    (Placement.at members rank).nextMember.map (·.raw) = raw[(rank + 1) % raw.length]? := by
  have hlength : members.length = raw.length := at_length h rank
  rw [← map_getElem? h, ← hlength]
  rfl

theorem at_prev (h : Decodes payload raw members) (hrank : rank < raw.length) :
    (Placement.at members rank).prevMember.map (·.raw) = raw[if rank = 0 then raw.length - 1 else rank - 1]? := by
  have hlength : members.length = raw.length := at_length h rank
  rw [← map_getElem? h, ← prev_eq hrank, ← hlength]
  rfl

end Placement

/-- **Rank assignment.** When members that decode handles alike all accept the same list, the rank of each is its position,
so that every rank is taken once, and the member that a rank chooses as its next has chosen it as its previous. For
handles in any other iterable, a member accepts every order or none, with the same rank, size and neighbours. -/
theorem rank_assignment :
    (∀ (payload : String → Option Payload) (raw : List String) (cfg : Nat → Config) (g : Nat → Group) (uuid : Nat → Int)
      (timeout : Nat → Option Duration) (p : Nat → Placement),
      (∀ i < raw.length, (cfg i).payload = payload ∧ raw[i]? = some (cfg i).handle) →
      (∀ i < raw.length, (g i).place (cfg i) (uuid i) ⟨true, .ok raw⟩ (timeout i) = .ok (p i)) →
        (∀ i < raw.length, (p i).rank = i ∧ (p i).size = raw.length) ∧
        (∀ rank < raw.length, ∃ i < raw.length, (p i).rank = rank ∧ ∀ j < raw.length, (p j).rank = rank → j = i) ∧
        ∀ i < raw.length, ∃ j < raw.length, (p i).nextMember.map (·.raw) = raw[j]? ∧
          (p j).prevMember.map (·.raw) = raw[i]?) ∧
    ∀ (cfg : Config) (g : Group) (uuid : Int) (timeout : Option Duration) (raw raw' : List String), raw.Perm raw' →
      ∀ p, g.place cfg uuid ⟨false, .ok raw⟩ timeout = .ok p ↔ g.place cfg uuid ⟨false, .ok raw'⟩ timeout = .ok p := by
  constructor
  · intro payload raw cfg g uuid timeout p hmembers haccept
    have hplace : ∀ i < raw.length, ∃ members, Decodes payload raw members ∧ p i = .at members i := by
      intro i hi
      obtain ⟨hpayload, hhandle⟩ := hmembers i hi
      rw [← hpayload]
      exact place_of_list hhandle (haccept i hi)
    have hrank : ∀ i < raw.length, (p i).rank = i := by
      intro i hi
      obtain ⟨members, -, hp⟩ := hplace i hi
      rw [hp]
      rfl
    refine ⟨?_, ?_, ?_⟩
    · intro i hi
      obtain ⟨members, hdecodes, hp⟩ := hplace i hi
      exact ⟨hrank i hi, by rw [hp, Placement.at_length hdecodes]⟩
    · intro rank hlt
      exact ⟨rank, hlt, hrank rank hlt, fun j hj hjrank => by rw [← hjrank, hrank j hj]⟩
    · intro i hi
      have hlt := Nat.mod_lt (i + 1) (Nat.zero_lt_of_lt hi)
      obtain ⟨members, hdecodes, hp⟩ := hplace i hi
      obtain ⟨members', hdecodes', hp'⟩ := hplace _ hlt
      refine ⟨(i + 1) % raw.length, hlt, ?_, ?_⟩
      · rw [hp, Placement.at_next hdecodes]
      · rw [hp', Placement.at_prev hdecodes' hlt]
        congr 1
        -- the last rank comes before the first
        rcases Nat.lt_or_ge (i + 1) raw.length with hnext | hlast
        · rw [Nat.mod_eq_of_lt hnext, if_neg (Nat.succ_ne_zero i), Nat.add_sub_cancel]
        · obtain rfl : i = raw.length - 1 := by omega
          rw [Nat.sub_add_cancel (Nat.zero_lt_of_lt hi), Nat.mod_self, if_pos rfl]
  · intro cfg g uuid timeout raw raw' hperm p
    exact ⟨place_perm hperm, place_perm hperm.symm⟩

/-- The handles of two members. -/
def twoHandles : List String := ["ibverbs-allreduce-v1:a", "ibverbs-allreduce-v1:b"]

/-- A member of two, by its position. -/
def memberOfTwo (i : Nat) : Config := { twoMembers with handle := twoHandles.getD i "" }

/-- Where a new group finds itself among the two members. -/
def placeOfTwo (i : Nat) : Placement :=
  match Group.initial.place (memberOfTwo i) 7 ⟨true, .ok twoHandles⟩ none with
  | .ok p => p
  | .error _ => .at [] 0

theorem rank_assignment_two :
    (placeOfTwo 1).rank = 1 ∧
      ∃ j < 2, (placeOfTwo 0).nextMember.map (·.raw) = twoHandles[j]? ∧
        (placeOfTwo j).prevMember.map (·.raw) = some "ibverbs-allreduce-v1:a" := by
  have hmembers : ∀ i < twoHandles.length,
      (memberOfTwo i).payload = twoMembers.payload ∧ twoHandles[i]? = some (memberOfTwo i).handle := by
    intro i hi
    refine ⟨rfl, ?_⟩
    simp [memberOfTwo, List.getD_eq_getElem?_getD, List.getElem?_eq_getElem hi]
  have haccept : ∀ i < twoHandles.length,
      Group.initial.place (memberOfTwo i) 7 ⟨true, .ok twoHandles⟩ none = .ok (placeOfTwo i) := by decide +kernel
  obtain ⟨hranks, -, hneighbours⟩ := rank_assignment.1 twoMembers.payload twoHandles memberOfTwo (fun _ => .initial)
    (fun _ => 7) (fun _ => none) placeOfTwo hmembers haccept
  exact ⟨(hranks 1 (by decide)).1, hneighbours 0 (by decide)⟩

end Rdma4py.ProcessGroup
