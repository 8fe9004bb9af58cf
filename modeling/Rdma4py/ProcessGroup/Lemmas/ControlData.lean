import Rdma4py.Lib.Outcome
import Rdma4py.ProcessGroup.ControlData

/-!
# Which control data is decided

A decoder decides a value when it returns something valid or raises its own exception.
-/

namespace Rdma4py.ProcessGroup.Control

open Lib

/-! ## Handles -/

/-- The fields of a member are what the group relies on. -/
structure Valid (m : Member) : Prop where
  stableRank : ∃ n, m.stableRank = .int n ∧ 0 ≤ n
  nonce : ∃ s, m.nonce = .str s ∧ s ≠ []
  host : ∃ s, m.host = .str s ∧ s ≠ []
  port : ∃ n, m.port = .int n ∧ 0 < n ∧ n < 65536
  ibPort : ∃ n, m.ibPort = .int n ∧ 0 < n
  gidIndex : ∃ n, m.gidIndex = .int n ∧ 0 ≤ n
  gid : ∃ s bytes, m.gid = .str s ∧ PyValue.fromhex s = some bytes ∧ bytes.length = 16
  maxBytes : ∃ n, m.maxBytes = .int n ∧ 0 < n
  qps : ∃ n, m.qps = .int n ∧ 0 < n
  numSms : ∃ n, m.numSms = .int n ∧ 0 < n

/-- The numbers are integers, the texts strings, and the GID is a string without whitespace. -/
structure Typed (m : Member) : Prop where
  numbers : ∀ v ∈ [m.stableRank, m.port, m.ibPort, m.gidIndex, m.maxBytes, m.qps, m.numSms], ∃ n, v = PyValue.int n
  texts : ∀ v ∈ [m.nonce, m.host], ∃ s, v = PyValue.str s
  gid : ∃ s, m.gid = .str s ∧ ∀ c ∈ s, PyValue.isSpace c = false

/-- The rational number that a value stands for in a comparison; `true` counts as 1. -/
inductive Denotes : PyValue → ℚ → Prop
  | bool (b : Bool) : Denotes (.bool b) (if b then 1 else 0)
  | int (n : Int) : Denotes (.int n) n
  | float (x : ℚ) : Denotes (.float (.finite x)) x

/-- A value that can be compared with an integer. -/
inductive Comparable : PyValue → Prop
  | bool (b : Bool) : Comparable (.bool b)
  | int (n : Int) : Comparable (.int n)
  | float (x : PyFloat) : Comparable (.float x)

/-- Negative infinity, or a number of this kind. -/
def Small (P : ℚ → Prop) (v : PyValue) : Prop := v = .float (.infinity true) ∨ ∃ x, Denotes v x ∧ P x

/-- Nothing, or empty, or zero. -/
inductive Falsy : PyValue → Prop
  | null : Falsy .null
  | bool : Falsy (.bool false)
  | int : Falsy (.int 0)
  | float : Falsy (.float (.finite 0))
  | str : Falsy (.str [])
  | list : Falsy (.list [])
  | dict : Falsy (.dict [])

/-- A value with so many characters, elements or different keys. -/
inductive HasLength : PyValue → Nat → Prop
  | str (s : PyStr) : HasLength (.str s) s.length
  | list (xs : List PyValue) : HasLength (.list xs) xs.length
  | dict (items : List (PyStr × PyValue)) : HasLength (.dict items) (items.map Prod.fst).eraseDups.length

/-- What a check says of a field: whether it has an answer, and whether it rejects the field. -/
structure Verdict where
  answers : Prop
  rejects : Prop

/-- The check has an answer and does not reject. -/
def Verdict.passes (v : Verdict) : Prop := v.answers ∧ ¬ v.rejects

/-- What the checks say of the fields, in the order of the source. -/
def Member.verdicts (m : Member) : List Verdict :=
  [⟨Comparable m.stableRank, Small (· < 0) m.stableRank⟩,
   ⟨True, Falsy m.nonce⟩,
   ⟨True, Falsy m.host⟩,
   ⟨Comparable m.port, Comparable m.port ∧ ¬ ∃ x, Denotes m.port x ∧ 0 < x ∧ x < 65536⟩,
   ⟨Comparable m.ibPort, Small (· ≤ 0) m.ibPort⟩,
   ⟨Comparable m.gidIndex, Small (· < 0) m.gidIndex⟩,
   ⟨∃ n, HasLength m.gid n, ∃ n, HasLength m.gid n ∧ n ≠ 32⟩,
   ⟨Comparable m.maxBytes, Small (· ≤ 0) m.maxBytes⟩,
   ⟨Comparable m.qps, Small (· ≤ 0) m.qps⟩,
   ⟨Comparable m.numSms, Small (· ≤ 0) m.numSms⟩]

/-- A check rejects, and those before it pass. -/
def FirstRejects (vs : List Verdict) : Prop :=
  ∃ pre v post, vs = pre ++ v :: post ∧ (∀ u ∈ pre, u.passes) ∧ v.rejects

/-- A check rejects before one has no answer, or all pass and the GID is a string that is either not hexadecimal or comes
with fields of the right types. -/
def Decided (m : Member) : Prop :=
  FirstRejects m.verdicts ∨
    ((∀ v ∈ m.verdicts, v.passes) ∧ ∃ s, m.gid = .str s ∧ (PyValue.fromhex s = none ∨ Typed m))

/-! ## The checks by the types of the fields -/

/-- The operand is true when the verdict rejects, and false when it passes. -/
structure Tells (c : Except PyExn Bool) (v : Verdict) : Prop where
  rejects : c = .ok true ↔ v.rejects
  passes : c = .ok false ↔ v.passes

/-- A comparison that is false for NaN and puts the infinite numbers at the ends. -/
theorem tells_number {f : PyFloat → Bool} {P : ℚ → Prop} (hnan : f .nan = false)
    (hinf : ∀ negative, f (.infinity negative) = negative) (hfin : ∀ x, f (.finite x) = true ↔ P x) (v : PyValue) :
    Tells (v.number.map f) ⟨Comparable v, Small P v⟩ := by
  have hnot : ∀ x, f (.finite x) = false ↔ ¬ P x := fun x => by rw [← hfin, Bool.not_eq_true]
  cases v with
  | bool b =>
      have hden : ∀ x, Denotes (.bool b) x ↔ x = if b then 1 else 0 :=
        fun x => ⟨fun h => by cases h; rfl, fun h => h ▸ .bool b⟩
      constructor
      · simp [PyValue.number, Except.map, hfin, Small, hden]
      · simp [PyValue.number, Except.map, hnot, Small, hden, Verdict.passes, Comparable.bool]
  | int n =>
      have hden : ∀ x, Denotes (.int n) x ↔ x = n := fun x => ⟨fun h => by cases h; rfl, fun h => h ▸ .int n⟩
      constructor
      · simp [PyValue.number, Except.map, hfin, Small, hden]
      · simp [PyValue.number, Except.map, hnot, Small, hden, Verdict.passes, Comparable.int]
  | float x =>
      have hcomp : Comparable (.float x) := .float x
      cases x with
      | nan =>
          have hden : ∀ x, ¬ Denotes (.float .nan) x := by rintro x ⟨⟩
          constructor <;> simp [PyValue.number, Except.map, hnan, Small, hden, Verdict.passes, hcomp]
      | infinity negative =>
          have hden : ∀ x, ¬ Denotes (.float (.infinity negative)) x := by rintro x ⟨⟩
          constructor <;> simp [PyValue.number, Except.map, hinf, Small, hden, Verdict.passes, hcomp]
      | finite y =>
          have hden : ∀ x, Denotes (.float (.finite y)) x ↔ x = y := fun x => ⟨fun h => by cases h; rfl, fun h => h ▸ .float y⟩
          constructor
          · simp [PyValue.number, Except.map, hfin, Small, hden]
          · simp [PyValue.number, Except.map, hnot, Small, hden, Verdict.passes, hcomp]
  | null | str _ | list _ | dict _ =>
      constructor
      · refine iff_of_false (by rintro ⟨⟩) ?_
        rintro (h | ⟨x, h, -⟩)
        · cases h
        · cases h
      · exact iff_of_false (by rintro ⟨⟩) (by rintro ⟨⟨⟩, -⟩)

theorem tells_lt (v : PyValue) (k : Int) : Tells (v.lt k) ⟨Comparable v, Small (· < k) v⟩ :=
  tells_number rfl (fun _ => rfl) (fun x => by simp [PyFloat.lt]) v

theorem tells_le (v : PyValue) (k : Int) : Tells (v.le k) ⟨Comparable v, Small (· ≤ k) v⟩ :=
  tells_number rfl (fun _ => rfl) (fun x => by simp [PyFloat.le]) v

theorem truth_eq_false_iff (v : PyValue) : v.truth = false ↔ Falsy v := by
  cases v with
  | null => exact iff_of_true rfl .null
  | bool b =>
      cases b with
      | false => exact iff_of_true rfl .bool
      | true => exact iff_of_false (by simp [PyValue.truth]) (by rintro ⟨⟩)
  | int n =>
      by_cases hn : n = 0
      · subst hn
        exact iff_of_true rfl .int
      · exact iff_of_false (by simp [PyValue.truth, hn]) fun h => by cases h; exact hn rfl
  | float x =>
      cases x with
      | nan => exact iff_of_false (by simp [PyValue.truth]) (by rintro ⟨⟩)
      | infinity negative => exact iff_of_false (by simp [PyValue.truth]) (by rintro ⟨⟩)
      | finite y =>
          by_cases hy : y = 0
          · subst hy
            exact iff_of_true (by simp [PyValue.truth]) .float
          · exact iff_of_false (by simp [PyValue.truth, hy]) fun h => by cases h; exact hy rfl
  | str s =>
      cases s with
      | nil => exact iff_of_true (by simp [PyValue.truth]) .str
      | cons c s => exact iff_of_false (by simp [PyValue.truth]) (by rintro ⟨⟩)
  | list xs =>
      cases xs with
      | nil => exact iff_of_true rfl .list
      | cons x xs => exact iff_of_false (by simp [PyValue.truth]) (by rintro ⟨⟩)
  | dict items =>
      cases items with
      | nil => exact iff_of_true rfl .dict
      | cons item items => exact iff_of_false (by simp [PyValue.truth]) (by rintro ⟨⟩)

theorem tells_truth (v : PyValue) : Tells (.ok (!v.truth)) ⟨True, Falsy v⟩ := by
  constructor
  · simp [truth_eq_false_iff]
  · simp [Verdict.passes, ← truth_eq_false_iff]

/-- Two comparisons of the port are one range. -/
theorem tells_port (v : PyValue) :
    Tells (Member.portCheck v) ⟨Comparable v, Comparable v ∧ ¬ ∃ x, Denotes v x ∧ 0 < x ∧ x < 65536⟩ := by
  have hrange : ∀ x : ℚ, Member.portCheck v = (if 0 < x ∧ x < 65536 then .ok false else .ok true) →
      (∀ y, Denotes v y ↔ y = x) → Comparable v →
      Tells (Member.portCheck v) ⟨Comparable v, Comparable v ∧ ¬ ∃ x, Denotes v x ∧ 0 < x ∧ x < 65536⟩ := by
    intro x hcheck hden hcomp
    rw [hcheck]
    by_cases hx : 0 < x ∧ x < 65536
    · constructor <;> simp [hx, hden, hcomp, Verdict.passes]
    · constructor <;> simp [hx, hden, hcomp, Verdict.passes]
  have hnumber : ∀ x : ℚ, v.number = .ok (.finite x) →
      Member.portCheck v = if 0 < x ∧ x < 65536 then .ok false else .ok true := by
    intro x hx
    by_cases h0 : 0 < x
    · by_cases h1 : x < 65536
      · simp [Member.portCheck, PyValue.gt, PyValue.lt, hx, Except.map, PyFloat.gt, PyFloat.lt, h0, h1]
      · simp [Member.portCheck, PyValue.gt, PyValue.lt, hx, Except.map, PyFloat.gt, PyFloat.lt, h0, h1]
    · simp [Member.portCheck, PyValue.gt, hx, Except.map, PyFloat.gt, h0]
  cases v with
  | bool b =>
      exact hrange _ (hnumber _ rfl) (fun x => ⟨fun h => by cases h; rfl, fun h => h ▸ .bool b⟩) (.bool b)
  | int n => exact hrange _ (hnumber _ rfl) (fun x => ⟨fun h => by cases h; rfl, fun h => h ▸ .int n⟩) (.int n)
  | float x =>
      have hcomp : Comparable (.float x) := .float x
      cases x with
      | nan =>
          have hden : ∀ x, ¬ Denotes (.float .nan) x := by rintro x ⟨⟩
          have hcheck : Member.portCheck (.float .nan) = .ok true := rfl
          constructor <;> simp [hcheck, hden, hcomp, Verdict.passes]
      | infinity negative =>
          have hden : ∀ x, ¬ Denotes (.float (.infinity negative)) x := by rintro x ⟨⟩
          have hcheck : Member.portCheck (.float (.infinity negative)) = .ok true := by cases negative <;> rfl
          constructor <;> simp [hcheck, hden, hcomp, Verdict.passes]
      | finite y =>
          exact hrange _ (hnumber _ rfl) (fun x => ⟨fun h => by cases h; rfl, fun h => h ▸ .float y⟩) hcomp
  | null | str _ | list _ | dict _ =>
      constructor
      · exact iff_of_false (by rintro ⟨⟩) (by rintro ⟨⟨⟩, -⟩)
      · exact iff_of_false (by rintro ⟨⟩) (by rintro ⟨⟨⟩, -⟩)

theorem tells_len (v : PyValue) (k : Nat) :
    Tells (v.len.map (decide <| · ≠ k)) ⟨∃ n, HasLength v n, ∃ n, HasLength v n ∧ n ≠ k⟩ := by
  have hlen : ∀ n, v.len = .ok n → (∀ n', HasLength v n' ↔ n' = n) →
      Tells (v.len.map (decide <| · ≠ k)) ⟨∃ n, HasLength v n, ∃ n, HasLength v n ∧ n ≠ k⟩ := by
    intro n hn hhas
    rw [hn]
    constructor <;> simp [Except.map, hhas, Verdict.passes]
  cases v with
  | str s => exact hlen _ rfl fun n => ⟨fun h => by cases h; rfl, fun h => h ▸ .str s⟩
  | list xs => exact hlen _ rfl fun n => ⟨fun h => by cases h; rfl, fun h => h ▸ .list xs⟩
  | dict items => exact hlen _ rfl fun n => ⟨fun h => by cases h; rfl, fun h => h ▸ .dict items⟩
  | null | bool _ | int _ | float _ =>
      constructor
      · exact iff_of_false (by rintro ⟨⟩) (by rintro ⟨n, ⟨⟩, -⟩)
      · exact iff_of_false (by rintro ⟨⟩) (by rintro ⟨⟨n, ⟨⟩⟩, -⟩)

theorem tells_checks (m : Member) : List.Forall₂ Tells m.checks m.verdicts := by
  refine .cons (tells_lt _ 0) (.cons (tells_truth _) (.cons (tells_truth _) (.cons (tells_port _) (.cons (tells_le _ 0)
    (.cons (tells_lt _ 0) (.cons (tells_len _ 32) (.cons (tells_le _ 0) (.cons (tells_le _ 0) (.cons (tells_le _ 0)
      .nil)))))))))

/-- The first operand that is not false is true where a verdict rejects first. -/
theorem firstStop_iff {cs : List (Except PyExn Bool)} {vs : List Verdict} (h : List.Forall₂ Tells cs vs) :
    FirstStop cs (.ok true) ↔ FirstRejects vs := by
  induction h with
  | nil =>
      refine iff_of_false ?_ ?_
      · rintro ⟨pre, post, hsplit, -⟩
        simp at hsplit
      · rintro ⟨pre, v, post, hsplit, -⟩
        simp at hsplit
  | @cons c v cs vs hc _ ih =>
      have hsplit : FirstRejects (v :: vs) ↔ v.rejects ∨ v.passes ∧ FirstRejects vs := by
        constructor
        · rintro ⟨pre, u, post, heq, hpre, hu⟩
          cases pre with
          | nil =>
              obtain ⟨rfl, rfl⟩ := List.cons.inj heq
              exact .inl hu
          | cons p pre =>
              obtain ⟨rfl, rfl⟩ := List.cons.inj heq
              exact .inr ⟨hpre v List.mem_cons_self, pre, u, post, rfl, fun x hx => hpre x (List.mem_cons_of_mem _ hx), hu⟩
        · rintro (hv | ⟨hv, pre, u, post, rfl, hpre, hu⟩)
          · exact ⟨[], v, vs, rfl, by simp, hv⟩
          · exact ⟨v :: pre, u, post, rfl, List.forall_mem_cons.mpr ⟨hv, hpre⟩, hu⟩
      rw [hsplit, ← hc.rejects, ← hc.passes]
      by_cases hfalse : c = .ok false
      · rw [hfalse, firstStop_cons_false (by simp), ih]
        simp
      · rw [firstStop_cons hfalse, eq_comm]
        simp [hfalse]

theorem forall_false_iff {cs : List (Except PyExn Bool)} {vs : List Verdict} (h : List.Forall₂ Tells cs vs) :
    (∀ c ∈ cs, c = .ok false) ↔ ∀ v ∈ vs, v.passes := by
  induction h with
  | nil => simp
  | cons hc _ ih => rw [List.forall_mem_cons, List.forall_mem_cons, hc.passes, ih]

theorem decided_iff (m : Member) : Decided m ↔ FirstStop m.checks (.ok true) ∨
    ((∀ c ∈ m.checks, c = .ok false) ∧ ∃ s, m.gid = .str s ∧ (PyValue.fromhex s = none ∨ Typed m)) := by
  rw [Decided, firstStop_iff (tells_checks m), forall_false_iff (tells_checks m)]

theorem portCheck_int_iff {n : Int} : Member.portCheck (.int n) = .ok false ↔ 0 < n ∧ n < 65536 := by
  by_cases h : 0 < n
  · simp [Member.portCheck, h, Except.map]
  · simp [Member.portCheck, h]

/-- What the checks say of fields of the right types. -/
theorem Typed.valid_iff {m : Member} (ht : Typed m) {s : PyStr} {bytes : List Nat} (hs : m.gid = .str s)
    (hb : PyValue.fromhex s = some bytes) : (∀ c ∈ m.checks, c = .ok false) ↔ Valid m := by
  obtain ⟨⟨stableRank, hrank⟩, ⟨port, hport⟩, ⟨ibPort, hib⟩, ⟨gidIndex, hindex⟩, ⟨maxBytes, hmax⟩, ⟨qps, hqps⟩,
    ⟨numSms, hsms⟩⟩ : (∃ n, m.stableRank = .int n) ∧ (∃ n, m.port = .int n) ∧ (∃ n, m.ibPort = .int n) ∧
      (∃ n, m.gidIndex = .int n) ∧ (∃ n, m.maxBytes = .int n) ∧ (∃ n, m.qps = .int n) ∧ ∃ n, m.numSms = .int n := by
    simpa using ht.numbers
  obtain ⟨⟨nonce, hnonce⟩, ⟨host, hhost⟩⟩ : (∃ s, m.nonce = .str s) ∧ ∃ s, m.host = .str s := by
    simpa using ht.texts
  obtain ⟨s', hs', hblank⟩ := ht.gid
  rw [hs, PyValue.str.injEq] at hs'
  subst hs'
  have hlen := PyValue.length_of_fromhex hb
  rw [List.countP_eq_zero.mpr (by simpa using hblank)] at hlen
  have hgid : s.length = 32 ↔ bytes.length = 16 := by omega
  have hchecks : (∀ c ∈ m.checks, c = .ok false) ↔ 0 ≤ stableRank ∧ nonce ≠ [] ∧ host ≠ [] ∧
      (0 < port ∧ port < 65536) ∧ 0 < ibPort ∧ 0 ≤ gidIndex ∧ bytes.length = 16 ∧ 0 < maxBytes ∧ 0 < qps ∧ 0 < numSms := by
    simp [Member.checks, hrank, hport, hib, hindex, hmax, hqps, hsms, hnonce, hhost, hs, PyValue.truth, PyValue.len,
      Except.map, portCheck_int_iff, hgid]
  rw [hchecks]
  constructor
  · rintro ⟨h1, h2, h3, h4, h5, h6, h7, h8, h9, h10⟩
    exact ⟨⟨_, hrank, h1⟩, ⟨_, hnonce, h2⟩, ⟨_, hhost, h3⟩, ⟨_, hport, h4⟩, ⟨_, hib, h5⟩, ⟨_, hindex, h6⟩,
      ⟨_, _, hs, hb, h7⟩, ⟨_, hmax, h8⟩, ⟨_, hqps, h9⟩, ⟨_, hsms, h10⟩⟩
  · intro h
    exact ⟨by simpa [hrank] using h.stableRank, by simpa [hnonce] using h.nonce, by simpa [hhost] using h.host,
      by simpa [hport] using h.port, by simpa [hib] using h.ibPort, by simpa [hindex] using h.gidIndex,
      by simpa [hs, hb] using h.gid, by simpa [hmax] using h.maxBytes, by simpa [hqps] using h.qps,
      by simpa [hsms] using h.numSms⟩

/-- Valid fields have the right types, if the GID has 32 characters. -/
theorem Valid.typed {m : Member} (h : Valid m) (hlen : m.gid.len = .ok 32) : Typed m := by
  obtain ⟨stableRank, hrank, -⟩ := h.stableRank
  obtain ⟨nonce, hnonce, -⟩ := h.nonce
  obtain ⟨host, hhost, -⟩ := h.host
  obtain ⟨port, hport, -⟩ := h.port
  obtain ⟨ibPort, hib, -⟩ := h.ibPort
  obtain ⟨gidIndex, hindex, -⟩ := h.gidIndex
  obtain ⟨s, bytes, hs, hb, h16⟩ := h.gid
  obtain ⟨maxBytes, hmax, -⟩ := h.maxBytes
  obtain ⟨qps, hqps, -⟩ := h.qps
  obtain ⟨numSms, hsms, -⟩ := h.numSms
  refine ⟨by simp [hrank, hport, hib, hindex, hmax, hqps, hsms], by simp [hnonce, hhost], s, hs, ?_⟩
  have hcount := PyValue.length_of_fromhex hb
  rw [hs, PyValue.len, Except.ok.injEq] at hlen
  have hzero : s.countP PyValue.isSpace = 0 := by omega
  simpa using List.countP_eq_zero.mp hzero

/-- A result that is a valid member, or the decoder's own exception. -/
def Decides (r : Except Raised Member) : Prop :=
  match r with
  | .ok m => Valid m
  | .error e => ∃ text, e = .reconfigureError text

theorem len_of_checks {m : Member} (h : ∀ c ∈ m.checks, c = .ok false) {s : PyStr} (hs : m.gid = .str s) :
    m.gid.len = .ok 32 := by
  have hlen := h (m.gid.len.map (decide <| · ≠ 32)) (by simp [Member.checks])
  rw [hs] at hlen ⊢
  simpa [PyValue.len, Except.map] using hlen

theorem validate_decides_iff (m : Member) : Decides m.validate ↔ Decided m := by
  have htrue : orChain m.checks = .ok true ↔ FirstStop m.checks (.ok true) := orChain_eq_iff (by simp)
  have hfalse : orChain m.checks = .ok false ↔ ∀ c ∈ m.checks, c = .ok false := orChain_eq_false_iff
  rw [decided_iff, ← htrue, ← hfalse]
  cases h : orChain m.checks with
  | error e => simp [Member.validate, h, Decides]
  | ok b =>
      cases b with
      | true => simp [Member.validate, h, Decides]
      | false =>
          simp only [Member.validate, h, false_or, true_and, Except.ok.injEq, Bool.false_eq_true]
          have hall := hfalse.mp h
          cases hg : m.gid with
          | str s =>
              cases hb : PyValue.fromhex s with
              | none => simp [PyValue.toBytes, hb, Decides]
              | some bytes =>
                  simp only [PyValue.toBytes, hb, Decides, PyValue.str.injEq, exists_eq_left', reduceCtorEq, false_or]
                  constructor
                  · intro hv
                    exact hv.typed (len_of_checks hall hg)
                  · intro ht
                    exact (ht.valid_iff hg hb).mp hall
          | null => simp [PyValue.toBytes, Decides]
          | bool b => simp [PyValue.toBytes, Decides]
          | int n => simp [PyValue.toBytes, Decides]
          | float x => simp [PyValue.toBytes, Decides]
          | list xs => simp [PyValue.toBytes, Decides]
          | dict items => simp [PyValue.toBytes, Decides]

/-- The handle presents a member: behind the prefix is an object with exactly the eleven fields. -/
def Presents (decode : PyStr → Option PyValue) (handle : PyStr) (m : Member) : Prop :=
  ∃ value, (pyStr handlePrefix).isPrefixOf handle = true ∧
    decode (handle.drop (pyStr handlePrefix).length) = some (.dict value) ∧ PyValue.hasKeys value required = true ∧
    memberOf handle value = some m

/-- The result for a handle: a valid member that it presents, or the decoder's own exception. -/
def DecidesHandle (decode : PyStr → Option PyValue) (handle : PyStr) (r : Except Raised Member) : Prop :=
  match r with
  | .ok m => Presents decode handle m ∧ Valid m
  | .error e => ∃ text, e = .reconfigureError text

/-- A handle is rejected, or the member that it presents is validated. -/
theorem decodeHandle_cases (decode : PyStr → Option PyValue) (handle : PyStr) :
    ((∀ m, ¬ Presents decode handle m) ∧ ∃ text, decodeHandle decode handle = .error (.reconfigureError text)) ∨
      ∃ m, Presents decode handle m ∧ decodeHandle decode handle = m.validate := by
  cases hstart : (pyStr handlePrefix).isPrefixOf handle with
  | false =>
      refine .inl ⟨?_, by simp [decodeHandle, hstart]⟩
      rintro m ⟨value, h, -⟩
      simp [hstart] at h
  | true =>
      cases hdecode : decode (handle.drop (pyStr handlePrefix).length) with
      | none =>
          refine .inl ⟨?_, by simp [decodeHandle, hstart, hdecode]⟩
          rintro m ⟨value, -, h, -⟩
          simp [hdecode] at h
      | some v =>
          cases v with
          | dict value =>
              cases hkeys : PyValue.hasKeys value required with
              | false =>
                  refine .inl ⟨?_, by simp [decodeHandle, hstart, hdecode, hkeys]⟩
                  rintro m ⟨value', -, h, hkeys', -⟩
                  rw [hdecode, Option.some.injEq, PyValue.dict.injEq] at h
                  subst h
                  simp [hkeys] at hkeys'
              | true =>
                  cases hm : memberOf handle value with
                  | none =>
                      refine .inl ⟨?_, by simp [decodeHandle, hstart, hdecode, hkeys, hm]⟩
                      rintro m ⟨value', -, h, -, hm'⟩
                      rw [hdecode, Option.some.injEq, PyValue.dict.injEq] at h
                      subst h
                      simp [hm] at hm'
                  | some m =>
                      exact .inr ⟨m, ⟨value, hstart, hdecode, hkeys, hm⟩, by
                        simp [decodeHandle, hstart, hdecode, hkeys, hm]⟩
          | null | bool _ | int _ | float _ | str _ | list _ =>
              refine .inl ⟨?_, by simp [decodeHandle, hstart, hdecode]⟩
              rintro m ⟨value, -, h, -⟩
              simp [hdecode] at h

theorem Presents.unique {decode : PyStr → Option PyValue} {handle : PyStr} {m m' : Member}
    (h : Presents decode handle m) (h' : Presents decode handle m') : m = m' := by
  obtain ⟨value, -, hd, -, hm⟩ := h
  obtain ⟨value', -, hd', -, hm'⟩ := h'
  rw [hd, Option.some.injEq, PyValue.dict.injEq] at hd'
  subst hd'
  exact Option.some.inj (hm.symm.trans hm')

theorem validate_ok {m m' : Member} (h : m.validate = .ok m') : m' = m := by
  unfold Member.validate at h
  split at h
  · cases h
  · cases h
  · split at h
    · cases h
      rfl
    · cases h
    · cases h

theorem validate_ok_iff {m : Member} :
    m.validate = .ok m ↔ (∀ c ∈ m.checks, c = .ok false) ∧ ∃ bytes, m.gid.toBytes = .ok bytes := by
  rw [← orChain_eq_false_iff]
  cases h : orChain m.checks with
  | error e => simp [Member.validate, h]
  | ok b =>
      cases b with
      | true => simp [Member.validate, h]
      | false =>
          cases hb : m.gid.toBytes with
          | ok bytes => simp [Member.validate, h, hb]
          | error e => cases e <;> simp [Member.validate, h, hb]

theorem decidesHandle_iff (decode : PyStr → Option PyValue) (handle : PyStr) :
    DecidesHandle decode handle (decodeHandle decode handle) ↔ ∀ m, Presents decode handle m → Decided m := by
  rcases decodeHandle_cases decode handle with ⟨hnone, text, he⟩ | ⟨m, hm, he⟩
  · rw [he]
    exact iff_of_true ⟨text, rfl⟩ fun m hm => absurd hm (hnone m)
  · have hall : (∀ m', Presents decode handle m' → Decided m') ↔ Decided m :=
      ⟨fun h => h m hm, fun h m' hm' => hm.unique hm' ▸ h⟩
    rw [hall, ← validate_decides_iff, he]
    cases hv : m.validate with
    | error e => exact Iff.rfl
    | ok m' =>
        obtain rfl := validate_ok hv
        exact and_iff_right hm

/-! ## Members of the right types -/

/-- A member whose fields have the types of `_Member`. -/
def ofTyped (m : ProcessGroup.Member) : Member where
  raw := pyStr m.raw
  stableRank := .int m.stableRank
  nonce := .str (pyStr m.nonce)
  host := .str (pyStr m.host)
  port := .int m.port
  hca := .str (pyStr m.hca)
  ibPort := .int m.ibPort
  gidIndex := .int m.gidIndex
  gid := .str (pyStr m.gid)
  maxBytes := .int m.maxBytes
  qps := .int m.qps
  numSms := .int m.numSms

theorem isSpace_toNat (c : Char) : PyValue.isSpace c.toNat = isBlank c := by
  have h : ∀ d : Char, c = d ↔ c.toNat = d.toNat := fun d => Char.toNat_inj.symm
  simp only [PyValue.isSpace, isBlank, h]
  rw [Bool.eq_iff_iff]
  simp
  omega

theorem hexDigit_toNat (c : Char) : (PyValue.hexDigit c.toNat).isSome = isHex c := by
  have hle : ∀ a b : Char, a ≤ b ↔ a.toNat ≤ b.toNat := fun a b => Iff.rfl
  have hdigit : c.isDigit = true ↔ 48 ≤ c.toNat ∧ c.toNat ≤ 57 := by
    simp only [Char.isDigit, Bool.and_eq_true, decide_eq_true_eq]
    exact Iff.rfl
  rw [Bool.eq_iff_iff]
  simp only [PyValue.hexDigit, isHex, Bool.or_eq_true, Bool.and_eq_true, decide_eq_true_eq, hdigit, hle]
  split_ifs <;> simp <;> omega

/-- Both decoders read the same hexadecimal strings. -/
theorem fromhex_pyStr (cs : List Char) :
    (PyValue.fromhex (cs.map Char.toNat)).isSome = ProcessGroup.fromhex cs := by
  induction cs using ProcessGroup.fromhex.induct with
  | case1 => rfl
  | case2 c =>
      simp only [List.map_cons, List.map_nil, PyValue.fromhex, ProcessGroup.fromhex, isSpace_toNat]
      cases isBlank c <;> rfl
  | case3 c d cs hc ih =>
      simp only [List.map_cons, PyValue.fromhex, ProcessGroup.fromhex, isSpace_toNat, hc, if_true]
      exact ih
  | case4 c d cs hc ih =>
      simp only [List.map_cons, PyValue.fromhex, ProcessGroup.fromhex, isSpace_toNat, hc, Bool.false_eq_true, if_false,
        ← hexDigit_toNat]
      cases PyValue.hexDigit c.toNat with
      | none => simp
      | some high =>
          cases PyValue.hexDigit d.toNat with
          | none => simp
          | some low => simp [← ih]

/-- What `_decode_handle` asks of typed fields. -/
structure Accepts (p : Payload) : Prop where
  stableRank : 0 ≤ p.stableRank
  nonce : p.nonce ≠ ""
  host : p.host ≠ ""
  port : 0 < p.port ∧ p.port < 65536
  ibPort : 0 < p.ibPort
  gidIndex : 0 ≤ p.gidIndex
  gid : p.gid.length = 32 ∧ ProcessGroup.fromhex p.gid.toList = true
  maxBytes : 0 < p.maxBytes
  qps : 0 < p.qps
  numSms : 0 < p.numSms

theorem decodeHandle_typed_iff {payload : String → Option Payload} {handle : String} {m : ProcessGroup.Member} :
    ProcessGroup.decodeHandle payload handle = .ok m ↔
      handle.startsWith handlePrefix = true ∧
        payload ((handle.drop handlePrefix.length).toString) = some m.toPayload ∧ m.raw = handle ∧
        Accepts m.toPayload := by
  simp only [ProcessGroup.decodeHandle]
  cases hs : handle.startsWith handlePrefix with
  | false => simp
  | true =>
      cases hp : payload ((handle.drop handlePrefix.length).toString) with
      | none => simp
      | some p =>
          simp only [ite_error_eq_ok, Bool.true_eq_false, if_false, Except.ok.injEq, Option.some.injEq, true_and]
          constructor
          · rintro ⟨hchecks, hgid, rfl⟩
            push Not at hchecks
            obtain ⟨h1, h2, h3, h4, h5, h6, h7, h8, h9, h10⟩ := hchecks
            exact ⟨rfl, rfl, ⟨h1, h2, h3, h4, h5, h6, ⟨h7, by simpa using hgid⟩, h8, h9, h10⟩⟩
          · rintro ⟨rfl, rfl, h⟩
            refine ⟨?_, by simp [h.gid.2], rfl⟩
            push Not
            exact ⟨h.stableRank, h.nonce, h.host, h.port, h.ibPort, h.gidIndex, h.gid.1, h.maxBytes, h.qps, h.numSms⟩

/-- On typed fields the checks ask the same. -/
theorem validate_ofTyped_iff (m : ProcessGroup.Member) :
    (ofTyped m).validate = .ok (ofTyped m) ↔ Accepts m.toPayload := by
  have hgid : (∃ bytes, (ofTyped m).gid.toBytes = .ok bytes) ↔ ProcessGroup.fromhex m.gid.toList = true := by
    rw [← fromhex_pyStr]
    show (∃ bytes, PyValue.toBytes (.str (pyStr m.gid)) = .ok bytes) ↔ (PyValue.fromhex (pyStr m.gid)).isSome = true
    cases h : PyValue.fromhex (pyStr m.gid) <;> simp [PyValue.toBytes, h]
  have hchecks : (∀ c ∈ (ofTyped m).checks, c = .ok false) ↔ 0 ≤ m.stableRank ∧ m.nonce ≠ "" ∧ m.host ≠ "" ∧
      (0 < m.port ∧ m.port < 65536) ∧ 0 < m.ibPort ∧ 0 ≤ m.gidIndex ∧ m.gid.length = 32 ∧ 0 < m.maxBytes ∧ 0 < m.qps ∧
      0 < m.numSms := by
    simp [Member.checks, ofTyped, PyValue.truth, PyValue.len, Except.map, portCheck_int_iff, pyStr, String.length_toList]
  rw [validate_ok_iff, hgid, hchecks]
  constructor
  · rintro ⟨⟨h1, h2, h3, h4, h5, h6, h7, h8, h9, h10⟩, hhex⟩
    exact ⟨h1, h2, h3, h4, h5, h6, ⟨h7, hhex⟩, h8, h9, h10⟩
  · rintro ⟨h1, h2, h3, h4, h5, h6, ⟨h7, hhex⟩, h8, h9, h10⟩
    exact ⟨⟨h1, h2, h3, h4, h5, h6, h7, h8, h9, h10⟩, hhex⟩

theorem decodeHandle_ok_iff {decode : PyStr → Option PyValue} {handle : PyStr} {m : Member} :
    decodeHandle decode handle = .ok m ↔ Presents decode handle m ∧ m.validate = .ok m := by
  rcases decodeHandle_cases decode handle with ⟨hnone, text, he⟩ | ⟨m', hm', he⟩
  · rw [he]
    exact iff_of_false (fun h => by cases h) fun h => hnone m h.1
  · rw [he]
    constructor
    · intro h
      obtain rfl := validate_ok h
      exact ⟨hm', h⟩
    · rintro ⟨hm, hv⟩
      rwa [hm'.unique hm]

theorem pyStr_injective : Function.Injective pyStr := fun _ _ h =>
  String.toList_injective (List.map_injective_iff.mpr (fun _ _ => Char.toNat_inj.mp) h)

theorem isPrefixOf_pyStr (front text : String) : (pyStr front).isPrefixOf (pyStr text) = text.startsWith front := by
  rw [Bool.eq_iff_iff, List.isPrefixOf_iff_prefix, String.startsWith_string_iff]
  constructor
  · intro h
    have htake := List.prefix_iff_eq_take.mp h
    rw [pyStr, pyStr, ← List.map_take, List.length_map] at htake
    exact List.prefix_iff_eq_take.mpr (List.map_injective_iff.mpr (fun _ _ => Char.toNat_inj.mp) htake)
  · exact fun h => h.map _

theorem pyStr_drop (text : String) (n : Nat) : (pyStr text).drop n = pyStr (text.drop n).toString := by
  simp [pyStr]

/-- Two readings of what base64 and JSON make of a text: the first has it where the object behind the second has the eleven
fields, with the types of `_Member`. -/
def SameReading (payload : String → Option Payload) (decode : PyStr → Option PyValue) : Prop :=
  ∀ text handle p, payload text = some p ↔ ∃ value, decode (pyStr text) = some (.dict value) ∧
    PyValue.hasKeys value required = true ∧ memberOf (pyStr handle) value = some (ofTyped { p with raw := handle })

theorem memberOf_raw {handle : PyStr} {value : List (PyStr × PyValue)} {m : Member} (h : memberOf handle value = some m) :
    m.raw = handle := by
  simp only [memberOf, Option.bind_eq_bind, Option.bind_eq_some_iff, Option.pure_def, Option.some.injEq] at h
  obtain ⟨_, -, _, -, _, -, _, -, _, -, _, -, _, -, _, -, _, -, _, -, _, -, rfl⟩ := h
  rfl

theorem SameReading.presents_iff {payload : String → Option Payload} {decode : PyStr → Option PyValue}
    (h : SameReading payload decode) (handle : String) (m : ProcessGroup.Member) :
    Presents decode (pyStr handle) (ofTyped m) ↔ handle.startsWith handlePrefix = true ∧
      payload ((handle.drop handlePrefix.length).toString) = some m.toPayload ∧ m.raw = handle := by
  have hlength : (pyStr handlePrefix).length = handlePrefix.length := by
    rw [pyStr, List.length_map, String.length_toList]
  constructor
  · rintro ⟨value, hstart, hdecode, hkeys, hm⟩
    have hraw : m.raw = handle := pyStr_injective (memberOf_raw hm)
    rw [isPrefixOf_pyStr] at hstart
    rw [hlength, pyStr_drop] at hdecode
    refine ⟨hstart, (h _ handle m.toPayload).mpr ⟨value, hdecode, hkeys, ?_⟩, hraw⟩
    rw [hm, ← hraw]
  · rintro ⟨hstart, hpayload, hraw⟩
    obtain ⟨value, hdecode, hkeys, hm⟩ := (h _ handle m.toPayload).mp hpayload
    refine ⟨value, by rwa [isPrefixOf_pyStr], by rwa [hlength, pyStr_drop], hkeys, ?_⟩
    rw [hm, ← hraw]

/-! ## QP information -/

/-- The fields of a QP information are in range. -/
structure QPInfo.InRange (info : QPInfo) : Prop where
  qpNum : 0 ≤ info.qpNum ∧ info.qpNum < 2 ^ 24
  psn : 0 ≤ info.psn ∧ info.psn < 2 ^ 24
  lid : 0 ≤ info.lid ∧ info.lid < 2 ^ 16
  gid : info.gid.length = 16
  port : 1 ≤ info.port ∧ info.port ≤ 255
  mtu : 1 ≤ info.mtu ∧ info.mtu ≤ 5

/-- A QP information in range, or the decoder's own exception. -/
def DecidesInfo (r : Except Raised QPInfo) : Prop :=
  match r with
  | .ok info => info.InRange
  | .error e => ∃ text, e = .reconfigureError text

/-- The keys that are read, in order. -/
def infoKeys : List String := ["qp_num", "psn", "lid", "gid", "port", "mtu"]

/-- A value that is converted. -/
def Converts (parse : PyStr → Option Int) (items : List (PyStr × PyValue)) (key : String) : Prop :=
  ∃ v, PyValue.lookup items key = some v ∧
    if key = "gid" then ∃ bytes, v.toBytes = .ok bytes else ∃ n, v.toInt parse = .ok n

/-- The first value that is not converted is an infinite number in the place of an integer. -/
def Overflows (parse : PyStr → Option Int) (value : PyValue) : Prop :=
  ∃ items pre key post, value = .dict items ∧ infoKeys = pre ++ key :: post ∧ (∀ k ∈ pre, Converts parse items k) ∧
    key ≠ "gid" ∧ ∃ negative, PyValue.lookup items key = some (.float (.infinity negative))

theorem postInit_cases (info : QPInfo) :
    (info.postInit = .ok info ∧ info.InRange) ∨ info.postInit = .error .valueError := by
  unfold QPInfo.postInit
  split_ifs with h1 h2 h3 h4 h5 h6
  all_goals first
    | exact .inr rfl
    | exact .inl ⟨rfl, ⟨by omega, by omega, by omega, not_not.mp h1, by omega, by omega⟩⟩

/-- One conversion of `_qp_info_from_dict`, as an operand of a chain. -/
def conversion (parse : PyStr → Option Int) (value : PyValue) (key : String) : Except PyExn Bool :=
  if key = "gid" then (bytesItem value key).map fun _ => false else (intItem parse value key).map fun _ => false

theorem getItem_error {value : PyValue} {key : String} {e : PyExn} (h : value.getItem key = .error e) :
    e = .keyError ∨ e = .typeError := by
  cases value with
  | dict items =>
      cases hl : PyValue.lookup items key with
      | none => simp_all [PyValue.getItem]
      | some v => simp [PyValue.getItem, hl] at h
  | null | bool _ | int _ | float _ | str _ | list _ =>
      simp only [PyValue.getItem, Except.error.injEq] at h
      exact .inr h.symm

theorem getItem_ok {value v : PyValue} {key : String} (h : value.getItem key = .ok v) :
    ∃ items, value = .dict items ∧ PyValue.lookup items key = some v := by
  cases value with
  | dict items =>
      cases hl : PyValue.lookup items key with
      | none => simp [PyValue.getItem, hl] at h
      | some v' =>
          simp only [PyValue.getItem, hl, Except.ok.injEq] at h
          exact ⟨items, rfl, by rw [hl, h]⟩
  | null | bool _ | int _ | float _ | str _ | list _ => simp [PyValue.getItem] at h

theorem toBytes_error {v : PyValue} {e : PyExn} (h : v.toBytes = .error e) : e ≠ .overflowError := by
  cases v with
  | str s =>
      cases hs : PyValue.fromhex s with
      | some bytes => simp [PyValue.toBytes, hs] at h
      | none =>
          simp only [PyValue.toBytes, hs, Except.error.injEq] at h
          simp [← h]
  | null | bool _ | int _ | float _ | list _ | dict _ =>
      simp only [PyValue.toBytes, Except.error.injEq] at h
      simp [← h]

theorem map_eq_overflow_iff {α : Type} {x : Except PyExn α} :
    (x.map fun _ => false) = .error .overflowError ↔ x = .error .overflowError := by
  cases x <;> simp [Except.map]

theorem map_eq_false_iff {α : Type} {x : Except PyExn α} : (x.map fun _ => false) = .ok false ↔ ∃ a, x = .ok a := by
  cases x <;> simp [Except.map]

theorem conversion_overflow_iff {parse : PyStr → Option Int} {value : PyValue} {key : String} :
    conversion parse value key = .error .overflowError ↔
      ∃ items, value = .dict items ∧ key ≠ "gid" ∧
        ∃ negative, PyValue.lookup items key = some (.float (.infinity negative)) := by
  by_cases hk : key = "gid"
  · subst hk
    rw [conversion, if_pos rfl, map_eq_overflow_iff, bytesItem]
    constructor
    · intro h
      cases hg : value.getItem "gid" with
      | error e => rcases getItem_error hg with rfl | rfl <;> simp [hg, bind, Except.bind] at h
      | ok v =>
          simp only [hg, bind, Except.bind] at h
          exact absurd rfl (toBytes_error h)
    · rintro ⟨items, -, hne, -⟩
      exact absurd rfl hne
  · rw [conversion, if_neg hk, map_eq_overflow_iff, intItem]
    constructor
    · intro h
      cases hg : value.getItem key with
      | error e => rcases getItem_error hg with rfl | rfl <;> simp [hg, bind, Except.bind] at h
      | ok v =>
          simp only [hg, bind, Except.bind] at h
          obtain ⟨negative, rfl⟩ := PyValue.toInt_overflow_iff.mp h
          obtain ⟨items, rfl, hl⟩ := getItem_ok hg
          exact ⟨items, rfl, hk, negative, hl⟩
    · rintro ⟨items, rfl, -, negative, hl⟩
      simp [PyValue.getItem, hl, bind, Except.bind, PyValue.toInt]

theorem conversion_ok_iff {parse : PyStr → Option Int} {items : List (PyStr × PyValue)} {key : String} :
    conversion parse (.dict items) key = .ok false ↔ Converts parse items key := by
  by_cases hk : key = "gid"
  · rw [conversion, if_pos hk, map_eq_false_iff, bytesItem, Converts]
    simp only [if_pos hk, PyValue.getItem]
    cases hl : PyValue.lookup items key with
    | none => simp [bind, Except.bind]
    | some v => simp [bind, Except.bind]
  · rw [conversion, if_neg hk, map_eq_false_iff, intItem, Converts]
    simp only [if_neg hk, PyValue.getItem]
    cases hl : PyValue.lookup items key with
    | none => simp [bind, Except.bind]
    | some v => simp [bind, Except.bind]

theorem qpInfoTry_ok {parse : PyStr → Option Int} {value : PyValue} {info : QPInfo}
    (h : qpInfoTry parse value = .ok info) : ∃ info', QPInfo.postInit info' = .ok info := by
  simp only [qpInfoTry, bind_eq, bind_eq_ok] at h
  obtain ⟨_, -, _, -, _, -, _, -, _, -, _, -, h⟩ := h
  exact ⟨_, h⟩

/-- The first conversion that raises decides what the `try` block raises. -/
theorem qpInfoTry_overflow_iff {parse : PyStr → Option Int} {value : PyValue} :
    qpInfoTry parse value = .error .overflowError ↔
      orChain (infoKeys.map (conversion parse value)) = .error .overflowError := by
  simp only [infoKeys, List.map_cons, List.map_nil, conversion, if_true, qpInfoTry]
  cases h1 : intItem parse value "qp_num" with
  | error e => simp [bind, Except.bind, Except.map, orChain]
  | ok qpNum =>
  cases h2 : intItem parse value "psn" with
  | error e => simp [bind, Except.bind, Except.map, orChain]
  | ok psn =>
  cases h3 : intItem parse value "lid" with
  | error e => simp [bind, Except.bind, Except.map, orChain]
  | ok lid =>
  cases h4 : bytesItem value "gid" with
  | error e => simp [bind, Except.bind, Except.map, orChain]
  | ok gid =>
  cases h5 : intItem parse value "port" with
  | error e => simp [bind, Except.bind, Except.map, orChain]
  | ok port =>
  cases h6 : intItem parse value "mtu" with
  | error e => simp [bind, Except.bind, Except.map, orChain]
  | ok mtu =>
      rcases postInit_cases ⟨qpNum, psn, lid, gid, port, mtu⟩ with ⟨hp, -⟩ | hp <;>
        simp [bind, Except.bind, Except.map, orChain, hp]

theorem firstStop_overflow_iff {parse : PyStr → Option Int} {value : PyValue} :
    FirstStop (infoKeys.map (conversion parse value)) (.error .overflowError) ↔ Overflows parse value := by
  constructor
  · rintro ⟨pre, post, h, hpre⟩
    obtain ⟨ks, rest, hkeys, rfl, hrest⟩ := List.map_eq_append_iff.mp h
    obtain ⟨key, ks', rfl, hkey, rfl⟩ := List.map_eq_cons_iff.mp hrest
    obtain ⟨items, rfl, hne, hinf⟩ := conversion_overflow_iff.mp hkey
    exact ⟨items, ks, key, ks', rfl, hkeys, fun k hk => conversion_ok_iff.mp (hpre _ (List.mem_map_of_mem hk)), hne, hinf⟩
  · rintro ⟨items, pre, key, post, rfl, hkeys, hpre, hne, hinf⟩
    refine ⟨pre.map (conversion parse (.dict items)), post.map (conversion parse (.dict items)), ?_, ?_⟩
    · rw [hkeys, List.map_append, List.map_cons, conversion_overflow_iff.mpr ⟨items, rfl, hne, hinf⟩]
    · intro c hc
      obtain ⟨k, hk, rfl⟩ := List.mem_map.mp hc
      exact conversion_ok_iff.mpr (hpre k hk)

theorem decidesInfo_iff (parse : PyStr → Option Int) (value : PyValue) :
    DecidesInfo (qpInfoFromDict parse value) ↔ ¬ Overflows parse value := by
  rw [← firstStop_overflow_iff, ← orChain_eq_iff (by simp), ← qpInfoTry_overflow_iff, qpInfoFromDict]
  cases h : qpInfoTry parse value with
  | ok info =>
      obtain ⟨info', hinfo⟩ := qpInfoTry_ok h
      rcases postInit_cases info' with ⟨hp, hrange⟩ | hp
      · rw [hp, Except.ok.injEq] at hinfo
        subst hinfo
        simp [DecidesInfo, hrange]
      · simp [hp] at hinfo
  | error e => cases e <;> simp [DecidesInfo]

end Rdma4py.ProcessGroup.Control
