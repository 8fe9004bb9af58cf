import Mathlib.Algebra.BigOperators.Group.List.Basic
import Rdma4py.Bindings.Lemmas.Words
import Rdma4py.Bindings.PostSend

/-!
# `_post_send`: what the loop leaves in the arrays

The entries of a work request start where those of the ones before it end. While the counts fit into C integers, the
arrays hold them all.
-/

namespace Rdma4py.Bindings.Verbs

open Lib

variable {ω β : Type} {k : Kind ω β} {wrs : List ω} {w : ω} {n : Int32} {i j o : Nat} {sges : Memory SGE}

/-! ## Offsets -/

theorem cInt_add (a b : Nat) : cInt (a + b) = cInt a + cInt b := Int32.ofNat_add a b

/-- The entries of the work requests before the `j`-th. -/
def before (k : Kind ω β) (wrs : List ω) (j : Nat) : Nat := ((wrs.take j).map fun w => (k.sgList w).length).sum

@[simp] theorem before_zero (k : Kind ω β) (wrs : List ω) : before k wrs 0 = 0 := by simp [before]

@[simp] theorem before_cons_succ (k : Kind ω β) (w : ω) (wrs : List ω) (j : Nat) :
    before k (w :: wrs) (j + 1) = (k.sgList w).length + before k wrs j := by
  simp [before]

/-- The next entries follow those of the work request. -/
theorem before_succ (h : wrs[j]? = some w) : before k wrs (j + 1) = before k wrs j + (k.sgList w).length := by
  induction wrs generalizing j with
  | nil => simp at h
  | cons v wrs ih =>
      cases j with
      | zero =>
          obtain rfl : v = w := by simpa using h
          simp
      | succ j =>
          have := ih (by simpa using h)
          simp [this, Nat.add_assoc]

theorem before_mono (k : Kind ω β) (wrs : List ω) (h : i ≤ j) : before k wrs i ≤ before k wrs j := by
  induction j, h using Nat.le_induction with
  | base => exact Nat.le_refl _
  | succ j _ ih =>
      cases hw : wrs[j]? with
      | none =>
          have hlen : wrs.length ≤ j := List.getElem?_eq_none_iff.mp hw
          simpa [before, List.take_of_length_le hlen, List.take_of_length_le (Nat.le_succ_of_le hlen)] using ih
      | some w =>
          rw [before_succ hw]
          omega

/-- All entries. -/
def total (k : Kind ω β) (wrs : List ω) : Nat := (wrs.map fun w => (k.sgList w).length).sum

theorem total_replicate (k : Kind ω β) (n : Nat) (w : ω) :
    total k (List.replicate n w) = n * (k.sgList w).length := by
  simp [total]

theorem before_length (k : Kind ω β) (wrs : List ω) : before k wrs wrs.length = total k wrs := by
  simp [before, total]

theorem before_le_total (k : Kind ω β) (wrs : List ω) (j : Nat) : before k wrs j ≤ total k wrs := by
  rcases Nat.le_total j wrs.length with h | h
  · rw [← before_length]
    exact before_mono k wrs h
  · simp [before, total, List.take_of_length_le h]

/-- `_count_sges` adds up in a C `int`. -/
theorem countSges_eq (k : Kind ω β) (wrs : List ω) : countSges k wrs = cInt (total k wrs) := by
  have hfold : ∀ t, wrs.foldl (fun t w => t + cInt (k.sgList w).length) (cInt t) = cInt (t + total k wrs) := by
    induction wrs with
    | nil => simp [total]
    | cons w wrs ih =>
        intro t
        rw [List.foldl_cons, ← cInt_add, ih]
        simp [total, Nat.add_assoc]
  simpa [countSges, cInt] using hfold 0

/-! ## The loop -/

/-- The nodes, whatever the array of entries is. -/
theorem fill_nodes (k : Kind ω β) (n : Int32) (wrs : List ω) (i o : Nat) (sges : Memory SGE) (j : Nat) :
    (fill k n i wrs sges (cInt o)).1[j]? = wrs[j]?.map fun w => node k n (i + j) (cInt (o + before k wrs j)) w := by
  induction wrs generalizing i o sges j with
  | nil => simp [fill]
  | cons w wrs ih =>
      cases j with
      | zero => simp [fill]
      | succ j =>
          by_cases hz : cInt (k.sgList w).length = 0
          · have ho : cInt o = cInt (o + (k.sgList w).length) := by
              rw [cInt_add, hz, Int32.add_zero]
            simp [fill, hz]
            rw [ho, ih]
            simp [Nat.add_assoc, Nat.add_comm 1]
          · simp [fill, hz]
            rw [← cInt_add, ih]
            simp [Nat.add_assoc, Nat.add_comm 1]

theorem fill_length (k : Kind ω β) (n : Int32) (wrs : List ω) (i o : Nat) (sges : Memory SGE) :
    (fill k n i wrs sges (cInt o)).1.length = wrs.length := by
  apply Nat.le_antisymm
  · rw [← List.getElem?_eq_none_iff, fill_nodes]
    simp
  · rw [← List.getElem?_eq_none_iff]
    have h := fill_nodes k n wrs i o sges (fill k n i wrs sges (cInt o)).1.length
    simpa using h.symm

theorem fillSges_of_lt (h : o < 2 ^ 31) (sgList : List SGE) : fillSges sges (cInt o) sgList = sges.write sgList o := by
  rw [fillSges, toInt_cInt_of_lt h, if_neg (by omega)]
  rfl

/-- One round of the loop, when the counts fit. -/
theorem fill_cons (h : o + (k.sgList w).length < 2 ^ 31) : (fill k n i (w :: wrs) sges (cInt o)).2 =
    (fill k n (i + 1) wrs (sges.write (k.sgList w) o) (cInt (o + (k.sgList w).length))).2 := by
  have hz := cInt_eq_zero_iff (n := (k.sgList w).length) (by omega)
  by_cases hempty : (k.sgList w).length = 0
  · have hnil : k.sgList w = [] := List.length_eq_zero_iff.mp hempty
    have hwrite : sges.write [] o = sges := by
      funext a
      simp [Memory.write]
    simp [fill, hnil, hwrite, cInt]
  · rw [cInt_add, fill]
    simp [hz, hempty, fillSges_of_lt (show o < 2 ^ 31 by omega)]

/-- What is before the offset stays. -/
theorem fill_below (h : o + total k wrs < 2 ^ 31) {a : Nat} (ha : a < o) :
    (fill k n i wrs sges (cInt o)).2 a = sges a := by
  induction wrs generalizing i o sges with
  | nil => rfl
  | cons w wrs ih =>
      have htotal : total k (w :: wrs) = (k.sgList w).length + total k wrs := by simp [total]
      rw [fill_cons (by omega), ih (by omega) (by omega)]
      exact Memory.write_of_outside (.inl ha)

/-- Each work request finds its entries in the array. -/
theorem fill_read (sges : Memory SGE) (h : o + total k wrs < 2 ^ 31) (hw : wrs[j]? = some w) :
    (fill k n i wrs sges (cInt o)).2.read (k.sgList w).length (o + before k wrs j) = k.sgList w := by
  induction wrs generalizing i o sges j with
  | nil => simp at hw
  | cons v wrs ih =>
      have htotal : total k (v :: wrs) = (k.sgList v).length + total k wrs := by simp [total]
      rw [fill_cons (by omega)]
      cases j with
      | zero =>
          obtain rfl : v = w := by simpa using hw
          -- the later work requests write behind these entries
          calc _ = (sges.write (k.sgList v) o).read (k.sgList v).length o := by
                refine List.map_congr_left fun a ha => ?_
                have := List.mem_range.mp ha
                exact fill_below (by omega) (by simp; omega)
            _ = k.sgList v := Memory.read_write_self sges (k.sgList v) o
      | succ j =>
          rw [before_cons_succ, ← Nat.add_assoc]
          exact ih _ (by omega) (by simpa using hw)

/-! ## The union -/

/-- `wr.ud`. -/
def readUd (wr : List UInt8) : Nat × Nat × Nat := (leNat (slice wr 0 8), leNat (slice wr 8 4), leNat (slice wr 12 4))

/-- `wr.atomic`. -/
def readAtomic (wr : List UInt8) : Nat × Nat × Nat × Nat :=
  (leNat (slice wr 0 8), leNat (slice wr 8 8), leNat (slice wr 16 8), leNat (slice wr 24 4))

/-- `wr.rdma`. -/
def readRdma (wr : List UInt8) : Nat × Nat := (leNat (slice wr 0 8), leNat (slice wr 8 4))

theorem toNat_lt₄ (x : UInt32) : x.toNat < 256 ^ 4 := x.toNat_lt

theorem toNat_lt₈ (x : UInt64) : x.toNat < 256 ^ 8 := x.toNat_lt

theorem union_ud {w : SendWR} {ah : AH} (h : w.ah = some ah) :
    readUd (union w) = ((ah.ah.getD 0).toNat, w.remoteQpn.toNat, w.remoteQkey.toNat) := by
  have h₁ := (Layout.zeros unionSize).add (f := .number 0 8 (ah.ah.getD 0).toNat) (by simp [unionSize]) (by simp)
  have h₂ := h₁.add (f := .number 8 4 w.remoteQpn.toNat) (by simp [unionSize]) (by simp [Field.Apart])
  have h₃ := h₂.add (f := .number 12 4 w.remoteQkey.toNat) (by simp [unionSize]) (by simp [Field.Apart])
  simp only [union, h, readUd]
  exact Prod.ext (h₃.number (by simp) (toNat_lt₈ _))
    (Prod.ext (h₃.number (by simp) (toNat_lt₄ _)) (h₃.number (by simp) (toNat_lt₄ _)))

theorem union_atomic {w : SendWR} (h : w.ah = none) (hop : isAtomic w.opcode = true) : readAtomic (union w) =
    (w.remoteAddr.toNat, w.compareAdd.toNat, w.swap.toNat, w.rkey.toNat) := by
  have h₁ := (Layout.zeros unionSize).add (f := .number 0 8 w.remoteAddr.toNat) (by simp [unionSize]) (by simp)
  have h₂ := h₁.add (f := .number 8 8 w.compareAdd.toNat) (by simp [unionSize]) (by simp [Field.Apart])
  have h₃ := h₂.add (f := .number 16 8 w.swap.toNat) (by simp [unionSize]) (by simp [Field.Apart])
  have h₄ := h₃.add (f := .number 24 4 w.rkey.toNat) (by simp [unionSize]) (by simp [Field.Apart])
  simp only [union, h, hop, readAtomic]
  exact Prod.ext (h₄.number (by simp) (toNat_lt₈ _)) (Prod.ext (h₄.number (by simp) (toNat_lt₈ _))
    (Prod.ext (h₄.number (by simp) (toNat_lt₈ _)) (h₄.number (by simp) (toNat_lt₄ _))))

theorem union_rdma {w : SendWR} (h : w.ah = none) (hop : isAtomic w.opcode = false) (hrdma : isRdma w.opcode = true) :
    readRdma (union w) = (w.remoteAddr.toNat, w.rkey.toNat) := by
  have h₁ := (Layout.zeros unionSize).add (f := .number 0 8 w.remoteAddr.toNat) (by simp [unionSize]) (by simp)
  have h₂ := h₁.add (f := .number 8 4 w.rkey.toNat) (by simp [unionSize]) (by simp [Field.Apart])
  simp only [union, h, hop, hrdma, readRdma]
  exact Prod.ext (h₂.number (by simp) (toNat_lt₈ _)) (h₂.number (by simp) (toNat_lt₄ _))

/-- The fields of a send are those of its work request: the immediate in network order, and the member of the union that
the address handle and the opcode select. -/
structure Holds (w : SendWR) (f : SendFields) : Prop where
  opcode : f.opcode = w.opcode
  sendFlags : f.sendFlags = w.sendFlags
  immData : f.immData = beBytes 4 w.immData.toNat
  ud : ∀ ah, w.ah = some ah → readUd f.wr = ((ah.ah.getD 0).toNat, w.remoteQpn.toNat, w.remoteQkey.toNat)
  atomic : w.ah = none → w.opcode = WR_ATOMIC_CMP_AND_SWP ∨ w.opcode = WR_ATOMIC_FETCH_AND_ADD →
    readAtomic f.wr = (w.remoteAddr.toNat, w.compareAdd.toNat, w.swap.toNat, w.rkey.toNat)
  rdma : w.ah = none →
    w.opcode = WR_RDMA_WRITE ∨ w.opcode = WR_RDMA_WRITE_WITH_IMM ∨ w.opcode = WR_RDMA_READ →
    readRdma f.wr = (w.remoteAddr.toNat, w.rkey.toNat)

theorem sendFields_holds (w : SendWR) : Holds w (sendFields w) where
  opcode := rfl
  sendFlags := rfl
  immData := leBytes_htonl w.immData
  ud _ h := union_ud h
  atomic h hop := union_atomic h (by simpa [isAtomic] using hop)
  rdma h hop := union_rdma h (by rcases hop with hop | hop | hop <;> rw [hop] <;> rfl) (by simpa [isRdma, or_assoc] using hop)

/-! ## Chains -/

/-- One node for each work request, in their order and linked to the next one; each with the fields of its work request
and its entries in a window of the array. No two windows overlap. -/
structure Marshalled (k : Kind ω β) (Own : ω → β → Prop) (wrs : List ω) (c : Chain β) : Prop where
  length : c.nodes.length = wrs.length
  next : ∀ (i : Nat) (v : Node β), c.nodes[i]? = some v → v.next = if i + 1 < wrs.length then some (i + 1) else none
  fields : ∀ (i : Nat) w (v : Node β), wrs[i]? = some w → c.nodes[i]? = some v →
    v.wrId = k.wrId w ∧ v.numSge.toInt = (k.sgList w).length ∧ Own w v.own
  window : ∀ (i : Nat) w (v : Node β), wrs[i]? = some w → c.nodes[i]? = some v → k.sgList w ≠ [] → ∃ offset : Nat,
    v.sgList = some (offset : Int) ∧ offset + (k.sgList w).length ≤ c.sgeCount ∧
      c.sges.read (k.sgList w).length offset = k.sgList w
  apart : ∀ (i j : Nat) w (v v' : Node β) (a b : Int), i < j → wrs[i]? = some w → c.nodes[i]? = some v → c.nodes[j]? = some v' →
    v.sgList = some a → v'.sgList = some b → a + (k.sgList w).length ≤ b
  allocated : c.sgeCount = max 1 (total k wrs)

/-- What a call may do: give such a chain to the provider, or give it nothing when there is nothing to post or no memory
for it. -/
def Posts (k : Kind ω β) (Own : ω → β → Prop) (wrs : List ω) (run : Run β) : Prop :=
  match run.chain with
  | some c => Marshalled k Own wrs c
  | none => wrs = [] ∨ run.result = .error .memoryError

/-- Both counts fit into C integers, or one is negative there and `calloc` fails. -/
def Fits (k : Kind ω β) (wrs : List ω) : Prop :=
  (wrs.length < 2 ^ 31 ∧ total k wrs < 2 ^ 31) ∨
    (cInt wrs.length ≠ 0 ∧ ((cInt wrs.length).toInt < 0 ∨ (cInt (total k wrs)).toInt < 0))

variable {Own : ω → β → Prop} {env : Env}

theorem fill_marshalled (hown : ∀ w, Own w (k.own w)) (hlen : wrs.length < 2 ^ 31) (htotal : total k wrs < 2 ^ 31)
    (sges : Memory SGE) : Marshalled k Own wrs
      ⟨(fill k (cInt wrs.length) 0 wrs sges (cInt 0)).1, (fill k (cInt wrs.length) 0 wrs sges (cInt 0)).2,
        max 1 (total k wrs)⟩ := by
  have hnode : ∀ i v, (fill k (cInt wrs.length) 0 wrs sges (cInt 0)).1[i]? = some v → ∃ w, wrs[i]? = some w ∧
      v = node k (cInt wrs.length) i (cInt (before k wrs i)) w := by
    intro i v hv
    rw [fill_nodes] at hv
    obtain ⟨w, hw, rfl⟩ := Option.map_eq_some_iff.mp hv
    exact ⟨w, hw, by simp⟩
  have hsize : ∀ {i w}, wrs[i]? = some w → before k wrs i + (k.sgList w).length ≤ total k wrs := by
    intro i w hw
    rw [← before_succ hw]
    exact before_le_total k wrs (i + 1)
  constructor
  case length => exact fill_length k _ wrs 0 0 sges
  case next =>
      intro i v hv
      obtain ⟨w, hw, rfl⟩ := hnode i v hv
      simp only [node, toInt_cInt_of_lt hlen]
      congr 1
      simp
      omega
  case fields =>
      intro i w v hw hv
      obtain ⟨w', hw', rfl⟩ := hnode i v hv
      obtain rfl : w' = w := by simpa [hw'] using hw
      have := hsize hw
      exact ⟨rfl, toInt_cInt_of_lt (by omega), hown w'⟩
  case window =>
      intro i w v hw hv hne
      obtain ⟨w', hw', rfl⟩ := hnode i v hv
      obtain rfl : w' = w := by simpa [hw'] using hw
      have hle := hsize hw
      have hpos := List.length_pos_iff.mpr hne
      have hz := cInt_eq_zero_iff (n := (k.sgList w').length) (by omega)
      refine ⟨before k wrs i, ?_, Nat.le_trans hle (Nat.le_max_right ..), ?_⟩
      · simp [node, hz, hne, toInt_cInt_of_lt (show before k wrs i < 2 ^ 31 by omega)]
      · simpa using fill_read (i := 0) (o := 0) (n := cInt wrs.length) sges (by omega) hw
  case apart =>
      intro i j w v v' a b hij hw hv hv' ha hb
      obtain ⟨w₁, hw₁, rfl⟩ := hnode i v hv
      obtain ⟨w₂, hw₂, rfl⟩ := hnode j v' hv'
      obtain rfl : w₁ = w := by simpa [hw₁] using hw
      have h₁ := hsize hw₁
      have h₂ := hsize hw₂
      have hmono := before_mono k wrs (show i + 1 ≤ j by omega)
      rw [before_succ hw₁] at hmono
      obtain ⟨-, rfl⟩ : _ ∧ (cInt (before k wrs i)).toInt = a := by simpa [node] using ha
      obtain ⟨-, rfl⟩ : _ ∧ (cInt (before k wrs j)).toInt = b := by simpa [node] using hb
      rw [toInt_cInt_of_lt (by omega), toInt_cInt_of_lt (by omega)]
      omega
  case allocated => rfl

/-! ## Calls -/

theorem calloc_of_lt {m : Nat} (h : m < 2 ^ 31) (available : Bool) :
    calloc available (cInt m) = if available then some m else none := by
  rw [calloc, toInt_cInt_of_lt h]
  cases available with
  | true => simp
  | false => simp

theorem calloc_of_neg {count : Int32} (h : count.toInt < 0) (available : Bool) : calloc available count = none := by
  simp [calloc, h]

/-- The number of entries that are allocated. -/
theorem sgeCount_of_lt (h : total k wrs < 2 ^ 31) :
    (if countSges k wrs ≠ 0 then countSges k wrs else 1) = cInt (max 1 (total k wrs)) := by
  rw [countSges_eq]
  have hz := cInt_eq_zero_iff h
  by_cases h0 : total k wrs = 0
  · simp [h0, cInt]
  · rw [if_pos (by rwa [Ne, hz]), Nat.max_eq_right (by omega)]

theorem posts_of_fits (hown : ∀ w, Own w (k.own w)) (h : Fits k wrs) (env : Env) : Posts k Own wrs (post k env wrs) := by
  rcases h with ⟨hlen, htotal⟩ | ⟨hn, hneg⟩
  · by_cases hne : wrs = []
    · simp [hne, post, cInt, Posts]
    · have hn : cInt wrs.length ≠ 0 := by
        rw [Ne, cInt_eq_zero_iff hlen]
        exact fun h0 => hne (List.length_eq_zero_iff.mp h0)
      have hm := fill_marshalled hown hlen htotal fun _ => ⟨0, 0, 0⟩
      simp only [post, hn, sgeCount_of_lt htotal, calloc_of_lt hlen, calloc_of_lt (show max 1 (total k wrs) < 2 ^ 31 by omega)]
      cases env.nodes with
      | false => exact .inr rfl
      | true =>
          cases env.sges with
          | false => exact .inr rfl
          | true => simpa [Posts, cInt] using hm
  · -- `calloc` fails, so the provider is not called
    have hnone : calloc env.nodes (cInt wrs.length) = none ∨
        calloc env.sges (if countSges k wrs ≠ 0 then countSges k wrs else 1) = none := by
      rcases hneg with hneg | hneg
      · exact .inl (calloc_of_neg hneg _)
      · have hne : countSges k wrs ≠ 0 := by
          rw [countSges_eq]
          intro h0
          simp [h0] at hneg
        rw [if_pos hne]
        exact .inr (calloc_of_neg (by rwa [countSges_eq]) _)
    simp only [post, hn]
    rcases hnone with hnone | hnone
    · simp [hnone, Posts]
    · rw [hnone]
      cases calloc env.nodes (cInt wrs.length) with
      | none => simp [Posts]
      | some count => simp [Posts]

/-- Nodes that a C `int` does not count are missing, and so are entries. -/
theorem fits_of_posts (h : ∀ env, Posts k Own wrs (post k env wrs)) : Fits k wrs := by
  have hrun := h ⟨true, true, 0⟩
  by_cases hn : cInt wrs.length = 0
  · obtain rfl : wrs = [] := by simpa [post, hn, Posts] using hrun
    exact .inl ⟨by simp, by simp [total]⟩
  by_cases hneg : (cInt wrs.length).toInt < 0 ∨ (cInt (total k wrs)).toInt < 0
  · exact .inr ⟨hn, hneg⟩
  push Not at hneg
  obtain ⟨m, hm, hlt⟩ : ∃ m, calloc true (if countSges k wrs ≠ 0 then countSges k wrs else 1) = some m ∧ m < 2 ^ 31 := by
    rw [countSges_eq]
    split_ifs
    · refine ⟨cRange (cInt (total k wrs)), ?_, cRange_lt _⟩
      rw [calloc, if_neg (by simp [hneg.2])]
      rfl
    · exact ⟨1, rfl, by omega⟩
  have hnodes : calloc true (cInt wrs.length) = some (cRange (cInt wrs.length)) := by
    rw [calloc, if_neg (by simp [hneg.1])]
    rfl
  simp only [post, hn, hnodes, hm, if_false, Posts] at hrun
  have hlen := hrun.length
  have hfill := fill_length k (cInt wrs.length) (wrs.take (cRange (cInt wrs.length))) 0 0 fun _ => ⟨0, 0, 0⟩
  have hzero : cInt 0 = 0 := rfl
  rw [hzero] at hfill
  rw [hfill, List.length_take] at hlen
  have hcount := cRange_lt (cInt wrs.length)
  have htotal := hrun.allocated
  exact .inl ⟨by omega, by simp only at htotal; omega⟩

end Rdma4py.Bindings.Verbs
