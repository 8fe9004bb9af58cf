import Mathlib.Algebra.Order.Ring.Int
import Rdma4py.Bindings.Events

/-!
# Completion queues: the counts

While the counter and the arguments fit into a C `int`, `_unacked` is the difference of the two counts.
-/

namespace Rdma4py.Bindings

/-! ## C integers -/

theorem toInt_toInt32 (n : UInt32) : n.toInt32.toInt = (n.toNat : Int).bmod (2 ^ 32) :=
  BitVec.toInt_eq_toNat_bmod _

theorem toInt_toInt32_of_lt {n : UInt32} (h : n.toNat < 2 ^ 31) : n.toInt32.toInt = n.toNat := by
  rw [toInt_toInt32]
  exact Int.bmod_eq_of_le (by omega) (by omega)

/-- The cast of a large argument is negative. -/
theorem toInt_toInt32_neg {n : UInt32} (h : 2 ^ 31 ≤ n.toNat) : n.toInt32.toInt < 0 := by
  have := n.toNat_lt
  rw [toInt_toInt32, Int.bmod_def]
  split <;> omega

theorem toNat_toUInt32 {x : Int32} (h : 0 ≤ x.toInt) : (x.toUInt32.toNat : Int) = x.toInt := by
  rw [Int32.toNat_toUInt32_of_le (Int32.le_iff_toInt_le.mpr h), Int32.toNatClampNeg]
  exact Int.toNat_of_nonneg h

theorem toInt_add_one {x : Int32} (h : x.toInt < 2 ^ 31 - 1) : (x + 1).toInt = x.toInt + 1 := by
  have := x.le_toInt
  rw [Int32.toInt_add, Int32.toInt_one]
  exact Int.bmod_eq_of_le (by omega) (by omega)

theorem toInt_sub_of_le {x y : Int32} (hy : 0 ≤ y.toInt) (h : y.toInt ≤ x.toInt) : (x - y).toInt = x.toInt - y.toInt := by
  have := x.toInt_lt
  rw [Int32.toInt_sub]
  exact Int.bmod_eq_of_le (by omega) (by omega)

namespace CQ

variable {cls : CQClass} {cq : CQ} {e : Event}

/-- As long as the object exists, `_unacked` counts the events that are not acknowledged. A CQ that was destroyed has
none. -/
structure Accounted (cq : CQ) : Prop where
  nonneg : cq.collected = false → 0 ≤ cq.unacked.toInt
  difference : cq.collected = false → cq.unacked.toInt = cq.received - cq.acknowledged
  destroyed : cq.destroyed = true → cq.acknowledged = cq.received

/-- The count and the argument fit into a C `int`. -/
def Small (cq : CQ) : Event → Prop
  | .getCqEvent => cq.unacked.toInt < 2 ^ 31 - 1
  | .ackEvents nevents => cq.isOpen = true → nevents.toNat < 2 ^ 31
  | _ => True

instance (cq : CQ) : ∀ e, Decidable (cq.Small e)
  | .getCqEvent => inferInstanceAs (Decidable (_ < _))
  | .ackEvents _ => inferInstanceAs (Decidable (_ → _))
  | .users _ | .close .. | .dealloc _ => inferInstanceAs (Decidable True)

instance (cls : CQClass) (cq : CQ) (e : Event) : Decidable (((machine cls).when Small).Enabled cq e) :=
  inferInstanceAs (Decidable (cq.Enabled e ∧ cq.Small e))

structure Inv (cq : CQ) : Prop extends Accounted cq where
  closed : cq.destroyed = true → cq.isOpen = false
  opened : cq.isOpen = true → cq.collected = false

theorem create_inv : Inv create where
  nonneg _ := by decide
  difference _ := by decide
  destroyed h := by simp [create] at h
  closed h := by simp [create] at h
  opened _ := rfl

theorem Inv.getCqEvent (h : Inv cq) (he : cq.Enabled .getCqEvent) (hsmall : cq.Small .getCqEvent) :
    Inv cq.getCqEvent := by
  have hone := toInt_add_one hsmall
  have := h.nonneg he.2
  have := h.difference he.2
  constructor
  case toAccounted =>
      constructor
      case nonneg =>
          intro _
          simp only [CQ.getCqEvent, hone]
          omega
      case difference =>
          intro _
          simp only [CQ.getCqEvent, hone]
          omega
      case destroyed => exact fun hd => absurd hd (by simp [CQ.getCqEvent, he.1])
  case closed => exact h.closed
  case opened => exact h.opened

/-- What `ack_events` accepts: so many events are not acknowledged. -/
theorem Inv.ackEvents_ok (h : Inv cq) (hopen : cq.isOpen = true) {nevents : UInt32} (hsmall : nevents.toNat < 2 ^ 31)
    (hle : ¬ cq.unacked < nevents.toInt32) :
    Inv { cq with
      acknowledged := cq.acknowledged + nevents.toNat
      unacked := cq.unacked - nevents.toInt32 } := by
  have hn := toInt_toInt32_of_lt hsmall
  rw [Int32.lt_iff_toInt_lt] at hle
  have hsub : (cq.unacked - nevents.toInt32).toInt = cq.unacked.toInt - nevents.toInt32.toInt :=
    toInt_sub_of_le (by omega) (by omega)
  have hdiff := h.difference (h.opened hopen)
  constructor
  case toAccounted =>
      constructor
      case nonneg =>
          intro _
          simp only [hsub]
          omega
      case difference =>
          intro _
          simp only [hsub]
          omega
      case destroyed => exact fun hd => absurd hopen (by simp [h.closed hd])
  case closed => exact h.closed
  case opened => exact h.opened

theorem Inv.ackEvents (h : Inv cq) (cls : CQClass) {nevents : UInt32} (hsmall : cq.Small (.ackEvents nevents)) :
    Inv (cq.ackEvents cls nevents).1 := by
  rw [CQ.ackEvents]
  split_ifs with hclosed hzero hmany
  · exact h
  · exact h
  · exact h
  · have hopen : cq.isOpen = true := by simpa using hclosed
    exact h.ackEvents_ok hopen (hsmall hopen) hmany

/-- What the provider is told at the end of an open CQ. -/
theorem Inv.ackRest (h : Inv cq) (hopen : cq.isOpen = true) : cq.ackRest.acknowledged = cq.received := by
  have hcast := toNat_toUInt32 (h.nonneg (h.opened hopen))
  have hdiff := h.difference (h.opened hopen)
  simp only [CQ.ackRest]
  omega

theorem Inv.nothing_left (h : Inv cq) (hopen : cq.isOpen = true) (hpos : ¬ 0 < cq.unacked) :
    cq.acknowledged = cq.received := by
  have hnonneg := h.nonneg (h.opened hopen)
  have hdiff := h.difference (h.opened hopen)
  rw [Int32.lt_iff_toInt_lt, Int32.toInt_zero] at hpos
  omega

/-- Before an open CQ is destroyed, every event is acknowledged. -/
theorem Inv.settled (h : Inv cq) (hopen : cq.isOpen = true) :
    ∃ q, (if 0 < cq.unacked then { cq.ackRest with unacked := 0 } else cq) = q ∧ Inv q ∧
      q.acknowledged = q.received := by
  by_cases hpos : 0 < cq.unacked
  · have hrest := h.ackRest hopen
    refine ⟨_, if_pos hpos, ?_, hrest⟩
    constructor
    case toAccounted =>
        constructor
        case nonneg => exact fun _ => Int.le_refl 0
        case difference =>
            intro _
            have hreceived : cq.ackRest.received = cq.received := rfl
            simp [hrest, hreceived]
        case destroyed => exact fun _ => hrest
    case closed => exact h.closed
    case opened => exact h.opened
  · exact ⟨cq, if_neg hpos, h, h.nothing_left hopen hpos⟩

theorem Inv.close (h : Inv cq) (cls : CQClass) (rc errno : Int) : Inv (cq.close cls rc errno).1 := by
  rw [CQ.close]
  by_cases hclosed : cq.isOpen = true
  · obtain ⟨q, heq, hq, hall⟩ := h.settled hclosed
    simp only [hclosed, Bool.not_true, Bool.false_eq_true, if_false, heq]
    split_ifs
    · exact h
    · exact hq
    · constructor
      case toAccounted => exact ⟨hq.nonneg, hq.difference, fun _ => hall⟩
      case closed => exact fun _ => rfl
      case opened => simp
  · simpa [hclosed] using h

theorem Inv.dealloc (h : Inv cq) (rc : Int) : Inv (cq.dealloc rc) := by
  rw [CQ.dealloc]
  by_cases hclosed : cq.isOpen = true
  · by_cases hpos : 0 < cq.unacked
    · have hrest := h.ackRest hclosed
      simp only [hclosed, hpos, Bool.not_true, Bool.false_eq_true, if_false, if_true]
      exact ⟨⟨by simp, by simp, fun _ => hrest⟩, by simp, by simp⟩
    · have hrest := h.nothing_left hclosed hpos
      simp only [hclosed, hpos, Bool.not_true, Bool.false_eq_true, if_false]
      exact ⟨⟨by simp, by simp, fun _ => hrest⟩, by simp, by simp⟩
  · simp only [hclosed]
    exact ⟨⟨by simp, by simp, h.destroyed⟩, by simp, by simp⟩

theorem Inv.next (h : Inv cq) (cls : CQClass) (he : cq.Enabled e) (hsmall : cq.Small e) : Inv (cq.next cls e) := by
  cases e with
  | getCqEvent => exact h.getCqEvent he hsmall
  | ackEvents nevents => exact h.ackEvents cls hsmall
  | users n => exact ⟨⟨h.nonneg, h.difference, h.destroyed⟩, h.closed, h.opened⟩
  | close rc errno => exact h.close cls rc errno
  | dealloc rc => exact h.dealloc rc

theorem Inv.of_reaches (h : ((machine cls).when Small).Reaches create cq) : Inv cq :=
  h.invariant (fun _ _ hi he => hi.next cls he.1 he.2) create_inv

/-! ## What `ack_events` rejects -/

/-- `ack_events` raises and changes nothing when the argument is 0 or exceeds the events that are not acknowledged. -/
def Rejects (cls : CQClass) (cq : CQ) : Event → Prop
  | .ackEvents nevents => nevents = 0 ∨ cq.received < cq.acknowledged + nevents.toNat →
      ∃ e, cq.ackEvents cls nevents = (cq, .error e)
  | _ => True

theorem Inv.rejects (h : Inv cq) (cls : CQClass) (he : cq.Enabled e) (hsmall : cq.Small e) : Rejects cls cq e := by
  cases e with
  | ackEvents nevents =>
      intro hmany
      rw [CQ.ackEvents]
      split_ifs with hclosed hzero hlt
      · exact ⟨_, rfl⟩
      · exact ⟨_, rfl⟩
      · exact ⟨_, rfl⟩
      · -- the cast keeps the argument, and the counter is the difference
        have hn := toInt_toInt32_of_lt (hsmall (by simpa using hclosed))
        have hdiff := h.difference he
        rw [Int32.lt_iff_toInt_lt] at hlt
        rcases hmany with hz | hmany
        · exact absurd hz hzero
        · omega
  | _ => trivial

/-- A count that wraps around is negative, and an argument that does is accepted. -/
theorem Inv.not_small (h : Inv cq) (cls : CQClass) (he : cq.Enabled e) (hsmall : ¬ cq.Small e) :
    ¬ (Accounted (cq.next cls e) ∧ Rejects cls cq e) := by
  rintro ⟨hacc, hrej⟩
  cases e with
  | getCqEvent =>
      have hmax := cq.unacked.toInt_lt
      have hnonneg := hacc.nonneg he.2
      have hdiff := h.difference he.2
      have hdiff' := hacc.difference he.2
      have hmax' := (cq.next cls .getCqEvent).unacked.toInt_lt
      simp only [CQ.next, CQ.getCqEvent, Small] at *
      omega
  | ackEvents nevents =>
      simp only [Small] at hsmall
      push Not at hsmall
      obtain ⟨hopen, hlarge⟩ := hsmall
      have hneg := toInt_toInt32_neg hlarge
      have hnonneg := h.nonneg he
      have hdiff := h.difference he
      have hmax := cq.unacked.toInt_lt
      obtain ⟨ex, heq⟩ := hrej (.inr (by omega))
      have hzero : nevents ≠ 0 := by
        rintro rfl
        simp at hlarge
      have hlt : ¬ cq.unacked < nevents.toInt32 := by
        rw [Int32.lt_iff_toInt_lt]
        omega
      simp [CQ.ackEvents, hopen, hzero, hlt] at heq
  | users n => exact hsmall trivial
  | close rc errno => exact hsmall trivial
  | dealloc rc => exact hsmall trivial

end CQ

end Rdma4py.Bindings
