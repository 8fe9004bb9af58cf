import Mathlib.Algebra.Order.Floor.Div
import Mathlib.Algebra.Ring.Nat
import Mathlib.Data.Nat.Log
import Mathlib.GroupTheory.GroupAction.Ring

/-!
# The binary64 quotient of two natural numbers

Python's `a / b` on integers is the correctly rounded binary64 quotient: the 53-bit multiple of a power of two that is
nearest to the exact one, ties to the even mantissa. Quotients outside the range of normal numbers are not treated.
-/

namespace Rdma4py.Lib

/-- A binary64 value `mantissa * 2 ^ exponent`. -/
structure Binary64 where
  mantissa : Nat
  exponent : Int
  deriving DecidableEq, Repr

/-- `a * 2 ^ e` as a fraction of natural numbers, for the quotient `a / b`: numerator and denominator of
`a / (b * 2 ^ e)`. -/
def scaled (a b : Nat) (e : Int) : Nat × Nat := (a * 2 ^ (-e).toNat, b * 2 ^ e.toNat)

/-- The quotient rounded to the nearest integer, ties to even. -/
def roundHalfEven (n d : Nat) : Nat :=
  let q := n / d
  let r := n % d
  if 2 * r < d then q else if d < 2 * r then q + 1 else if q % 2 = 0 then q else q + 1

/-- The exponent of the leading bit of `a / b`. -/
def leadingBit (a b : Nat) : Int :=
  let l : Int := Nat.log2 a - Nat.log2 b
  let f := scaled a b l
  if f.2 ≤ f.1 then l else l - 1

/-- `a / b` for positive `b`. -/
def trueDiv (a b : Nat) : Binary64 :=
  if a = 0 then ⟨0, 0⟩
  else
    let e := leadingBit a b - 52
    let f := scaled a b e
    ⟨roundHalfEven f.1 f.2, e⟩

/-- `math.ceil` of a binary64 value. -/
def Binary64.ceil (x : Binary64) : Nat :=
  let d := 2 ^ (-x.exponent).toNat
  (x.mantissa * 2 ^ x.exponent.toNat + d - 1) / d

/-! ## Roundings -/

theorem le_roundHalfEven (n d : Nat) : n / d ≤ roundHalfEven n d := by
  simp only [roundHalfEven]
  split
  · exact Nat.le_refl _
  · split
    · omega
    · split <;> omega

theorem roundHalfEven_le {n d N : Nat} (hd : 0 < d) (h : n ≤ N * d) : roundHalfEven n d ≤ N := by
  have hdiv : n / d ≤ N := Nat.div_le_of_le_mul (by rwa [Nat.mul_comm])
  rcases Nat.lt_or_eq_of_le hdiv with hlt | heq
  · simp only [roundHalfEven]
    split_ifs <;> omega
  · -- the quotient is exact
    have hr : n % d = 0 := by
      have hmod := Nat.div_add_mod n d
      rw [heq, Nat.mul_comm] at hmod
      omega
    simp only [roundHalfEven, hr, heq]
    split_ifs <;> omega

/-- A remainder is rounded away when it is less than half of the divisor, or just half and the quotient even. -/
theorem roundHalfEven_eq {k r d : Nat} (hr : r < d) :
    roundHalfEven (k * d + r) d = if 2 * r < d ∨ (2 * r = d ∧ k % 2 = 0) then k else k + 1 := by
  have hq : (k * d + r) / d = k := by
    rw [Nat.add_comm, Nat.add_mul_div_right _ _ (by omega), Nat.div_eq_of_lt hr, Nat.zero_add]
  have hm : (k * d + r) % d = r := by
    rw [Nat.add_comm, Nat.add_mul_mod_self_right, Nat.mod_eq_of_lt hr]
  simp only [roundHalfEven, hq, hm]
  split_ifs <;> omega

/-! ## Leading bits -/

/-- The leading bit of the quotient is at most the quotient. -/
theorem scaled_leadingBit {a b : Nat} (ha : 0 < a) :
    (scaled a b (leadingBit a b)).2 ≤ (scaled a b (leadingBit a b)).1 := by
  rw [leadingBit]
  split
  · assumption
  · have h1 : 2 ^ Nat.log2 a ≤ a := Nat.log2_self_le (by omega)
    have h2 : b < 2 ^ (Nat.log2 b + 1) := Nat.lt_log2_self
    generalize hA : Nat.log2 a = A at *
    generalize hB : Nat.log2 b = B at *
    -- Multiply both sides of `b < 2 ^ (B + 1)` and `2 ^ A ≤ a` by the powers that clear the exponent.
    rcases Nat.lt_or_ge B A with hlt | hge
    · have he : ((A : Int) - B - 1).toNat = A - B - 1 := by omega
      have hn : (-((A : Int) - B - 1)).toNat = 0 := by omega
      simp only [scaled, he, hn, Nat.pow_zero, Nat.mul_one]
      calc b * 2 ^ (A - B - 1) ≤ 2 ^ (B + 1) * 2 ^ (A - B - 1) := Nat.mul_le_mul_right _ h2.le
        _ = 2 ^ A := by rw [← Nat.pow_add]; congr 1; omega
        _ ≤ a := h1
    · have he : ((A : Int) - B - 1).toNat = 0 := by omega
      have hn : (-((A : Int) - B - 1)).toNat = B + 1 - A := by omega
      simp only [scaled, he, hn, Nat.pow_zero, Nat.mul_one]
      calc b ≤ 2 ^ (B + 1) := h2.le
        _ = 2 ^ A * 2 ^ (B + 1 - A) := by rw [← Nat.pow_add]; congr 1; omega
        _ ≤ a * 2 ^ (B + 1 - A) := Nat.mul_le_mul_right _ h1

/-- The quotient is less than twice its leading bit. -/
theorem scaled_succ_leadingBit {a b : Nat} (hb : 0 < b) :
    (scaled a b (leadingBit a b + 1)).1 < (scaled a b (leadingBit a b + 1)).2 := by
  rw [leadingBit]
  split
  · have h1 : a < 2 ^ (Nat.log2 a + 1) := Nat.lt_log2_self
    have h2 : 2 ^ Nat.log2 b ≤ b := Nat.log2_self_le (by omega)
    generalize hA : Nat.log2 a = A at *
    generalize hB : Nat.log2 b = B at *
    rcases Nat.lt_or_ge (A + 1) B with hlt | hge
    · have he : ((A : Int) - B + 1).toNat = 0 := by omega
      have hn : (-((A : Int) - B + 1)).toNat = B - A - 1 := by omega
      simp only [scaled, he, hn, Nat.pow_zero, Nat.mul_one]
      calc a * 2 ^ (B - A - 1) < 2 ^ (A + 1) * 2 ^ (B - A - 1) := Nat.mul_lt_mul_of_pos_right h1 (Nat.two_pow_pos _)
        _ = 2 ^ B := by rw [← Nat.pow_add]; congr 1; omega
        _ ≤ b := h2
    · have he : ((A : Int) - B + 1).toNat = A + 1 - B := by omega
      have hn : (-((A : Int) - B + 1)).toNat = 0 := by omega
      simp only [scaled, he, hn, Nat.pow_zero, Nat.mul_one]
      calc a < 2 ^ (A + 1) := h1
        _ = 2 ^ B * 2 ^ (A + 1 - B) := by rw [← Nat.pow_add]; congr 1; omega
        _ ≤ b * 2 ^ (A + 1 - B) := Nat.mul_le_mul_right _ h2
  · next hlt =>
      rw [Int.sub_add_cancel]
      exact Nat.lt_of_not_le hlt

/-- A quotient of at least 1 has the leading bit of its integer part. -/
theorem leadingBit_eq {a b : Nat} (hb : 0 < b) (hk : 0 < a / b) : leadingBit a b = (Nat.log2 (a / b) : Nat) := by
  have ha : 0 < a := Nat.pos_of_ne_zero fun h => by simp [h] at hk
  have hlo := scaled_leadingBit (b := b) ha
  have hhi := scaled_succ_leadingBit (a := a) hb
  have h1 : 2 ^ Nat.log2 (a / b) ≤ a / b := Nat.log2_self_le (by omega)
  have h2 : a / b < 2 ^ (Nat.log2 (a / b) + 1) := Nat.lt_log2_self
  generalize leadingBit a b = l at hlo hhi ⊢
  generalize Nat.log2 (a / b) = e at h1 h2 ⊢
  have h1 : 2 ^ e * b ≤ a := (Nat.le_div_iff_mul_le hb).mp h1
  have h2 : a < 2 ^ (e + 1) * b := (Nat.div_lt_iff_lt_mul hb).mp h2
  have hbit : ∃ n : Nat, l = n := by
    refine ⟨l.toNat, (Int.toNat_of_nonneg ?_).symm⟩
    by_contra hneg
    have hone : (l + 1).toNat = 0 := by omega
    simp only [scaled, hone, Nat.pow_zero, Nat.mul_one] at hhi
    have hle : a ≤ a * 2 ^ (-(l + 1)).toNat := Nat.le_mul_of_pos_right a (Nat.two_pow_pos _)
    have hbe : b ≤ 2 ^ e * b := Nat.le_mul_of_pos_left b (Nat.two_pow_pos _)
    omega
  obtain ⟨n, rfl⟩ := hbit
  have hn : (-(n : Int)).toNat = 0 := by omega
  have hn' : (-((n : Int) + 1)).toNat = 0 := by omega
  have hs : ((n : Int) + 1).toNat = n + 1 := by omega
  simp only [scaled, hn, hn', hs, Int.toNat_natCast, Nat.pow_zero, Nat.mul_one] at hlo hhi
  -- both powers are the greatest one that fits
  have hle : 2 ^ n < 2 ^ (e + 1) := by
    refine Nat.lt_of_mul_lt_mul_right (a := b) ?_
    rw [Nat.mul_comm (2 ^ n)]
    omega
  have hge : 2 ^ e < 2 ^ (n + 1) := by
    refine Nat.lt_of_mul_lt_mul_right (a := b) ?_
    rw [Nat.mul_comm (2 ^ (n + 1))]
    omega
  have := (Nat.pow_lt_pow_iff_right (by omega)).mp hle
  have := (Nat.pow_lt_pow_iff_right (by omega)).mp hge
  omega

/-! ## The ceiling -/

/-- The ceiling of the quotient of a positive number is positive. -/
theorem ceil_trueDiv_pos {a b : Nat} (ha : 0 < a) (hb : 0 < b) : 0 < (trueDiv a b).ceil := by
  have hlead := scaled_leadingBit (b := b) ha
  have hm : 0 < (trueDiv a b).mantissa := by
    rw [trueDiv, if_neg (by omega)]
    generalize leadingBit a b = l at hlead
    simp only [scaled] at hlead ⊢
    refine Nat.lt_of_lt_of_le (Nat.div_pos ?_ (Nat.mul_pos hb (Nat.two_pow_pos _))) (le_roundHalfEven _ _)
    have h1 : 2 ^ (l - 52).toNat ≤ 2 ^ l.toNat := Nat.pow_le_pow_right (by decide) (by omega)
    have h2 : 2 ^ (-l).toNat ≤ 2 ^ (-(l - 52)).toNat := Nat.pow_le_pow_right (by decide) (by omega)
    calc b * 2 ^ (l - 52).toNat ≤ b * 2 ^ l.toNat := Nat.mul_le_mul_left _ h1
      _ ≤ a * 2 ^ (-l).toNat := hlead
      _ ≤ a * 2 ^ (-(l - 52)).toNat := Nat.mul_le_mul_left _ h2
  simp only [Binary64.ceil]
  have hd : 0 < 2 ^ (-(trueDiv a b).exponent).toNat := Nat.two_pow_pos _
  have hp : 0 < (trueDiv a b).mantissa * 2 ^ (trueDiv a b).exponent.toNat := Nat.mul_pos hm (Nat.two_pow_pos _)
  exact Nat.div_pos (by omega) hd

/-- The remainder `r` of a quotient with integer part `k` by `b` is too small for a mantissa of 53 bits. -/
def RoundsDown (k r b : Nat) : Prop :=
  2 * (r * 2 ^ (52 - Nat.log2 k)) < b ∨
    (2 * (r * 2 ^ (52 - Nat.log2 k)) = b ∧ k * 2 ^ (52 - Nat.log2 k) % 2 = 0)

instance (k r b : Nat) : Decidable (RoundsDown k r b) := inferInstanceAs (Decidable (_ ∨ _))

/-- A quotient below 1 is rounded to at most 1. -/
theorem ceil_trueDiv_of_lt {a b : Nat} (ha : 0 < a) (h : a < b) : (trueDiv a b).ceil = 1 := by
  have hb : 0 < b := by omega
  have hpos := ceil_trueDiv_pos ha hb
  have hlo := scaled_leadingBit (b := b) ha
  have hhi := scaled_succ_leadingBit (a := a) hb
  have hneg : leadingBit a b < 0 := by
    by_contra hge
    have hz : (-leadingBit a b).toNat = 0 := by omega
    simp only [scaled, hz, Nat.pow_zero, Nat.mul_one] at hlo
    have := Nat.le_mul_of_pos_right b (Nat.two_pow_pos (leadingBit a b).toNat)
    omega
  obtain ⟨j, hj⟩ : ∃ j : Nat, leadingBit a b = -(j + 1 : Nat) := ⟨(-leadingBit a b).toNat - 1, by omega⟩
  have he : (leadingBit a b - 52).toNat = 0 := by omega
  have hne : (-(leadingBit a b - 52)).toNat = j + 53 := by omega
  have hh : (-(leadingBit a b + 1)).toNat = j := by omega
  have hh' : (leadingBit a b + 1).toNat = 0 := by omega
  simp only [scaled, hh, hh', Nat.pow_zero, Nat.mul_one] at hhi
  -- the mantissa is at most `2 ^ 53`, and the exponent at most `-53`
  have hm : (trueDiv a b).mantissa ≤ 2 ^ 53 := by
    simp only [trueDiv, if_neg (Nat.ne_of_gt ha), scaled, he, hne, Nat.pow_zero, Nat.mul_one]
    refine roundHalfEven_le hb ?_
    rw [Nat.pow_add, ← Nat.mul_assoc, Nat.mul_comm (2 ^ 53)]
    exact Nat.mul_le_mul_right _ hhi.le
  have hx : (trueDiv a b).exponent = leadingBit a b - 52 := by
    simp [trueDiv, Nat.ne_of_gt ha]
  have hd : 2 ^ 53 ≤ 2 ^ (j + 53) := Nat.pow_le_pow_right (by omega) (by omega)
  simp only [Binary64.ceil, hx, he, hne, Nat.pow_zero, Nat.mul_one] at hpos ⊢
  have hdpos : 0 < 2 ^ (j + 53) := Nat.two_pow_pos _
  refine Nat.le_antisymm ?_ hpos
  rw [← Nat.lt_succ_iff, Nat.div_lt_iff_lt_mul hdpos]
  omega

/-- A quotient of at least 1 and below `2 ^ 53` keeps its integer part; its fraction may be rounded away. -/
theorem ceil_trueDiv_of_mid {k r b : Nat} (hr : r < b) (hk : 0 < k) (hlt : k < 2 ^ 53) :
    (trueDiv (k * b + r) b).ceil = if RoundsDown k r b then k else k + 1 := by
  have hb : 0 < b := by omega
  have hq : (k * b + r) / b = k := by
    rw [Nat.add_comm, Nat.add_mul_div_right _ _ hb, Nat.div_eq_of_lt hr, Nat.zero_add]
  have hlead := leadingBit_eq hb (hq ▸ hk)
  rw [hq] at hlead
  have he : Nat.log2 k < 53 := (Nat.log2_lt (by omega)).mpr hlt
  have ha : k * b + r ≠ 0 := by
    have := Nat.mul_pos hk hb
    omega
  have hpos : ((Nat.log2 k : Int) - 52).toNat = 0 := by omega
  have hneg : (-((Nat.log2 k : Int) - 52)).toNat = 52 - Nat.log2 k := by omega
  have hsplit : (k * b + r) * 2 ^ (52 - Nat.log2 k) =
      k * 2 ^ (52 - Nat.log2 k) * b + r * 2 ^ (52 - Nat.log2 k) := by
    rw [Nat.add_mul, Nat.mul_right_comm]
  have hu : 0 < 2 ^ (52 - Nat.log2 k) := Nat.two_pow_pos _
  simp only [Binary64.ceil, trueDiv, if_neg ha, hlead, scaled, hpos, hneg, Nat.pow_zero, Nat.mul_one, hsplit]
  by_cases hdown : RoundsDown k r b
  · rw [if_pos hdown]
    simp only [RoundsDown] at hdown
    generalize 2 ^ (52 - Nat.log2 k) = u at hdown hu ⊢
    have hsmall : r * u < b := by omega
    rw [roundHalfEven_eq hsmall, if_pos hdown, Nat.add_sub_assoc hu, Nat.add_comm, Nat.add_mul_div_right _ _ hu,
      Nat.div_eq_of_lt (by omega), Nat.zero_add]
  · rw [if_neg hdown]
    simp only [RoundsDown] at hdown
    generalize 2 ^ (52 - Nat.log2 k) = u at hdown hu ⊢
    -- the mantissa exceeds that of the integer part, and is at most that of the next one
    have hle : roundHalfEven (k * u * b + r * u) b ≤ k * u + u := by
      apply roundHalfEven_le hb
      rw [Nat.add_mul, Nat.mul_comm u b, Nat.mul_comm r u, Nat.mul_comm b u]
      exact Nat.add_le_add_left (Nat.mul_le_mul_left u hr.le) _
    have hgt : k * u < roundHalfEven (k * u * b + r * u) b := by
      rcases Nat.lt_or_ge (r * u) b with hsmall | hlarge
      · rw [roundHalfEven_eq hsmall, if_neg hdown]
        exact Nat.lt_succ_self _
      · apply Nat.lt_of_lt_of_le _ (le_roundHalfEven _ _)
        rw [Nat.add_comm, Nat.add_mul_div_right _ _ hb]
        have := Nat.div_pos hlarge hb
        omega
    generalize roundHalfEven (k * u * b + r * u) b = m at hle hgt ⊢
    rw [Nat.div_eq_iff hu, Nat.add_mul, Nat.one_mul]
    omega

/-- A quotient of at least `2 ^ 53` is rounded to a multiple of the unit of its last place. -/
theorem ceil_trueDiv_of_ge {a b : Nat} (hb : 0 < b) (hge : 2 ^ 53 ≤ a / b) :
    (trueDiv a b).ceil =
      roundHalfEven a (b * 2 ^ (Nat.log2 (a / b) - 52)) * 2 ^ (Nat.log2 (a / b) - 52) := by
  have hk : 0 < a / b := by omega
  have ha : a ≠ 0 := fun h => by simp [h] at hk
  have he : 53 ≤ Nat.log2 (a / b) := (Nat.le_log2 (by omega)).mpr hge
  have hlead := leadingBit_eq hb hk
  generalize Nat.log2 (a / b) = e at he hlead ⊢
  have hpos : ((e : Int) - 52).toNat = e - 52 := by omega
  have hneg : (-((e : Int) - 52)).toNat = 0 := by omega
  simp only [Binary64.ceil, trueDiv, if_neg ha, hlead, scaled, hpos, hneg, Nat.pow_zero, Nat.mul_one, Nat.div_one,
    Nat.add_sub_cancel]

/-- The quotient of the ceiling's multiple: what is missing from `a` to it is less than the divisor. -/
theorem exists_add_eq_mul_ceilDiv {a b : Nat} (hb : 0 < b) : ∃ t < b, a + t = b * (a ⌈/⌉ b) := by
  have hle : a ≤ b * (a ⌈/⌉ b) := le_smul_ceilDiv hb
  have hlt : b * (a ⌈/⌉ b) ≤ a + b - 1 := by
    rw [Nat.ceilDiv_eq_add_pred_div, Nat.mul_comm]
    exact Nat.div_mul_le_self _ _
  exact ⟨b * (a ⌈/⌉ b) - a, by omega, by omega⟩

/-- The remainder decides whether the ceiling is the integer part. -/
theorem ceilDiv_eq {k r b : Nat} (hr : r < b) : (k * b + r) ⌈/⌉ b = if r = 0 then k else k + 1 := by
  have hb : 0 < b := by omega
  rw [Nat.ceilDiv_eq_add_pred_div]
  split_ifs with h
  · rw [h, Nat.add_zero, Nat.add_sub_assoc hb, Nat.add_comm, Nat.add_mul_div_right _ _ hb,
      Nat.div_eq_of_lt (by omega), Nat.zero_add]
  · rw [show k * b + r + b - 1 = r - 1 + (k + 1) * b by rw [Nat.add_mul]; omega,
      Nat.add_mul_div_right _ _ hb, Nat.div_eq_of_lt (by omega), Nat.zero_add]

/-- What is missing to a multiple of `b` is zero when nothing remains. -/
theorem dvd_iff_eq_zero {a b t c : Nat} (ht : t < b) (h : a + t = b * c) : a % b = 0 ↔ t = 0 := by
  constructor
  · intro hmod
    have hdvd : b ∣ t := by
      rw [← Nat.dvd_add_right (Nat.dvd_of_mod_eq_zero hmod), h]
      exact Nat.dvd_mul_right b c
    exact Nat.eq_zero_of_dvd_of_lt hdvd ht
  · rintro rfl
    rw [Nat.add_zero] at h
    rw [h, Nat.mul_mod_right]

/-- The distance that the ceiling `c` of `a / b` moves when the quotient is rounded to a multiple of the even number
`u`: down by its remainder, or up to the next multiple. -/
def roundingOffset (a b c u : Nat) : Int :=
  let s := c % u
  if s = 0 then 0
  else if 2 * s < u ∨ (2 * s = u ∧ (a % b ≠ 0 ∨ c / u % 2 = 0)) then -s
  else u - s

/-- Rounding to a multiple of an even number, from the ceiling of the quotient. -/
theorem roundHalfEven_mul {a b h : Nat} (hb : 0 < b) (hh : 0 < h) :
    ((roundHalfEven a (b * (2 * h)) * (2 * h) : Nat) : Int) =
      (a ⌈/⌉ b : Nat) + roundingOffset a b (a ⌈/⌉ b) (2 * h) := by
  obtain ⟨t, ht, hat⟩ := exists_add_eq_mul_ceilDiv (a := a) hb
  have hdvd := dvd_iff_eq_zero ht hat
  have hc := Nat.div_add_mod (a ⌈/⌉ b) (2 * h)
  have hs := Nat.mod_lt (a ⌈/⌉ b) (Nat.mul_pos Nat.two_pos hh)
  simp only [roundingOffset]
  generalize a ⌈/⌉ b = c at hat hc hs ⊢
  generalize c / (2 * h) = m at hc ⊢
  generalize c % (2 * h) = s at hc hs ⊢
  have hat' : a + t = m * (b * (2 * h)) + b * s := by
    rw [hat, ← hc, Nat.mul_add, Nat.mul_left_comm m, Nat.mul_comm m]
  have hD : b * (2 * h) = 2 * (b * h) := Nat.mul_left_comm b 2 h
  have hcm : m * (2 * h) = 2 * h * m := Nat.mul_comm _ _
  rcases Nat.eq_zero_or_pos s with rfl | hspos
  · rw [if_pos rfl]
    rcases Nat.eq_zero_or_pos t with rfl | htpos
    · have ha : a = m * (b * (2 * h)) + 0 := hat'
      have hDpos : 0 < b * (2 * h) := Nat.mul_pos hb (Nat.mul_pos Nat.two_pos hh)
      rw [ha, roundHalfEven_eq hDpos, if_pos (.inl hDpos)]
      omega
    · -- the quotient is just below the multiple
      have hbh : b ≤ b * h := Nat.le_mul_of_pos_right b hh
      obtain ⟨n, rfl⟩ : ∃ n, m = n + 1 := by
        apply Nat.exists_eq_succ_of_ne_zero
        rintro rfl
        omega
      have ha : a = n * (b * (2 * h)) + (b * (2 * h) - t) := by
        rw [Nat.add_mul] at hat'
        omega
      rw [ha, roundHalfEven_eq (by omega), if_neg (by omega)]
      omega
  · have hbs : b ≤ b * s := Nat.le_mul_of_pos_right b hspos
    have hsh : b * s < b * (2 * h) := Nat.mul_lt_mul_of_pos_left hs hb
    have ha : a = m * (b * (2 * h)) + (b * s - t) := by omega
    have hlt : b * s - t < b * (2 * h) := by omega
    have hround := roundHalfEven_eq (k := m) hlt
    rw [← ha] at hround
    rw [hround, if_neg (Nat.ne_of_gt hspos)]
    rcases Nat.lt_trichotomy s h with hsh | rfl | hsh
    · have hstep : b * s + b ≤ b * h := Nat.mul_le_mul_left b hsh
      rw [if_pos (by omega), if_pos (by omega)]
      omega
    · by_cases hup : t = 0 ∧ m % 2 = 1
      · rw [if_neg (by omega), if_neg (by omega), Nat.add_mul]
        omega
      · rw [if_pos (by omega), if_pos (by omega)]
        omega
    · have hstep : b * h + b ≤ b * s := Nat.mul_le_mul_left b hsh
      rw [if_neg (by omega), if_neg (by omega), Nat.add_mul]
      omega

/-- How far the ceiling of the rounded quotient is from that of the exact one. -/
def ceilError (a b : Nat) : Int :=
  let k := a / b
  if k = 0 then 0
  else if k < 2 ^ 53 then if a % b ≠ 0 ∧ RoundsDown k (a % b) b then -1 else 0
  else roundingOffset a b (a ⌈/⌉ b) (2 ^ (Nat.log2 k - 52))

theorem ceil_trueDiv {a b : Nat} (ha : 0 < a) (hb : 0 < b) :
    ((trueDiv a b).ceil : Int) = (a ⌈/⌉ b : Nat) + ceilError a b := by
  have hr : a % b < b := Nat.mod_lt a hb
  have hsplit : a / b * b + a % b = a := by
    rw [Nat.mul_comm]
    exact Nat.div_add_mod a b
  have hceil := ceilDiv_eq (k := a / b) hr
  rw [hsplit] at hceil
  rcases Nat.lt_or_ge (a / b) (2 ^ 53) with hlt | hge
  · rcases Nat.eq_zero_or_pos (a / b) with hz | hk
    · have hab : a < b := by
        by_contra h
        have := Nat.div_pos (Nat.le_of_not_lt h) hb
        omega
      have hmod : a % b ≠ 0 := by
        rw [Nat.mod_eq_of_lt hab]
        omega
      rw [ceil_trueDiv_of_lt ha hab, ceilError, if_pos hz, hceil, if_neg hmod, hz]
      rfl
    · have hmid := ceil_trueDiv_of_mid hr hk hlt
      rw [hsplit] at hmid
      have hk0 : a / b ≠ 0 := by omega
      rw [hmid, hceil, ceilError, if_neg hk0, if_pos hlt]
      by_cases hdown : RoundsDown (a / b) (a % b) b
      · rw [if_pos hdown]
        by_cases hzero : a % b = 0
        · rw [if_pos hzero, if_neg fun h => h.1 hzero]
          omega
        · rw [if_neg hzero, if_pos ⟨hzero, hdown⟩]
          omega
      · have hne : a % b ≠ 0 := by
          intro hzero
          apply hdown
          left
          simpa [hzero] using hb
        rw [if_neg hdown, if_neg hne, if_neg fun h => hdown h.2]
        omega
  · have he : 53 ≤ Nat.log2 (a / b) := (Nat.le_log2 (by omega)).mpr hge
    have hu : 2 ^ (Nat.log2 (a / b) - 52) = 2 * 2 ^ (Nat.log2 (a / b) - 53) := by
      rw [← Nat.pow_succ']
      congr 1
      omega
    rw [ceil_trueDiv_of_ge hb hge, ceilError, if_neg (by omega), if_neg (by omega), hu]
    exact roundHalfEven_mul hb (Nat.two_pow_pos _)

theorem roundingOffset_eq_zero_iff {a b c u : Nat} (hu : 0 < u) : roundingOffset a b c u = 0 ↔ u ∣ c := by
  have hs := Nat.mod_lt c hu
  rw [Nat.dvd_iff_mod_eq_zero]
  simp only [roundingOffset]
  generalize c % u = s at hs ⊢
  constructor
  · intro h
    split_ifs at h <;> omega
  · intro h
    rw [if_pos h]

/-- When rounding does not move the ceiling: a quotient below 1, one below `2 ^ 53` whose fraction is not rounded away, or
a larger one whose ceiling has a mantissa of 53 bits. -/
theorem ceilError_eq_zero_iff {a b : Nat} :
    ceilError a b = 0 ↔ a / b = 0 ∨ (a / b < 2 ^ 53 ∧ (a % b = 0 ∨ ¬ RoundsDown (a / b) (a % b) b)) ∨
      (2 ^ 53 ≤ a / b ∧ 2 ^ (Nat.log2 (a / b) - 52) ∣ a ⌈/⌉ b) := by
  simp only [ceilError]
  split_ifs with hz hlt hdown
  · exact iff_of_true rfl (.inl hz)
  · apply iff_of_false (by decide)
    rintro (h | ⟨_, h | h⟩ | ⟨hge, _⟩)
    · exact hz h
    · exact hdown.1 h
    · exact h hdown.2
    · omega
  · apply iff_of_true rfl
    by_cases h : a % b = 0
    · exact .inr (.inl ⟨hlt, .inl h⟩)
    · exact .inr (.inl ⟨hlt, .inr fun hd => hdown ⟨h, hd⟩⟩)
  · rw [roundingOffset_eq_zero_iff (Nat.two_pow_pos _)]
    constructor
    · intro h
      exact .inr (.inr ⟨Nat.le_of_not_lt hlt, h⟩)
    · rintro (h | ⟨h, _⟩ | ⟨_, h⟩)
      · exact absurd h hz
      · exact absurd h hlt
      · exact h

/-- Up to `2 ^ 53` the ceiling is exact, whatever the divisor. -/
theorem ceilError_of_le {a b : Nat} (h : a ≤ 2 ^ 53) : ceilError a b = 0 := by
  have hsplit := Nat.div_add_mod a b
  rw [ceilError_eq_zero_iff]
  rcases Nat.eq_zero_or_pos (a / b) with hz | hk
  · exact .inl hz
  · have hb : 0 < b := Nat.pos_of_ne_zero fun hb => by simp [hb] at hk
    have hle : a / b ≤ a := Nat.div_le_self a b
    rcases Nat.lt_or_ge (a / b) (2 ^ 53) with hlt | hge
    · refine .inr (.inl ⟨hlt, ?_⟩)
      by_cases hr : a % b = 0
      · exact .inl hr
      · right
        have he : Nat.log2 (a / b) < 53 := (Nat.log2_lt (by omega)).mpr hlt
        have hlog : 2 ^ Nat.log2 (a / b) ≤ a / b := Nat.log2_self_le (by omega)
        -- a divisor so large that a remainder of 1 is rounded away has no such quotient
        have hsmall : ¬ 2 * 2 ^ (52 - Nat.log2 (a / b)) ≤ b := by
          intro hbig
          have hprod : 2 * 2 ^ (52 - Nat.log2 (a / b)) * 2 ^ Nat.log2 (a / b) ≤ b * (a / b) :=
            Nat.mul_le_mul hbig hlog
          have hpow : 2 * 2 ^ (52 - Nat.log2 (a / b)) * 2 ^ Nat.log2 (a / b) = 2 ^ 53 := by
            rw [← Nat.pow_succ', ← Nat.pow_add]
            congr 1
            omega
          omega
        have hone : 2 ^ (52 - Nat.log2 (a / b)) ≤ a % b * 2 ^ (52 - Nat.log2 (a / b)) :=
          Nat.le_mul_of_pos_left _ (Nat.pos_of_ne_zero hr)
        simp only [RoundsDown]
        omega
    · have hone : b = 1 := by
        by_contra hne
        have : 2 * (a / b) ≤ b * (a / b) := Nat.mul_le_mul_right _ (by omega)
        omega
      subst hone
      have ha : a = 2 ^ 53 := by
        rw [Nat.div_one] at hge
        omega
      subst ha
      right
      right
      decide +kernel

example : (trueDiv (2 ^ 53 + 1) 1).ceil = 2 ^ 53 := by decide

end Rdma4py.Lib
