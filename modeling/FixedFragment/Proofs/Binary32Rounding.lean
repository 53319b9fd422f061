import Mathlib.Algebra.Order.Field.Power
import Mathlib.Data.Rat.Cast.Order
import Mathlib.Tactic.Linarith
import Mathlib.Tactic.Positivity
import Mathlib.Tactic.Ring
import FixedFragment.Number.Binary32

set_option autoImplicit false

/-!
# Rounding to floating-point numbers

What the bits stand for that are given to a number (`toRat`). A significand of 24 bits is the
quotient scaled by a power of two and rounded, so the bits of a number are off by at most the
`2 ^ 24`-th part of it (`toRat_ofRat_near`), and not at all for integers of at most 24 bits
(`toRat_ofRat_natCast`). Numbers so small or so large that their exponent has no field are left out.
-/

namespace FixedFragment.Binary32

/-! ## Exponents -/

/-- Shifting the two parts of a quotient scales it by a power of two. -/
theorem shifted_quotient (num den : Nat) (e : Int) :
    ((num <<< (-e).toNat : Nat) : Rat) / ((den <<< e.toNat : Nat) : Rat)
      = (num : Rat) / den * 2 ^ (-e) := by
  obtain ⟨n, rfl | rfl⟩ := e.eq_nat_or_neg
  · rw [Int.toNat_neg_natCast, Int.toNat_natCast, Nat.shiftLeft_zero, Nat.shiftLeft_eq, zpow_neg,
      zpow_natCast]
    push_cast
    rw [div_mul_eq_div_div, div_eq_mul_inv]
  · rw [neg_neg, Int.toNat_neg_natCast, Int.toNat_natCast, Nat.shiftLeft_zero, Nat.shiftLeft_eq,
      zpow_natCast]
    push_cast
    rw [mul_div_right_comm]

theorem shifted_pos {den : Nat} (hden : 0 < den) (n : Nat) : 0 < den <<< n := by
  rw [Nat.shiftLeft_eq]
  positivity

theorem shifted_lt_iff {num den : Nat} (hden : 0 < den) (e : Int) :
    num <<< (-e).toNat < den <<< e.toNat ↔ (num : Rat) / den < 2 ^ e := by
  have hpos : (0 : Rat) < ((den <<< e.toNat : Nat) : Rat) := by
    exact_mod_cast shifted_pos hden e.toNat
  rw [← Nat.cast_lt (α := Rat), ← div_lt_one hpos, shifted_quotient, zpow_neg, ← div_eq_mul_inv,
    div_lt_one (by positivity)]

/-- The lengths of the two parts give the exponent up to one. -/
theorem log2_quotient_bounds {num den : Nat} (hnum : 0 < num) (hden : 0 < den) :
    (2 : Rat) ^ ((Nat.log2 num : Int) - Nat.log2 den - 1) < (num : Rat) / den
      ∧ (num : Rat) / den < 2 ^ ((Nat.log2 num : Int) - Nat.log2 den + 1) := by
  have hnumLow : (2 : Rat) ^ Nat.log2 num ≤ num := by exact_mod_cast Nat.log2_self_le hnum.ne'
  have hnumHigh : (num : Rat) < 2 ^ (Nat.log2 num + 1) := by exact_mod_cast Nat.lt_log2_self
  have hdenLow : (2 : Rat) ^ Nat.log2 den ≤ den := by exact_mod_cast Nat.log2_self_le hden.ne'
  have hdenHigh : (den : Rat) < 2 ^ (Nat.log2 den + 1) := by exact_mod_cast Nat.lt_log2_self
  have hpos : (0 : Rat) < den := by exact_mod_cast hden
  constructor
  · calc (2 : Rat) ^ ((Nat.log2 num : Int) - Nat.log2 den - 1)
        = 2 ^ Nat.log2 num / 2 ^ (Nat.log2 den + 1) := by
          rw [sub_sub, zpow_sub₀ two_ne_zero]
          rfl
      _ < 2 ^ Nat.log2 num / den := by gcongr
      _ ≤ num / den := by gcongr
  · calc (num : Rat) / den < 2 ^ (Nat.log2 num + 1) / den := by gcongr
      _ ≤ 2 ^ (Nat.log2 num + 1) / 2 ^ Nat.log2 den := by gcongr
      _ = 2 ^ ((Nat.log2 num : Int) - Nat.log2 den + 1) := by
          rw [sub_add_eq_add_sub, zpow_sub₀ two_ne_zero]
          rfl

theorem exponent_bounds {num den : Nat} (hnum : 0 < num) (hden : 0 < den) :
    (2 : Rat) ^ exponent num den ≤ (num : Rat) / den
      ∧ (num : Rat) / den < 2 ^ (exponent num den + 1) := by
  obtain ⟨hlow, hhigh⟩ := log2_quotient_bounds hnum hden
  have hcompare := @shifted_lt_iff num den hden ((Nat.log2 num : Int) - Nat.log2 den)
  unfold exponent
  simp only
  split
  · next h =>
      rw [sub_add_cancel]
      exact ⟨hlow.le, hcompare.mp h⟩
  · next h => exact ⟨not_lt.mp (mt hcompare.mpr h), hhigh⟩

/-- The exponent of a quotient between two powers of two. -/
theorem exponent_mem {num den : Nat} (hnum : 0 < num) (hden : 0 < den) {low high : Int}
    (hlow : (2 : Rat) ^ low ≤ (num : Rat) / den) (hhigh : (num : Rat) / den < 2 ^ high) :
    low ≤ exponent num den ∧ exponent num den < high := by
  obtain ⟨hleast, hmost⟩ := exponent_bounds hnum hden
  have hlow := lt_of_le_of_lt hlow hmost
  have hhigh := lt_of_le_of_lt hleast hhigh
  rw [zpow_lt_zpow_iff_right₀ one_lt_two] at hlow hhigh
  omega

/-! ## Significands -/

/-- The quotient scaled by `2 ^ (23 - e)` and rounded. -/
def significand (num den : Nat) (e : Int) : Nat :=
  roundDiv (num <<< (23 - e).toNat) (den <<< (e - 23).toNat)

theorem scale_unscale (e : Int) : (2 : Rat) ^ (23 - e) * 2 ^ (e - 23) = 1 := by
  rw [← zpow_add₀ two_ne_zero, show 23 - e + (e - 23) = 0 by ring, zpow_zero]

theorem roundDiv_near (num : Nat) {den : Nat} (hden : 0 < den) :
    |(roundDiv num den : Rat) - (num : Rat) / den| ≤ 1 / 2 := by
  obtain ⟨hlow, hhigh⟩ := roundDiv_bounds num den hden
  have hpos : (0 : Rat) < den := by exact_mod_cast hden
  have hlow : (2 : Rat) * num ≤ (2 * roundDiv num den + 1) * den := by exact_mod_cast hlow
  have hhigh : (2 : Rat) * roundDiv num den * den ≤ 2 * num + den := by exact_mod_cast hhigh
  have hquotient : (num : Rat) / den * den = num := div_mul_cancel₀ _ hpos.ne'
  rw [abs_le]
  constructor <;> by_contra hcon <;> nlinarith

theorem roundDiv_one (num : Nat) : roundDiv num 1 = num := by
  simp [roundDiv, Nat.mod_one]

theorem significand_near (num : Nat) {den : Nat} (hden : 0 < den) (e : Int) :
    |(significand num den e : Rat) - (num : Rat) / den * 2 ^ (23 - e)| ≤ 1 / 2 := by
  have hquotient := shifted_quotient num den (e - 23)
  rw [neg_sub] at hquotient
  rw [← hquotient]
  exact roundDiv_near _ (shifted_pos hden (e - 23).toNat)

/-- At its exponent a quotient has a significand of 24 bits, or it was rounded up to the next
power of two. -/
theorem significand_bounds {num den : Nat} (hnum : 0 < num) (hden : 0 < den) :
    2 ^ 23 ≤ significand num den (exponent num den)
      ∧ significand num den (exponent num den) ≤ 2 ^ 24 := by
  have hnear := abs_le.mp (significand_near num hden (exponent num den))
  obtain ⟨hlow, hhigh⟩ := exponent_bounds hnum hden
  generalize exponent num den = e at *
  have hpos : (0 : Rat) < 2 ^ (23 - e) := by positivity
  have hlow : (2 : Rat) ^ 23 ≤ (num : Rat) / den * 2 ^ (23 - e) := by
    calc (2 : Rat) ^ 23 = 2 ^ e * 2 ^ (23 - e) := by
          rw [← zpow_add₀ two_ne_zero, add_sub_cancel]
          rfl
      _ ≤ (num : Rat) / den * 2 ^ (23 - e) := by gcongr
  have hhigh : (num : Rat) / den * 2 ^ (23 - e) < 2 ^ 24 := by
    calc (num : Rat) / den * 2 ^ (23 - e) < 2 ^ (e + 1) * 2 ^ (23 - e) := by gcongr
      _ = 2 ^ 24 := by
          rw [← zpow_add₀ two_ne_zero, show e + 1 + (23 - e) = 24 by ring]
          rfl
  -- The scaled quotient is in [2 ^ 23, 2 ^ 24), and integers are off by at most one half.
  constructor
  · have hleast : ((2 ^ 23 : Nat) : Rat) < significand num den e + 1 := by
      push_cast
      linarith
    exact Nat.lt_add_one_iff.mp (by exact_mod_cast hleast)
  · have hmost : (significand num den e : Rat) < ((2 ^ 24 + 1 : Nat) : Rat) := by
      push_cast
      linarith
    exact Nat.lt_add_one_iff.mp (by exact_mod_cast hmost)

/-! ## Bits -/

/-- The number that the bits of a finite number without sign stand for. -/
def toRat (w : UInt32) : Rat :=
  let field : Nat := w.toNat / 2 ^ 23
  let fraction : Nat := w.toNat % 2 ^ 23
  if field = 0 then (fraction : Rat) * 2 ^ (-149 : Int)
  else ((2 ^ 23 + fraction : Nat) : Rat) * 2 ^ ((field : Int) - 150)

theorem toRat_zero : toRat 0 = 0 := zero_mul _

/-- The highest bit of a significand adds one to the exponent field, and one that was rounded up to
25 bits adds two and leaves no fraction. -/
theorem toRat_ofFields {place s : Nat} (hplace : place ≤ 252) (hlow : 2 ^ 23 ≤ s)
    (hhigh : s ≤ 2 ^ 24) :
    toRat (UInt32.ofNat (min infinity (place <<< 23 + s)))
      = (s : Rat) * 2 ^ ((place : Int) - 149) := by
  have hword : (UInt32.ofNat (min infinity (place <<< 23 + s))).toNat = place * 2 ^ 23 + s := by
    have hfinite : place * 2 ^ 23 + s ≤ infinity := by
      unfold infinity
      omega
    rw [Nat.shiftLeft_eq, Nat.min_eq_right hfinite]
    exact UInt32.toNat_ofNat_of_lt' (Nat.lt_of_le_of_lt hfinite (by decide))
  rw [toRat, hword]
  -- A carry out of the fraction goes into the field and leaves the fraction empty.
  by_cases hcarry : s = 2 ^ 24
  · have hfield : (place * 2 ^ 23 + s) / 2 ^ 23 = place + 2 := by omega
    have hfraction : (place * 2 ^ 23 + s) % 2 ^ 23 = 0 := by omega
    have hexponent : ((place + 2 : Nat) : Int) - 150 = ((place : Int) - 149) + 1 := by omega
    rw [hfield, hfraction, if_neg (Nat.succ_ne_zero _), hcarry, hexponent,
      zpow_add_one₀ two_ne_zero]
    push_cast
    ring
  · have hfield : (place * 2 ^ 23 + s) / 2 ^ 23 = place + 1 := by omega
    have hfraction : 2 ^ 23 + (place * 2 ^ 23 + s) % 2 ^ 23 = s := by omega
    have hexponent : ((place + 1 : Nat) : Int) - 150 = (place : Int) - 149 := by omega
    rw [hfield, hfraction, if_neg (Nat.succ_ne_zero _), hexponent]

/-- The bits of a quotient stand for its significand at its exponent. -/
theorem toRat_ofQuotient {num den : Nat} (hnum : 0 < num) (hden : 0 < den)
    (hlow : -126 ≤ exponent num den) (hhigh : exponent num den < 127) :
    toRat (ofQuotient num den)
      = (significand num den (exponent num den) : Rat) * 2 ^ (exponent num den - 23) := by
  obtain ⟨hleast, hmost⟩ := significand_bounds hnum hden
  have hplace : (exponent num den + 126).toNat ≤ 252 := by omega
  have hexponent : ((exponent num den + 126).toNat : Int) - 149 = exponent num den - 23 := by
    omega
  have hfields := toRat_ofFields hplace hleast hmost
  rw [hexponent] at hfields
  rw [ofQuotient, if_neg hnum.ne']
  simp only [if_neg (not_lt.mpr hlow)]
  exact hfields

/-! ## Numbers -/

theorem num_div_den {x : Rat} (hx : 0 < x) :
    0 < x.num.toNat ∧ (x.num.toNat : Rat) / x.den = x := by
  have hnum : 0 < x.num := Rat.num_pos.mpr hx
  have hcast : (x.num.toNat : Rat) = (x.num : Rat) := by
    exact_mod_cast congrArg (Int.cast (R := Rat)) (Int.toNat_of_nonneg hnum.le)
  exact ⟨by omega, by rw [hcast, Rat.num_div_den]⟩

/-- The bits of a number are off by at most half of the last of 24 places. -/
theorem toRat_ofRat_near {x : Rat} (hlow : 2 ^ (-126 : Int) ≤ x) (hhigh : x < 2 ^ (127 : Int)) :
    |toRat (ofRat x) - x| * 2 ^ 24 ≤ x := by
  have hx : 0 < x := lt_of_lt_of_le (by positivity) hlow
  obtain ⟨hnum, hquotient⟩ := num_div_den hx
  have hmem := exponent_mem hnum x.den_pos (hquotient.symm ▸ hlow) (hquotient.symm ▸ hhigh)
  have hbound := (exponent_bounds hnum x.den_pos).1
  have hnear := significand_near x.num.toNat x.den_pos (exponent x.num.toNat x.den)
  rw [ofRat, toRat_ofQuotient hnum x.den_pos hmem.1 hmem.2]
  rw [hquotient] at hnear hbound
  -- From here on only the two bounds matter, not how the exponent was found.
  generalize exponent x.num.toNat x.den = e at *
  generalize significand x.num.toNat x.den e = s at *
  have hpow : (0 : Rat) < 2 ^ (e - 23) := by positivity
  have hscaled : (s : Rat) * 2 ^ (e - 23) - x = (s - x * 2 ^ (23 - e)) * 2 ^ (e - 23) := by
    rw [sub_mul, mul_assoc x, scale_unscale, mul_one]
  calc |(s : Rat) * 2 ^ (e - 23) - x| * 2 ^ 24
      = |(s : Rat) - x * 2 ^ (23 - e)| * 2 ^ (e - 23) * 2 ^ 24 := by
        rw [hscaled, abs_mul, abs_of_pos hpow]
    _ ≤ 1 / 2 * 2 ^ (e - 23) * 2 ^ 24 := by gcongr
    _ = 2 ^ e := by
        rw [zpow_sub₀ two_ne_zero]
        norm_num
        ring
    _ ≤ x := hbound

/-- An integer of at most 24 bits is not rounded. -/
theorem toRat_ofRat_natCast {n : Nat} (hn : n < 2 ^ 24) : toRat (ofRat (n : Rat)) = n := by
  rcases Nat.eq_zero_or_pos n with rfl | hpos
  · exact toRat_zero
  · have hlow : (2 : Rat) ^ (0 : Int) ≤ (n : Rat) / (1 : Nat) := by
      rw [zpow_zero, Nat.cast_one, div_one]
      exact_mod_cast hpos
    have hhigh : (n : Rat) / (1 : Nat) < 2 ^ (24 : Int) := by
      rw [Nat.cast_one, div_one]
      exact_mod_cast hn
    have hmem := exponent_mem hpos Nat.one_pos hlow hhigh
    have hsignificand : significand n 1 (exponent n 1) = n * 2 ^ (23 - exponent n 1).toNat := by
      rw [significand, show (exponent n 1 - 23).toNat = 0 by omega, Nat.shiftLeft_zero,
        roundDiv_one, Nat.shiftLeft_eq]
    have hscale : (2 : Rat) ^ (23 - exponent n 1).toNat = 2 ^ (23 - exponent n 1) := by
      rw [← zpow_natCast, Int.toNat_of_nonneg (by omega)]
    show toRat (ofQuotient (n : Rat).num.toNat (n : Rat).den) = n
    rw [Rat.num_natCast, Rat.den_natCast, Int.toNat_natCast,
      toRat_ofQuotient hpos Nat.one_pos (by omega) (by omega), hsignificand]
    push_cast
    rw [hscale, mul_assoc, scale_unscale, mul_one]

end FixedFragment.Binary32
