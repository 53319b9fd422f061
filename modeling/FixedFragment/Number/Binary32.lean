set_option autoImplicit false

/-!
# Binary floating-point numbers of 32 bits

The bits of the floating-point number nearest to a quotient of natural numbers. A tie goes to the
even neighbour, tiny quotients to the subnormal numbers, and quotients past the largest number to
infinity.
-/

namespace FixedFragment.Binary32

/-- The integer nearest to `num / den`, of two the even one. -/
def roundDiv (num den : Nat) : Nat :=
  let q := num / den
  let twice := 2 * (num % den)
  if den < twice ∨ (twice = den ∧ q % 2 = 1) then q + 1 else q

/-- The rounded quotient is at most half away from the quotient. -/
theorem roundDiv_bounds (num den : Nat) (h : 0 < den) :
    2 * num ≤ (2 * roundDiv num den + 1) * den ∧ 2 * roundDiv num den * den ≤ 2 * num + den := by
  have hdiv : den * (num / den) + num % den = num := Nat.div_add_mod num den
  have hmod : num % den < den := Nat.mod_lt num h
  unfold roundDiv
  generalize num / den = q at *
  generalize num % den = r at *
  have hlow : 2 * q * den = 2 * (den * q) := by grind
  have hodd : (2 * q + 1) * den = 2 * (den * q) + den := by grind
  have hnext : 2 * (q + 1) * den = 2 * (den * q) + 2 * den := by grind
  have hnextOdd : (2 * (q + 1) + 1) * den = 2 * (den * q) + 3 * den := by grind
  simp only
  split
  · rw [hnext, hnextOdd]
    constructor <;> omega
  · rw [hlow, hodd]
    constructor <;> omega

/-- The exponent `e` of a positive quotient, where `2 ^ e ≤ num / den < 2 ^ (e + 1)`. -/
def exponent (num den : Nat) : Int :=
  let e : Int := (Nat.log2 num : Int) - Nat.log2 den
  if num <<< (-e).toNat < den <<< e.toNat then e - 1 else e

/-- The bits of infinity. -/
def infinity : Nat := 0x7F800000

/-- The bits of the number nearest to `num / den`. Significands have at most 24 bits and exponents
are at least `-126`. The 24th bit of a significand is not stored: it adds one to the exponent
field, so a significand that rounds up to 25 bits is right without a case of its own. -/
def ofQuotient (num den : Nat) : UInt32 :=
  if num = 0 then
    0
  else
    let e := exponent num den
    let e := if e < -126 then -126 else e
    let significand := roundDiv (num <<< (23 - e).toNat) (den <<< (e - 23).toNat)
    UInt32.ofNat (min infinity ((e + 126).toNat <<< 23 + significand))

/-- The bits of the number nearest to a rational number that is not negative. -/
def ofRat (x : Rat) : UInt32 := ofQuotient x.num.toNat x.den

/-- The bytes of a word, the lowest first. -/
def bytes (w : UInt32) : List UInt8 :=
  [w.toUInt8, (w >>> 8).toUInt8, (w >>> 16).toUInt8, (w >>> 24).toUInt8]

end FixedFragment.Binary32
