set_option autoImplicit false

/-!
# Hexadecimal numbers

Lower-case hexadecimal text of a fixed width.
-/

namespace FixedFragment.Hex

/-- The `width` lowest hexadecimal digits of `n`, most significant first. -/
def digits (width n : Nat) : List Char :=
  (List.range width).reverse.map fun i => Nat.digitChar (n >>> (4 * i) % 16)

/-- The `width` lowest hexadecimal digits of `n` as text. -/
def text (width n : Nat) : String := String.ofList (digits width n)

theorem length_digits (width n : Nat) : (digits width n).length = width := by
  simp [digits]

end FixedFragment.Hex
