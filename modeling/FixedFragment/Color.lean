set_option autoImplicit false

/-!
# Colors

Colors with exact components, and the bytes of a color register.
-/

namespace FixedFragment

/-- The number between 0 and 1 nearest to `x`. -/
def clampUnit (x : Rat) : Rat := if x < 0 then 0 else if 1 < x then 1 else x

/-- A color without alpha. -/
structure Rgb where
  r : Rat
  g : Rat
  b : Rat
deriving DecidableEq, Repr

/-- A color with alpha. -/
structure Rgba where
  rgb : Rgb
  a : Rat
deriving DecidableEq, Repr

namespace Rgb

def map (f : Rat → Rat) (c : Rgb) : Rgb := ⟨f c.r, f c.g, f c.b⟩

def zipWith (f : Rat → Rat → Rat) (c d : Rgb) : Rgb := ⟨f c.r d.r, f c.g d.g, f c.b d.b⟩

instance : Add Rgb := ⟨zipWith (· + ·)⟩
instance : Sub Rgb := ⟨zipWith (· - ·)⟩
instance : Mul Rgb := ⟨zipWith (· * ·)⟩

/-- The color with all components scaled by `k`. -/
def scale (k : Rat) (c : Rgb) : Rgb := c.map (k * ·)

/-- The same number in all components. -/
def grey (x : Rat) : Rgb := ⟨x, x, x⟩

/-- The color between `c` and `d` at the weights `w`, component by component. -/
def mix (c d w : Rgb) : Rgb := c * (grey 1 - w) + d * w

end Rgb

namespace Rgba

instance : Add Rgba := ⟨fun c d => ⟨c.rgb + d.rgb, c.a + d.a⟩⟩
instance : Mul Rgba := ⟨fun c d => ⟨c.rgb * d.rgb, c.a * d.a⟩⟩

/-- The components in the order red, green, blue, alpha. -/
def toList (c : Rgba) : List Rat := [c.rgb.r, c.rgb.g, c.rgb.b, c.a]

end Rgba

/-! ## Color registers -/

/-- The byte of a word at a place, the lowest byte first. -/
def wordByte (w : UInt32) (place : Nat) : UInt8 := (w >>> UInt32.ofNat (8 * place)).toUInt8

/-- The color in a register: red in the lowest byte, then green, then blue, each taken to a
number by `channel`. -/
def registerColor (channel : UInt8 → Rat) (w : UInt32) : Rgb :=
  ⟨channel (wordByte w 0), channel (wordByte w 1), channel (wordByte w 2)⟩

end FixedFragment
