import FixedFragment.Color

set_option autoImplicit false

/-!
# Components of colors

The components of sums, products and mixtures of colors, so that equations of colors come down to
equations of numbers.
-/

namespace FixedFragment

attribute [ext] Rgb Rgba

namespace Rgb

@[simp] theorem add_mk (r g b r' g' b' : Rat) :
    (⟨r, g, b⟩ + ⟨r', g', b'⟩ : Rgb) = ⟨r + r', g + g', b + b'⟩ := rfl

@[simp] theorem sub_mk (r g b r' g' b' : Rat) :
    (⟨r, g, b⟩ - ⟨r', g', b'⟩ : Rgb) = ⟨r - r', g - g', b - b'⟩ := rfl

@[simp] theorem mul_mk (r g b r' g' b' : Rat) :
    (⟨r, g, b⟩ * ⟨r', g', b'⟩ : Rgb) = ⟨r * r', g * g', b * b'⟩ := rfl

theorem mul_comm (c d : Rgb) : c * d = d * c :=
  Rgb.ext (Rat.mul_comm _ _) (Rat.mul_comm _ _) (Rat.mul_comm _ _)

end Rgb

@[simp] theorem Rgba.add_mk (c d : Rgb) (a b : Rat) :
    (⟨c, a⟩ + ⟨d, b⟩ : Rgba) = ⟨c + d, a + b⟩ := rfl

theorem Rgba.add_black (c : Rgba) : c + ⟨.grey 0, 0⟩ = c :=
  Rgba.ext (Rgb.ext (Rat.add_zero _) (Rat.add_zero _) (Rat.add_zero _)) (Rat.add_zero _)

/-! ## Colors in range -/

/-- All components lie between 0 and 1. -/
def Rgb.InUnit (c : Rgb) : Prop :=
  (0 ≤ c.r ∧ c.r ≤ 1) ∧ (0 ≤ c.g ∧ c.g ≤ 1) ∧ (0 ≤ c.b ∧ c.b ≤ 1)

/-- All components, alpha too, lie between 0 and 1. -/
def Rgba.InUnit (c : Rgba) : Prop := c.rgb.InUnit ∧ 0 ≤ c.a ∧ c.a ≤ 1

theorem Rgb.inUnit_grey {x : Rat} (h0 : 0 ≤ x) (h1 : x ≤ 1) : (grey x).InUnit :=
  ⟨⟨h0, h1⟩, ⟨h0, h1⟩, ⟨h0, h1⟩⟩

end FixedFragment
