import FixedFragment.Proofs.ByteGrid
import FixedFragment.ShaderInput

set_option autoImplicit false

/-!
# The range of the working color

Products and mixtures of numbers between 0 and 1 stay between 0 and 1; sums need not. Alpha is made
of products, so the working alpha of a fragment in range is in range
(`Decisions.workingColor_a_inUnit`). The color leaves the range by a sum or by doubling alone: where
decisions call for neither, it stays in range up to the color test
(`Decisions.doubled_rgb_inUnit`).
-/

namespace FixedFragment

/-! ## Numbers -/

theorem inUnit_mul {x y : Rat} (hx : 0 ≤ x ∧ x ≤ 1) (hy : 0 ≤ y ∧ y ≤ 1) :
    0 ≤ x * y ∧ x * y ≤ 1 :=
  ⟨mul_nonneg hx.1 hy.1, mul_le_one₀ hx.2 hy.1 hy.2⟩

theorem inUnit_mix {x y w : Rat} (hx : 0 ≤ x ∧ x ≤ 1) (hy : 0 ≤ y ∧ y ≤ 1)
    (hw : 0 ≤ w ∧ w ≤ 1) : 0 ≤ x * (1 - w) + y * w ∧ x * (1 - w) + y * w ≤ 1 := by
  have hrest : 0 ≤ 1 - w := sub_nonneg.mpr hw.2
  constructor
  · exact add_nonneg (mul_nonneg hx.1 hrest) (mul_nonneg hy.1 hw.1)
  · calc x * (1 - w) + y * w ≤ 1 * (1 - w) + 1 * w :=
          add_le_add (mul_le_mul_of_nonneg_right hx.2 hrest) (mul_le_mul_of_nonneg_right hy.2 hw.1)
      _ = 1 := by linarith

/-! ## Colors -/

namespace Rgb

variable {c d w : Rgb}

theorem InUnit.mul (hc : c.InUnit) (hd : d.InUnit) : (c * d).InUnit :=
  ⟨inUnit_mul hc.1 hd.1, inUnit_mul hc.2.1 hd.2.1, inUnit_mul hc.2.2 hd.2.2⟩

theorem InUnit.mix (hc : c.InUnit) (hd : d.InUnit) (hw : w.InUnit) : (c.mix d w).InUnit :=
  ⟨inUnit_mix hc.1 hd.1 hw.1, inUnit_mix hc.2.1 hd.2.1 hw.2.1, inUnit_mix hc.2.2 hd.2.2 hw.2.2⟩

end Rgb

/-- The texture environment color of a state is in range. -/
theorem Uniforms.inUnit_textureEnv (s : PipelineState) :
    (Uniforms.ofState s).textureEnv.InUnit :=
  ⟨inUnit_unitChannel _, inUnit_unitChannel _, inUnit_unitChannel _⟩

/-- All colors of a fragment are in range. -/
def Fragment.InUnit (x : Fragment) : Prop :=
  x.primary.InUnit ∧ x.secondary.InUnit ∧ x.texel.InUnit

/-! ## Combinations -/

namespace TextureUse

variable {t : TextureUse} {env : Rgb} {primary texel c : Rgba}

/-- The reserved functions, and only these, have no combination. -/
theorem isNone_combine (t : TextureUse) (env : Rgb) (primary texel : Rgba) :
    (t.combine env primary texel).isNone = t.function.isReserved := by
  obtain ⟨function, rgba, projected⟩ := t
  cases function <;> rfl

/-- Every texture function takes alpha from the primary color, from the texel, or from both by a
product. -/
theorem combine_a (hc : t.combine env primary texel = some c) :
    c.a = primary.a ∨ c.a = texel.a ∨ c.a = primary.a * texel.a := by
  obtain ⟨function, rgba, projected⟩ := t
  cases function with
  | reserved5 | reserved6 | reserved7 => exact nomatch hc
  | decal =>
      cases hc
      exact .inl rfl
  | blend =>
      cases hc
      exact .inr (.inr rfl)
  | modulate | replace | add =>
      cases hc
      cases rgba <;> simp

theorem combine_a_inUnit (hc : t.combine env primary texel = some c) (hp : primary.InUnit)
    (ht : texel.InUnit) : 0 ≤ c.a ∧ c.a ≤ 1 := by
  rcases combine_a hc with h | h | h <;> rw [h]
  · exact hp.2
  · exact ht.2
  · exact inUnit_mul hp.2 ht.2

/-- Only the sum of primary color and texel can exceed the range. -/
theorem combine_rgb_inUnit (hadd : t.function ≠ .add) (hc : t.combine env primary texel = some c)
    (henv : env.InUnit) (hp : primary.InUnit) (ht : texel.InUnit) : c.rgb.InUnit := by
  obtain ⟨function, rgba, projected⟩ := t
  cases function with
  | reserved5 | reserved6 | reserved7 => exact nomatch hc
  | modulate =>
      cases hc
      exact hp.1.mul ht.1
  | decal =>
      cases hc
      cases rgba with
      | true => exact hp.1.mix ht.1 (Rgb.inUnit_grey ht.2.1 ht.2.2)
      | false => exact ht.1
  | blend =>
      cases hc
      exact hp.1.mix henv ht.1
  | replace =>
      cases hc
      exact ht.1
  | add => exact absurd rfl hadd

end TextureUse

/-! ## The working color -/

namespace Decisions

variable {d : Decisions} {u : Uniforms} {x : Fragment}

/-- The working alpha is in range: the second color has alpha 0. -/
theorem workingColor_a_inUnit (hx : x.InUnit) :
    0 ≤ (d.workingColor u x).a ∧ (d.workingColor u x).a ≤ 1 := by
  obtain ⟨hp, -, ht⟩ := hx
  have hsum : ∀ (c : Rgba) (second : Rgb), (c + ⟨second, 0⟩ : Rgba).a = c.a :=
    fun c _ => Rat.add_zero c.a
  rw [workingColor]
  cases d.texture with
  | none =>
      simp only [hsum]
      exact hp.2
  | some t =>
      cases hc : t.combine u.textureEnv x.primary x.texel with
      | none =>
          simp only [hc]
          exact hp.2
      | some c =>
          simp only [hc, hsum]
          exact TextureUse.combine_a_inUnit hc hp ht

/-- Whether the working color is a sum: of the second color where that is added, or of primary
color and texel. -/
def addsToColor (d : Decisions) : Bool :=
  match d.texture with
  | none => d.secondaryColor
  | some t => !t.function.isReserved && (d.secondaryColor || t.function = .add)

/-- Whether the color is added to or doubled on its way to the color test. -/
def exceedsWhite (d : Decisions) : Bool := d.colorDoubling || d.addsToColor

theorem workingColor_rgb_inUnit (hd : d.addsToColor = false) (henv : u.textureEnv.InUnit)
    (hx : x.InUnit) : (d.workingColor u x).rgb.InUnit := by
  obtain ⟨hp, -, ht⟩ := hx
  rw [workingColor]
  unfold addsToColor at hd
  cases htexture : d.texture with
  | none =>
      simp only [htexture] at hd
      simp only [hd, Bool.false_eq_true, if_false, Rgba.add_black]
      exact hp.1
  | some t =>
      cases hc : t.combine u.textureEnv x.primary x.texel with
      | none =>
          simp only [hc]
          exact hp.1
      | some c =>
          have hdefined : t.function.isReserved = false := by
            rw [← t.isNone_combine u.textureEnv x.primary x.texel, hc]
            rfl
          simp only [htexture, hdefined, Bool.not_false, Bool.true_and, Bool.or_eq_false_iff,
            decide_eq_false_iff_not] at hd
          simp only [hc, hd.1, Bool.false_eq_true, if_false, Rgba.add_black]
          exact TextureUse.combine_rgb_inUnit hd.2 hc henv hp ht

/-- Without a sum and without doubling the color stays in range up to the color test. -/
theorem doubled_rgb_inUnit (hd : d.exceedsWhite = false) (henv : u.textureEnv.InUnit)
    (hx : x.InUnit) : (d.doubled (d.workingColor u x)).rgb.InUnit := by
  rw [exceedsWhite, Bool.or_eq_false_iff] at hd
  rw [doubled, hd.1]
  exact workingColor_rgb_inUnit hd.2 henv hx

end Decisions

end FixedFragment
