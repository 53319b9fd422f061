import FixedFragment.Register

set_option autoImplicit false

/-!
# Blend factors

The factors by which blending scales the source color and the destination color.
-/

namespace FixedFragment

/-- The factor of the source color. -/
inductive BlendSrcFactor where
  | dstColor
  | invDstColor
  | srcAlpha
  | invSrcAlpha
  | dstAlpha
  | invDstAlpha
  | doubleSrcAlpha
  | doubleInvSrcAlpha
  | doubleDstAlpha
  | doubleInvDstAlpha
  | fixed
deriving DecidableEq, Repr

instance : RegisterField BlendSrcFactor where
  label := "blend src factor"
  values := [.dstColor, .invDstColor, .srcAlpha, .invSrcAlpha, .dstAlpha, .invDstAlpha,
    .doubleSrcAlpha, .doubleInvSrcAlpha, .doubleDstAlpha, .doubleInvDstAlpha, .fixed]
  mem_values a := by cases a <;> decide

/-- The factor of the destination color. -/
inductive BlendDstFactor where
  | srcColor
  | invSrcColor
  | srcAlpha
  | invSrcAlpha
  | dstAlpha
  | invDstAlpha
  | doubleSrcAlpha
  | doubleInvSrcAlpha
  | doubleDstAlpha
  | doubleInvDstAlpha
  | fixed
deriving DecidableEq, Repr

instance : RegisterField BlendDstFactor where
  label := "blend dst factor"
  values := [.srcColor, .invSrcColor, .srcAlpha, .invSrcAlpha, .dstAlpha, .invDstAlpha,
    .doubleSrcAlpha, .doubleInvSrcAlpha, .doubleDstAlpha, .doubleInvDstAlpha, .fixed]
  mem_values a := by cases a <;> decide

end FixedFragment
