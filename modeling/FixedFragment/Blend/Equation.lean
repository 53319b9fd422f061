import FixedFragment.Color
import FixedFragment.PipelineState

set_option autoImplicit false

/-!
# The blend equation

Blending adds the source color and the destination color, each scaled by its factor. The values
of the factors are read off their names.
-/

namespace FixedFragment

/-- The colors that blending reads. -/
structure BlendInput where
  source : Rgba
  dest : Rgba
  fixedSrc : Rgb
  fixedDst : Rgb
deriving DecidableEq, Repr

/-- The value of a source factor, component by component. -/
def BlendSrcFactor.value (x : BlendInput) : BlendSrcFactor → Rgb
  | dstColor => x.dest.rgb
  | invDstColor => Rgb.grey 1 - x.dest.rgb
  | srcAlpha => Rgb.grey x.source.a
  | invSrcAlpha => Rgb.grey (1 - x.source.a)
  | dstAlpha => Rgb.grey x.dest.a
  | invDstAlpha => Rgb.grey (1 - x.dest.a)
  | doubleSrcAlpha => Rgb.grey (2 * x.source.a)
  | doubleInvSrcAlpha => Rgb.grey (2 * (1 - x.source.a))
  | doubleDstAlpha => Rgb.grey (2 * x.dest.a)
  | doubleInvDstAlpha => Rgb.grey (2 * (1 - x.dest.a))
  | fixed => x.fixedSrc

/-- The value of a destination factor, component by component. -/
def BlendDstFactor.value (x : BlendInput) : BlendDstFactor → Rgb
  | srcColor => x.source.rgb
  | invSrcColor => Rgb.grey 1 - x.source.rgb
  | srcAlpha => Rgb.grey x.source.a
  | invSrcAlpha => Rgb.grey (1 - x.source.a)
  | dstAlpha => Rgb.grey x.dest.a
  | invDstAlpha => Rgb.grey (1 - x.dest.a)
  | doubleSrcAlpha => Rgb.grey (2 * x.source.a)
  | doubleInvSrcAlpha => Rgb.grey (2 * (1 - x.source.a))
  | doubleDstAlpha => Rgb.grey (2 * x.dest.a)
  | doubleInvDstAlpha => Rgb.grey (2 * (1 - x.dest.a))
  | fixed => x.fixedDst

/-- The color that blending with two factors yields. -/
def blendColor (src : BlendSrcFactor) (dst : BlendDstFactor) (x : BlendInput) : Rgb :=
  x.source.rgb * src.value x + x.dest.rgb * dst.value x

/-- The color that a blend state yields: without blending the source color replaces the other. -/
def Blend.color (b : Blend) (x : BlendInput) : Rgb :=
  if b.enabled then blendColor b.src b.dst x else x.source.rgb

end FixedFragment
