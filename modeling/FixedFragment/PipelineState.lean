import FixedFragment.Compare
import FixedFragment.Blend.Factor
import FixedFragment.Texture

set_option autoImplicit false

/-!
# Pipeline state

The registers of the fixed-function pipeline that the fragment stage depends on. The default of
each field is its value after a reset. Colors hold red in the lowest byte, then green, then blue;
their highest byte is kept but has no meaning.
-/

namespace FixedFragment

/-- The alpha test: a fragment stays if its alpha passes `func` against `reference`. -/
structure AlphaTest where
  enabled : Bool := false
  func : CompareFunc := .always
  reference : UInt8 := 0
  mask : UInt8 := 0
deriving DecidableEq, Repr

/-- The color test: a fragment stays if its masked color passes `func` against the masked
reference. -/
structure ColorTest where
  enabled : Bool := false
  func : ColorTestFunc := .always
  reference : UInt32 := 0
  mask : UInt32 := 0xFFFFFF
deriving DecidableEq, Repr

/-- Blending of the fragment with the color behind it. -/
structure Blend where
  enabled : Bool := false
  src : BlendSrcFactor := .srcAlpha
  dst : BlendDstFactor := .invSrcAlpha
deriving DecidableEq, Repr

/-- Everything that the fragment stage depends on. -/
structure PipelineState where
  clearMode : Bool := false
  /-- Vertices arrive transformed; fog is never applied to them. -/
  throughMode : Bool := false
  textureEnabled : Bool := false
  textureFunction : TextureFunction := .modulate
  /-- The texture function reads texel alpha instead of taking it as 1. -/
  textureAlphaUsed : Bool := false
  /-- The texture has no alpha bits, so every texel has alpha 1. -/
  textureFullAlpha : Bool := false
  uvGenMode : UvGenMode := .texCoords
  textureEnvColor : UInt32 := 0
  lightingEnabled : Bool := false
  /-- Lighting yields a second color that is added after texturing. -/
  secondaryColor : Bool := false
  fogEnabled : Bool := false
  fogColor : UInt32 := 0
  colorDoubling : Bool := false
  alphaTest : AlphaTest := {}
  colorTest : ColorTest := {}
  blend : Blend := {}
  depthTestEnabled : Bool := false
  stencilTestEnabled : Bool := false
deriving DecidableEq, Repr

end FixedFragment
