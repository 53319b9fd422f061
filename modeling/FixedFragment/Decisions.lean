import FixedFragment.PipelineState

set_option autoImplicit false

/-!
# Shading decisions

What of the pipeline state is alive in a fragment shader. Tests that can never change the result
are left out, and combinations of registers that shade alike are brought together. The identifier
of a shader and its text are both made from these decisions alone.
-/

namespace FixedFragment

namespace PipelineState

/-! ## Tests that never change the result -/

/-- Whether a fragment of alpha 0 counts as unseen: it writes no depth or stencil value, blending
scales its color by its own alpha, and the factor of the destination is none of the three that
weigh the destination otherwise than by 1 because source alpha is 0. -/
def zeroAlphaUnseen (s : PipelineState) : Bool :=
  !s.stencilTestEnabled && !s.depthTestEnabled && s.blend.enabled && s.blend.src = .srcAlpha &&
    match s.blend.dst with
    | .srcAlpha | .doubleSrcAlpha | .doubleInvSrcAlpha => false
    | .srcColor | .invSrcColor | .invSrcAlpha | .dstAlpha | .invDstAlpha | .doubleDstAlpha
    | .doubleInvDstAlpha | .fixed => true

/-- Whether the alpha test is known to let every fragment pass, or to stop only fragments of
alpha 0 while these count as unseen. -/
def alphaTestTrivial (s : PipelineState) : Bool :=
  match s.alphaTest.func with
  | .never | .equal | .less => false
  | .always => true
  | .greaterEqual => s.alphaTest.reference = 0
  | .lessEqual => s.alphaTest.reference = 255
  | .notEqual | .greater => s.alphaTest.reference = 0 && s.zeroAlphaUnseen

/-- Whether the color test lets every fragment pass. -/
def colorTestTrivial (s : PipelineState) : Bool :=
  match s.colorTest.func with
  | .always => true
  | .never | .equal | .notEqual => false

/-! ## Doubled source alpha -/

/-- Whether exactly one blend factor is twice the source alpha and the other is neither source alpha
nor one minus it, so that the shader can double alpha and blending can use it once. No other factor
is ruled out, not even one minus twice the source alpha. -/
def alphaDoubledInShader (s : PipelineState) : Bool :=
  s.blend.enabled &&
    match s.blend.src, s.blend.dst with
    | .doubleSrcAlpha, .doubleSrcAlpha => false
    | .doubleSrcAlpha, dst => dst ≠ .srcAlpha && dst ≠ .invSrcAlpha
    | src, .doubleSrcAlpha => src ≠ .srcAlpha && src ≠ .invSrcAlpha
    | _, _ => false

end PipelineState

/-! ## Decisions -/

/-- How a texture takes part in shading. -/
structure TextureUse where
  function : TextureFunction
  /-- Texel alpha takes part in the combination. -/
  rgba : Bool
  /-- The texel is looked up by projecting a coordinate with three components. -/
  projected : Bool
deriving DecidableEq, Repr

/-- Everything that a fragment shader branches on. -/
structure Decisions where
  clearMode : Bool := false
  texture : Option TextureUse := none
  /-- A second color is added after texturing. -/
  secondaryColor : Bool := false
  /-- The alpha test is switched on, alive or not. -/
  alphaTestEnabled : Bool := false
  /-- The alpha test that is alive. -/
  alphaTest : Option CompareFunc := none
  /-- The color test is switched on, alive or not. -/
  colorTestEnabled : Bool := false
  /-- The color test that is alive. -/
  colorTest : Option ColorTestFunc := none
  fog : Bool := false
  colorDoubling : Bool := false
  alphaDoubling : Bool := false
deriving DecidableEq, Repr

/-- How the texture of a state takes part in shading. Where every texel has alpha 1, all functions
but `replace` combine alike with and without texel alpha; the reserved functions read no texel. -/
def PipelineState.textureUse (s : PipelineState) : TextureUse where
  function := s.textureFunction
  rgba := s.textureAlphaUsed && !(s.textureFullAlpha && s.textureFunction ≠ .replace)
    && !s.textureFunction.isReserved
  projected := s.uvGenMode = .textureMatrix

/-- The decisions for a state. In clear mode everything else is off. -/
def Decisions.ofState (s : PipelineState) : Decisions :=
  if s.clearMode then
    { clearMode := true }
  else
    { texture := if s.textureEnabled then some s.textureUse else none
      secondaryColor := s.lightingEnabled && s.secondaryColor
      alphaTestEnabled := s.alphaTest.enabled
      alphaTest :=
        if s.alphaTest.enabled && !s.alphaTestTrivial then some s.alphaTest.func else none
      colorTestEnabled := s.colorTest.enabled
      colorTest :=
        if s.colorTest.enabled && !s.colorTestTrivial then some s.colorTest.func else none
      fog := s.fogEnabled && !s.throughMode
      colorDoubling := s.colorDoubling
      alphaDoubling := s.alphaDoubledInShader }

theorem Decisions.clearMode_ofState (s : PipelineState) :
    (Decisions.ofState s).clearMode = s.clearMode := by
  unfold Decisions.ofState
  split
  · next h => exact h.symm
  · next h => exact (Bool.eq_false_iff.mpr h).symm

end FixedFragment
