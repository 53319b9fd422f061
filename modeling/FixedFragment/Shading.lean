import FixedFragment.Decisions
import FixedFragment.Policy
import FixedFragment.Uniforms

set_option autoImplicit false

/-!
# The fragment pipeline

What shading means, without a program: the color that decisions give to a fragment, over exact
numbers, or none where a test discards the fragment.
-/

namespace FixedFragment

/-- What shading reads of a fragment. -/
structure Fragment where
  primary : Rgba
  secondary : Rgb
  texel : Rgba
  fogDepth : Rat
deriving DecidableEq, Repr

/-- The integer nearest to `255 * x`, a half going up. -/
def quantize (x : Rat) : Rat := (x * 255 + 1 / 2).floor

/-- The color and alpha that a texture function makes of the primary color and the texel, none for
the functions that read no texel. -/
def TextureUse.combine (t : TextureUse) (env : Rgb) (primary texel : Rgba) : Option Rgba :=
  let alphaProduct := primary.a * texel.a
  match t.function with
  | .modulate =>
      some ⟨primary.rgb * texel.rgb, if t.rgba then alphaProduct else primary.a⟩
  | .decal =>
      some ⟨if t.rgba then primary.rgb.mix texel.rgb (.grey texel.a) else texel.rgb, primary.a⟩
  | .blend => some ⟨primary.rgb.mix env texel.rgb, alphaProduct⟩
  | .replace => some ⟨texel.rgb, if t.rgba then texel.a else primary.a⟩
  | .add => some ⟨primary.rgb + texel.rgb, if t.rgba then alphaProduct else primary.a⟩
  | .reserved5 | .reserved6 | .reserved7 => none

namespace Decisions

/-- The color before the tests. The second color is added last, and not at all where the texture
function reads no texel. -/
def workingColor (d : Decisions) (u : Uniforms) (x : Fragment) : Rgba :=
  let second : Rgba := ⟨if d.secondaryColor then x.secondary else .grey 0, 0⟩
  match d.texture with
  | none => x.primary + second
  | some t =>
      match t.combine u.textureEnv x.primary x.texel with
      | some c => c + second
      | none => x.primary

/-- Whether the alpha test stays and lets the color pass. -/
def alphaPasses (d : Decisions) (keeps : CompareFunc → Bool) (u : Uniforms) (v : Rgba) : Bool :=
  (d.alphaTest.filter keeps).all fun f => f.passes (quantize v.a) u.reference.a

/-- Color, alpha or both are doubled. -/
def doubled (d : Decisions) (v : Rgba) : Rgba where
  rgb := if d.colorDoubling then v.rgb.scale 2 else v.rgb
  a := if d.alphaDoubling then 2 * v.a else v.a

/-- Whether the color test lets the color pass. -/
def colorPasses (d : Decisions) (u : Uniforms) (v : Rgba) : Bool :=
  d.colorTest.all fun f =>
    f.passes (v.rgb.map quantize * u.colorMask.rgb) (u.reference.rgb * u.colorMask.rgb)

/-- Mixes in fog; the weight of the color is the fog depth, kept between 0 and 1. -/
def fogged (d : Decisions) (u : Uniforms) (x : Fragment) (v : Rgba) : Rgba :=
  if d.fog then ⟨u.fogColor.mix v.rgb (.grey (clampUnit x.fogDepth)), v.a⟩ else v

/-- The color of a fragment, none if it is discarded. The alpha test sees the color before it is
doubled, the color test after. `keeps` tells which alpha tests are carried out. -/
def shade (d : Decisions) (keeps : CompareFunc → Bool) (u : Uniforms) (x : Fragment) :
    Option Rgba :=
  if d.clearMode then
    some x.primary
  else
    let v := d.workingColor u x
    if d.alphaPasses keeps u v && d.colorPasses u (d.doubled v) then
      some (d.fogged u x (d.doubled v))
    else
      none

end Decisions

end FixedFragment
