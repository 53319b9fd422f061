import FixedFragment.Glsl.Evaluation
import FixedFragment.Shading
import FixedFragment.ShaderProgram

set_option autoImplicit false

/-!
# What a shader runs on

The values of the global variables that a shader program reads, and the fragment that they
describe to the pipeline.
-/

namespace FixedFragment

open Glsl

/-- The values of the varying variables and the texture. -/
structure ShaderInput where
  primary : Rgba
  secondary : Rgb
  fogDepth : Rat
  /-- The texture coordinate; the third component is used by projection alone. -/
  coord : Rat × Rat × Rat
  texture : Rat → Rat → Rgba

namespace ShaderInput

/-- The texel that a texture use looks up. -/
def texel (x : ShaderInput) (projected : Bool) : Rgba :=
  let (s, t, q) := x.coord
  if projected then x.texture (s / q) (t / q) else x.texture s t

/-- The fragment that shading sees. -/
def fragment (x : ShaderInput) (d : Decisions) : Fragment where
  primary := x.primary
  secondary := x.secondary
  texel := x.texel (d.texture.any fun t => t.projected)
  fogDepth := x.fogDepth

/-- The texture coordinate as its variable is declared. -/
def coordValue (x : ShaderInput) (d : Decisions) : Value :=
  let (s, t, q) := x.coord
  if d.texture.any fun t => t.projected then .num [s, t, q] else .num [s, t]

/-- The values of all global variables that a program for `d` can declare. -/
def globals (x : ShaderInput) (u : Uniforms) (d : Decisions) : Env :=
  [(ShaderName.sampler, .sampler x.texture),
    (ShaderName.reference, .vec4 u.reference),
    (ShaderName.colorMask, .vec4 u.colorMask),
    (ShaderName.textureEnv, .vec3 u.textureEnv),
    (ShaderName.fogColor, .vec3 u.fogColor),
    (ShaderName.primary, .vec4 x.primary),
    (ShaderName.secondary, .vec3 x.secondary),
    (ShaderName.fogDepth, .float x.fogDepth),
    (ShaderName.texCoord, x.coordValue d)]

/-- Runs the program for `d` on an input. -/
def run (x : ShaderInput) (u : Uniforms) (d : Decisions) (p : EmitPolicy) : Outcome Rgba :=
  (d.program p).run (x.globals u d)

end ShaderInput

end FixedFragment
