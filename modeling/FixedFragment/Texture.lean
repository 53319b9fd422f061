import FixedFragment.Register

set_option autoImplicit false

/-!
# Texturing

The functions that combine a texel with the primary color, and the ways to generate texture
coordinates.
-/

namespace FixedFragment

/-- How a texel is combined with the primary color. The reserved functions ignore the texel. -/
inductive TextureFunction where
  | modulate
  | decal
  | blend
  | replace
  | add
  | reserved5
  | reserved6
  | reserved7
deriving DecidableEq, Repr

namespace TextureFunction

instance : RegisterField TextureFunction where
  label := "texture function"
  values := [modulate, decal, blend, replace, add, reserved5, reserved6, reserved7]
  mem_values a := by cases a <;> decide

/-- Whether the code of the function has no defined meaning. -/
def isReserved : TextureFunction → Bool
  | reserved5 | reserved6 | reserved7 => true
  | modulate | decal | blend | replace | add => false

/-- The name of the function. -/
def name : TextureFunction → String
  | modulate => "modulate"
  | decal => "decal"
  | blend => "blend"
  | replace => "replace"
  | add => "add"
  | reserved5 => "reserved5"
  | reserved6 => "reserved6"
  | reserved7 => "reserved7"

end TextureFunction

/-- Where texture coordinates come from. -/
inductive UvGenMode where
  | texCoords
  | textureMatrix
  | environmentMap
  | unknown
deriving DecidableEq, Repr

instance : RegisterField UvGenMode where
  label := "uv gen mode"
  values := [.texCoords, .textureMatrix, .environmentMap, .unknown]
  mem_values a := by cases a <;> decide

end FixedFragment
