import FixedFragment.Color
import FixedFragment.Number.Binary32
import FixedFragment.PipelineState

set_option autoImplicit false

/-!
# Uniform values

The values of the uniform variables that a shader may declare, for the state it runs under, and
the block of bytes that carries them to the driver.
-/

namespace FixedFragment

/-- The values of the uniform variables. -/
structure Uniforms where
  /-- The references of the two tests as integers from 0 to 255: that of the color test, and in
  alpha that of the alpha test. -/
  reference : Rgba
  /-- 1 where the mask of the color test has a bit, else 0; in alpha for the alpha test. -/
  colorMask : Rgba
  textureEnv : Rgb
  fogColor : Rgb
deriving DecidableEq, Repr

namespace Uniforms

/-- A byte as an integer. -/
def byteChannel (b : UInt8) : Rat := (b.toNat : Rat)

/-- A byte as a number from 0 to 1. -/
def unitChannel (b : UInt8) : Rat := (b.toNat : Rat) / 255

/-- Whether a mask has a bit. -/
def maskChannel (b : UInt8) : Rat := if b = 0 then 0 else 1

/-- The values for a state. -/
def ofState (s : PipelineState) : Uniforms where
  reference :=
    ⟨registerColor byteChannel s.colorTest.reference, byteChannel s.alphaTest.reference⟩
  colorMask := ⟨registerColor maskChannel s.colorTest.mask, maskChannel s.alphaTest.mask⟩
  textureEnv := registerColor unitChannel s.textureEnvColor
  fogColor := registerColor unitChannel s.fogColor

/-- The groups of the block, four numbers each; colors without alpha are filled up by 0. -/
def groups (u : Uniforms) : List Rgba :=
  [u.reference, u.colorMask, ⟨u.textureEnv, 0⟩, ⟨u.fogColor, 0⟩]

/-- The floating-point words of a group. -/
def groupWords (c : Rgba) : List UInt32 := c.toList.map Binary32.ofRat

/-- The block of bytes that holds the groups. -/
def block (u : Uniforms) : List UInt8 := (u.groups.flatMap groupWords).flatMap Binary32.bytes

end Uniforms

end FixedFragment
