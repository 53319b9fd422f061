import FixedFragment.Glsl.Printer
import FixedFragment.Vendor

set_option autoImplicit false

/-!
# Emission policy

What the target driver makes of the shader text: its dialect, the workarounds it needs, and
whether the output is replaced by a picture for debugging. None of it takes part in the identifier
of a shader.
-/

namespace FixedFragment

/-! ## Dialect -/

/-- The dialect of the shading language. -/
inductive Dialect where
  /-- The embedded language, version 1.00. -/
  | glslEs100
  /-- The desktop language, version 1.10. -/
  | glsl110
deriving DecidableEq, Repr

namespace Dialect

def isEmbedded : Dialect → Bool
  | glslEs100 => true
  | glsl110 => false

/-- The number in the version line. -/
def version : Dialect → Nat
  | glslEs100 => 100
  | glsl110 => 110

/-- The default precision of `float`: the embedded dialect demands one, the desktop dialect
rejects it. -/
def defaultPrecision (d : Dialect) : Option Glsl.Precision :=
  if d.isEmbedded then some .lowp else none

/-- The precision asked for where the default of the embedded dialect is too coarse. -/
def raisedPrecision (d : Dialect) : Option Glsl.Precision :=
  if d.isEmbedded then some .mediump else none

/-- The version line with its line end. -/
def versionDirective (d : Dialect) : String := Glsl.versionLine d.version ++ "\n"

/-- The precision line with its line end, where the dialect has one. -/
def precisionDirective (d : Dialect) : Option String :=
  d.defaultPrecision.map fun p => Glsl.precisionLine p ++ "\n"

end Dialect

/-! ## Workarounds -/

/-- A set of driver workarounds, one a bit. Bits without a meaning are kept. -/
structure Workarounds where
  bits : UInt32
deriving DecidableEq, Repr

namespace Workarounds

def empty : Workarounds := ⟨0⟩

/-- Round to bytes by a bias and `fract`, for drivers where `floor` loses precision. -/
def biasedRounding : Workarounds := ⟨1⟩

/-- Leave out the alpha comparison that discards on equality, for drivers where it misbehaves. -/
def noEqualityDiscard : Workarounds := ⟨2⟩

def union (w v : Workarounds) : Workarounds := ⟨w.bits ||| v.bits⟩

/-- Whether all workarounds of `v` are in `w`. -/
def contains (w v : Workarounds) : Bool := w.bits &&& v.bits = v.bits

def isEmpty (w : Workarounds) : Bool := w.bits = 0

/-- The workarounds that the drivers of a vendor need. -/
def forVendor : GpuVendor → Workarounds
  | .powerVr => biasedRounding.union noEqualityDiscard
  | .unknown | .mali | .adreno | .nvidia | .amd | .intel | .broadcom | .vivante => empty

end Workarounds

/-! ## Policy -/

/-- What changes the text of a shader beyond the decisions it is made from. -/
structure EmitPolicy where
  dialect : Dialect := .glsl110
  workarounds : Workarounds := .empty
  /-- Replace the output by the texel, or by magenta where nothing is textured. -/
  debugOverlay : Bool := false
deriving DecidableEq, Repr

namespace EmitPolicy

def forTarget (dialect : Dialect) (vendor : GpuVendor) : EmitPolicy where
  dialect := dialect
  workarounds := .forVendor vendor

def desktop : EmitPolicy := forTarget .glsl110 .unknown

def embedded : EmitPolicy := forTarget .glslEs100 .unknown

def withDebugOverlay (p : EmitPolicy) (on : Bool) : EmitPolicy := { p with debugOverlay := on }

end EmitPolicy

end FixedFragment
