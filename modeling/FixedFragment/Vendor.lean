import FixedFragment.Text.Blank

set_option autoImplicit false

/-!
# Vendors

The vendor of the graphics driver, recognised by how the name that the driver reports begins.
-/

namespace FixedFragment

/-- The vendor of a graphics driver. -/
inductive GpuVendor where
  | unknown
  | powerVr
  | mali
  | adreno
  | nvidia
  | amd
  | intel
  | broadcom
  | vivante
deriving DecidableEq, Repr, Inhabited

namespace GpuVendor

/-- A condition on a trimmed vendor name. -/
inductive NameRule where
  | exact (name : String)
  | opening (start : String)
deriving DecidableEq, Repr

def NameRule.matches (r : NameRule) (name : List Char) : Bool :=
  match r with
  | exact s => name = s.toList
  | opening s => s.toList.isPrefixOf name

/-- The rules by which names are recognised, the first that matches decides. -/
def nameRules : List (NameRule × GpuVendor) :=
  [(.opening "Imagination Technologies", powerVr),
    (.exact "ARM", mali),
    (.opening "ARM ", mali),
    (.opening "Qualcomm", adreno),
    (.opening "NVIDIA", nvidia),
    (.opening "Advanced Micro Devices", amd),
    (.opening "ATI ", amd),
    (.opening "Intel", intel),
    (.opening "Broadcom", broadcom),
    (.opening "Vivante", vivante)]

/-- The vendor of a name without blanks at its ends. -/
def ofTrimmed (name : List Char) : GpuVendor :=
  match nameRules.find? fun r => r.1.matches name with
  | some r => r.2
  | none => unknown

/-- The vendor of the name that a driver reports. -/
def ofName (name : String) : GpuVendor := ofTrimmed (Text.trim name.toList)

end GpuVendor

end FixedFragment
