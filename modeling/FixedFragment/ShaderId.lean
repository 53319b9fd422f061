import FixedFragment.Text.Hex

set_option autoImplicit false

/-!
# Shader identifiers

A shader identifier is a word in which each decision has its own bits. The layout is a table of
slots; a slot is read with `ShaderId.read`.
-/

namespace FixedFragment

/-- The identifier of a fragment shader. -/
structure ShaderId where
  word : UInt32 := 0
deriving DecidableEq, Repr, Hashable

/-- A run of bits in an identifier, the lowest bit first. -/
structure Slot where
  offset : Nat
  width : Nat
deriving DecidableEq, Repr

namespace ShaderId

/-- The identifier that all shaders of clear mode share. -/
def clear : ShaderId := ⟨1⟩

def isClear (id : ShaderId) : Bool := id = clear

/-- The `width` bits from `offset` on. Bits past the top of the word are zero. -/
def field (id : ShaderId) (offset width : Nat) : UInt32 :=
  let shifted := if offset < 32 then id.word >>> UInt32.ofNat offset else 0
  let mask := if width < 32 then (1 <<< UInt32.ofNat width) - 1 else 0xFFFFFFFF
  shifted &&& mask

/-- Whether the bit at `offset` is set. -/
def flag (id : ShaderId) (offset : Nat) : Bool := id.field offset 1 ≠ 0

/-- The content of a slot. -/
def read (id : ShaderId) (slot : Slot) : UInt32 := id.field slot.offset slot.width

/-- An identifier is written with eight hexadecimal digits. -/
def text (id : ShaderId) : String := Hex.text 8 id.word.toNat

end ShaderId

/-! ## Layout -/

namespace Slot

def clearMode : Slot := ⟨0, 1⟩
def texture : Slot := ⟨1, 1⟩
def textureFunction : Slot := ⟨2, 3⟩
def textureAlpha : Slot := ⟨5, 1⟩
def reserved : Slot := ⟨6, 1⟩
def secondaryColor : Slot := ⟨7, 1⟩
def alphaTestEnabled : Slot := ⟨8, 1⟩
def alphaTestFunc : Slot := ⟨9, 3⟩
def colorTestEnabled : Slot := ⟨12, 1⟩
def colorTestFunc : Slot := ⟨13, 2⟩
def fog : Slot := ⟨15, 1⟩
def textureProjection : Slot := ⟨16, 1⟩
def colorDoubling : Slot := ⟨17, 1⟩
def alphaDoubling : Slot := ⟨18, 1⟩
def alphaTestLive : Slot := ⟨19, 1⟩
def colorTestLive : Slot := ⟨20, 1⟩

/-- The number of bits in use. -/
def usedBits : Nat := 21

end Slot

end FixedFragment
