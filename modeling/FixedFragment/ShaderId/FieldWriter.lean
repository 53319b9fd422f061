import FixedFragment.ShaderId
import FixedFragment.Text.Decimal

set_option autoImplicit false

/-!
# Writing identifiers

A field writer appends fields to an identifier, each with its own width, from the lowest bit up.
`write` names the first condition that a field breaks; `writeAll_isOk` says that fields which fit
their widths and together fit the word are all written.
-/

namespace FixedFragment

/-- A value together with the number of bits it is given. -/
structure Field where
  value : UInt32
  width : Nat
deriving DecidableEq, Repr

/-- Why a field cannot be written. -/
inductive FieldError where
  | width
  | value (value : UInt32) (width : Nat)
  | overflow
deriving DecidableEq, Repr

def FieldError.message : FieldError → String
  | width => "assertion failed: width > 0 && width < 32"
  | value v w => "value " ++ Decimal.text v.toNat ++ " does not fit in " ++ Decimal.text w ++ " bits"
  | overflow => "fragment shader ID overflow"

namespace Field

def flag (b : Bool) : Field := ⟨if b then 1 else 0, 1⟩

/-- Bits that are left zero. -/
def reserved (width : Nat) : Field := ⟨0, width⟩

/-- The width is one that a field can have, and the value has no bits beyond it. -/
def Fits (f : Field) : Prop := 0 < f.width ∧ f.width < 32 ∧ f.value.toNat < 1 <<< f.width

instance (f : Field) : Decidable f.Fits := inferInstanceAs (Decidable (_ ∧ _ ∧ _))

/-- The number of bits that fields take together. -/
def totalWidth : List Field → Nat
  | [] => 0
  | f :: fs => f.width + totalWidth fs

end Field

/-- The bits written so far and their number. -/
structure FieldWriter where
  value : UInt32 := 0
  offset : Nat := 0
deriving DecidableEq, Repr

namespace FieldWriter

/-- Puts a field above the bits written so far. -/
def push (w : FieldWriter) (f : Field) : FieldWriter where
  value := w.value ||| f.value <<< UInt32.ofNat w.offset
  offset := w.offset + f.width

/-- Appends a field, if it fits its width and the bits that are left. -/
def write (w : FieldWriter) (f : Field) : Except FieldError FieldWriter :=
  if ¬(0 < f.width ∧ f.width < 32) then
    .error .width
  else if ¬f.value.toNat < 1 <<< f.width then
    .error (.value f.value f.width)
  else if ¬w.offset + f.width ≤ 32 then
    .error .overflow
  else
    .ok (w.push f)

/-- The writer after a field was offered: a field that cannot be written leaves it as it is. -/
def offer (w : FieldWriter) (f : Field) : FieldWriter :=
  match w.write f with
  | .ok w' => w'
  | .error _ => w

/-- Appends fields in order, up to the first that cannot be written. -/
def writeAll (w : FieldWriter) (fs : List Field) : Except FieldError FieldWriter :=
  fs.foldlM write w

/-- The identifier with the bits written so far. -/
def finish (w : FieldWriter) : ShaderId := ⟨w.value⟩

theorem write_eq_ok {w : FieldWriter} {f : Field} (hf : f.Fits) (hw : w.offset + f.width ≤ 32) :
    w.write f = .ok (w.push f) := by
  obtain ⟨h0, h32, hv⟩ := hf
  simp [write, h0, h32, hv, hw]

/-- Fields that fit their widths, and together fit the bits that are left, are all written. -/
theorem writeAll_isOk {fs : List Field} {w : FieldWriter} (hfs : ∀ f ∈ fs, f.Fits)
    (hw : w.offset + Field.totalWidth fs ≤ 32) : ∃ w', w.writeAll fs = .ok w' := by
  induction fs generalizing w with
  | nil => exact ⟨w, rfl⟩
  | cons f fs ih =>
      rw [Field.totalWidth] at hw
      have hpush : (w.push f).offset = w.offset + f.width := rfl
      have hf : w.write f = .ok (w.push f) := write_eq_ok (hfs f (by simp)) (by omega)
      obtain ⟨w', h⟩ := @ih (w.push f) (fun g hg => hfs g (by simp [hg])) (by omega)
      refine ⟨w', ?_⟩
      simp only [writeAll, List.foldlM_cons, hf]
      exact h

end FieldWriter

end FixedFragment
