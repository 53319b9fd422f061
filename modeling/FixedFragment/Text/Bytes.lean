set_option autoImplicit false

/-!
# Bytes of a text

The UTF-8 bytes of a text as a list; the bytes of a concatenation are the bytes of its parts.
-/

namespace FixedFragment.Text

/-- The UTF-8 bytes of `s`. -/
def bytes (s : String) : List UInt8 := s.toByteArray.data.toList

@[simp] theorem bytes_empty : bytes "" = [] := rfl

@[simp] theorem bytes_append (s t : String) : bytes (s ++ t) = bytes s ++ bytes t := by
  simp [bytes, String.toByteArray_append]

end FixedFragment.Text
