import FixedFragment.Text.Decimal

set_option autoImplicit false

/-!
# Register fields

A register field holds a small code. `RegisterField` lists the values of one field in the order
of their codes; `code` and `decode` are the two directions between values and codes, and
`decode_code` says that decoding undoes coding.
-/

namespace FixedFragment

/-- A code past the last value of its register field. -/
structure OutOfRange where
  field : String
  value : UInt32
  max : Nat
deriving DecidableEq, Repr

/-- The wording of the failure: the field, the code found and the largest code. -/
def OutOfRange.message (e : OutOfRange) : String :=
  e.field ++ " value " ++ Decimal.text e.value.toNat ++ " is out of range (max "
    ++ Decimal.text e.max ++ ")"

/-- A type whose values are the meanings of the codes `0`, `1`, … of one register field. -/
class RegisterField (α : Type) where
  /-- What failures call the field. -/
  label : String
  /-- All values, in the order of their codes. -/
  values : List α
  mem_values : ∀ a, a ∈ values

namespace RegisterField

variable {α : Type} [RegisterField α]

/-- The code that stands for `a`. -/
def code [DecidableEq α] (a : α) : Nat := (values : List α).idxOf a

/-- The value that a code stands for. -/
def decode (raw : UInt32) : Except OutOfRange α :=
  match (values : List α)[raw.toNat]? with
  | some a => .ok a
  | none => .error { field := label α, value := raw, max := (values : List α).length - 1 }

theorem code_lt [DecidableEq α] (a : α) : code a < (values : List α).length :=
  List.idxOf_lt_length_of_mem (mem_values a)

theorem getElem?_code [DecidableEq α] (a : α) : (values : List α)[code a]? = some a := by
  rw [List.getElem?_eq_getElem (code_lt a)]
  exact congrArg some (List.getElem_idxOf (code_lt a))

theorem decode_code [DecidableEq α] (a : α) (raw : UInt32) (h : raw.toNat = code a) :
    decode raw = .ok a := by
  rw [decode, h, getElem?_code]

end RegisterField

end FixedFragment
