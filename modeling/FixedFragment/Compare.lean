import FixedFragment.Register

set_option autoImplicit false

/-!
# Test functions

The comparisons of the alpha test and of the color test. `passes` reads a comparison as a
relation on any type with an order, so that one definition serves bytes and exact numbers.
-/

namespace FixedFragment

/-! ## Alpha test -/

/-- The comparison of the alpha test. -/
inductive CompareFunc where
  | never
  | always
  | equal
  | notEqual
  | less
  | lessEqual
  | greater
  | greaterEqual
deriving DecidableEq, Repr

namespace CompareFunc

instance : RegisterField CompareFunc where
  label := "alpha test func"
  values := [never, always, equal, notEqual, less, lessEqual, greater, greaterEqual]
  mem_values a := by cases a <;> decide

/-- Whether `lhs` stands in the relation to `rhs` that the comparison names. -/
def passes {α : Type} [DecidableEq α] [LT α] [LE α] [DecidableLT α] [DecidableLE α]
    (f : CompareFunc) (lhs rhs : α) : Bool :=
  match f with
  | never => false
  | always => true
  | equal => lhs = rhs
  | notEqual => lhs ≠ rhs
  | less => lhs < rhs
  | lessEqual => lhs ≤ rhs
  | greater => rhs < lhs
  | greaterEqual => rhs ≤ lhs

end CompareFunc

/-! ## Color test -/

/-- The comparison of the color test. -/
inductive ColorTestFunc where
  | never
  | always
  | equal
  | notEqual
deriving DecidableEq, Repr

namespace ColorTestFunc

instance : RegisterField ColorTestFunc where
  label := "color test func"
  values := [never, always, equal, notEqual]
  mem_values a := by cases a <;> decide

/-- Whether `lhs` stands in the relation to `rhs` that the comparison names. -/
def passes {α : Type} [DecidableEq α] (f : ColorTestFunc) (lhs rhs : α) : Bool :=
  match f with
  | never => false
  | always => true
  | equal => lhs = rhs
  | notEqual => lhs ≠ rhs

end ColorTestFunc

end FixedFragment
