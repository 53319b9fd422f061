set_option autoImplicit false

/-!
# Programs of the shading language

The part of the shading language that fragment shaders are written in: declarations of uniform
and varying variables, helper functions of one argument, and a `main` without branches other than
`discard`.
-/

namespace FixedFragment.Glsl

/-! ## Types -/

/-- The types of values. -/
inductive Ty where
  | bool
  | float
  | vec2
  | vec3
  | vec4
  | sampler2D
deriving DecidableEq, Repr

/-- The precisions that a declaration can ask for. -/
inductive Precision where
  | lowp
  | mediump
deriving DecidableEq, Repr

/-- A type as declared, with the precision asked for. -/
structure QualifiedTy where
  precision : Option Precision := none
  ty : Ty
deriving DecidableEq, Repr

/-! ## Expressions -/

/-- A selection of components of a vector. -/
inductive Swizzle where
  | xy
  | rgb
  | a
deriving DecidableEq, Repr

/-- Arithmetic by components. -/
inductive Arith where
  | add
  | sub
  | mul
  | div
deriving DecidableEq, Repr

/-- Comparisons. Equality compares whole vectors, the others compare numbers. -/
inductive Relation where
  | eq
  | ne
  | lt
  | le
  | gt
  | ge
deriving DecidableEq, Repr

/-- The functions that can be called: the built-in ones and the helpers of the program. -/
inductive Func where
  | vec4
  | mix
  | clamp
  | floor
  | fract
  | texture2D
  | texture2DProj
  | helper (name : String)
deriving DecidableEq, Repr

/-- Expressions. A literal has one digit after the point. -/
inductive Expr where
  | lit (whole : Nat) (tenths : Fin 10)
  | var (name : String)
  | part (e : Expr) (sel : Swizzle)
  | not (e : Expr)
  | arith (op : Arith) (lhs rhs : Expr)
  | compare (rel : Relation) (lhs rhs : Expr)
  | call1 (f : Func) (a : Expr)
  | call2 (f : Func) (a b : Expr)
  | call3 (f : Func) (a b c : Expr)
  | call4 (f : Func) (a b c d : Expr)
deriving DecidableEq, Repr

/-! ## Statements and programs -/

/-- The statements of `main`. -/
inductive Stmt where
  | declare (ty : Ty) (name : String) (value : Expr)
  | assign (name : String) (value : Expr)
  | assignPart (name : String) (sel : Swizzle) (value : Expr)
  | addAssign (name : String) (value : Expr)
  | discard
  | discardIf (cond : Expr)
deriving DecidableEq, Repr

/-- Where the value of a global variable comes from. -/
inductive Storage where
  | uniform
  | varying
deriving DecidableEq, Repr

/-- The declaration of a global variable. -/
structure Global where
  storage : Storage
  ty : QualifiedTy
  name : String
deriving DecidableEq, Repr

/-- A function that maps a type to itself: some local variables of that type, then the result. -/
structure Helper where
  ty : QualifiedTy
  name : String
  param : String
  locals : List (String × Expr)
  result : Expr
deriving DecidableEq, Repr

/-- A program: version, default precision of `float`, declarations, helpers and `main`. -/
structure Program where
  version : Nat
  precision : Option Precision
  globals : List Global
  helpers : List Helper
  main : List Stmt
deriving DecidableEq, Repr

end FixedFragment.Glsl
