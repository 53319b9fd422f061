import FixedFragment.Glsl.Tree
import FixedFragment.Text.Decimal

set_option autoImplicit false

/-!
# The text of a program

A program is written one declaration, helper or statement a line. Operators have a blank on both
sides. An operand is bracketed where it binds weaker than its place asks for, and a quotient is
bracketed wherever it is an operand.
-/

namespace FixedFragment.Glsl

/-! ## Words and operators -/

def Ty.text : Ty → String
  | bool => "bool"
  | float => "float"
  | vec2 => "vec2"
  | vec3 => "vec3"
  | vec4 => "vec4"
  | sampler2D => "sampler2D"

def Precision.text : Precision → String
  | lowp => "lowp"
  | mediump => "mediump"

def QualifiedTy.text (q : QualifiedTy) : String :=
  match q.precision with
  | some p => p.text ++ " " ++ q.ty.text
  | none => q.ty.text

def Swizzle.text : Swizzle → String
  | xy => "xy"
  | rgb => "rgb"
  | a => "a"

def Arith.text : Arith → String
  | add => "+"
  | sub => "-"
  | mul => "*"
  | div => "/"

def Relation.text : Relation → String
  | eq => "=="
  | ne => "!="
  | lt => "<"
  | le => "<="
  | gt => ">"
  | ge => ">="

def Func.text : Func → String
  | vec4 => "vec4"
  | mix => "mix"
  | clamp => "clamp"
  | floor => "floor"
  | fract => "fract"
  | texture2D => "texture2D"
  | texture2DProj => "texture2DProj"
  | helper name => name

def Storage.text : Storage → String
  | uniform => "uniform"
  | varying => "varying"

/-! ## Expressions -/

/-- How strongly the operator binds; sums bind stronger than comparisons, products stronger than
sums. -/
def Arith.level : Arith → Nat
  | add | sub => 3
  | mul | div => 4

/-- How strongly the comparison binds; order binds stronger than equality. -/
def Relation.level : Relation → Nat
  | eq | ne => 1
  | lt | le | gt | ge => 2

namespace Expr

/-- How strongly the outermost operator of an expression binds. -/
def level : Expr → Nat
  | compare rel _ _ => rel.level
  | arith op _ _ => op.level
  | not _ => 5
  | lit _ _ | var _ | part _ _ | call1 _ _ | call2 _ _ _ | call3 _ _ _ _ | call4 _ _ _ _ _ => 6

def isQuotient : Expr → Bool
  | arith .div _ _ => true
  | _ => false

/-- The text of `e` as an operand at a place that asks for strength `least`. -/
def bracketed (e : Expr) (least : Nat) (text : String) : String :=
  if e.level < least || e.isQuotient then "(" ++ text ++ ")" else text

/-- The text of an expression. A left operand may bind as strongly as the operator, a right
operand has to bind stronger, since operators of one strength group to the left. -/
def text : Expr → String
  | lit whole tenths => Decimal.text whole ++ "." ++ Decimal.text tenths
  | var name => name
  | part e sel => e.bracketed 6 e.text ++ "." ++ sel.text
  | not e => "!" ++ e.bracketed 5 e.text
  | arith op lhs rhs =>
      lhs.bracketed op.level lhs.text ++ " " ++ op.text ++ " "
        ++ rhs.bracketed (op.level + 1) rhs.text
  | compare rel lhs rhs =>
      lhs.bracketed rel.level lhs.text ++ " " ++ rel.text ++ " "
        ++ rhs.bracketed (rel.level + 1) rhs.text
  | call1 f a => f.text ++ "(" ++ a.text ++ ")"
  | call2 f a b => f.text ++ "(" ++ a.text ++ ", " ++ b.text ++ ")"
  | call3 f a b c => f.text ++ "(" ++ a.text ++ ", " ++ b.text ++ ", " ++ c.text ++ ")"
  | call4 f a b c d =>
      f.text ++ "(" ++ a.text ++ ", " ++ b.text ++ ", " ++ c.text ++ ", " ++ d.text ++ ")"

end Expr

/-! ## Lines -/

def versionLine (version : Nat) : String := "#version " ++ Decimal.text version

def precisionLine (p : Precision) : String := "precision " ++ p.text ++ " float;"

def Global.line (g : Global) : String :=
  g.storage.text ++ " " ++ g.ty.text ++ " " ++ g.name ++ ";"

def Helper.localText (h : Helper) (l : String × Expr) : String :=
  h.ty.text ++ " " ++ l.1 ++ " = " ++ l.2.text ++ "; "

def Helper.line (h : Helper) : String :=
  h.ty.text ++ " " ++ h.name ++ "(in " ++ h.ty.text ++ " " ++ h.param ++ ") \x7b "
    ++ String.join (h.locals.map h.localText) ++ "return " ++ h.result.text ++ "; \x7d"

def Stmt.text : Stmt → String
  | declare ty name value => ty.text ++ " " ++ name ++ " = " ++ value.text ++ ";"
  | assign name value => name ++ " = " ++ value.text ++ ";"
  | assignPart name sel value => name ++ "." ++ sel.text ++ " = " ++ value.text ++ ";"
  | addAssign name value => name ++ " += " ++ value.text ++ ";"
  | discard => "discard;"
  | discardIf cond => "if (" ++ cond.text ++ ") discard;"

/-- A statement stands indented inside `main`. -/
def Stmt.line (s : Stmt) : String := "  " ++ s.text

def mainLine : String := "void main() \x7b"

def closeLine : String := "\x7d"

namespace Program

/-- The lines of a program. -/
def lines (p : Program) : List String :=
  versionLine p.version :: (p.precision.toList.map precisionLine ++ p.globals.map Global.line
    ++ p.helpers.map Helper.line ++ mainLine :: (p.main.map Stmt.line ++ [closeLine]))

/-- The lines of a program, each with its line end. -/
def pieces (p : Program) : List String := p.lines.map (· ++ "\n")

/-- The text of a program. -/
def text (p : Program) : String := String.join p.pieces

end Program

end FixedFragment.Glsl
