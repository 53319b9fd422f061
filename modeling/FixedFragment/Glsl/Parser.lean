import FixedFragment.Glsl.Lexeme
import FixedFragment.Glsl.Printer

set_option autoImplicit false

/-!
# Reading programs

The reader for the texts that `Program.text` writes: each line is read by itself, and the lines
are put together in the order version, precision, declarations, helpers, `main`. Operators of one
strength group to the left.
-/

namespace FixedFragment.Glsl

/-! ## Words and operators -/

/-- The value among `all` with the text `word`. -/
def readWord {α : Type} (all : List α) (text : α → String) (word : String) : Option α :=
  all.find? fun a => text a = word

def Ty.read? : String → Option Ty := readWord [bool, float, vec2, vec3, vec4, sampler2D] text

def Precision.read? : String → Option Precision := readWord [lowp, mediump] text

def Swizzle.read? : String → Option Swizzle := readWord [xy, rgb, a] text

def Storage.read? : String → Option Storage := readWord [uniform, varying] text

/-- A name that is called: a built-in function, else a helper. -/
def Func.read (word : String) : Func :=
  (readWord [vec4, mix, clamp, floor, fract, texture2D, texture2DProj] text word).getD (helper word)

/-- An operator between two operands. -/
inductive Operator where
  | arith (op : Arith)
  | compare (rel : Relation)
deriving DecidableEq, Repr

namespace Operator

def text : Operator → String
  | arith op => op.text
  | compare rel => rel.text

def level : Operator → Nat
  | arith op => op.level
  | compare rel => rel.level

def apply (o : Operator) (lhs rhs : Expr) : Expr :=
  match o with
  | arith op => .arith op lhs rhs
  | compare rel => .compare rel lhs rhs

def read? : String → Option Operator :=
  readWord [arith .add, arith .sub, arith .mul, arith .div, compare .eq, compare .ne, compare .lt,
    compare .le, compare .gt, compare .ge] text

end Operator

/-- A literal from its digits before and after the point. -/
def readLiteral (whole tenths : String) : Option Expr := do
  let w ← Decimal.read? whole.toList
  let t ← Decimal.read? tenths.toList
  if h : t < 10 then some (.lit w ⟨t, h⟩) else none

/-- A call from the name and the arguments. -/
def readCall (name : String) (args : List Expr) : Option Expr :=
  let f := Func.read name
  match args with
  | [a] => some (.call1 f a)
  | [a, b] => some (.call2 f a b)
  | [a, b, c] => some (.call3 f a b c)
  | [a, b, c, d] => some (.call4 f a b c d)
  | _ => none

/-! ## Expressions

Each reader takes lexemes from the front of a list and gives the rest. The first argument bounds
the depth of the reading and is never reached by a bound that grows with the number of lexemes. -/

mutual

/-- Reads an expression whose operators bind at least as strongly as `least`. -/
def readExpr : Nat → Nat → List String → Option (Expr × List String)
  | 0, _, _ => none
  | fuel + 1, least, ws => do
      let (lhs, rest) ← readOperand fuel ws
      readChain fuel least lhs rest

/-- Reads operators and operands behind the operand `lhs`. -/
def readChain : Nat → Nat → Expr → List String → Option (Expr × List String)
  | 0, _, _, _ => none
  | _ + 1, _, lhs, [] => some (lhs, [])
  | fuel + 1, least, lhs, w :: ws =>
      match Operator.read? w with
      | none => some (lhs, w :: ws)
      | some op =>
          if least ≤ op.level then do
            let (rhs, rest) ← readExpr fuel (op.level + 1) ws
            readChain fuel least (op.apply lhs rhs) rest
          else
            some (lhs, w :: ws)

/-- Reads an operand: a negation, a bracketed expression, a call, a literal or a variable. -/
def readOperand : Nat → List String → Option (Expr × List String)
  | 0, _ => none
  | fuel + 1, ws =>
      match ws with
      | "!" :: rest => do
          let (e, rest) ← readOperand fuel rest
          some (.not e, rest)
      | "(" :: rest => do
          let (e, rest) ← readExpr fuel 0 rest
          match rest with
          | ")" :: rest => readParts fuel e rest
          | _ => none
      | name :: "(" :: rest => do
          let (args, rest) ← readArgs fuel rest
          let e ← readCall name args
          readParts fuel e rest
      | word :: rest =>
          if word.toList.all Char.isDigit then
            match rest with
            | "." :: tenths :: rest => (readLiteral word tenths).map fun e => (e, rest)
            | _ => none
          else
            readParts fuel (.var word) rest
      | [] => none

/-- Reads the arguments of a call up to the closing bracket. -/
def readArgs : Nat → List String → Option (List Expr × List String)
  | 0, _ => none
  | fuel + 1, ws => do
      let (e, rest) ← readExpr fuel 0 ws
      match rest with
      | "," :: rest => do
          let (es, rest) ← readArgs fuel rest
          some (e :: es, rest)
      | ")" :: rest => some ([e], rest)
      | _ => none

/-- Reads selections of components behind the operand `e`. -/
def readParts : Nat → Expr → List String → Option (Expr × List String)
  | 0, _, _ => none
  | fuel + 1, e, ws =>
      match ws with
      | "." :: sel :: rest => do
          let sel ← Swizzle.read? sel
          readParts fuel (.part e sel) rest
      | _ => some (e, ws)

end

attribute [grind =] readExpr readChain readOperand readArgs readParts

/-- Reads an expression up to a lexeme that cannot continue it. -/
def Expr.read (ws : List String) : Option (Expr × List String) :=
  readExpr (4 * ws.length + 4) 0 ws

/-- Reads an expression and the lexemes `last` that end the line. -/
def Expr.readBefore (last : List String) (ws : List String) : Option Expr := do
  let (e, rest) ← Expr.read ws
  if rest = last then some e else none

/-! ## Lines -/

/-- Reads a type with or without a precision. -/
def QualifiedTy.read : List String → Option (QualifiedTy × List String)
  | [] => none
  | w :: ws =>
      match Precision.read? w, ws with
      | some p, t :: rest => (Ty.read? t).map fun ty => ({ precision := some p, ty := ty }, rest)
      | some _, [] => none
      | none, _ => (Ty.read? w).map fun ty => ({ ty := ty }, ws)

/-- Reads the body of a helper of type `q`: local variables up to the result. -/
def readBody : Nat → QualifiedTy → List String → Option (List (String × Expr) × Expr)
  | 0, _, _ => none
  | _ + 1, _, "return" :: ws => (Expr.readBefore [";", "\x7d"] ws).map fun e => ([], e)
  | fuel + 1, q, ws => do
      let (ty, rest) ← QualifiedTy.read ws
      match rest with
      | name :: "=" :: rest => do
          let (e, rest) ← Expr.read rest
          match rest with
          | ";" :: rest => do
              let (locals, result) ← readBody fuel q rest
              if ty = q then some ((name, e) :: locals, result) else none
          | _ => none
      | _ => none

/-- Reads a helper. Its result, its parameter and its local variables have the same type. -/
def Helper.read? (ws : List String) : Option Helper := do
  let (ty, rest) ← QualifiedTy.read ws
  match rest with
  | name :: "(" :: "in" :: rest => do
      let (paramTy, rest) ← QualifiedTy.read rest
      match rest with
      | param :: ")" :: "\x7b" :: rest => do
          let (locals, result) ← readBody (rest.length + 1) ty rest
          if paramTy = ty then
            some { ty := ty, name := name, param := param, locals := locals, result := result }
          else
            none
      | _ => none
  | _ => none

/-- Reads the declaration of a global variable. -/
def Global.read? : List String → Option Global
  | [] => none
  | w :: ws => do
      let storage ← Storage.read? w
      let (ty, rest) ← QualifiedTy.read ws
      match rest with
      | [name, ";"] => some { storage := storage, ty := ty, name := name }
      | _ => none

/-- Reads a statement. -/
def Stmt.read? : List String → Option Stmt
  | ["discard", ";"] => some .discard
  | "if" :: "(" :: ws => (Expr.readBefore [")", "discard", ";"] ws).map .discardIf
  | name :: "=" :: ws => (Expr.readBefore [";"] ws).map (.assign name)
  | name :: "+=" :: ws => (Expr.readBefore [";"] ws).map (.addAssign name)
  | name :: "." :: sel :: "=" :: ws => do
      let sel ← Swizzle.read? sel
      (Expr.readBefore [";"] ws).map (.assignPart name sel)
  | ty :: name :: "=" :: ws => do
      let ty ← Ty.read? ty
      (Expr.readBefore [";"] ws).map (.declare ty name)
  | _ => none

/-- What one line holds. -/
inductive Line where
  | version (number : Nat)
  | precision (p : Precision)
  | global (g : Global)
  | helper (h : Helper)
  | main
  | stmt (s : Stmt)
  | close
deriving DecidableEq, Repr

namespace Line

/-- Reads a line. -/
def read? : List String → Option Line
  | ["#", "version", number] => (Decimal.read? number.toList).map .version
  | ["precision", p, "float", ";"] => (Precision.read? p).map .precision
  | ["void", "main", "(", ")", "\x7b"] => some .main
  | ["\x7d"] => some .close
  | ws =>
      (Global.read? ws).map .global <|> (Helper.read? ws).map .helper <|> (Stmt.read? ws).map .stmt

def precision? : Line → Option Precision
  | precision p => some p
  | _ => none

def global? : Line → Option Global
  | global g => some g
  | _ => none

def helper? : Line → Option Helper
  | helper h => some h
  | _ => none

def stmt? : Line → Option Stmt
  | stmt s => some s
  | _ => none

/-- Takes the lines of one kind from the front. -/
def collect {α : Type} (kind : Line → Option α) : List Line → List α × List Line
  | [] => ([], [])
  | l :: ls =>
      match kind l with
      | some a => (a :: (collect kind ls).1, (collect kind ls).2)
      | none => ([], l :: ls)

end Line

/-! ## Programs -/

namespace Program

/-- Puts lines together. -/
def ofLines : List Line → Option Program
  | .version number :: ls =>
      let (precisions, ls) := Line.collect Line.precision? ls
      let (globals, ls) := Line.collect Line.global? ls
      let (helpers, ls) := Line.collect Line.helper? ls
      match ls with
      | .main :: ls =>
          let (main, ls) := Line.collect Line.stmt? ls
          if ls = [.close] ∧ precisions.length ≤ 1 then
            some
              { version := number, precision := precisions.head?, globals := globals,
                helpers := helpers, main := main }
          else
            none
      | _ => none
  | _ => none

/-- Reads the text of a program. -/
def parse (text : String) : Option Program := do
  let ls ← (splitLines text.toList).mapM fun line => Line.read? (lexemes line)
  ofLines ls

end Program

end FixedFragment.Glsl
