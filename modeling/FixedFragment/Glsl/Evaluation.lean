import FixedFragment.Color
import FixedFragment.Glsl.Tree

set_option autoImplicit false

/-!
# Meaning of programs

Programs read over exact numbers. Expressions are evaluated in an environment of named values,
statements change the environment or end the run by `discard`, and the color in the output is the
result of the program.
-/

namespace FixedFragment.Glsl

/-! ## Values -/

/-- The values of expressions: truth values, numbers and vectors by their components, and
textures, which give a color for each coordinate. -/
inductive Value where
  | bool (b : Bool)
  | num (xs : List Rat)
  | sampler (texel : Rat → Rat → Rgba)

/-- The values of the names in scope; of two entries for one name the first counts. -/
abbrev Env := List (String × Value)

namespace Value

def float (x : Rat) : Value := num [x]

def vec3 (c : Rgb) : Value := num [c.r, c.g, c.b]

def vec4 (c : Rgba) : Value := num c.toList

/-- Combines two values by components; a number goes with every component of a vector. -/
def zip (f : Rat → Rat → Rat) : Value → Value → Option Value
  | num [x], num [y] => some (num [f x y])
  | num [x], num ys => some (num (ys.map (f x)))
  | num xs, num [y] => some (num (xs.map fun x => f x y))
  | num xs, num ys => if xs.length = ys.length then some (num (List.zipWith f xs ys)) else none
  | _, _ => none

/-- Changes each component. -/
def map (f : Rat → Rat) : Value → Option Value
  | num xs => some (num (xs.map f))
  | _ => none

/-- The color of a vector of four components. -/
def toColor : Value → Option Rgba
  | num [r, g, b, a] => some ⟨⟨r, g, b⟩, a⟩
  | _ => none

end Value

/-! ## Operations -/

/-- The selected components. -/
def Swizzle.eval (sel : Swizzle) (v : Value) : Option Value :=
  match sel, v with
  | xy, .num (x :: y :: _) => some (.num [x, y])
  | rgb, .num (r :: g :: b :: _) => some (.num [r, g, b])
  | a, .num [_, _, _, alpha] => some (.num [alpha])
  | _, _ => none

/-- Replaces the selected components of a vector. -/
def Swizzle.update (sel : Swizzle) (old new : Value) : Option Value :=
  match sel, old, new with
  | xy, .num (_ :: _ :: rest), .num [x, y] => some (.num (x :: y :: rest))
  | rgb, .num (_ :: _ :: _ :: rest), .num [r, g, b] => some (.num (r :: g :: b :: rest))
  | a, .num [r, g, b, _], .num [alpha] => some (.num [r, g, b, alpha])
  | _, _, _ => none

def Arith.eval (op : Arith) : Value → Value → Option Value :=
  match op with
  | add => Value.zip (· + ·)
  | sub => Value.zip (· - ·)
  | mul => Value.zip (· * ·)
  | div => Value.zip (· / ·)

/-- Equality compares all components at once, order compares numbers. -/
def Relation.eval (rel : Relation) (v w : Value) : Option Value :=
  match rel, v, w with
  | eq, .num xs, .num ys => if xs.length = ys.length then some (.bool (xs = ys)) else none
  | ne, .num xs, .num ys => if xs.length = ys.length then some (.bool (xs ≠ ys)) else none
  | eq, .bool x, .bool y => some (.bool (x = y))
  | ne, .bool x, .bool y => some (.bool (x ≠ y))
  | lt, .num [x], .num [y] => some (.bool (x < y))
  | le, .num [x], .num [y] => some (.bool (x ≤ y))
  | gt, .num [x], .num [y] => some (.bool (y < x))
  | ge, .num [x], .num [y] => some (.bool (y ≤ x))
  | _, _, _ => none

def roundDown (x : Rat) : Rat := x.floor

def fraction (x : Rat) : Rat := x - roundDown x

def smaller (x y : Rat) : Rat := if x ≤ y then x else y

def larger (x y : Rat) : Rat := if x ≤ y then y else x

/-- The components of all arguments, one after another. -/
def components : List Value → Option (List Rat)
  | [] => some []
  | .num xs :: vs => (components vs).map (xs ++ ·)
  | _ :: _ => none

/-- The value of a call of `f`; `call` gives the values of calls of helpers. -/
def Func.eval (call : String → Value → Option Value) (f : Func) (args : List Value) :
    Option Value :=
  match f, args with
  | vec4, args => (components args).bind fun xs => if xs.length = 4 then some (.num xs) else none
  | mix, [v, w, weight] => do
      let rest ← Value.zip (· - ·) (.float 1) weight
      Value.zip (· + ·) (← Value.zip (· * ·) v rest) (← Value.zip (· * ·) w weight)
  | clamp, [v, low, high] => do Value.zip smaller (← Value.zip larger v low) high
  | floor, [v] => v.map roundDown
  | fract, [v] => v.map fraction
  | texture2D, [.sampler texel, .num [x, y]] => some (.vec4 (texel x y))
  | texture2DProj, [.sampler texel, .num [x, y, z]] => some (.vec4 (texel (x / z) (y / z)))
  | helper name, [v] => call name v
  | _, _ => none

/-! ## Expressions and helpers -/

/-- The value of an expression. -/
def Expr.eval (call : String → Value → Option Value) (g : Env) : Expr → Option Value
  | lit whole tenths => some (.float ((whole : Rat) + (tenths.val : Rat) / 10))
  | var name => g.lookup name
  | part e sel => (e.eval call g).bind sel.eval
  | not e =>
      match e.eval call g with
      | some (.bool b) => some (.bool !b)
      | _ => none
  | arith op lhs rhs => do op.eval (← lhs.eval call g) (← rhs.eval call g)
  | compare rel lhs rhs => do rel.eval (← lhs.eval call g) (← rhs.eval call g)
  | call1 f a => do f.eval call [← a.eval call g]
  | call2 f a b => do f.eval call [← a.eval call g, ← b.eval call g]
  | call3 f a b c => do
      f.eval call [← a.eval call g, ← b.eval call g, ← c.eval call g]
  | call4 f a b c d => do
      f.eval call [← a.eval call g, ← b.eval call g, ← c.eval call g, ← d.eval call g]

attribute [grind =] Expr.eval

/-- No helpers. -/
def noHelper (_ : String) (_ : Value) : Option Value := none

/-- The value of a helper at `v`. Helpers do not call each other. -/
def Helper.apply (h : Helper) (v : Value) : Option Value := do
  let g ← h.locals.foldlM (fun (g : Env) l => do return (l.1, ← l.2.eval noHelper g) :: g)
    [(h.param, v)]
  h.result.eval noHelper g

/-- The values of the helpers of a list. -/
def applyHelper (hs : List Helper) (name : String) (v : Value) : Option Value :=
  (hs.find? fun h => h.name = name).bind fun h => h.apply v

/-! ## Statements -/

/-- How a run goes on: it has no meaning, the fragment is discarded, or there is a result. -/
inductive Outcome (α : Type) where
  | stuck
  | discarded
  | done (a : α)

namespace Outcome

def bind {α β : Type} : Outcome α → (α → Outcome β) → Outcome β
  | stuck, _ => stuck
  | discarded, _ => discarded
  | done a, f => f a

def ofOption {α : Type} : Option α → Outcome α
  | none => stuck
  | some a => done a

end Outcome

/-- Runs a statement. -/
def Stmt.run (call : String → Value → Option Value) (g : Env) : Stmt → Outcome Env
  | declare _ name value | assign name value =>
      .ofOption ((value.eval call g).map fun v => (name, v) :: g)
  | assignPart name sel value =>
      .ofOption do
        let v ← sel.update (← g.lookup name) (← value.eval call g)
        return (name, v) :: g
  | addAssign name value =>
      .ofOption do
        let v ← Value.zip (· + ·) (← g.lookup name) (← value.eval call g)
        return (name, v) :: g
  | discard => .discarded
  | discardIf cond =>
      match cond.eval call g with
      | some (.bool true) => .discarded
      | some (.bool false) => .done g
      | _ => .stuck

/-- Runs statements in order. -/
def runAll (call : String → Value → Option Value) (g : Env) : List Stmt → Outcome Env
  | [] => .done g
  | s :: ss => (s.run call g).bind fun g' => runAll call g' ss

theorem runAll_append (call : String → Value → Option Value) (g : Env) (ss ts : List Stmt) :
    runAll call g (ss ++ ts) = (runAll call g ss).bind fun g' => runAll call g' ts := by
  induction ss generalizing g with
  | nil => rfl
  | cons s ss ih =>
      simp only [List.cons_append, runAll]
      cases s.run call g with
      | stuck => rfl
      | discarded => rfl
      | done g' => exact ih g'

/-- Runs a program where the global variables have the values `g`, and gives its output. -/
def Program.run (p : Program) (g : Env) : Outcome Rgba :=
  (runAll (applyHelper p.helpers) g p.main).bind fun g' =>
    .ofOption ((g'.lookup "gl_FragColor").bind Value.toColor)

end FixedFragment.Glsl
