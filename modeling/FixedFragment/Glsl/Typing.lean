import FixedFragment.Glsl.Tree

set_option autoImplicit false

/-!
# Scopes and types

Every name is declared before it is used and is declared once; every expression has a type; only
local variables and the output are assigned to. `Program.wellTyped` checks all of it.
-/

namespace FixedFragment.Glsl

/-! ## Types of operations -/

/-- The number of components of a value, none for values that are not made of numbers. -/
def Ty.width : Ty → Option Nat
  | float => some 1
  | vec2 => some 2
  | vec3 => some 3
  | vec4 => some 4
  | bool | sampler2D => none

def Ty.isNumeric (t : Ty) : Bool := t.width.isSome

/-- The type of the selected components of a value of type `t`. -/
def Swizzle.type? (sel : Swizzle) (t : Ty) : Option Ty :=
  match sel, t with
  | xy, .vec2 | xy, .vec3 | xy, .vec4 => some .vec2
  | rgb, .vec3 | rgb, .vec4 => some .vec3
  | a, .vec4 => some .float
  | _, _ => none

/-- The type of arithmetic by components: a number goes with every vector. -/
def Ty.join (s t : Ty) : Option Ty :=
  if s.isNumeric && t.isNumeric then
    if s = t then some s
    else if s = .float then some t
    else if t = .float then some s
    else none
  else
    none

/-- The type of a comparison: equality is defined on all values but samplers, order on numbers. -/
def Relation.type? (rel : Relation) (s t : Ty) : Option Ty :=
  match rel with
  | eq | ne => if s = t ∧ s ≠ .sampler2D then some .bool else none
  | lt | le | gt | ge => if s = .float ∧ t = .float then some .bool else none

/-- Whether the components of the arguments fill a vector of four. -/
def fillsVec4 (args : List Ty) : Bool :=
  args.all Ty.isNumeric && (args.filterMap Ty.width).foldl (· + ·) 0 = 4

/-- The type of a call of `f`; `helper?` gives the types that helpers map to themselves. -/
def Func.type? (helper? : String → Option Ty) (f : Func) (args : List Ty) : Option Ty :=
  match f, args with
  | vec4, args => if fillsVec4 args then some .vec4 else none
  | mix, [s, t, w] => if s = t ∧ s.isNumeric ∧ (w = s ∨ w = .float) then some s else none
  | clamp, [t, low, high] =>
      if t.isNumeric ∧ low = high ∧ (low = t ∨ low = .float) then some t else none
  | floor, [t] | fract, [t] => if t.isNumeric then some t else none
  | texture2D, [s, t] => if s = .sampler2D ∧ t = .vec2 then some .vec4 else none
  | texture2DProj, [s, t] => if s = .sampler2D ∧ t = .vec3 then some .vec4 else none
  | helper name, [t] => (helper? name).filter (· = t)
  | _, _ => none

/-! ## Scopes -/

/-- A variable in scope. -/
structure Variable where
  name : String
  ty : Ty
  assignable : Bool
deriving DecidableEq, Repr

/-- The variables and the helpers in scope. -/
structure Scope where
  vars : List Variable
  helpers : List (String × Ty)
deriving DecidableEq, Repr

namespace Scope

def entry? (g : Scope) (name : String) : Option Variable :=
  g.vars.find? fun v => v.name = name

def type? (g : Scope) (name : String) : Option Ty := (g.entry? name).map Variable.ty

def helper? (g : Scope) (name : String) : Option Ty := g.helpers.lookup name

/-- Whether `name` means nothing yet. -/
def isFresh (g : Scope) (name : String) : Bool :=
  (g.entry? name).isNone && (g.helper? name).isNone

/-- Declares a variable under a fresh name. -/
def declare (g : Scope) (v : Variable) : Option Scope :=
  if g.isFresh v.name then some { g with vars := v :: g.vars } else none

/-- Declares a helper under a fresh name. -/
def declareHelper (g : Scope) (name : String) (ty : Ty) : Option Scope :=
  if g.isFresh name then some { g with helpers := (name, ty) :: g.helpers } else none

end Scope

/-! ## Expressions and statements -/

/-- The type of an expression. -/
def Expr.type? (g : Scope) : Expr → Option Ty
  | lit _ _ => some .float
  | var name => g.type? name
  | part e sel => (e.type? g).bind sel.type?
  | not e => (e.type? g).filter (· = .bool)
  | arith _ lhs rhs => do (← lhs.type? g).join (← rhs.type? g)
  | compare rel lhs rhs => do rel.type? (← lhs.type? g) (← rhs.type? g)
  | call1 f a => do f.type? g.helper? [← a.type? g]
  | call2 f a b => do f.type? g.helper? [← a.type? g, ← b.type? g]
  | call3 f a b c => do f.type? g.helper? [← a.type? g, ← b.type? g, ← c.type? g]
  | call4 f a b c d => do f.type? g.helper? [← a.type? g, ← b.type? g, ← c.type? g, ← d.type? g]

/-- Whether an expression has the type `t`. -/
def Expr.hasType (g : Scope) (e : Expr) (t : Ty) : Bool := e.type? g = some t

/-- The type of a variable that can be assigned to. -/
def Scope.assignable? (g : Scope) (name : String) : Option Ty :=
  ((g.entry? name).filter Variable.assignable).map Variable.ty

/-- Checks a statement and gives the scope behind it. -/
def Stmt.check (g : Scope) : Stmt → Option Scope
  | declare ty name value =>
      if value.hasType g ty then g.declare ⟨name, ty, true⟩ else none
  | assign name value => do
      let t ← g.assignable? name
      if value.hasType g t then some g else none
  | assignPart name sel value => do
      let t ← sel.type? (← g.assignable? name)
      if value.hasType g t then some g else none
  | addAssign name value => do
      let t ← g.assignable? name
      if (value.type? g).bind t.join = some t then some g else none
  | discard => some g
  | discardIf cond => if cond.hasType g .bool then some g else none

/-! ## Programs -/

/-- Declares a global variable. -/
def Global.check (g : Scope) (v : Global) : Option Scope := g.declare ⟨v.name, v.ty.ty, false⟩

/-- Checks a helper, whose parameter and local variables are seen by itself alone. -/
def Helper.check (g : Scope) (h : Helper) : Option Scope := do
  let inner ← g.declare ⟨h.param, h.ty.ty, true⟩
  let inner ← h.locals.foldlM (fun g l => (Stmt.declare h.ty.ty l.1 l.2).check g) inner
  if h.result.hasType inner h.ty.ty then g.declareHelper h.name h.ty.ty else none

/-- The scope before all declarations: the output is there. -/
def Scope.start : Scope where
  vars := [⟨"gl_FragColor", .vec4, true⟩]
  helpers := []

/-- Whether all names are declared once and before their uses, and all types agree. -/
def Program.wellTyped (p : Program) : Bool :=
  Option.isSome do
    let g ← p.globals.foldlM Global.check Scope.start
    let g ← p.helpers.foldlM Helper.check g
    p.main.foldlM Stmt.check g

end FixedFragment.Glsl
