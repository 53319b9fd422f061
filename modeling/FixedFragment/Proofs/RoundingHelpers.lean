import Mathlib.Tactic.Ring
import FixedFragment.Shading
import FixedFragment.ShaderInput

set_option autoImplicit false

/-!
# What the rounding helpers compute

Both ways of rounding to bytes, by `floor` and by a bias and `fract`, compute `quantize` over exact
numbers, on every component: `Quantizer.apply_helper`. A comparison finds the helper that it calls:
`Decisions.applyHelper_scalar` and `Decisions.applyHelper_vector`.
-/

namespace FixedFragment

open Glsl

namespace Glsl

/-! ## Operations by components -/

theorem Value.zip_number (f : Rat → Rat → Rat) (xs : List Rat) (y : Rat) :
    zip f (num xs) (num [y]) = some (num (xs.map fun x => f x y)) := by
  rcases xs with - | ⟨x, - | ⟨x', xs⟩⟩ <;> rfl

/-- Two values made of one list by components go together by components. -/
theorem Value.zip_map (f : Rat → Rat → Rat) (g h : Rat → Rat) (xs : List Rat) :
    zip f (num (xs.map g)) (num (xs.map h)) = some (num (xs.map fun x => f (g x) (h x))) := by
  rcases xs with - | ⟨x, - | ⟨x', xs⟩⟩
  · rfl
  · rfl
  · simp [zip, List.zipWith_map_left, List.zipWith_map_right, List.zipWith_self]

/-- The operation on numbers. -/
def Arith.onNumbers : Arith → Rat → Rat → Rat
  | add => (· + ·)
  | sub => (· - ·)
  | mul => (· * ·)
  | div => (· / ·)

theorem Arith.eval_eq_zip (op : Arith) (v w : Value) :
    op.eval v w = Value.zip op.onNumbers v w := by
  cases op <;> rfl

namespace Expr

variable {call : String → Value → Option Value} {g : Env} {xs : List Rat}

theorem eval_lit_whole (n : Nat) : (lit n 0).eval call g = some (.num [(n : Rat)]) := by
  simp [eval, Value.float]

theorem eval_lit_half : (lit 0 5).eval call g = some (.num [1 / 2]) := by
  have h : ((0 : Nat) : Rat) + ((5 : Nat) : Rat) / 10 = 1 / 2 := by norm_num
  exact congrArg (fun x => some (Value.num [x])) h

theorem eval_arith_number (op : Arith) {lhs rhs : Expr} {f : Rat → Rat} {y : Rat}
    (hl : lhs.eval call g = some (.num (xs.map f))) (hr : rhs.eval call g = some (.num [y])) :
    (arith op lhs rhs).eval call g = some (.num (xs.map fun x => op.onNumbers (f x) y)) := by
  have hzip := Value.zip_number op.onNumbers (xs.map f) y
  rw [List.map_map] at hzip
  rw [eval, hl, hr]
  exact (op.eval_eq_zip _ _).trans hzip

theorem eval_arith_map (op : Arith) {lhs rhs : Expr} {f h : Rat → Rat}
    (hl : lhs.eval call g = some (.num (xs.map f)))
    (hr : rhs.eval call g = some (.num (xs.map h))) :
    (arith op lhs rhs).eval call g = some (.num (xs.map fun x => op.onNumbers (f x) (h x))) := by
  rw [eval, hl, hr]
  exact (op.eval_eq_zip _ _).trans (Value.zip_map op.onNumbers f h xs)

theorem eval_quotient {k l : Expr} {x y : Rat} (hk : k.eval call g = some (.num [x]))
    (hl : l.eval call g = some (.num [y])) :
    (arith .div k l).eval call g = some (.num [x / y]) := by
  rw [eval, hk, hl]
  rfl

theorem eval_floor {a : Expr} {f : Rat → Rat} (ha : a.eval call g = some (.num (xs.map f))) :
    (call1 .floor a).eval call g = some (.num (xs.map fun x => roundDown (f x))) := by
  rw [eval, ha]
  exact congrArg (fun ys => some (Value.num ys)) List.map_map

theorem eval_fract {a : Expr} {f : Rat → Rat} (ha : a.eval call g = some (.num (xs.map f))) :
    (call1 .fract a).eval call g = some (.num (xs.map fun x => fraction (f x))) := by
  rw [eval, ha]
  exact congrArg (fun ys => some (Value.num ys)) List.map_map

end Expr

end Glsl

/-! ## The helpers -/

namespace Quantizer

/-- The bias puts a half before the fraction is cut off. -/
theorem biased_eq_quantize (x : Rat) :
    (x + 1 / 2 / 255 - fraction ((x + 1 / 2 / 255) * 255) * (1 / 255)) * 255 = quantize x := by
  have hbias : (x + 1 / 2 / 255) * 255 = x * 255 + 1 / 2 := by ring
  calc (x + 1 / 2 / 255 - fraction ((x + 1 / 2 / 255) * 255) * (1 / 255)) * 255
      = (x + 1 / 2 / 255) * 255 - fraction ((x + 1 / 2 / 255) * 255) := by ring
    _ = (x * 255 + 1 / 2) - fraction (x * 255 + 1 / 2) := by rw [hbias]
    _ = roundDown (x * 255 + 1 / 2) := by rw [fraction, sub_sub_cancel]
    _ = quantize x := rfl

theorem eval_floor_result (xs : List Rat) :
    floor.result.eval noHelper [("x", .num xs)] = some (.num (xs.map quantize)) := by
  have hx : (Expr.var "x").eval noHelper [("x", .num xs)] = some (.num (xs.map id)) := by
    rw [List.map_id]
    rfl
  -- `floor(x * 255.0 + 0.5)`, from the inside out.
  have hscaled := Expr.eval_arith_number .mul hx (Expr.eval_lit_whole 255)
  exact Expr.eval_floor (Expr.eval_arith_number .add hscaled Expr.eval_lit_half)

theorem eval_biased_result {xs : List Rat} {g : Env}
    (hg : g.lookup "y" = some (.num (xs.map (· + 1 / 2 / 255)))) :
    biased.result.eval noHelper g = some (.num (xs.map quantize)) := by
  have hy : (Expr.var "y").eval noHelper g = some (.num (xs.map (· + 1 / 2 / 255))) := hg
  -- `(y - fract(y * 255.0) * (1.0 / 255.0)) * 255.0`, from the inside out.
  have hscaled := Expr.eval_arith_number .mul hy (Expr.eval_lit_whole 255)
  have hunit : (Expr.arith .div (.lit 1 0) (.lit 255 0)).eval noHelper g = some (.num [1 / 255]) :=
    Expr.eval_quotient (Expr.eval_lit_whole 1) (Expr.eval_lit_whole 255)
  have hrest := Expr.eval_arith_number .mul (Expr.eval_fract hscaled) hunit
  have hresult := Expr.eval_arith_number .mul (Expr.eval_arith_map .sub hy hrest)
    (Expr.eval_lit_whole 255)
  refine hresult.trans (congrArg (fun ys => some (Value.num ys)) ?_)
  exact List.map_congr_left fun x _ => biased_eq_quantize x

/-- A helper rounds every component to a byte. -/
theorem apply_helper (q : Quantizer) (dialect : Dialect) (ty : Ty) (name : String)
    (xs : List Rat) :
    (q.helper dialect ty name).apply (.num xs) = some (.num (xs.map quantize)) := by
  cases q with
  | floor => exact eval_floor_result xs
  | biased =>
      have hx : (Expr.var "x").eval noHelper [("x", .num xs)] = some (.num (xs.map id)) := by
        rw [List.map_id]
        rfl
      have hbias : (Expr.arith .div (.lit 0 5) (.lit 255 0)).eval noHelper [("x", .num xs)]
          = some (.num [1 / 2 / 255]) :=
        Expr.eval_quotient Expr.eval_lit_half (Expr.eval_lit_whole 255)
      have hy := Expr.eval_arith_number .add hx hbias
      simp only [Helper.apply, helper, locals, List.foldlM_cons, List.foldlM_nil, hy]
      exact eval_biased_result rfl

theorem scalarName_ne_vectorName (q : Quantizer) : q.scalarName ≠ q.vectorName := by
  cases q <;> decide

end Quantizer

/-! ## Calls -/

namespace Decisions

variable {d : Decisions} {p : EmitPolicy}

theorem applyHelper_scalar (h : d.comparesAlpha p = true) (xs : List Rat) :
    applyHelper (d.helpers p) (Quantizer.ofPolicy p).scalarName (.num xs)
      = some (.num (xs.map quantize)) := by
  have hfind : (d.helpers p).find? (fun h => h.name = (Quantizer.ofPolicy p).scalarName)
      = some ((Quantizer.ofPolicy p).helper p.dialect .float
        (Quantizer.ofPolicy p).scalarName) := by
    simp [helpers, onlyIf, h, Quantizer.helper]
  rw [applyHelper, hfind]
  exact Quantizer.apply_helper _ _ _ _ xs

theorem applyHelper_vector (h : d.comparesColor = true) (xs : List Rat) :
    applyHelper (d.helpers p) (Quantizer.ofPolicy p).vectorName (.num xs)
      = some (.num (xs.map quantize)) := by
  have hname := (Quantizer.ofPolicy p).scalarName_ne_vectorName
  have hfind : (d.helpers p).find? (fun h => h.name = (Quantizer.ofPolicy p).vectorName)
      = some ((Quantizer.ofPolicy p).helper p.dialect .vec3
        (Quantizer.ofPolicy p).vectorName) := by
    -- The helper for one number may stand in front.
    cases halpha : d.comparesAlpha p <;>
      simp [helpers, onlyIf, h, halpha, Quantizer.helper, hname]
  rw [applyHelper, hfind]
  exact Quantizer.apply_helper _ _ _ _ xs

end Decisions

end FixedFragment
