import FixedFragment.Proofs.ColorAlgebra
import FixedFragment.Proofs.RoundingHelpers
import FixedFragment.Proofs.SourceReading

set_option autoImplicit false

/-!
# What a shader computes

The text of a shader, read and run, gives the color that the pipeline gives, and discards the
fragments that the pipeline discards: `Decisions.run_source`. Between two stages the run keeps the
global variables and has the working color in `v` (`Working`); each stage has a lemma that says
what it makes of the working color.
-/

namespace FixedFragment

open Glsl

/-! ## Between two stages -/

/-- The names that `main` gives values to. -/
def ShaderName.assigned : List String := ["s", "t", "p", "v", "fogCoef", ShaderName.output]

/-- The names that are not given values by `main` have the values that the run started with. -/
def Keeps (start g : Env) : Prop := ∀ name ∉ ShaderName.assigned, g.lookup name = start.lookup name

theorem Keeps.push {start g : Env} (h : Keeps start g) {name : String}
    (hname : name ∈ ShaderName.assigned) (v : Value) : Keeps start ((name, v) :: g) := by
  intro other hother
  have hne : other ≠ name := fun heq => hother (heq ▸ hname)
  rw [List.lookup_cons, beq_false_of_ne hne]
  exact h other hother

/-- The run keeps the global variables and has the working color `c` in `v`. -/
structure Working (start g : Env) (c : Rgba) : Prop where
  keeps : Keeps start g
  color : g.lookup "v" = some (.vec4 c)

section

variable {d : Decisions} {u : Uniforms} {x : ShaderInput} {g : Env}

theorem Keeps.sampler (h : Keeps (x.globals u d) g) :
    g.lookup ShaderName.sampler = some (.sampler x.texture) :=
  h ShaderName.sampler (by decide)

theorem Keeps.reference (h : Keeps (x.globals u d) g) :
    g.lookup ShaderName.reference = some (.vec4 u.reference) :=
  h ShaderName.reference (by decide)

theorem Keeps.colorMask (h : Keeps (x.globals u d) g) :
    g.lookup ShaderName.colorMask = some (.vec4 u.colorMask) :=
  h ShaderName.colorMask (by decide)

theorem Keeps.textureEnv (h : Keeps (x.globals u d) g) :
    g.lookup ShaderName.textureEnv = some (.vec3 u.textureEnv) :=
  h ShaderName.textureEnv (by decide)

theorem Keeps.fogColor (h : Keeps (x.globals u d) g) :
    g.lookup ShaderName.fogColor = some (.vec3 u.fogColor) :=
  h ShaderName.fogColor (by decide)

theorem Keeps.primary (h : Keeps (x.globals u d) g) :
    g.lookup ShaderName.primary = some (.vec4 x.primary) :=
  h ShaderName.primary (by decide)

theorem Keeps.secondary (h : Keeps (x.globals u d) g) :
    g.lookup ShaderName.secondary = some (.vec3 x.secondary) :=
  h ShaderName.secondary (by decide)

theorem Keeps.fogDepth (h : Keeps (x.globals u d) g) :
    g.lookup ShaderName.fogDepth = some (.float x.fogDepth) :=
  h ShaderName.fogDepth (by decide)

theorem Keeps.texCoord (h : Keeps (x.globals u d) g) :
    g.lookup ShaderName.texCoord = some (x.coordValue d) :=
  h ShaderName.texCoord (by decide)

end

/-! ## Expressions of colors -/

namespace Glsl

/-- Clamping in the program is clamping in the pipeline. -/
theorem smaller_larger_eq_clampUnit (k : Rat) : smaller (larger k 0) 1 = clampUnit k := by
  by_cases hlow : k ≤ 0
  · have hzero : smaller (larger k 0) 1 = 0 := by
      rw [larger, if_pos hlow, smaller, if_pos zero_le_one]
    rw [hzero, clampUnit]
    rcases lt_or_eq_of_le hlow with hneg | rfl
    · rw [if_pos hneg]
    · rfl
  · have hpos : ¬k < 0 := fun hneg => hlow (le_of_lt hneg)
    rw [larger, if_neg hlow, clampUnit, if_neg hpos, smaller]
    by_cases hhigh : k ≤ 1
    · rw [if_pos hhigh, if_neg (not_lt.mpr hhigh)]
    · rw [if_neg hhigh, if_pos (not_le.mp hhigh)]

section

variable {call : String → Value → Option Value} {g : Env} {e f w : Expr}

theorem Expr.eval_rgb {c : Rgba} (he : e.eval call g = some (.vec4 c)) :
    (part e .rgb).eval call g = some (.vec3 c.rgb) := by
  rw [eval, he]
  rfl

theorem Expr.eval_a {c : Rgba} (he : e.eval call g = some (.vec4 c)) :
    (part e .a).eval call g = some (.float c.a) := by
  rw [eval, he]
  rfl

theorem Expr.eval_vec4 {c : Rgb} {a : Rat} (he : e.eval call g = some (.vec3 c))
    (hf : f.eval call g = some (.float a)) :
    (call2 .vec4 e f).eval call g = some (.vec4 ⟨c, a⟩) := by
  rw [eval, he, hf]
  rfl

theorem Expr.eval_add_vec4 {c c' : Rgba} (he : e.eval call g = some (.vec4 c))
    (hf : f.eval call g = some (.vec4 c')) :
    (arith .add e f).eval call g = some (.vec4 (c + c')) := by
  rw [eval, he, hf]
  rfl

theorem Expr.eval_mul_vec4 {c c' : Rgba} (he : e.eval call g = some (.vec4 c))
    (hf : f.eval call g = some (.vec4 c')) :
    (arith .mul e f).eval call g = some (.vec4 (c * c')) := by
  rw [eval, he, hf]
  rfl

theorem Expr.eval_arith_vec3 (op : Arith) {c c' : Rgb} (he : e.eval call g = some (.vec3 c))
    (hf : f.eval call g = some (.vec3 c')) :
    (arith op e f).eval call g = some (.vec3 (c.zipWith op.onNumbers c')) := by
  rw [eval, he, hf]
  exact op.eval_eq_zip _ _

theorem Expr.eval_arith_float (op : Arith) {a b : Rat} (he : e.eval call g = some (.float a))
    (hf : f.eval call g = some (.float b)) :
    (arith op e f).eval call g = some (.float (op.onNumbers a b)) := by
  rw [eval, he, hf]
  exact op.eval_eq_zip _ _

theorem Expr.eval_mix {c c' k : Rgb} (he : e.eval call g = some (.vec3 c))
    (hf : f.eval call g = some (.vec3 c')) (hw : w.eval call g = some (.vec3 k)) :
    (call3 .mix e f w).eval call g = some (.vec3 (c.mix c' k)) := by
  rw [eval, he, hf, hw]
  rfl

/-- One weight goes with all components. -/
theorem Expr.eval_mix_grey {c c' : Rgb} {k : Rat} (he : e.eval call g = some (.vec3 c))
    (hf : f.eval call g = some (.vec3 c')) (hw : w.eval call g = some (.float k)) :
    (call3 .mix e f w).eval call g = some (.vec3 (c.mix c' (.grey k))) := by
  rw [eval, he, hf, hw]
  rfl

/-- Alpha that is mixed with itself stays as it is. -/
theorem Expr.eval_mix_vec4 {c : Rgba} {color : Rgb} {k : Rat}
    (he : e.eval call g = some (.vec4 ⟨color, c.a⟩)) (hf : f.eval call g = some (.vec4 c))
    (hw : w.eval call g = some (.float k)) :
    (call3 .mix e f w).eval call g = some (.vec4 ⟨color.mix c.rgb (.grey k), c.a⟩) := by
  have halpha : c.a * (1 - k) + c.a * k = c.a := by ring
  rw [eval, he, hf, hw]
  show some (Value.vec4 ⟨color.mix c.rgb (.grey k), c.a * (1 - k) + c.a * k⟩) = _
  rw [halpha]

theorem Expr.eval_doubled {xs : List Rat} (he : e.eval call g = some (.num xs)) :
    (arith .mul e (.lit 2 0)).eval call g = some (.num (xs.map (2 * ·))) := by
  have hid : e.eval call g = some (.num (xs.map id)) := by rw [List.map_id, he]
  refine (eval_arith_number .mul hid (eval_lit_whole 2)).trans ?_
  refine congrArg (fun ys => some (Value.num ys)) (List.map_congr_left fun y _ => ?_)
  exact Rat.mul_comm y 2

theorem Expr.eval_helper {name : String} {v result : Value} (he : e.eval call g = some v)
    (hcall : call name v = some result) :
    (call1 (.helper name) e).eval call g = some result := by
  rw [eval, he]
  exact hcall

theorem Expr.eval_compare {rel : Relation} {v v' result : Value} (he : e.eval call g = some v)
    (hf : f.eval call g = some v') (hrel : rel.eval v v' = some result) :
    (compare rel e f).eval call g = some result := by
  rw [eval, he, hf]
  exact hrel

end

/-! ## Statements -/

section

variable {call : String → Value → Option Value} {g : Env} {value : Expr} {v : Value}

theorem runAll_declare (h : value.eval call g = some v) (ty : Ty) (name : String)
    (ss : List Stmt) :
    runAll call g (.declare ty name value :: ss) = runAll call ((name, v) :: g) ss := by
  rw [runAll, Stmt.run, h]
  rfl

theorem runAll_assign (h : value.eval call g = some v) (name : String) (ss : List Stmt) :
    runAll call g (.assign name value :: ss) = runAll call ((name, v) :: g) ss := by
  rw [runAll, Stmt.run, h]
  rfl

theorem runAll_assignPart {name : String} {sel : Swizzle} {old new : Value}
    (hvalue : value.eval call g = some v) (hold : g.lookup name = some old)
    (hnew : sel.update old v = some new) (ss : List Stmt) :
    runAll call g (.assignPart name sel value :: ss) = runAll call ((name, new) :: g) ss := by
  rw [runAll, Stmt.run, hvalue, hold]
  simp only [Option.bind_eq_bind, Option.bind_some, hnew]
  rfl

theorem runAll_addAssign {name : String} {old new : Value}
    (hvalue : value.eval call g = some v) (hold : g.lookup name = some old)
    (hnew : Value.zip (· + ·) old v = some new) (ss : List Stmt) :
    runAll call g (.addAssign name value :: ss) = runAll call ((name, new) :: g) ss := by
  rw [runAll, Stmt.run, hvalue, hold]
  simp only [Option.bind_eq_bind, Option.bind_some, hnew]
  rfl

end

end Glsl

/-! ## The working color -/

section

variable {call : String → Value → Option Value} {d : Decisions} {u : Uniforms} {x : ShaderInput}

theorem TextureUse.eval_lookup {t : TextureUse} {g : Env} (hd : d.texture = some t)
    (hg : Keeps (x.globals u d) g) :
    t.lookup.eval call g = some (.vec4 (x.texel t.projected)) := by
  obtain ⟨function, rgba, projected⟩ := t
  have hsampler := hg.sampler
  have hcoord := hg.texCoord
  rw [ShaderInput.coordValue, hd] at hcoord
  cases projected with
  | false =>
      simp only [lookup, Expr.eval, hsampler, hcoord]
      rfl
  | true =>
      simp only [lookup, Expr.eval, hsampler, hcoord]
      rfl

/-- The combination is written for the same functions as it is defined for, and has the color that
is defined. -/
theorem TextureUse.eval_combination (t : TextureUse) {g : Env} {primary texel : Rgba} {env : Rgb}
    (hp : g.lookup "p" = some (.vec4 primary)) (ht : g.lookup "t" = some (.vec4 texel))
    (henv : g.lookup ShaderName.textureEnv = some (.vec3 env)) :
    t.combination.map (Expr.eval call g)
      = (t.combine env primary texel).map fun c => some (.vec4 c) := by
  have hprimary : (Expr.var "p").eval call g = some (.vec4 primary) := hp
  have htexel : (Expr.var "t").eval call g = some (.vec4 texel) := ht
  have hpa := Expr.eval_a hprimary
  have hproduct := Expr.eval_arith_float .mul hpa (Expr.eval_a htexel)
  obtain ⟨function, rgba, projected⟩ := t
  cases function with
  | modulate =>
      cases rgba with
      | true => exact congrArg some (Expr.eval_mul_vec4 hprimary htexel)
      | false =>
          -- The program has the factors the other way round.
          have hrgb := Expr.eval_arith_vec3 .mul (Expr.eval_rgb htexel) (Expr.eval_rgb hprimary)
          refine congrArg some ((Expr.eval_vec4 hrgb hpa).trans ?_)
          exact congrArg (fun c => some (Value.vec4 ⟨c, primary.a⟩))
            (Rgb.mul_comm texel.rgb primary.rgb)
  | decal =>
      cases rgba with
      | true =>
          exact congrArg some (Expr.eval_vec4 (Expr.eval_mix_grey (Expr.eval_rgb hprimary)
            (Expr.eval_rgb htexel) (Expr.eval_a htexel)) hpa)
      | false => exact congrArg some (Expr.eval_vec4 (Expr.eval_rgb htexel) hpa)
  | blend =>
      have hcolor : (Expr.part (.var ShaderName.textureEnv) .rgb).eval call g
          = some (.vec3 env) := by
        rw [Expr.eval, Expr.eval, henv]
        rfl
      exact congrArg some (Expr.eval_vec4 (Expr.eval_mix (Expr.eval_rgb hprimary) hcolor
        (Expr.eval_rgb htexel)) hproduct)
  | replace =>
      cases rgba with
      | true => exact congrArg some htexel
      | false => exact congrArg some (Expr.eval_vec4 (Expr.eval_rgb htexel) hpa)
  | add =>
      have hrgb := Expr.eval_arith_vec3 .add (Expr.eval_rgb hprimary) (Expr.eval_rgb htexel)
      cases rgba with
      | true => exact congrArg some (Expr.eval_vec4 hrgb hproduct)
      | false => exact congrArg some (Expr.eval_vec4 hrgb hpa)
  | reserved5 | reserved6 | reserved7 => rfl

/-- The second color is declared where it is added. -/
theorem Decisions.eval_plusSecondary {g : Env} {e : Expr} {c : Rgba}
    (hs : d.secondaryColor = true → g.lookup "s" = some (.vec4 ⟨x.secondary, 0⟩))
    (he : e.eval call g = some (.vec4 c)) :
    (d.plusSecondary e).eval call g
      = some (.vec4 (c + ⟨if d.secondaryColor then x.secondary else .grey 0, 0⟩)) := by
  unfold plusSecondary
  by_cases hsecond : d.secondaryColor = true
  · rw [if_pos hsecond, if_pos hsecond]
    exact Expr.eval_add_vec4 he (hs hsecond)
  · rw [if_neg hsecond, if_neg hsecond, Rgba.add_black]
    exact he

theorem Decisions.runAll_secondary (call : String → Value → Option Value) (d : Decisions)
    (u : Uniforms) (x : ShaderInput) :
    ∃ g, runAll call (x.globals u d) (onlyIf d.secondaryColor
        (.declare .vec4 "s" (.call2 .vec4 (.var ShaderName.secondary) (.lit 0 0)))) = .done g
      ∧ Keeps (x.globals u d) g
      ∧ (d.secondaryColor = true → g.lookup "s" = some (.vec4 ⟨x.secondary, 0⟩)) := by
  have hstart : Keeps (x.globals u d) (x.globals u d) := fun _ _ => rfl
  cases hsecond : d.secondaryColor with
  | false => exact ⟨_, rfl, hstart, fun h => nomatch h⟩
  | true =>
      have hvalue : (Expr.call2 .vec4 (.var ShaderName.secondary) (.lit 0 0)).eval call
          (x.globals u d) = some (.vec4 ⟨x.secondary, 0⟩) :=
        Expr.eval_vec4 hstart.secondary (Expr.eval_lit_whole 0)
      exact ⟨_, runAll_declare hvalue .vec4 "s" [], hstart.push (by decide) _, fun _ => rfl⟩

/-- The combination, with the second color on top, is the working color. -/
theorem Decisions.eval_combined {t : TextureUse} (htexture : d.texture = some t) {g : Env}
    (hp : g.lookup "p" = some (.vec4 x.primary))
    (ht : g.lookup "t" = some (.vec4 (x.texel t.projected)))
    (henv : g.lookup ShaderName.textureEnv = some (.vec3 u.textureEnv))
    (hs : d.secondaryColor = true → g.lookup "s" = some (.vec4 ⟨x.secondary, 0⟩)) :
    (t.combination.elim (.var "p") d.plusSecondary).eval call g
      = some (.vec4 (d.workingColor u (x.fragment d))) := by
  have hcombine : t.combination.map (Expr.eval call g)
      = (t.combine u.textureEnv x.primary (x.texel t.projected)).map fun c => some (.vec4 c) :=
    t.eval_combination hp ht henv
  have htexel : (x.fragment d).texel = x.texel t.projected := by
    rw [ShaderInput.fragment, htexture]
    rfl
  rw [workingColor, htexture]
  simp only [htexel]
  cases he : t.combination with
  | none =>
      rw [he, Option.map_none, eq_comm, Option.map_eq_none_iff] at hcombine
      rw [show (x.fragment d).primary = x.primary from rfl, hcombine]
      exact hp
  | some e =>
      rw [he, Option.map_some, eq_comm, Option.map_eq_some_iff] at hcombine
      obtain ⟨c, hc, hvalue⟩ := hcombine
      rw [show (x.fragment d).primary = x.primary from rfl, hc]
      exact eval_plusSecondary hs hvalue.symm

/-- The first statements leave the working color in `v`. -/
theorem Decisions.runAll_colorStage (call : String → Value → Option Value) (d : Decisions)
    (u : Uniforms) (x : ShaderInput) :
    ∃ g, runAll call (x.globals u d) d.colorStage = .done g
      ∧ Working (x.globals u d) g (d.workingColor u (x.fragment d)) := by
  obtain ⟨g, hrun, hkeeps, hs⟩ := runAll_secondary call d u x
  rw [colorStage, runAll_append, hrun]
  cases htexture : d.texture with
  | none =>
      have hprimary : (Expr.var ShaderName.primary).eval call g = some (.vec4 x.primary) :=
        hkeeps.primary
      refine ⟨_, runAll_declare (eval_plusSecondary hs hprimary) .vec4 "v" [],
        hkeeps.push (by decide) _, ?_⟩
      rw [workingColor, htexture]
      rfl
  | some t =>
      have htexel : t.lookup.eval call g = some (.vec4 (x.texel t.projected)) :=
        t.eval_lookup htexture hkeeps
      -- The environments behind the declarations of the texel and of the primary color.
      obtain ⟨gt, hgt⟩ : ∃ gt, gt = ("t", Value.vec4 (x.texel t.projected)) :: g := ⟨_, rfl⟩
      have hkeepst : Keeps (x.globals u d) gt := hgt ▸ hkeeps.push (by decide) _
      have hprimary : (Expr.var ShaderName.primary).eval call gt = some (.vec4 x.primary) :=
        hkeepst.primary
      obtain ⟨gp, hgp⟩ : ∃ gp, gp = ("p", Value.vec4 x.primary) :: gt := ⟨_, rfl⟩
      have hkeepsp : Keeps (x.globals u d) gp := hgp ▸ hkeepst.push (by decide) _
      have hp : gp.lookup "p" = some (.vec4 x.primary) := hgp ▸ rfl
      have ht : gp.lookup "t" = some (.vec4 (x.texel t.projected)) := hgp ▸ hgt ▸ rfl
      -- Both declarations leave the second color in scope.
      have hsp : d.secondaryColor = true → gp.lookup "s" = some (.vec4 ⟨x.secondary, 0⟩) := by
        intro hsecond
        rw [hgp, hgt]
        exact hs hsecond
      have hvalue : (t.combination.elim (.var "p") d.plusSecondary).eval call gp
          = some (.vec4 (d.workingColor u (x.fragment d))) :=
        eval_combined htexture hp ht hkeepsp.textureEnv hsp
      refine ⟨("v", .vec4 (d.workingColor u (x.fragment d))) :: gp, ?_,
        hkeepsp.push (by decide) _, rfl⟩
      show runAll call g [_, _, _] = _
      rw [runAll_declare htexel, ← hgt, runAll_declare hprimary, ← hgp, runAll_declare hvalue]
      rfl

end

/-! ## Tests -/

/-- A test stage lets a fragment through unchanged or discards it, as the comparison tells that
the stage was made from. -/
theorem runAll_testStage {α : Type} {call : String → Value → Option Value} {g : Env}
    {test : Option α} {code : α → Option TestCode} {passes : α → Bool} {lhs rhs : Expr}
    (hnone : ∀ f, code f = none → passes f = true)
    (hdiscard : ∀ f, code f = some .discardAll → passes f = false)
    (hcompare : ∀ f rel, test = some f → code f = some (.compare rel) →
      (Expr.compare rel lhs rhs).eval call g = some (.bool (passes f))) :
    runAll call g (Decisions.testStage (test.bind code) lhs rhs)
      = if test.all passes = true then .done g else .discarded := by
  cases test with
  | none => rfl
  | some f =>
      rw [Option.bind_some, Option.all_some]
      rcases hcode : code f with - | ⟨- | rel⟩
      · rw [hnone f hcode]
        rfl
      · rw [hdiscard f hcode]
        rfl
      · -- The statement discards where the comparison fails, hence the negation.
        have hcond : (Expr.not (.compare rel lhs rhs)).eval call g = some (.bool !(passes f)) := by
          rw [Expr.eval, hcompare f rel rfl hcode]
        rw [Decisions.testStage, runAll, Stmt.run, hcond]
        cases passes f <;> rfl

theorem CompareFunc.passes_of_testCode_none {f : CompareFunc} (hf : f.testCode = none)
    (a b : Rat) : f.passes a b = true := by
  cases f <;> first | rfl | exact nomatch hf

theorem CompareFunc.passes_of_discardAll {f : CompareFunc} (hf : f.testCode = some .discardAll)
    (a b : Rat) : f.passes a b = false := by
  cases f <;> first | rfl | exact nomatch hf

theorem CompareFunc.eval_testCode {f : CompareFunc} {rel : Relation}
    (hf : f.testCode = some (.compare rel)) (a b : Rat) :
    rel.eval (.float a) (.float b) = some (.bool (f.passes a b)) := by
  cases f <;> simp only [testCode, Option.some.injEq, TestCode.compare.injEq, reduceCtorEq] at hf
    <;> subst hf <;> simp [Relation.eval, Value.float, passes]

theorem ColorTestFunc.passes_of_testCode_none {f : ColorTestFunc} (hf : f.testCode = none)
    (c c' : Rgb) : f.passes c c' = true := by
  cases f <;> first | rfl | exact nomatch hf

theorem ColorTestFunc.passes_of_discardAll {f : ColorTestFunc}
    (hf : f.testCode = some .discardAll) (c c' : Rgb) : f.passes c c' = false := by
  cases f <;> first | rfl | exact nomatch hf

theorem ColorTestFunc.eval_testCode {f : ColorTestFunc} {rel : Relation}
    (hf : f.testCode = some (.compare rel)) (c c' : Rgb) :
    rel.eval (.vec3 c) (.vec3 c') = some (.bool (f.passes c c')) := by
  cases f <;> simp only [testCode, Option.some.injEq, TestCode.compare.injEq, reduceCtorEq] at hf
    <;> subst hf <;> simp [Relation.eval, Value.vec3, passes, Rgb.ext_iff]

namespace Decisions

variable {d : Decisions} {p : EmitPolicy} {u : Uniforms} {x : ShaderInput} {g : Env} {c : Rgba}

/-- The alpha test compares alpha before it is doubled. What helpers other than the one for a single
number do makes no difference. -/
theorem runAll_alphaTestStage_of {call : String → Value → Option Value}
    (hg : Working (x.globals u d) g c)
    (hcall : d.comparesAlpha p = true →
      call (Quantizer.ofPolicy p).scalarName (.num [c.a]) = some (.num [quantize c.a])) :
    runAll call g (d.alphaTestStage p)
      = if d.alphaPasses p.keepsAlphaTest u c = true then .done g else .discarded := by
  have hv : (Expr.var "v").eval call g = some (.vec4 c) := hg.color
  have href : (Expr.var ShaderName.reference).eval call g = some (.vec4 u.reference) :=
    hg.keeps.reference
  refine runAll_testStage (fun f hf => f.passes_of_testCode_none hf _ _)
    (fun f hf => f.passes_of_discardAll hf _ _) fun f rel htest hf => ?_
  -- A comparison is what the helper is declared for.
  have hcompares : d.comparesAlpha p = true := by
    rw [comparesAlpha, alphaTestCode, htest, Option.bind_some, hf]
    rfl
  have hbyte := Expr.eval_helper (Expr.eval_a hv) (hcall hcompares)
  exact Expr.eval_compare hbyte (Expr.eval_a href) (f.eval_testCode hf _ _)

theorem runAll_alphaTestStage (hg : Working (x.globals u d) g c) :
    runAll (applyHelper (d.helpers p)) g (d.alphaTestStage p)
      = if d.alphaPasses p.keepsAlphaTest u c = true then .done g else .discarded :=
  runAll_alphaTestStage_of hg fun hcompares => applyHelper_scalar hcompares [c.a]

/-- The color test compares the color that it finds. -/
theorem runAll_colorTestStage_of {call : String → Value → Option Value}
    (hg : Working (x.globals u d) g c)
    (hcall : d.comparesColor = true →
      call (Quantizer.ofPolicy p).vectorName (.vec3 c.rgb) = some (.vec3 (c.rgb.map quantize))) :
    runAll call g (d.colorTestStage p)
      = if d.colorPasses u c = true then .done g else .discarded := by
  have hv : (Expr.var "v").eval call g = some (.vec4 c) := hg.color
  have href : (Expr.var ShaderName.reference).eval call g = some (.vec4 u.reference) :=
    hg.keeps.reference
  have hmask : (Expr.var ShaderName.colorMask).eval call g = some (.vec4 u.colorMask) :=
    hg.keeps.colorMask
  refine runAll_testStage (fun f hf => f.passes_of_testCode_none hf _ _)
    (fun f hf => f.passes_of_discardAll hf _ _) fun f rel htest hf => ?_
  have hcompares : d.comparesColor = true := by
    rw [comparesColor, colorTestCode, htest, Option.bind_some, hf]
    rfl
  have hbytes := Expr.eval_helper (Expr.eval_rgb hv) (hcall hcompares)
  exact Expr.eval_compare (Expr.eval_arith_vec3 .mul hbytes (Expr.eval_rgb hmask))
    (Expr.eval_arith_vec3 .mul (Expr.eval_rgb href) (Expr.eval_rgb hmask))
    (f.eval_testCode hf _ _)

theorem runAll_colorTestStage (hg : Working (x.globals u d) g c) :
    runAll (applyHelper (d.helpers p)) g (d.colorTestStage p)
      = if d.colorPasses u c = true then .done g else .discarded :=
  runAll_colorTestStage_of hg fun hcompares =>
    applyHelper_vector hcompares [c.rgb.r, c.rgb.g, c.rgb.b]

/-! ## Doubling and output -/

theorem runAll_doublingStage (call : String → Value → Option Value)
    (hg : Working (x.globals u d) g c) :
    ∃ g', runAll call g d.doublingStage = .done g' ∧ Working (x.globals u d) g' (d.doubled c) := by
  have hv : (Expr.var "v").eval call g = some (.vec4 c) := hg.color
  have hkeeps : ∀ v, Keeps (x.globals u d) (("v", v) :: g) := hg.keeps.push (by decide)
  rw [doublingStage]
  cases hcolor : d.colorDoubling with
  | true =>
      cases halpha : d.alphaDoubling with
      | true =>
          refine ⟨_, runAll_assign (Expr.eval_doubled hv) "v" [], hkeeps _, ?_⟩
          rw [doubled, hcolor, halpha]
          rfl
      | false =>
          refine ⟨_, runAll_assignPart (Expr.eval_doubled (Expr.eval_rgb hv)) hg.color rfl [],
            hkeeps _, ?_⟩
          rw [doubled, hcolor, halpha]
          rfl
  | false =>
      cases halpha : d.alphaDoubling with
      | true =>
          refine ⟨_, runAll_assignPart (Expr.eval_doubled (Expr.eval_a hv)) hg.color rfl [],
            hkeeps _, ?_⟩
          rw [doubled, hcolor, halpha]
          rfl
      | false =>
          refine ⟨_, rfl, hg.keeps, ?_⟩
          rw [doubled, hcolor, halpha]
          exact hg.color

theorem runAll_outputStage (call : String → Value → Option Value)
    (hg : Working (x.globals u d) g c) :
    ∃ g', runAll call g d.outputStage = .done g' ∧ Keeps (x.globals u d) g'
      ∧ g'.lookup ShaderName.output = some (.vec4 (d.fogged u (x.fragment d) c)) := by
  have hv : (Expr.var "v").eval call g = some (.vec4 c) := hg.color
  rw [outputStage, fogged]
  by_cases hfog : d.fog = true
  · rw [if_pos hfog, if_pos hfog]
    have hdepth : (Expr.var ShaderName.fogDepth).eval call g = some (.float x.fogDepth) :=
      hg.keeps.fogDepth
    have hweight : (Expr.call3 .clamp (.var ShaderName.fogDepth) (.lit 0 0) (.lit 1 0)).eval call g
        = some (.float (clampUnit x.fogDepth)) := by
      rw [Expr.eval, hdepth, Expr.eval_lit_whole, Expr.eval_lit_whole]
      exact congrArg (fun k => some (Value.float k)) (smaller_larger_eq_clampUnit x.fogDepth)
    obtain ⟨gf, hgf⟩ : ∃ gf, gf = ("fogCoef", Value.float (clampUnit x.fogDepth)) :: g :=
      ⟨_, rfl⟩
    have hkeeps : Keeps (x.globals u d) gf := hgf ▸ hg.keeps.push (by decide) _
    have hfogColor : (Expr.var ShaderName.fogColor).eval call gf = some (.vec3 u.fogColor) :=
      hkeeps.fogColor
    have hv' : (Expr.var "v").eval call gf = some (.vec4 c) := hgf ▸ hg.color
    have hcoef : (Expr.var "fogCoef").eval call gf
        = some (.float (clampUnit x.fogDepth)) := hgf ▸ rfl
    have hmix := Expr.eval_mix_vec4 (Expr.eval_vec4 hfogColor (Expr.eval_a hv')) hv' hcoef
    refine ⟨(ShaderName.output, .vec4 ⟨u.fogColor.mix c.rgb (.grey (clampUnit x.fogDepth)),
      c.a⟩) :: gf, ?_, hkeeps.push (by decide) _, rfl⟩
    rw [runAll_declare hweight, ← hgf]
    exact runAll_assign hmix ShaderName.output []
  · rw [if_neg hfog, if_neg hfog]
    exact ⟨_, runAll_assign hv ShaderName.output [], hg.keeps.push (by decide) _, rfl⟩

/-- The picture for debugging: the texel at the first two coordinates with a tint, or magenta. -/
def picture (d : Decisions) (x : ShaderInput) : Rgba :=
  if d.texture.isSome then x.texture x.coord.1 x.coord.2.1 + ⟨⟨3 / 10, 0, 3 / 10⟩, 3 / 10⟩
  else ⟨⟨1, 0, 1⟩, 1⟩

theorem eval_tint (call : String → Value → Option Value) (g : Env) :
    (Expr.call4 .vec4 (.lit 0 3) (.lit 0 0) (.lit 0 3) (.lit 0 3)).eval call g
      = some (.vec4 ⟨⟨3 / 10, 0, 3 / 10⟩, 3 / 10⟩) := by
  have hthree : ((3 : Fin 10).val : Rat) = 3 := rfl
  simp only [Expr.eval, Func.eval, hthree]
  simp [components, Value.float, Value.vec4, Rgba.toList]

theorem eval_magenta (call : String → Value → Option Value) (g : Env) :
    (Expr.call4 .vec4 (.lit 1 0) (.lit 0 0) (.lit 1 0) (.lit 1 0)).eval call g
      = some (.vec4 ⟨⟨1, 0, 1⟩, 1⟩) := by
  simp [Expr.eval, Func.eval, components, Value.float, Value.vec4, Rgba.toList]

/-- The picture for debugging needs the texture and its coordinate alone. -/
theorem runAll_overlayStage (call : String → Value → Option Value)
    (hg : Keeps (x.globals u d) g) :
    ∃ g', runAll call g d.overlayStage = .done g'
      ∧ g'.lookup ShaderName.output = some (.vec4 (d.picture x)) := by
  unfold overlayStage picture
  split
  · -- The first two components of the coordinate are there with and without projection.
    have hcoord : (Expr.part (.var ShaderName.texCoord) .xy).eval call g
        = some (.num [x.coord.1, x.coord.2.1]) := by
      rw [Expr.eval, Expr.eval, hg.texCoord]
      show Swizzle.xy.eval (if d.texture.any fun t => t.projected then
          .num [x.coord.1, x.coord.2.1, x.coord.2.2] else .num [x.coord.1, x.coord.2.1]) = _
      split <;> rfl
    have htexel : (Expr.call2 .texture2D (.var ShaderName.sampler)
        (.part (.var ShaderName.texCoord) .xy)).eval call g
        = some (.vec4 (x.texture x.coord.1 x.coord.2.1)) := by
      rw [Expr.eval, Expr.eval, hg.sampler, hcoord]
      rfl
    rw [runAll_assign htexel, runAll_addAssign (eval_tint call _) rfl rfl]
    exact ⟨_, rfl, rfl⟩
  · rw [runAll_assign (eval_magenta call g)]
    exact ⟨_, rfl, rfl⟩

/-! ## The whole program -/

/-- The stages of a shader, one after another. -/
theorem main_program (hmode : d.clearMode = false) (p : EmitPolicy) :
    (d.program p).main
      = d.colorStage ++ (d.alphaTestStage p ++ (d.doublingStage ++ (d.colorTestStage p
          ++ (d.outputStage ++ if p.debugOverlay then d.overlayStage else [])))) := by
  rw [program, shadingStages, hmode, if_neg Bool.false_ne_true]
  simp only [List.append_assoc]

/-- A run draws the color that there is, and discards the fragment where there is none. -/
def drawn (c : Option Rgba) : Outcome Rgba := c.elim .discarded .done

theorem drawn_ne_stuck (c : Option Rgba) : drawn c ≠ .stuck := by
  cases c <;> simp [drawn]

/-- The stages up to the output give the color that the pipeline gives, and discard the fragment
where it gives none. -/
theorem runAll_shadingStages (d : Decisions) (p : EmitPolicy) (u : Uniforms) (x : ShaderInput) :
    match d.shade p.keepsAlphaTest u (x.fragment d) with
    | none =>
        runAll (applyHelper (d.helpers p)) (x.globals u d) (d.shadingStages p) = .discarded
    | some c =>
        ∃ g, runAll (applyHelper (d.helpers p)) (x.globals u d) (d.shadingStages p) = .done g
          ∧ Keeps (x.globals u d) g ∧ g.lookup ShaderName.output = some (.vec4 c) := by
  rw [shadingStages, shade]
  by_cases hclear : d.clearMode = true
  · rw [if_pos hclear, if_pos hclear]
    have hstart : Keeps (x.globals u d) (x.globals u d) := fun _ _ => rfl
    have hprimary : (Expr.var ShaderName.primary).eval (applyHelper (d.helpers p)) (x.globals u d)
        = some (.vec4 x.primary) := hstart.primary
    exact ⟨_, runAll_assign hprimary ShaderName.output [], hstart.push (by decide) _, rfl⟩
  · rw [if_neg hclear, if_neg hclear]
    -- Three stages always go on; after each test the run goes on or ends.
    obtain ⟨g, hcolor, hg⟩ := runAll_colorStage (applyHelper (d.helpers p)) d u x
    obtain ⟨g', hdoubling, hg'⟩ := runAll_doublingStage (applyHelper (d.helpers p)) hg
    obtain ⟨g'', houtput, hkeeps, hdrawn⟩ := runAll_outputStage (applyHelper (d.helpers p)) hg'
    simp only [List.append_assoc, runAll_append, hcolor, Outcome.bind, runAll_alphaTestStage hg]
    by_cases halpha : d.alphaPasses p.keepsAlphaTest u (d.workingColor u (x.fragment d)) = true
    · simp only [halpha, if_true, hdoubling, runAll_colorTestStage hg']
      by_cases hpass : d.colorPasses u (d.doubled (d.workingColor u (x.fragment d))) = true
      · simp only [hpass, if_true, houtput]
        exact ⟨g'', rfl, hkeeps, hdrawn⟩
      · simp [hpass]
    · simp [halpha]

/-- The color that a shader writes: that of the pipeline, or the picture for debugging in its
place. -/
def shown (d : Decisions) (p : EmitPolicy) (u : Uniforms) (x : ShaderInput) : Option Rgba :=
  (d.shade p.keepsAlphaTest u (x.fragment d)).map fun c =>
    if p.debugOverlay then d.picture x else c

/-- What follows the output leaves it or puts the picture for debugging in its place. -/
theorem runAll_afterOutput (call : String → Value → Option Value) (p : EmitPolicy)
    (hg : Keeps (x.globals u d) g) (hc : g.lookup ShaderName.output = some (.vec4 c)) :
    ∃ g', runAll call g (if p.debugOverlay then d.overlayStage else []) = .done g'
      ∧ g'.lookup ShaderName.output
        = some (.vec4 (if p.debugOverlay then d.picture x else c)) := by
  by_cases hoverlay : p.debugOverlay = true
  · rw [if_pos hoverlay, if_pos hoverlay]
    exact runAll_overlayStage call hg
  · rw [if_neg hoverlay, if_neg hoverlay]
    exact ⟨g, rfl, hc⟩

theorem run_eq_drawn_shown (d : Decisions) (p : EmitPolicy) (u : Uniforms) (x : ShaderInput) :
    x.run u d p = drawn (d.shown p u x) := by
  have hstages := d.runAll_shadingStages p u x
  rw [ShaderInput.run, Program.run, program, runAll_append, shown]
  cases hshade : d.shade p.keepsAlphaTest u (x.fragment d) with
  | none =>
      rw [hshade] at hstages
      rw [hstages]
      rfl
  | some c =>
      rw [hshade] at hstages
      obtain ⟨g, hrun, hg, hcolor⟩ := hstages
      obtain ⟨g', hrun', hshown⟩ := runAll_afterOutput (applyHelper (d.helpers p)) p hg hcolor
      rw [hrun, Outcome.bind, hrun', Outcome.bind, show "gl_FragColor" = ShaderName.output from rfl,
        hshown]
      rfl

theorem run_eq_drawn (d : Decisions) (p : EmitPolicy) (hp : p.debugOverlay = false)
    (u : Uniforms) (x : ShaderInput) :
    x.run u d p = drawn (d.shade p.keepsAlphaTest u (x.fragment d)) := by
  have hshown : d.shown p u x = d.shade p.keepsAlphaTest u (x.fragment d) := by
    simp only [shown, hp, Bool.false_eq_true, if_false, Option.map_id']
  rw [run_eq_drawn_shown, hshown]

/-- All helpers of a shader round to bytes. -/
theorem apply_of_mem_helpers (d : Decisions) (p : EmitPolicy) :
    ∀ h ∈ d.helpers p, ∀ xs, h.apply (.num xs) = some (.num (xs.map quantize)) :=
  forall_mem_helpers (fun _ => Quantizer.apply_helper _ _ _ _) fun _ =>
    Quantizer.apply_helper _ _ _ _

/-- The text of a shader is a program whose helpers round to bytes and that does what the pipeline
does. -/
theorem run_source (d : Decisions) (p : EmitPolicy) (hp : p.debugOverlay = false) (u : Uniforms)
    (x : ShaderInput) :
    ∃ program, Program.parse (d.source p) = some program
      ∧ (∀ h ∈ program.helpers, ∀ xs, h.apply (.num xs) = some (.num (xs.map quantize)))
      ∧ program.run (x.globals u d) = drawn (d.shade p.keepsAlphaTest u (x.fragment d)) := by
  exact ⟨d.program p, d.parse_source p, d.apply_of_mem_helpers p, d.run_eq_drawn p hp u x⟩

/-- Decisions that every stage takes part in. -/
def everyStage : Decisions where
  texture := some ⟨.blend, true, true⟩
  secondaryColor := true
  alphaTest := some .less
  colorTest := some .notEqual
  fog := true
  colorDoubling := true
  alphaDoubling := true

theorem run_source_everyStage :
    (EmitPolicy.forTarget .glslEs100 .powerVr).debugOverlay = false
      ∧ ∃ program, Program.parse (everyStage.source (.forTarget .glslEs100 .powerVr)) = some program
        ∧ program.run (ShaderInput.globals
            { primary := ⟨⟨1 / 5, 2 / 5, 0⟩, 1 / 2⟩
              secondary := ⟨1 / 5, 0, 0⟩
              fogDepth := 3 / 4
              coord := (1, 2, 2)
              texture := fun s t => ⟨⟨0, s, t⟩, 1 / 4⟩ }
            { reference := ⟨⟨200, 0, 0⟩, 51⟩
              colorMask := ⟨⟨1, 0, 0⟩, 1⟩
              textureEnv := ⟨1, 0, 1 / 2⟩
              fogColor := ⟨0, 0, 1⟩ } everyStage)
          = .done ⟨⟨3 / 5, 3 / 10, 1⟩, 1 / 4⟩ := by
  refine ⟨rfl, (run_source everyStage (.forTarget .glslEs100 .powerVr) rfl _ _).imp
    fun program h => ⟨h.1, h.2.2.trans ?_⟩⟩
  exact congrArg drawn (show _ = some (⟨⟨3 / 5, 3 / 10, 1⟩, 1 / 4⟩ : Rgba) by decide +kernel)

end Decisions

end FixedFragment
