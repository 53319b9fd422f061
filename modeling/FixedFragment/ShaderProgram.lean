import FixedFragment.Decisions
import FixedFragment.Policy

set_option autoImplicit false

/-!
# The program of a fragment shader

Decisions and a policy determine a program: `Decisions.program`. Its `main` makes the working
color `v` from the primary color, the texel and the second color, runs the alpha test, doubles,
runs the color test, and mixes in fog. Declarations and helpers are those that some statement
needs.
-/

namespace FixedFragment

open Glsl

/-! ## Names -/

namespace ShaderName

def sampler : String := "tex"
def reference : String := "u_alphacolorref"
def colorMask : String := "u_colormask"
def textureEnv : String := "u_texenv"
def fogColor : String := "u_fogcolor"
def primary : String := "v_color0"
def secondary : String := "v_color1"
def fogDepth : String := "v_fogdepth"
def texCoord : String := "v_texcoord"
def output : String := "gl_FragColor"

end ShaderName

/-- The list of `a` alone if `b` holds, else the empty list. -/
def onlyIf {α : Type} (b : Bool) (a : α) : List α := if b then [a] else []

/-! ## Tests -/

/-- What a test does to fragments: discard all of them, or those whose comparison fails. -/
inductive TestCode where
  | discardAll
  | compare (rel : Relation)
deriving DecidableEq, Repr

def TestCode.isCompare : TestCode → Bool
  | compare _ => true
  | discardAll => false

/-- The code of an alpha comparison, none where every fragment passes. -/
def CompareFunc.testCode : CompareFunc → Option TestCode
  | never => some .discardAll
  | always => none
  | equal => some (.compare .eq)
  | notEqual => some (.compare .ne)
  | less => some (.compare .lt)
  | lessEqual => some (.compare .le)
  | greater => some (.compare .gt)
  | greaterEqual => some (.compare .ge)

/-- The code of a color comparison, none where every fragment passes. -/
def ColorTestFunc.testCode : ColorTestFunc → Option TestCode
  | never => some .discardAll
  | always => none
  | equal => some (.compare .eq)
  | notEqual => some (.compare .ne)

/-- The alpha comparison that is written under a policy: the one that discards on equality is
left out where the driver asks for it. -/
def EmitPolicy.keepsAlphaTest (p : EmitPolicy) (f : CompareFunc) : Bool :=
  !(f = .notEqual && p.workarounds.contains .noEqualityDiscard)

namespace Decisions

/-- The code of the alpha test. -/
def alphaTestCode (d : Decisions) (p : EmitPolicy) : Option TestCode :=
  (d.alphaTest.filter p.keepsAlphaTest).bind CompareFunc.testCode

/-- The code of the color test. -/
def colorTestCode (d : Decisions) : Option TestCode :=
  d.colorTest.bind ColorTestFunc.testCode

def comparesAlpha (d : Decisions) (p : EmitPolicy) : Bool :=
  (d.alphaTestCode p).any TestCode.isCompare

def comparesColor (d : Decisions) : Bool := d.colorTestCode.any TestCode.isCompare

end Decisions

/-! ## Rounding to bytes -/

/-- How a number between 0 and 1 is brought to the integers from 0 to 255. -/
inductive Quantizer where
  | floor
  | biased
deriving DecidableEq, Repr

namespace Quantizer

/-- The quantizer of a policy. -/
def ofPolicy (p : EmitPolicy) : Quantizer :=
  if p.workarounds.contains .biasedRounding then biased else floor

/-- The name of the helper for one number. -/
def scalarName : Quantizer → String
  | floor => "roundAndScaleTo255f"
  | biased => "roundTo255thf"

/-- The name of the helper for three numbers. -/
def vectorName : Quantizer → String
  | floor => "roundAndScaleTo255v"
  | biased => "roundTo255thv"

/-- The local variables of the helper. -/
def locals : Quantizer → List (String × Expr)
  | floor => []
  | biased => [("y", .arith .add (.var "x") (.arith .div (.lit 0 5) (.lit 255 0)))]

/-- The value of the helper. -/
def result : Quantizer → Expr
  | floor => .call1 .floor (.arith .add (.arith .mul (.var "x") (.lit 255 0)) (.lit 0 5))
  | biased =>
      .arith .mul
        (.arith .sub (.var "y")
          (.arith .mul (.call1 .fract (.arith .mul (.var "y") (.lit 255 0)))
            (.arith .div (.lit 1 0) (.lit 255 0))))
        (.lit 255 0)

/-- The helper for the type `ty`. -/
def helper (q : Quantizer) (dialect : Dialect) (ty : Ty) (name : String) : Helper where
  ty := { precision := dialect.raisedPrecision, ty := ty }
  name := name
  param := "x"
  locals := q.locals
  result := q.result

end Quantizer

/-! ## Declarations -/

namespace Decisions

/-- The global variables. -/
def globals (d : Decisions) (p : EmitPolicy) : List Global :=
  onlyIf d.texture.isSome ⟨.uniform, { ty := .sampler2D }, ShaderName.sampler⟩
    ++ onlyIf (d.comparesAlpha p || d.comparesColor)
      ⟨.uniform, { precision := p.dialect.raisedPrecision, ty := .vec4 }, ShaderName.reference⟩
    ++ onlyIf d.comparesColor ⟨.uniform, { ty := .vec4 }, ShaderName.colorMask⟩
    ++ onlyIf (d.texture.any fun t => t.function = .blend)
      ⟨.uniform, { ty := .vec3 }, ShaderName.textureEnv⟩
    ++ [⟨.varying, { ty := .vec4 }, ShaderName.primary⟩]
    ++ onlyIf d.secondaryColor ⟨.varying, { ty := .vec3 }, ShaderName.secondary⟩
    ++ onlyIf d.fog ⟨.uniform, { ty := .vec3 }, ShaderName.fogColor⟩
    ++ onlyIf d.fog
      ⟨.varying, { precision := p.dialect.raisedPrecision, ty := .float }, ShaderName.fogDepth⟩
    ++ d.texture.toList.map fun t =>
      ⟨.varying, { ty := if t.projected then .vec3 else .vec2 }, ShaderName.texCoord⟩

/-- The helpers that the comparisons call. -/
def helpers (d : Decisions) (p : EmitPolicy) : List Helper :=
  let q := Quantizer.ofPolicy p
  onlyIf (d.comparesAlpha p) (q.helper p.dialect .float q.scalarName)
    ++ onlyIf d.comparesColor (q.helper p.dialect .vec3 q.vectorName)

end Decisions

/-! ## Working color -/

namespace TextureUse

/-- The texel. -/
def lookup (t : TextureUse) : Expr :=
  .call2 (if t.projected then .texture2DProj else .texture2D) (.var ShaderName.sampler)
    (.var ShaderName.texCoord)

/-- The combination of the texel `t` with the primary color `p`, none for the functions that read
no texel. Without texel alpha the alpha of the result is that of the primary color, except that
`blend` scales it by texel alpha all the same. -/
def combination (t : TextureUse) : Option Expr :=
  let primary := Expr.var "p"
  let texel := Expr.var "t"
  let productAlpha := Expr.arith .mul (.part primary .a) (.part texel .a)
  match t.function with
  | .modulate =>
      some <|
        if t.rgba then .arith .mul primary texel
        else .call2 .vec4 (.arith .mul (.part texel .rgb) (.part primary .rgb)) (.part primary .a)
  | .decal =>
      some <| .call2 .vec4
        (if t.rgba then .call3 .mix (.part primary .rgb) (.part texel .rgb) (.part texel .a)
          else .part texel .rgb)
        (.part primary .a)
  | .blend =>
      some <| .call2 .vec4
        (.call3 .mix (.part primary .rgb) (.part (.var ShaderName.textureEnv) .rgb)
          (.part texel .rgb))
        productAlpha
  | .replace =>
      some <| if t.rgba then texel else .call2 .vec4 (.part texel .rgb) (.part primary .a)
  | .add =>
      some <| .call2 .vec4 (.arith .add (.part primary .rgb) (.part texel .rgb))
        (if t.rgba then productAlpha else .part primary .a)
  | .reserved5 | .reserved6 | .reserved7 => none

end TextureUse

namespace Decisions

/-- The color `e` with the second color on top. -/
def plusSecondary (d : Decisions) (e : Expr) : Expr :=
  if d.secondaryColor then .arith .add e (.var "s") else e

/-- The statements that make the working color `v`. -/
def colorStage (d : Decisions) : List Stmt :=
  onlyIf d.secondaryColor
      (.declare .vec4 "s" (.call2 .vec4 (.var ShaderName.secondary) (.lit 0 0)))
    ++ match d.texture with
      | none => [.declare .vec4 "v" (d.plusSecondary (.var ShaderName.primary))]
      | some t =>
          [.declare .vec4 "t" t.lookup,
            .declare .vec4 "p" (.var ShaderName.primary),
            .declare .vec4 "v" (t.combination.elim (.var "p") d.plusSecondary)]

/-! ## Later stages -/

/-- The statements of a test, which discard the fragment unless `lhs` compares with `rhs`. -/
def testStage (code : Option TestCode) (lhs rhs : Expr) : List Stmt :=
  match code with
  | some .discardAll => [.discard]
  | some (.compare rel) => [.discardIf (.not (.compare rel lhs rhs))]
  | none => []

/-- The alpha test compares the alpha of `v` as a byte with that of the reference. -/
def alphaTestStage (d : Decisions) (p : EmitPolicy) : List Stmt :=
  testStage (d.alphaTestCode p)
    (.call1 (.helper (Quantizer.ofPolicy p).scalarName) (.part (.var "v") .a))
    (.part (.var ShaderName.reference) .a)

/-- Color, alpha or both are doubled. -/
def doublingStage (d : Decisions) : List Stmt :=
  let doubled := fun e : Expr => Expr.arith .mul e (.lit 2 0)
  match d.colorDoubling, d.alphaDoubling with
  | true, true => [.assign "v" (doubled (.var "v"))]
  | true, false => [.assignPart "v" .rgb (doubled (.part (.var "v") .rgb))]
  | false, true => [.assignPart "v" .a (doubled (.part (.var "v") .a))]
  | false, false => []

/-- The color test compares the color of `v` as bytes with that of the reference, both masked. -/
def colorTestStage (d : Decisions) (p : EmitPolicy) : List Stmt :=
  let masked := fun e : Expr => Expr.arith .mul e (.part (.var ShaderName.colorMask) .rgb)
  testStage d.colorTestCode
    (masked (.call1 (.helper (Quantizer.ofPolicy p).vectorName) (.part (.var "v") .rgb)))
    (masked (.part (.var ShaderName.reference) .rgb))

/-- The output is `v`, mixed with the color of the fog where there is fog. -/
def outputStage (d : Decisions) : List Stmt :=
  if d.fog then
    [.declare .float "fogCoef" (.call3 .clamp (.var ShaderName.fogDepth) (.lit 0 0) (.lit 1 0)),
      .assign ShaderName.output
        (.call3 .mix (.call2 .vec4 (.var ShaderName.fogColor) (.part (.var "v") .a)) (.var "v")
          (.var "fogCoef"))]
  else
    [.assign ShaderName.output (.var "v")]

/-- The picture for debugging that replaces the output: the texel with a tint, or magenta. -/
def overlayStage (d : Decisions) : List Stmt :=
  if d.texture.isSome then
    [.assign ShaderName.output
        (.call2 .texture2D (.var ShaderName.sampler) (.part (.var ShaderName.texCoord) .xy)),
      .addAssign ShaderName.output (.call4 .vec4 (.lit 0 3) (.lit 0 0) (.lit 0 3) (.lit 0 3))]
  else
    [.assign ShaderName.output (.call4 .vec4 (.lit 1 0) (.lit 0 0) (.lit 1 0) (.lit 1 0))]

/-! ## Program -/

/-- The statements up to the output. Clear mode writes the primary color and nothing else. -/
def shadingStages (d : Decisions) (p : EmitPolicy) : List Stmt :=
  if d.clearMode then
    [.assign ShaderName.output (.var ShaderName.primary)]
  else
    d.colorStage ++ d.alphaTestStage p ++ d.doublingStage ++ d.colorTestStage p ++ d.outputStage

/-- The program of the shader for `d` under the policy `p`. -/
def program (d : Decisions) (p : EmitPolicy) : Program where
  version := p.dialect.version
  precision := p.dialect.defaultPrecision
  globals := d.globals p
  helpers := d.helpers p
  main := d.shadingStages p ++ if p.debugOverlay then d.overlayStage else []

/-- The pieces of the shader text, in the order in which they are written. -/
def pieces (d : Decisions) (p : EmitPolicy) : List String := (d.program p).pieces

/-- The text of the shader for `d` under the policy `p`. -/
def source (d : Decisions) (p : EmitPolicy) : String := (d.program p).text

end Decisions

namespace PipelineState

/-- The text of the shader that a state needs under the policy `p`. -/
def source (s : PipelineState) (p : EmitPolicy) : String := (Decisions.ofState s).source p

end PipelineState

end FixedFragment
