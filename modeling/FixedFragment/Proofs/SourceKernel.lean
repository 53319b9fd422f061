import FixedFragment.Proofs.IdentifierCodec
import FixedFragment.Proofs.SourceReading
import Mathlib.Logic.Relation

set_option autoImplicit false

/-!
# When two states share a shader text

`Decisions.Merges` lists the differences between decisions that no shader text shows, and
`Decisions.canonical` picks one representative of what it brings together. The representative is
read back from the statements of `main` (`Decisions.observeAll_program`), so that nothing else is
brought together. Main statement: `PipelineState.source_eq_iff_merged`.
-/

namespace FixedFragment

open Glsl

/-! ## Differences that do not show -/

/-- Two uses of a texture that combine alike. -/
inductive TextureUse.Merges : TextureUse → TextureUse → Prop where
  /-- The reserved functions are one. -/
  | reserved {f g : TextureFunction} (rgba projected : Bool) (hf : f.isReserved = true)
      (hg : g.isReserved = true) : Merges ⟨f, rgba, projected⟩ ⟨g, rgba, projected⟩
  /-- Blending reads texel alpha in any case. -/
  | blend (rgba rgba' projected : Bool) :
      Merges ⟨.blend, rgba, projected⟩ ⟨.blend, rgba', projected⟩
  /-- Without texel alpha a decal replaces. -/
  | replace (projected : Bool) : Merges ⟨.decal, false, projected⟩ ⟨.replace, false, projected⟩

namespace Decisions

/-- Two decisions whose difference does not show under the policy `p`. -/
inductive Merges (p : EmitPolicy) : Decisions → Decisions → Prop where
  /-- Whether a test is switched on does not show, only whether it is alive. -/
  | enables (d : Decisions) (alpha color : Bool) :
      Merges p d { d with alphaTestEnabled := alpha, colorTestEnabled := color }
  | texture (d : Decisions) {t u : TextureUse} (htexture : d.texture = some t) (h : t.Merges u) :
      Merges p d { d with texture := some u }
  /-- The alpha test that the policy leaves out. -/
  | notEqual (d : Decisions) (hp : p.workarounds.contains .noEqualityDiscard = true)
      (halpha : d.alphaTest = some .notEqual) : Merges p d { d with alphaTest := none }
  /-- With nothing doubled between the tests, it does not show which of them discards all. -/
  | never (d : Decisions) (hcolorDoubling : d.colorDoubling = false)
      (halphaDoubling : d.alphaDoubling = false) (halpha : d.alphaTest = some .never)
      (hcolor : d.colorTest = none) :
      Merges p d { d with alphaTest := none, colorTest := some .never }

end Decisions

/-! ## Representatives -/

/-- The use of a texture that stands for all that combine alike. -/
def TextureUse.canonical (t : TextureUse) : TextureUse :=
  match t.function with
  | .reserved5 | .reserved6 | .reserved7 => { t with function := .reserved5 }
  | .blend => { t with rgba := false }
  | .decal => if t.rgba then t else { t with function := .replace }
  | .modulate | .replace | .add => t

namespace Decisions

def withoutEnables (d : Decisions) : Decisions :=
  { d with alphaTestEnabled := false, colorTestEnabled := false }

def withCanonicalTexture (d : Decisions) : Decisions :=
  { d with texture := d.texture.map TextureUse.canonical }

/-- The decisions with the alpha test only where the policy `p` keeps it. -/
def withKeptAlphaTest (p : EmitPolicy) (d : Decisions) : Decisions :=
  { d with alphaTest := d.alphaTest.filter p.keepsAlphaTest }

/-- A color test that discards all, with no other test and nothing doubled, becomes an alpha
test. -/
def withEarlyNever (d : Decisions) : Decisions :=
  if d.colorDoubling = false ∧ d.alphaDoubling = false ∧ d.alphaTest = none
      ∧ d.colorTest = some .never then
    { d with alphaTest := some .never, colorTest := none }
  else
    d

/-- The decisions that stand for all those with the same shader text under the policy `p`. -/
def canonical (p : EmitPolicy) (d : Decisions) : Decisions :=
  ((d.withoutEnables.withCanonicalTexture).withKeptAlphaTest p).withEarlyNever

end Decisions

/-! ## Merged decisions have one text -/

theorem EmitPolicy.keepsAlphaTest_eq_false (p : EmitPolicy) {f : CompareFunc} :
    p.keepsAlphaTest f = false ↔
      f = .notEqual ∧ p.workarounds.contains .noEqualityDiscard = true := by
  simp [keepsAlphaTest]

namespace TextureUse

theorem Merges.combination_eq {t u : TextureUse} (h : t.Merges u) :
    t.combination = u.combination := by
  cases h with
  | @reserved f g rgba projected hf hg =>
      have hnone : ∀ f : TextureFunction, f.isReserved = true →
          (⟨f, rgba, projected⟩ : TextureUse).combination = none := by
        intro f hf
        cases f <;> first | rfl | cases hf
      rw [hnone f hf, hnone g hg]
  | blend rgba rgba' projected => rfl
  | replace projected => rfl

theorem Merges.projected_eq {t u : TextureUse} (h : t.Merges u) : t.projected = u.projected := by
  cases h <;> rfl

theorem Merges.blend_iff {t u : TextureUse} (h : t.Merges u) :
    decide (t.function = .blend) = decide (u.function = .blend) := by
  cases h with
  | @reserved f g rgba projected hf hg =>
      cases f <;> cases hf <;> cases g <;> cases hg <;> rfl
  | blend rgba rgba' projected => rfl
  | replace projected => rfl

end TextureUse

namespace Decisions

variable {d e : Decisions} {p : EmitPolicy}

theorem program_texture {t u : TextureUse} (htexture : d.texture = some t)
    (h : t.Merges u) : d.program p = { d with texture := some u }.program p := by
  obtain ⟨clearMode, _, secondaryColor, alphaTestEnabled, alphaTest, colorTestEnabled, colorTest,
    fog, colorDoubling, alphaDoubling⟩ := d
  cases htexture
  have hlookup : t.lookup = u.lookup := by rw [TextureUse.lookup, h.projected_eq, TextureUse.lookup]
  simp only [program, globals, helpers, shadingStages, colorStage, Option.any_some, h.blend_iff,
    Option.toList_some, List.map_cons, h.projected_eq, hlookup, h.combination_eq]
  rfl

theorem Merges.program_eq (h : Merges p d e) : d.program p = e.program p := by
  cases h with
  | enables alpha color => rfl
  | texture htexture h => exact program_texture htexture h
  | notEqual hp halpha =>
      have hdropped : p.keepsAlphaTest .notEqual = false :=
        p.keepsAlphaTest_eq_false.mpr ⟨rfl, hp⟩
      have hcode : d.alphaTestCode p = { d with alphaTest := none }.alphaTestCode p := by
        rw [alphaTestCode, halpha, Option.filter_some_neg hdropped]
        rfl
      simp only [program, globals, helpers, comparesAlpha, shadingStages, alphaTestStage, hcode]
      rfl
  | never hcolorDoubling halphaDoubling halpha hcolor =>
      obtain ⟨clearMode, texture, secondaryColor, alphaTestEnabled, _, colorTestEnabled, _, fog, _,
        _⟩ := d
      cases hcolorDoubling
      cases halphaDoubling
      cases halpha
      cases hcolor
      -- The one `discard` stands behind the alpha test or in front of the color test.
      simp only [program, globals, helpers, comparesAlpha, comparesColor, shadingStages,
        alphaTestStage, colorTestStage, doublingStage, alphaTestCode, colorTestCode,
        Option.filter_some, Option.filter_none, Option.bind_some, Option.bind_none,
        EmitPolicy.keepsAlphaTest, CompareFunc.testCode, ColorTestFunc.testCode, testStage,
        List.append_nil]
      rfl

/-- What is merged in any number of steps has one text. -/
theorem source_eq_of_merged (h : Relation.EqvGen (Merges p) d e) : d.source p = e.source p := by
  induction h with
  | rel d e h => rw [source, h.program_eq, source]
  | refl d => rfl
  | symm d e _ ih => exact ih.symm
  | trans d e f _ _ ih₁ ih₂ => exact ih₁.trans ih₂

end Decisions

/-! ## Decisions merge with their representative -/

theorem TextureUse.merges_canonical (t : TextureUse) :
    t.Merges t.canonical ∨ t.canonical = t := by
  obtain ⟨function, rgba, projected⟩ := t
  cases function with
  | modulate | replace | add => exact Or.inr rfl
  | decal =>
      cases rgba with
      | false => exact Or.inl (.replace projected)
      | true => exact Or.inr rfl
  | blend => exact Or.inl (.blend rgba false projected)
  | reserved5 | reserved6 | reserved7 => exact Or.inl (.reserved rgba projected rfl rfl)

namespace Decisions

theorem merged_withoutEnables (p : EmitPolicy) (d : Decisions) :
    Relation.EqvGen (Merges p) d d.withoutEnables :=
  .rel _ _ (.enables d false false)

theorem merged_withCanonicalTexture (p : EmitPolicy) (d : Decisions) :
    Relation.EqvGen (Merges p) d d.withCanonicalTexture := by
  cases htexture : d.texture with
  | none =>
      have hsame : d.withCanonicalTexture = d := by
        rw [withCanonicalTexture, htexture, Option.map_none, ← htexture]
      rw [hsame]
      exact .refl d
  | some t =>
      have hmap : d.withCanonicalTexture = { d with texture := some t.canonical } := by
        rw [withCanonicalTexture, htexture, Option.map_some]
      rw [hmap]
      rcases t.merges_canonical with h | h
      · exact .rel _ _ (.texture d htexture h)
      · rw [h, ← htexture]
        exact .refl d

theorem merged_withKeptAlphaTest (p : EmitPolicy) (d : Decisions) :
    Relation.EqvGen (Merges p) d (d.withKeptAlphaTest p) := by
  cases halpha : d.alphaTest with
  | none =>
      have hsame : d.withKeptAlphaTest p = d := by
        rw [withKeptAlphaTest, halpha, Option.filter_none, ← halpha]
      rw [hsame]
      exact .refl d
  | some f =>
      by_cases hkeeps : p.keepsAlphaTest f = true
      · have hsame : d.withKeptAlphaTest p = d := by
          rw [withKeptAlphaTest, halpha, Option.filter_some_pos hkeeps, ← halpha]
        rw [hsame]
        exact .refl d
      · rw [Bool.not_eq_true] at hkeeps
        have hnone : d.withKeptAlphaTest p = { d with alphaTest := none } := by
          rw [withKeptAlphaTest, halpha, Option.filter_some_neg hkeeps]
        obtain ⟨rfl, hp⟩ := p.keepsAlphaTest_eq_false.mp hkeeps
        rw [hnone]
        exact .rel _ _ (.notEqual d hp halpha)

theorem merged_withEarlyNever (p : EmitPolicy) (d : Decisions) :
    Relation.EqvGen (Merges p) d d.withEarlyNever := by
  unfold withEarlyNever
  split
  · next h =>
      obtain ⟨hcolorDoubling, halphaDoubling, halpha, hcolor⟩ := h
      -- The step goes from the alpha test to the color test, so it is taken backwards.
      have hstep : Merges p { d with alphaTest := some .never, colorTest := none } d := by
        have hback := Merges.never (p := p) { d with alphaTest := some .never, colorTest := none }
          hcolorDoubling halphaDoubling rfl rfl
        rw [← halpha, ← hcolor] at hback
        exact hback
      exact .symm _ _ (.rel _ _ hstep)
  · exact .refl d

theorem merged_canonical (p : EmitPolicy) (d : Decisions) :
    Relation.EqvGen (Merges p) d (d.canonical p) :=
  ((d.merged_withoutEnables p).trans _ _ _ (merged_withCanonicalTexture p _)).trans _ _ _
    ((merged_withKeptAlphaTest p _).trans _ _ _ (merged_withEarlyNever p _))

end Decisions

/-! ## Decisions of a state -/

namespace Decisions

/-- What holds of the decisions for every state. -/
structure Settled (d : Decisions) : Prop where
  /-- In clear mode everything else is off. -/
  clear : d.clearMode = true → d = { clearMode := true }
  /-- The reserved functions read no texel alpha. -/
  rgba : ∀ t, d.texture = some t → t.function.isReserved = true → t.rgba = false
  /-- A test is alive only if it is switched on and can fail. -/
  alphaTest : ∀ f, d.alphaTest = some f → d.alphaTestEnabled = true ∧ f ≠ .always
  colorTest : ∀ f, d.colorTest = some f → d.colorTestEnabled = true ∧ f ≠ .always

theorem settled_ofState (s : PipelineState) : (ofState s).Settled := by
  unfold ofState
  split
  · exact
      { clear := fun _ => rfl
        rgba := fun t ht => nomatch ht
        alphaTest := fun f hf => nomatch hf
        colorTest := fun f hf => nomatch hf }
  · constructor
    case clear =>
      intro h
      cases h
    case rgba =>
      intro t ht hreserved
      simp only [Option.ite_none_right_eq_some, Option.some.injEq] at ht
      obtain ⟨-, rfl⟩ := ht
      have hfunction : s.textureFunction.isReserved = true := hreserved
      simp [PipelineState.textureUse, hfunction]
    case alphaTest =>
      intro f hf
      simp only [Option.ite_none_right_eq_some, Option.some.injEq, Bool.and_eq_true] at hf
      obtain ⟨⟨hon, halive⟩, rfl⟩ := hf
      refine ⟨hon, ?_⟩
      intro halways
      simp [PipelineState.alphaTestTrivial, halways] at halive
    case colorTest =>
      intro f hf
      simp only [Option.ite_none_right_eq_some, Option.some.injEq, Bool.and_eq_true] at hf
      obtain ⟨⟨hon, halive⟩, rfl⟩ := hf
      refine ⟨hon, ?_⟩
      intro halways
      simp [PipelineState.colorTestTrivial, halways] at halive

end Decisions

/-! ## Reading decisions back from `main` -/

/-- The use of a texture that the combination `e` shows. -/
def TextureUse.ofCombination (projected : Bool) : Expr → TextureUse
  | .arith _ _ _ => ⟨.modulate, true, projected⟩
  | .call2 _ (.arith .mul _ _) _ => ⟨.modulate, false, projected⟩
  | .call2 _ (.call3 _ _ _ _) (.arith _ _ _) => ⟨.blend, false, projected⟩
  | .call2 _ (.call3 _ _ _ _) _ => ⟨.decal, true, projected⟩
  | .call2 _ (.part _ _) _ => ⟨.replace, false, projected⟩
  | .call2 _ _ (.arith _ _ _) => ⟨.add, true, projected⟩
  | .call2 _ _ _ => ⟨.add, false, projected⟩
  | e => if e = .var "t" then ⟨.replace, true, projected⟩ else ⟨.reserved5, false, projected⟩

/-- The use of a texture that the working color `e` shows, with or without a second color. -/
def TextureUse.ofWorkingColor (projected : Bool) : Expr → TextureUse
  | .arith .add e _ => ofCombination projected e
  | e => ofCombination projected e

theorem TextureUse.ofWorkingColor_eq_canonical (d : Decisions) {t : TextureUse}
    (hrgba : t.function.isReserved = true → t.rgba = false) :
    ofWorkingColor t.projected (t.combination.elim (.var "p") d.plusSecondary) = t.canonical := by
  obtain ⟨function, rgba, projected⟩ := t
  unfold Decisions.plusSecondary
  cases function with
  | modulate | decal | blend | replace | add =>
      cases rgba <;> cases d.secondaryColor <;> rfl
  | reserved5 | reserved6 | reserved7 =>
      cases hrgba rfl
      rfl

/-- Whether an expression looks a texel up by projection. -/
def Glsl.Expr.projects : Expr → Bool
  | .call2 f _ _ => f = .texture2DProj
  | _ => false

/-- The alpha comparison with the given code. -/
def CompareFunc.ofRelation : Relation → CompareFunc
  | .eq => .equal
  | .ne => .notEqual
  | .lt => .less
  | .le => .lessEqual
  | .gt => .greater
  | .ge => .greaterEqual

/-- The color comparison with the given code. -/
def ColorTestFunc.ofRelation : Relation → ColorTestFunc
  | .eq => .equal
  | _ => .notEqual

namespace Decisions

/-- What one more statement of `main` tells about decisions, `d` being known from the statements
before. A `discard` is the alpha test unless doubling or a test was seen before it. -/
def observe (d : Decisions) : Stmt → Decisions
  | .declare _ name value =>
      if name = "s" then { d with secondaryColor := true }
      else if name = "t" then { d with texture := some ⟨.reserved5, false, value.projects⟩ }
      else if name = "v" then
        { d with
          clearMode := false
          texture := d.texture.map fun t => .ofWorkingColor t.projected value }
      else if name = "fogCoef" then { d with fog := true }
      else d
  | .assign name _ =>
      if name = "v" then { d with colorDoubling := true, alphaDoubling := true } else d
  | .assignPart _ sel _ =>
      if sel = .a then { d with alphaDoubling := true } else { d with colorDoubling := true }
  | .addAssign _ _ => d
  | .discard => { d with colorTest := some .never }.withEarlyNever
  | .discardIf (.not (.compare rel (.call1 _ _) _)) =>
      { d with alphaTest := some (.ofRelation rel) }
  | .discardIf (.not (.compare rel _ _)) => { d with colorTest := some (.ofRelation rel) }
  | .discardIf _ => d

/-- What the statements `l` of `main` tell, one after the other. -/
def observeAll (d : Decisions) (l : List Stmt) : Decisions := l.foldl observe d

theorem observeAll_append (d : Decisions) (l m : List Stmt) :
    d.observeAll (l ++ m) = (d.observeAll l).observeAll m :=
  List.foldl_append

variable {d : Decisions}

theorem observeAll_colorStage (hd : d.Settled) :
    observeAll { clearMode := true } d.colorStage
      = { texture := d.texture.map TextureUse.canonical, secondaryColor := d.secondaryColor } := by
  have hsecondary : observeAll { clearMode := true }
      (onlyIf d.secondaryColor
        (.declare .vec4 "s" (.call2 .vec4 (.var ShaderName.secondary) (.lit 0 0))))
      = { clearMode := true, secondaryColor := d.secondaryColor } := by
    cases d.secondaryColor <;> rfl
  rw [colorStage, observeAll_append, hsecondary]
  cases htexture : d.texture with
  | none => rfl
  | some t =>
      have hprojects : t.lookup.projects = t.projected := by
        rw [TextureUse.lookup, Expr.projects]
        cases t.projected <;> rfl
      have hcanonical := TextureUse.ofWorkingColor_eq_canonical d (hd.rgba t htexture)
      rw [Option.map_some, ← hcanonical, ← hprojects]
      rfl

/-- A test with nothing doubled and no test in front of it is seen as the alpha test. -/
theorem observeAll_alphaTest {o : Option CompareFunc} (ho : ∀ f, o = some f → f ≠ .always)
    (hcolorDoubling : d.colorDoubling = false) (halphaDoubling : d.alphaDoubling = false)
    (halpha : d.alphaTest = none) (hcolor : d.colorTest = none) (f : Func) (a rhs : Expr) :
    d.observeAll (testStage (o.bind CompareFunc.testCode) (.call1 f a) rhs)
      = { d with alphaTest := o } := by
  cases o with
  | none =>
      show d = { d with alphaTest := none }
      rw [← halpha]
  | some f =>
      cases f with
      | always => exact absurd rfl (ho .always rfl)
      | never =>
          show { d with colorTest := some .never }.withEarlyNever
            = { d with alphaTest := some .never }
          rw [withEarlyNever, if_pos ⟨hcolorDoubling, halphaDoubling, halpha, rfl⟩, ← hcolor]
      | equal | notEqual | less | lessEqual | greater | greaterEqual => rfl

/-- The color test is seen as it is, except where it can pass for an alpha test. -/
theorem observeAll_colorTest {o : Option ColorTestFunc} (ho : ∀ f, o = some f → f ≠ .always)
    (hcolor : d.colorTest = none) (op : Arith) (a b rhs : Expr) :
    d.observeAll (testStage (o.bind ColorTestFunc.testCode) (.arith op a b) rhs)
      = { d with colorTest := o }.withEarlyNever := by
  cases o with
  | none =>
      rw [withEarlyNever, if_neg (fun h => nomatch h.2.2.2)]
      show d = { d with colorTest := none }
      rw [← hcolor]
  | some f =>
      cases f with
      | always => exact absurd rfl (ho .always rfl)
      | never => rfl
      | equal | notEqual =>
          rw [withEarlyNever, if_neg (fun h => nomatch h.2.2.2)]
          rfl

theorem observeAll_doublingStage (x : Decisions) (hcolor : x.colorDoubling = false)
    (halpha : x.alphaDoubling = false) :
    x.observeAll d.doublingStage
      = { x with colorDoubling := d.colorDoubling, alphaDoubling := d.alphaDoubling } := by
  obtain ⟨_, _, _, _, _, _, _, _, _, _⟩ := x
  cases hcolor
  cases halpha
  unfold doublingStage
  cases d.colorDoubling <;> cases d.alphaDoubling <;> rfl

theorem observeAll_outputStage (x : Decisions) (hfog : x.fog = false) :
    x.observeAll d.outputStage = { x with fog := d.fog } := by
  unfold outputStage
  cases hd : d.fog with
  | false =>
      show x = { x with fog := false }
      rw [← hfog]
  | true => rfl

theorem observeAll_overlayStage (x : Decisions) : x.observeAll d.overlayStage = x := by
  unfold overlayStage
  cases d.texture.isSome <;> rfl

theorem fog_withEarlyNever (d : Decisions) : d.withEarlyNever.fog = d.fog := by
  unfold withEarlyNever
  split <;> rfl

theorem withEarlyNever_fog (d : Decisions) (fog : Bool) :
    { d with fog := fog }.withEarlyNever = { d.withEarlyNever with fog := fog } := by
  unfold withEarlyNever
  split <;> rfl

theorem observeAll_shadingStages (hd : d.Settled) (p : EmitPolicy) :
    observeAll { clearMode := true } (d.shadingStages p) = d.canonical p := by
  unfold shadingStages
  by_cases hclear : d.clearMode = true
  · rw [if_pos hclear, hd.clear hclear]
    rfl
  · rw [if_neg hclear]
    have hkept : ∀ f, d.alphaTest.filter p.keepsAlphaTest = some f → f ≠ .always := by
      intro f hf
      exact (hd.alphaTest f (Option.filter_eq_some_iff.mp hf).1).2
    have hcolor : ∀ f, d.colorTest = some f → f ≠ .always := fun f hf => (hd.colorTest f hf).2
    simp only [observeAll_append, observeAll_colorStage hd]
    rw [alphaTestStage, alphaTestCode, observeAll_alphaTest hkept rfl rfl rfl rfl,
      observeAll_doublingStage _ rfl rfl, colorTestStage, colorTestCode,
      observeAll_colorTest hcolor rfl, observeAll_outputStage _ (fog_withEarlyNever _),
      ← withEarlyNever_fog]
    simp only [canonical, withoutEnables, withCanonicalTexture, withKeptAlphaTest,
      Bool.eq_false_iff.mpr hclear]

/-- The representative of the decisions for a state can be read off the program. -/
theorem observeAll_program (hd : d.Settled) (p : EmitPolicy) :
    observeAll { clearMode := true } (d.program p).main = d.canonical p := by
  rw [program, observeAll_append, observeAll_shadingStages hd]
  split
  · exact observeAll_overlayStage _
  · rfl

/-! ## The kernel -/

theorem canonical_eq_of_source_eq {d e : Decisions} (hd : d.Settled) (he : e.Settled)
    {p : EmitPolicy} (h : d.source p = e.source p) : d.canonical p = e.canonical p := by
  have hprogram : d.program p = e.program p := by
    apply Option.some.inj
    rw [← d.parse_source p, h, e.parse_source p]
  calc d.canonical p
      = observeAll { clearMode := true } (d.program p).main := (observeAll_program hd p).symm
    _ = observeAll { clearMode := true } (e.program p).main := by rw [hprogram]
    _ = e.canonical p := observeAll_program he p

theorem merged_of_canonical_eq {d e : Decisions} {p : EmitPolicy}
    (h : d.canonical p = e.canonical p) : Relation.EqvGen (Merges p) d e := by
  have hd := d.merged_canonical p
  rw [h] at hd
  exact hd.trans _ _ _ ((e.merged_canonical p).symm _ _)

theorem clearMode_canonical (p : EmitPolicy) (d : Decisions) :
    (d.canonical p).clearMode = d.clearMode := by
  unfold canonical withEarlyNever
  split <;> rfl

end Decisions

namespace PipelineState

theorem source_eq_iff_canonical_eq (p : EmitPolicy) (s t : PipelineState) :
    s.source p = t.source p
      ↔ (Decisions.ofState s).canonical p = (Decisions.ofState t).canonical p := by
  constructor
  · exact Decisions.canonical_eq_of_source_eq (Decisions.settled_ofState s)
      (Decisions.settled_ofState t)
  · intro h
    exact Decisions.source_eq_of_merged (Decisions.merged_of_canonical_eq h)

theorem shaderId_eq_iff (s t : PipelineState) :
    s.shaderId = t.shaderId ↔ Decisions.ofState s = Decisions.ofState t := by
  constructor
  · exact ofState_eq_of_shaderId_eq
  · intro h
    rw [shaderId, h, shaderId]

theorem source_eq_iff_clearMode {s : PipelineState} (hs : s.clearMode = true) (p : EmitPolicy)
    (t : PipelineState) : s.source p = t.source p ↔ t.clearMode = true := by
  constructor
  · intro h
    have hcanonical := (source_eq_iff_canonical_eq p s t).mp h
    rw [← Decisions.clearMode_ofState t, ← Decisions.clearMode_canonical p, ← hcanonical,
      Decisions.clearMode_canonical, Decisions.clearMode_ofState, hs]
  · intro ht
    rw [source, source, Decisions.ofState, if_pos hs, Decisions.ofState, if_pos ht]

/-- **The kernel of shader generation.** Two states have one shader text under a policy exactly if
their decisions are brought together by `Decisions.Merges`, that is, if they have one
representative. The states of clear mode share a text with each other and with no other state. Since
identifiers tell all decisions apart, two states with different identifiers have one text only if
`Decisions.Merges` says so. -/
theorem source_eq_iff_merged (p : EmitPolicy) (s t : PipelineState) :
    (s.source p = t.source p
        ↔ Relation.EqvGen (Decisions.Merges p) (Decisions.ofState s) (Decisions.ofState t))
      ∧ (s.source p = t.source p
        ↔ (Decisions.ofState s).canonical p = (Decisions.ofState t).canonical p)
      ∧ (s.clearMode = true → (s.source p = t.source p ↔ t.clearMode = true))
      ∧ (s.shaderId = t.shaderId ↔ Decisions.ofState s = Decisions.ofState t) := by
  have hcanonical := source_eq_iff_canonical_eq p s t
  refine ⟨⟨?_, Decisions.source_eq_of_merged⟩, hcanonical,
    fun hs => source_eq_iff_clearMode hs p t, shaderId_eq_iff s t⟩
  intro h
  exact Decisions.merged_of_canonical_eq (hcanonical.mp h)

/-- A test that discards all shows as either test, until something is doubled between them. -/
theorem source_eq_iff_merged_never :
    let s : PipelineState := { alphaTest := { enabled := true, func := .never } }
    let t : PipelineState := { colorTest := { enabled := true, func := .never } }
    s.source .embedded = t.source .embedded ∧ s.shaderId ≠ t.shaderId
      ∧ { s with colorDoubling := true }.source .embedded
        ≠ { t with colorDoubling := true }.source .embedded
      ∧ { s with clearMode := true }.source .embedded ≠ s.source .embedded := by
  intro s t
  obtain ⟨-, hsource, -, hid⟩ := source_eq_iff_merged .embedded s t
  obtain ⟨-, hdoubled, -⟩ := source_eq_iff_merged .embedded { s with colorDoubling := true }
    { t with colorDoubling := true }
  obtain ⟨-, -, hclear, -⟩ := source_eq_iff_merged .embedded { s with clearMode := true } s
  refine ⟨hsource.mpr (by decide), fun h => ?_, fun h => ?_, fun h => ?_⟩
  · exact absurd (hid.mp h) (by decide)
  · exact absurd (hdoubled.mp h) (by decide)
  · exact absurd ((hclear rfl).mp h) (by decide)

end PipelineState

end FixedFragment
