import FixedFragment.Proofs.ShaderWords
import FixedFragment.Proofs.SourceKernel

set_option autoImplicit false

/-!
# What each part of a policy changes

A workaround changes the text of a shader in one place: the alpha comparison that discards on
equality is left out, or the helpers that round to bytes are others. The picture for debugging is
written in front of the last line. `Decisions.policy_effects` puts these together.
-/

namespace FixedFragment

open Glsl Text

/-! ## Sets of workarounds -/

namespace Workarounds

/-- The workarounds that are in both sets. -/
def inter (w v : Workarounds) : Workarounds := ⟨w.bits &&& v.bits⟩

/-- The workarounds of `w` that are not in `v`. -/
def without (w v : Workarounds) : Workarounds := ⟨w.bits &&& ~~~v.bits⟩

/-- The workarounds that have a meaning. -/
def known : Workarounds := biasedRounding.union noEqualityDiscard

theorem and_or_distrib (a b c : UInt32) : (a ||| b) &&& c = (a &&& c) ||| (b &&& c) := by
  apply UInt32.toBitVec_inj.mp
  ext i
  simp [Bool.and_or_distrib_right]

theorem contains_inter {w v u : Workarounds} (h : v.contains u = true) :
    (w.inter v).contains u = w.contains u := by
  have hv : v.bits &&& u.bits = u.bits := of_decide_eq_true h
  simp only [contains, inter, UInt32.and_assoc, hv]

theorem contains_union (w v : Workarounds) : (w.union v).contains v = true := by
  have habsorb : (w.bits ||| v.bits) &&& v.bits = v.bits := by
    rw [and_or_distrib, UInt32.and_self]
    apply UInt32.toBitVec_inj.mp
    ext i
    simp
  exact decide_eq_true habsorb

theorem contains_union_of_disjoint {w v u : Workarounds} (h : v.bits &&& u.bits = 0) :
    (w.union v).contains u = w.contains u := by
  simp only [contains, union, and_or_distrib, h, UInt32.or_zero]

theorem contains_without {w v : Workarounds} (h : v.bits ≠ 0) :
    (w.without v).contains v = false := by
  have hnone : w.bits &&& ~~~v.bits &&& v.bits = 0 := by
    rw [UInt32.and_assoc, UInt32.not_and_self, UInt32.and_zero]
  simp only [contains, without, hnone]
  exact decide_eq_false h.symm

theorem contains_without_of_disjoint {w v u : Workarounds} (h : v.bits &&& u.bits = 0) :
    (w.without v).contains u = w.contains u := by
  have hkept : ~~~v.bits &&& u.bits = u.bits := by
    calc ~~~v.bits &&& u.bits
        = (~~~v.bits &&& u.bits) ||| (v.bits &&& u.bits) := by rw [h, UInt32.or_zero]
      _ = (~~~v.bits ||| v.bits) &&& u.bits := (and_or_distrib _ _ _).symm
      _ = u.bits := by rw [UInt32.not_or_self, UInt32.neg_one_and]
  simp only [contains, without, UInt32.and_assoc, hkept]

end Workarounds

/-! ## Policies that differ in one part -/

namespace EmitPolicy

/-- The policy without bits that have no meaning. -/
def withKnownWorkarounds (p : EmitPolicy) : EmitPolicy :=
  { p with workarounds := p.workarounds.inter .known }

/-- The policy with or without the alpha comparison that discards on equality. -/
def withEqualityDiscard (p : EmitPolicy) (on : Bool) : EmitPolicy :=
  { p with
    workarounds :=
      if on then p.workarounds.without .noEqualityDiscard
      else p.workarounds.union .noEqualityDiscard }

/-- The policy with the given quantizer. -/
def withQuantizer (p : EmitPolicy) (q : Quantizer) : EmitPolicy :=
  { p with
    workarounds :=
      match q with
      | .floor => p.workarounds.without .biasedRounding
      | .biased => p.workarounds.union .biasedRounding }

end EmitPolicy

theorem Quantizer.ofPolicy_withKnownWorkarounds (p : EmitPolicy) :
    Quantizer.ofPolicy p.withKnownWorkarounds = Quantizer.ofPolicy p := by
  rw [ofPolicy, ofPolicy, EmitPolicy.withKnownWorkarounds, Workarounds.contains_inter (by decide)]

theorem EmitPolicy.keepsAlphaTest_withKnownWorkarounds (p : EmitPolicy) :
    p.withKnownWorkarounds.keepsAlphaTest = p.keepsAlphaTest := by
  funext f
  rw [keepsAlphaTest, keepsAlphaTest, withKnownWorkarounds, Workarounds.contains_inter (by decide)]

theorem Quantizer.ofPolicy_withEqualityDiscard (p : EmitPolicy) (on : Bool) :
    Quantizer.ofPolicy (p.withEqualityDiscard on) = Quantizer.ofPolicy p := by
  rw [ofPolicy, ofPolicy, EmitPolicy.withEqualityDiscard]
  cases on with
  | false => rw [if_neg Bool.false_ne_true, Workarounds.contains_union_of_disjoint (by decide)]
  | true => rw [if_pos rfl, Workarounds.contains_without_of_disjoint (by decide)]

theorem Quantizer.ofPolicy_withQuantizer (p : EmitPolicy) (q : Quantizer) :
    Quantizer.ofPolicy (p.withQuantizer q) = q := by
  cases q with
  | floor =>
      have hwithout := Workarounds.contains_without (w := p.workarounds) (v := .biasedRounding)
        (by decide)
      exact if_neg (Bool.eq_false_iff.mp hwithout)
  | biased => exact if_pos (p.workarounds.contains_union .biasedRounding)

theorem EmitPolicy.keepsAlphaTest_withQuantizer (p : EmitPolicy) (q : Quantizer) :
    (p.withQuantizer q).keepsAlphaTest = p.keepsAlphaTest := by
  have hskips : (p.withQuantizer q).workarounds.contains .noEqualityDiscard
      = p.workarounds.contains .noEqualityDiscard := by
    cases q with
    | floor => exact Workarounds.contains_without_of_disjoint (by decide)
    | biased => exact Workarounds.contains_union_of_disjoint (by decide)
  funext f
  rw [keepsAlphaTest, keepsAlphaTest, hskips]

/-! ## Comparisons under both quantizers -/

/-- Whether the statement discards by a comparison. -/
def Glsl.Stmt.isComparison : Stmt → Bool
  | discardIf _ => true
  | _ => false

/-- The line of a comparison. -/
def comparisonLine (rel : Relation) (lhs rhs : Expr) : String :=
  (Stmt.discardIf (.not (.compare rel lhs rhs))).line

namespace Quantizer

/-- The alpha of `v` as a byte. -/
def alpha (q : Quantizer) : Expr := .call1 (.helper q.scalarName) (.part (.var "v") .a)

/-- The color of `v` as bytes, masked. -/
def color (q : Quantizer) : Expr :=
  .arith .mul (.call1 (.helper q.vectorName) (.part (.var "v") .rgb))
    (.part (.var ShaderName.colorMask) .rgb)

end Quantizer

/-- The alpha of the reference. -/
def referenceAlpha : Expr := .part (.var ShaderName.reference) .a

/-- The color of the reference, masked. -/
def referenceColor : Expr :=
  .arith .mul (.part (.var ShaderName.reference) .rgb) (.part (.var ShaderName.colorMask) .rgb)

/-- What stands behind the left operand in the line of a comparison. -/
def comparisonEnd (rel : Relation) (rhs : Expr) : String :=
  " " ++ rel.text ++ " " ++ rhs.text ++ ")) discard;"

/-- Calls and products need no brackets in a comparison. -/
theorem comparisonLine_eq (rel : Relation) {lhs rhs : Expr}
    (hlhs : 4 ≤ lhs.level ∧ lhs.isQuotient = false)
    (hrhs : 4 ≤ rhs.level ∧ rhs.isQuotient = false) :
    comparisonLine rel lhs rhs = "  if (!(" ++ (lhs.text ++ comparisonEnd rel rhs) := by
  have hrel : rel.level + 1 ≤ 4 := by cases rel <;> decide
  have hplain : ∀ {e : Expr} {least : Nat}, 4 ≤ e.level ∧ e.isQuotient = false → least ≤ 4 →
      e.bracketed least e.text = e.text := by
    rintro e least ⟨hlevel, hquotient⟩ hleast
    rw [Expr.bracketed, hquotient, decide_eq_false (by omega)]
    rfl
  have hcompare : (Expr.compare rel lhs rhs).bracketed 5 (Expr.compare rel lhs rhs).text
      = "(" ++ (Expr.compare rel lhs rhs).text ++ ")" := by
    rw [Expr.bracketed, Expr.level, decide_eq_true (by omega)]
    rfl
  have hfront : "  if (!(" = "  " ++ ("if (" ++ ("!" ++ "(")) := by decide
  have hback : ")) discard;" = ")" ++ ") discard;" := by decide
  rw [comparisonLine, Stmt.line, Stmt.text, Expr.text, hcompare, Expr.text,
    hplain hlhs (by omega), hplain hrhs hrel, comparisonEnd, hfront, hback]
  simp only [String.append_assoc]

theorem text_alpha (q : Quantizer) : q.alpha.text = q.scalarName ++ "(v.a)" := by
  cases q <;> decide

theorem text_color (q : Quantizer) :
    q.color.text = q.vectorName ++ "(v.rgb) * u_colormask.rgb" := by
  cases q <;> decide

/-- The text with the names of the biased helpers. -/
def biasedNames (s : String) : String :=
  (s.replace Quantizer.floor.scalarName Quantizer.biased.scalarName).replace
    Quantizer.floor.vectorName Quantizer.biased.vectorName

theorem biasedNames_eq_self {l : String} (hscalar : l.contains Quantizer.floor.scalarName = false)
    (hvector : l.contains Quantizer.floor.vectorName = false) : biasedNames l = l := by
  rw [biasedNames, replace_eq_self (by decide) _ hscalar, replace_eq_self (by decide) _ hvector]

/-- The names of the helpers that round by `floor` have a letter that stands nowhere else. -/
theorem biasedNames_of_not_mem {l : String} (h : 'A' ∉ l.toList) : biasedNames l = l :=
  biasedNames_eq_self (contains_eq_false_of_mem (by decide) h)
    (contains_eq_false_of_mem (by decide) h)

/-- A line without a helper stays. -/
theorem biasedNames_of_worded {l : String} (h : Worded plainWords l) : biasedNames l = l := by
  have hletter : ∀ v ∈ plainWords, 'A' ∉ v.toList := by decide
  refine biasedNames_eq_self ?_ ?_
  · exact h.contains_eq_false (by decide) fun v hv hfound =>
      hletter v hv (hfound.subset (by decide))
  · exact h.contains_eq_false (by decide) fun v hv hfound =>
      hletter v hv (hfound.subset (by decide))

theorem biasedNames_joinLines (ls : List String) :
    biasedNames (joinLines ls) = joinLines (ls.map biasedNames) := by
  rw [biasedNames, replace_joinLines (by decide) (by decide),
    replace_joinLines (by decide) (by decide), List.map_map]
  rfl

/-- What stands behind the name of a helper has none of the letter. -/
theorem not_mem_behindName (rel : Relation) {operand : String} {rhs : Expr}
    (hoperand : 'A' ∉ operand.toList) (hrhs : 'A' ∉ rhs.text.toList) :
    'A' ∉ (operand ++ comparisonEnd rel rhs).toList := by
  have hrel : 'A' ∉ rel.text.toList := by cases rel <;> decide
  have hblank : 'A' ∉ " ".toList := by decide
  have hend : 'A' ∉ ")) discard;".toList := by decide
  simp only [comparisonEnd, String.toList_append, List.mem_append, not_or]
  exact ⟨hoperand, ⟨⟨⟨hblank, hrel⟩, hblank⟩, hrhs⟩, hend⟩

/-- The name of a helper at its call is exchanged. -/
theorem replace_called {name : String} (hletter : 'A' ∈ name.toList)
    (hbracket : '(' ∉ name.toList.dropLast) (new : String) {back : String}
    (hback : 'A' ∉ back.toList) :
    ("  if (!(" ++ (name ++ back)).replace name new = "  if (!(" ++ (new ++ back) := by
  have hne : name ≠ "" := by
    rintro rfl
    exact absurd hletter List.not_mem_nil
  have hfront : 'A' ∉ "  if (!(".toList := by decide
  exact replace_between hne new (contains_eq_false_of_mem hletter hfront) (decide_eq_true hbracket)
    (contains_eq_false_of_mem hletter hback)

/-- An alpha comparison names the helper for numbers. -/
theorem biasedNames_alpha (rel : Relation) :
    biasedNames (comparisonLine rel Quantizer.floor.alpha referenceAlpha)
      = comparisonLine rel Quantizer.biased.alpha referenceAlpha := by
  have hback : 'A' ∉ ("(v.a)" ++ comparisonEnd rel referenceAlpha).toList :=
    not_mem_behindName rel (by decide) (by decide)
  have hline : 'A' ∉ ("  if (!(" ++ (Quantizer.biased.scalarName
      ++ ("(v.a)" ++ comparisonEnd rel referenceAlpha))).toList := by
    rw [String.toList_append, String.toList_append, List.mem_append, List.mem_append]
    exact not_or.mpr ⟨by decide, not_or.mpr ⟨by decide, hback⟩⟩
  rw [comparisonLine_eq rel (by decide) (by decide), comparisonLine_eq rel (by decide) (by decide),
    text_alpha, text_alpha, String.append_assoc, String.append_assoc, biasedNames,
    replace_called (by decide) (by decide) _ hback,
    replace_eq_self (by decide) _ (contains_eq_false_of_mem (by decide) hline)]

/-- A color comparison names the helper for vectors. -/
theorem biasedNames_color (rel : Relation) :
    biasedNames (comparisonLine rel Quantizer.floor.color referenceColor)
      = comparisonLine rel Quantizer.biased.color referenceColor := by
  have hback : 'A' ∉ ("(v.rgb) * u_colormask.rgb" ++ comparisonEnd rel referenceColor).toList :=
    not_mem_behindName rel (by decide) (by decide)
  -- The name for numbers differs from that for vectors in its last letter.
  have hname : ¬Quantizer.floor.scalarName.toList
      <:+: ("  if (!(" ++ Quantizer.floor.vectorName).toList := by decide +kernel
  have hscalar : ("  if (!(" ++ (Quantizer.floor.vectorName
      ++ ("(v.rgb) * u_colormask.rgb" ++ comparisonEnd rel referenceColor))).contains
        Quantizer.floor.scalarName = false := by
    rw [← String.append_assoc]
    exact contains_append_eq_false (parted_of_getLast? (by decide))
      (String.contains_string_eq_false_iff.mpr hname)
      (contains_eq_false_of_mem (by decide) hback)
  rw [comparisonLine_eq rel (by decide) (by decide), comparisonLine_eq rel (by decide) (by decide),
    text_color, text_color, String.append_assoc, String.append_assoc, biasedNames,
    replace_eq_self (by decide) _ hscalar, replace_called (by decide) (by decide) _ hback]

namespace Decisions

/-- The lines of a test follow its comparison. -/
theorem biasedNames_testStage {lhs lhs' rhs : Expr}
    (h : ∀ rel, biasedNames (comparisonLine rel lhs rhs) = comparisonLine rel lhs' rhs)
    (code : Option TestCode) :
    ((testStage code lhs rhs).map Stmt.line).map biasedNames
      = (testStage code lhs' rhs).map Stmt.line := by
  match code with
  | none => rfl
  | some .discardAll =>
      have hline : Worded plainWords Stmt.discard.line := worded_stmt trivial (by decide)
      exact congrArg (fun l => [l]) (biasedNames_of_worded hline)
  | some (.compare rel) => exact congrArg (fun l => [l]) (h rel)

/-- Where nothing is compared, the operands do not matter. -/
theorem testStage_eq {code : Option TestCode} (h : code.any TestCode.isCompare = false)
    (lhs lhs' rhs : Expr) : testStage code lhs rhs = testStage code lhs' rhs := by
  match code with
  | none | some .discardAll => rfl
  | some (.compare rel) => exact absurd h.symm Bool.false_ne_true

/-! ## Programs under two policies -/

theorem shadingStages_eq (d : Decisions) (p : EmitPolicy) :
    d.shadingStages p
      = if d.clearMode then [.assign ShaderName.output (.var ShaderName.primary)]
        else d.colorStage
          ++ testStage (d.alphaTestCode p) (Quantizer.ofPolicy p).alpha referenceAlpha
          ++ d.doublingStage
          ++ testStage d.colorTestCode (Quantizer.ofPolicy p).color referenceColor
          ++ d.outputStage :=
  rfl

/-- Of the workarounds a program depends on the quantizer and on the alpha comparison that is
left. -/
theorem program_congr {d : Decisions} {p q : EmitPolicy} (hdialect : p.dialect = q.dialect)
    (hoverlay : p.debugOverlay = q.debugOverlay)
    (hquantizer : Quantizer.ofPolicy p = Quantizer.ofPolicy q)
    (hcode : d.alphaTestCode p = d.alphaTestCode q) : d.program p = d.program q := by
  simp only [program, globals, helpers, comparesAlpha, shadingStages_eq, hdialect, hoverlay,
    hquantizer, hcode]

/-- Bits without a meaning change nothing. -/
theorem source_withKnownWorkarounds (d : Decisions) (p : EmitPolicy) :
    d.source p.withKnownWorkarounds = d.source p := by
  have hcode : d.alphaTestCode p.withKnownWorkarounds = d.alphaTestCode p := by
    rw [alphaTestCode, alphaTestCode, p.keepsAlphaTest_withKnownWorkarounds]
  exact congrArg Program.text
    (program_congr rfl rfl (Quantizer.ofPolicy_withKnownWorkarounds p) hcode)

/-- The workaround for equality takes the comparison that discards on equality away, and nothing
else. -/
theorem source_withEqualityDiscard (d : Decisions) (p : EmitPolicy) :
    d.source (p.withEqualityDiscard false)
      = if d.alphaTest = some .notEqual then
          { d with alphaTest := none }.source (p.withEqualityDiscard false)
        else d.source (p.withEqualityDiscard true) := by
  split
  · next hnotEqual =>
      have hskips := p.workarounds.contains_union .noEqualityDiscard
      exact congrArg Program.text (Merges.notEqual d hskips hnotEqual).program_eq
  · next hother =>
      have hquantizer : Quantizer.ofPolicy (p.withEqualityDiscard false)
          = Quantizer.ofPolicy (p.withEqualityDiscard true) := by
        rw [Quantizer.ofPolicy_withEqualityDiscard, Quantizer.ofPolicy_withEqualityDiscard]
      have hkept : ∀ q : EmitPolicy, d.alphaTest.filter q.keepsAlphaTest = d.alphaTest := by
        intro q
        cases hf : d.alphaTest with
        | none => rfl
        | some f =>
            have hkeeps : q.keepsAlphaTest f = true := by
              rw [← Bool.not_eq_false, q.keepsAlphaTest_eq_false]
              exact fun h => hother (h.1 ▸ hf)
            rw [Option.filter_some_pos hkeeps]
      have hcode : d.alphaTestCode (p.withEqualityDiscard false)
          = d.alphaTestCode (p.withEqualityDiscard true) := by
        rw [alphaTestCode, alphaTestCode, hkept, hkept]
      exact congrArg Program.text (program_congr rfl rfl hquantizer hcode)

/-! ## Rounding -/

theorem alphaTestCode_withQuantizer (d : Decisions) (p : EmitPolicy) (q : Quantizer) :
    d.alphaTestCode (p.withQuantizer q) = d.alphaTestCode p := by
  rw [alphaTestCode, alphaTestCode, p.keepsAlphaTest_withQuantizer]

theorem globals_withQuantizer (d : Decisions) (p : EmitPolicy) (q : Quantizer) :
    d.globals (p.withQuantizer q) = d.globals p := by
  simp only [globals, comparesAlpha, alphaTestCode_withQuantizer]
  rfl

/-- Lines that name no helper stay. -/
theorem biasedNames_lines {ss : List Stmt} (hnamed : ∀ s ∈ ss, s.WellNamed)
    (hwords : ∀ s ∈ ss, s.spelling ⊆ plainWords) :
    (ss.map Stmt.line).map biasedNames = ss.map Stmt.line := by
  rw [List.map_map]
  exact List.map_congr_left fun s hs =>
    biasedNames_of_worded (worded_stmt (hnamed s hs) (hwords s hs))

theorem biasedNames_frame : ∀ l ∈ [mainLine, closeLine], biasedNames l = l := by
  have hletter : ∀ l ∈ [mainLine, closeLine], 'A' ∉ l.toList := by decide
  exact fun l hl => biasedNames_of_not_mem (hletter l hl)

/-- The statements under both quantizers differ in the names of helpers. -/
theorem lines_shadingStages (d : Decisions) (p : EmitPolicy) :
    (d.shadingStages (p.withQuantizer .biased)).map Stmt.line
      = ((d.shadingStages (p.withQuantizer .floor)).map Stmt.line).map biasedNames := by
  rw [shadingStages_eq, shadingStages_eq]
  split
  · exact (biasedNames_lines (by decide) (by decide)).symm
  · simp only [List.map_append, Quantizer.ofPolicy_withQuantizer, alphaTestCode_withQuantizer,
      biasedNames_testStage biasedNames_alpha, biasedNames_testStage biasedNames_color,
      biasedNames_lines d.wellNamed_colorStage d.spelling_colorStage,
      biasedNames_lines d.wellNamed_doublingStage d.spelling_doublingStage,
      biasedNames_lines d.wellNamed_outputStage d.spelling_outputStage]

theorem mainLines_withQuantizer (d : Decisions) (p : EmitPolicy) :
    (d.program (p.withQuantizer .biased)).mainLines
      = (d.program (p.withQuantizer .floor)).mainLines.map biasedNames := by
  have hoverlay : ((if p.debugOverlay then d.overlayStage else []).map Stmt.line).map biasedNames
      = (if p.debugOverlay then d.overlayStage else []).map Stmt.line := by
    split
    · exact biasedNames_lines d.wellNamed_overlayStage d.spelling_overlayStage
    · rfl
  have hdebug : ∀ q, (p.withQuantizer q).debugOverlay = p.debugOverlay := fun _ => rfl
  simp only [Program.mainLines, program, List.map_append, List.map_cons, List.map_nil, hdebug,
    d.lines_shadingStages p, hoverlay, biasedNames_frame mainLine (by decide),
    biasedNames_frame closeLine (by decide)]

/-- The text of the helpers. -/
def helperText (d : Decisions) (p : EmitPolicy) : String :=
  joinLines ((d.helpers p).map Helper.line)

/-- The quantizer shows in the definitions of helpers and in their names inside of `main`. -/
theorem source_withQuantizer (d : Decisions) (p : EmitPolicy) :
    ∃ declarations main : String,
      d.source (p.withQuantizer .floor)
          = declarations ++ d.helperText (p.withQuantizer .floor) ++ main
        ∧ d.source (p.withQuantizer .biased)
          = declarations ++ d.helperText (p.withQuantizer .biased) ++ biasedNames main := by
  have hparts : ∀ q, d.source (p.withQuantizer q)
      = joinLines (d.program p).headLines ++ joinLines ((d.globals p).map Global.line)
        ++ d.helperText (p.withQuantizer q)
        ++ joinLines (d.program (p.withQuantizer q)).mainLines := by
    intro q
    have hglobals : (d.program (p.withQuantizer q)).globals = d.globals p :=
      d.globals_withQuantizer p q
    rw [source, Program.text_eq_joinLines, Program.bodyLines, joinLines_append, joinLines_append,
      hglobals, ← String.append_assoc, ← String.append_assoc]
    rfl
  refine ⟨_, joinLines (d.program (p.withQuantizer .floor)).mainLines, hparts .floor, ?_⟩
  rw [biasedNames_joinLines, ← mainLines_withQuantizer]
  exact hparts .biased

/-! ## Comparisons and helpers -/

theorem helpers_eq_nil_iff (d : Decisions) (p : EmitPolicy) :
    d.helpers p = [] ↔ d.comparesAlpha p = false ∧ d.comparesColor = false := by
  rw [helpers, List.append_eq_nil_iff]
  cases d.comparesAlpha p <;> cases d.comparesColor <;> simp [onlyIf]

theorem helperNames_withQuantizer (d : Decisions) (p : EmitPolicy) (q : Quantizer) :
    (d.helpers (p.withQuantizer q)).map Helper.name
      = onlyIf (d.comparesAlpha p) q.scalarName ++ onlyIf d.comparesColor q.vectorName := by
  rw [helpers, List.map_append, map_onlyIf, map_onlyIf, Quantizer.ofPolicy_withQuantizer,
    comparesAlpha, alphaTestCode_withQuantizer]
  rfl

/-- The quantizer shows in the text if there are helpers at all. -/
theorem source_biased_eq_iff (d : Decisions) (p : EmitPolicy) :
    d.source (p.withQuantizer .biased) = d.source (p.withQuantizer .floor)
      ↔ d.helpers p = [] := by
  rw [helpers_eq_nil_iff]
  constructor
  · intro hsource
    -- What the texts are read as has helpers of the same names.
    have hparse := congrArg Program.parse hsource
    rw [d.parse_source, d.parse_source] at hparse
    have hnames := congrArg (fun e : Program => e.helpers.map Helper.name) (Option.some.inj hparse)
    rw [program, program, helperNames_withQuantizer, helperNames_withQuantizer] at hnames
    revert hnames
    cases d.comparesAlpha p <;> cases d.comparesColor <;> decide
  · rintro ⟨hnoAlpha, hnoColor⟩
    have hcode := d.alphaTestCode_withQuantizer p
    have hprogram : d.program (p.withQuantizer .biased) = d.program (p.withQuantizer .floor) := by
      rw [comparesAlpha] at hnoAlpha
      rw [comparesColor] at hnoColor
      simp only [program, globals, helpers, comparesAlpha, comparesColor, shadingStages_eq, hcode,
        hnoAlpha, hnoColor, testStage_eq hnoAlpha _ (Quantizer.floor.alpha),
        testStage_eq hnoColor _ (Quantizer.floor.color)]
      rfl
    exact congrArg Program.text hprogram

/-! ## Comparisons in `main` -/

theorem any_isComparison_testStage (code : Option TestCode) (lhs rhs : Expr) :
    (testStage code lhs rhs).any Stmt.isComparison = code.any TestCode.isCompare := by
  match code with
  | none | some .discardAll | some (.compare _) => rfl

theorem any_isComparison_colorStage (d : Decisions) :
    d.colorStage.any Stmt.isComparison = false := by
  rw [colorStage, List.any_append]
  cases d.secondaryColor <;> cases d.texture <;> rfl

theorem any_isComparison_doublingStage (d : Decisions) :
    d.doublingStage.any Stmt.isComparison = false := by
  unfold doublingStage
  cases d.colorDoubling <;> cases d.alphaDoubling <;> rfl

theorem any_isComparison_outputStage (d : Decisions) :
    d.outputStage.any Stmt.isComparison = false := by
  unfold outputStage
  cases d.fog <;> rfl

theorem any_isComparison_overlayStage (d : Decisions) :
    d.overlayStage.any Stmt.isComparison = false := by
  unfold overlayStage
  cases d.texture.isSome <;> rfl

/-- Outside of clear mode a comparison is written wherever a helper is. -/
theorem any_isComparison_main (d : Decisions) (p : EmitPolicy) :
    (d.program p).main.any Stmt.isComparison = (!d.clearMode && !(d.helpers p).isEmpty) := by
  have hhelpers : (!(d.helpers p).isEmpty) = (d.comparesAlpha p || d.comparesColor) := by
    rw [helpers]
    cases d.comparesAlpha p <;> cases d.comparesColor <;> rfl
  have hoverlay :
      (if p.debugOverlay then d.overlayStage else []).any Stmt.isComparison = false := by
    split
    · exact d.any_isComparison_overlayStage
    · rfl
  rw [hhelpers, program, List.any_append, hoverlay, Bool.or_false, shadingStages_eq]
  cases d.clearMode with
  | true => rfl
  | false =>
      simp only [Bool.false_eq_true, if_false, List.any_append, any_isComparison_testStage,
        d.any_isComparison_colorStage, d.any_isComparison_doublingStage,
        d.any_isComparison_outputStage, Bool.false_or, Bool.or_false, Bool.not_false,
        Bool.true_and]
      rfl

/-! ## The picture for debugging -/

/-- The lines of the picture for debugging. -/
def overlayText (d : Decisions) : String :=
  if d.texture.isSome then
    "  gl_FragColor = texture2D(tex, v_texcoord.xy);\n"
      ++ "  gl_FragColor += vec4(0.3, 0.0, 0.3, 0.3);\n"
  else
    "  gl_FragColor = vec4(1.0, 0.0, 1.0, 1.0);\n"

theorem joinLines_overlayStage (d : Decisions) :
    joinLines (d.overlayStage.map Stmt.line) = d.overlayText := by
  unfold overlayStage overlayText
  cases d.texture.isSome <;> decide +kernel

/-- The picture for debugging stands in front of the last line. -/
theorem source_withDebugOverlay (d : Decisions) (p : EmitPolicy) :
    ∃ body, d.source (p.withDebugOverlay false) = body ++ "\x7d\n"
      ∧ d.source (p.withDebugOverlay true) = body ++ d.overlayText ++ "\x7d\n" := by
  have hlines : ∀ on, d.source (p.withDebugOverlay on)
      = joinLines (d.program p).headLines ++ joinLines ((d.globals p).map Global.line)
        ++ d.helperText p ++ joinLines (mainLine :: (d.shadingStages p).map Stmt.line)
        ++ joinLines ((if on then d.overlayStage else []).map Stmt.line) ++ "\x7d\n" := by
    intro on
    have hmain : (d.program (p.withDebugOverlay on)).mainLines
        = mainLine :: (d.shadingStages p).map Stmt.line
          ++ (if on then d.overlayStage else []).map Stmt.line ++ [closeLine] := by
      rw [Program.mainLines, program, List.map_append]
      rfl
    rw [source, Program.text_eq_joinLines, Program.bodyLines, hmain]
    simp only [joinLines_append, String.append_assoc]
    rfl
  refine ⟨_, (hlines false).trans (congrArg (· ++ "\x7d\n") String.append_empty), ?_⟩
  rw [hlines true, ← joinLines_overlayStage]
  rfl

/-! ## The parts of a policy -/

/-- Each part of a policy has its own effect on the text. Of the workarounds two bits count. The
one for equality takes the alpha comparison that discards on equality away. The one for rounding
exchanges helpers and their names, where there are helpers; these are there for a comparison in
`main`, except that clear mode writes none. The picture for debugging is written in front of the
last line. -/
theorem policy_effects (d : Decisions) (p : EmitPolicy) :
    d.source p.withKnownWorkarounds = d.source p
      ∧ d.source (p.withEqualityDiscard false)
        = (if d.alphaTest = some .notEqual then
            { d with alphaTest := none }.source (p.withEqualityDiscard false)
          else d.source (p.withEqualityDiscard true))
      ∧ ((d.source (p.withQuantizer .biased) = d.source (p.withQuantizer .floor)
            ↔ d.helpers p = [])
          ∧ (d.program p).main.any Stmt.isComparison = (!d.clearMode && !(d.helpers p).isEmpty)
          ∧ ∃ declarations main : String,
            d.source (p.withQuantizer .floor)
                = declarations ++ d.helperText (p.withQuantizer .floor) ++ main
              ∧ d.source (p.withQuantizer .biased)
                = declarations ++ d.helperText (p.withQuantizer .biased) ++ biasedNames main)
      ∧ ∃ body, d.source (p.withDebugOverlay false) = body ++ "\x7d\n"
        ∧ d.source (p.withDebugOverlay true) = body ++ d.overlayText ++ "\x7d\n" := by
  refine ⟨d.source_withKnownWorkarounds p, d.source_withEqualityDiscard p, ⟨?_, ?_, ?_⟩,
    d.source_withDebugOverlay p⟩
  · exact d.source_biased_eq_iff p
  · exact d.any_isComparison_main p
  · exact d.source_withQuantizer p

/-- A test that is alive in clear mode compares nothing, and the quantizer shows in its helper. -/
theorem quantizer_shows_in_clearMode :
    let d : Decisions := { clearMode := true, alphaTest := some .less }
    let p : EmitPolicy := {}
    (∀ q, (d.program (p.withQuantizer q)).main.any Stmt.isComparison = false)
      ∧ d.source (p.withQuantizer .biased) ≠ d.source (p.withQuantizer .floor) := by
  refine ⟨fun q => rfl, ?_⟩
  decide +kernel

end Decisions

end FixedFragment
