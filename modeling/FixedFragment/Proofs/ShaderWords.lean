import FixedFragment.Proofs.Replacement
import FixedFragment.Proofs.ShaderTyping

set_option autoImplicit false

/-!
# The words of shader texts

Statements, helpers and declarations of shader programs are written with the lexemes in
`shaderWords`, apart from precisions and from the number in the version line. A word that is part of
none of them is nowhere in the text: the characters of a word belong to one lexeme
(`Spells.contains_eq_false`).
-/

namespace FixedFragment.Glsl

/-! ## Words and lexemes -/

/-- A list in which all neighbours go together lies in one of the groups of a list that is cut where
neighbours do not go together. -/
theorem exists_mem_of_infix_flatten {r : Char → Char → Bool} {w : List Char} (hw : w ≠ [])
    (hr : ∀ a ∈ w, ∀ b ∈ w, r a b = true) {gs : List (List Char)} (hne : [] ∉ gs)
    (hgs : gs.IsChain fun g h => ∃ hg hh, r (g.getLast hg) (h.head hh) = false)
    (h : w <:+: gs.flatten) : ∃ g ∈ gs, w <:+: g := by
  induction gs with
  | nil => exact absurd (List.infix_nil.mp h) hw
  | cons g gs ih =>
      rw [List.flatten_cons, List.infix_append_iff_ne_nil] at h
      rcases h with h | h | ⟨u, v, hu, hv, rfl, hsuffix, hfront⟩
      · exact ⟨g, List.mem_cons_self, h⟩
      · obtain ⟨g', hg', hfound⟩ := ih (fun hnil => hne (List.mem_cons_of_mem g hnil)) hgs.tail h
        exact ⟨g', List.mem_cons_of_mem g hg', hfound⟩
      · cases gs with
        | nil => exact absurd (List.prefix_nil.mp hfront) hv
        | cons g' gs =>
            -- The last character of `g` and the first one of `g'` would go together.
            obtain ⟨hg, hg', hapart⟩ := (List.isChain_cons_cons.mp hgs).1
            have hlast : g.getLast hg = u.getLast hu := (hsuffix.getLast hu).symm
            rw [List.flatten_cons] at hfront
            have hhead : g'.head hg' = v.head hv :=
              ((hfront.head hv).trans (List.head_append_left hg')).symm
            have htogether := hr _ (List.mem_append_left v (List.getLast_mem hu)) _
              (List.mem_append_right u (List.head_mem hv))
            rw [← hlast, ← hhead, hapart] at htogether
            exact absurd htogether Bool.false_ne_true

/-- A word that is part of no lexeme of a text is not in the text. -/
theorem Spells.contains_eq_false {text w : String} {ws : List String} (h : Spells text ws)
    (hw : IsWord w) (hws : ∀ v ∈ ws, ¬w.toList <:+: v.toList) : text.contains w = false := by
  rw [String.contains_string_eq_false_iff]
  intro hfound
  have htogether : ∀ a ∈ w.toList, ∀ b ∈ w.toList, sameLexeme a b = true := by
    intro a ha b hb
    rw [sameLexeme, hw.2 a ha, hw.2 b hb]
    rfl
  rw [← List.flatten_splitBy sameLexeme text.toList] at hfound
  obtain ⟨g, hg, hin⟩ := exists_mem_of_infix_flatten hw.1 htogether
    (List.nil_notMem_splitBy _ _) (List.isChain_getLast_head_splitBy _ _) hfound
  have hblank : g ≠ [' '] := by
    rintro rfl
    obtain ⟨c, hc⟩ := List.exists_mem_of_ne_nil _ hw.1
    have hspace : c = ' ' := List.mem_singleton.mp (hin.subset hc)
    exact absurd (hspace ▸ hw.2 c hc) (by decide)
  have hmem : String.ofList g ∈ ws := by
    rw [← h.lexemes_eq]
    exact List.mem_map_of_mem (List.mem_filter.mpr ⟨hg, by simpa using hblank⟩)
  have hfree := hws _ hmem
  rw [String.toList_ofList] at hfree
  exact hfree hin

end FixedFragment.Glsl

/-! ## The lines of a program -/

namespace FixedFragment.Glsl.Program

open Text

/-- The lines for version and precision. -/
def headLines (p : Program) : List String :=
  versionLine p.version :: p.precision.toList.map precisionLine

/-- The lines of `main`. -/
def mainLines (p : Program) : List String := mainLine :: (p.main.map Stmt.line ++ [closeLine])

/-- The lines behind those for version and precision. -/
def bodyLines (p : Program) : List String :=
  p.globals.map Global.line ++ p.helpers.map Helper.line ++ p.mainLines

theorem text_eq_joinLines (p : Program) :
    p.text = joinLines p.headLines ++ joinLines p.bodyLines := by
  rw [← joinLines_append, headLines, bodyLines, mainLines, text, pieces, lines]
  simp only [List.cons_append, List.append_assoc]
  rfl

end FixedFragment.Glsl.Program

namespace FixedFragment

open Glsl

/-! ## Declarations without their precision -/

namespace Glsl

def QualifiedTy.withoutPrecision (q : QualifiedTy) : QualifiedTy := { q with precision := none }

def Global.withoutPrecision (g : Global) : Global := { g with ty := g.ty.withoutPrecision }

def Helper.withoutPrecision (h : Helper) : Helper := { h with ty := h.ty.withoutPrecision }

end Glsl

/-! ## The words in use -/

/-- The names of helpers. -/
def helperNames : List String :=
  ["roundAndScaleTo255f", "roundAndScaleTo255v", "roundTo255thf", "roundTo255thv"]

/-- The lexemes of declarations, helpers and statements, apart from precisions and the names of
helpers. -/
def plainWords : List String :=
  ["(", ")", ";", ".", ",", "=", "v", "p", "t", "rgb", "a", "s", "*", "+", "vec4", "mix", "0", "1",
    "v_color0", "u_texenv", "tex", "v_texcoord", "texture2D", "texture2DProj", "v_color1", "if",
    "!", "==", "!=", "<", "<=", ">", ">=", "discard", "u_alphacolorref", "u_colormask", "2",
    "float", "fogCoef", "clamp", "v_fogdepth", "gl_FragColor", "u_fogcolor", "+=", "xy", "3",
    "uniform", "varying", "vec2", "vec3", "sampler2D", "in", "x", "y", "-", "/", "255", "5",
    "floor", "fract", "return", "bool", "\x7b", "\x7d"]

/-- The lexemes of declarations, helpers and statements, precisions apart. -/
def shaderWords : List String := helperNames ++ plainWords

theorem subset_shaderWords {ws : List String} (h : ws ⊆ plainWords) : ws ⊆ shaderWords :=
  List.Subset.trans h (List.subset_append_right helperNames plainWords)

/-- The text lies on one line and is written with the words `words`. -/
def Worded (words : List String) (line : String) : Prop := ∃ ws, Spells line ws ∧ ws ⊆ words

/-- A word that is part of none of the words is not in the text. -/
theorem Worded.contains_eq_false {words : List String} {line w : String} (h : Worded words line)
    (hw : IsWord w) (hunused : ∀ v ∈ words, ¬w.toList <:+: v.toList) :
    line.contains w = false := by
  obtain ⟨ws, hspells, hws⟩ := h
  exact hspells.contains_eq_false hw fun v hv => hunused v (hws hv)

theorem worded_stmt {words : List String} {s : Stmt} (hs : s.WellNamed)
    (hws : s.spelling ⊆ words) : Worded words s.line :=
  ⟨_, Stmt.spells_line hs, hws⟩

theorem bracketedSpelling_subset (e : Expr) (least : Nat) {ws : List String}
    (h : ws ⊆ plainWords) : e.bracketedSpelling least ws ⊆ plainWords := by
  unfold Expr.bracketedSpelling
  split
  · exact List.cons_subset.mpr ⟨by decide, List.append_subset.mpr ⟨h, by decide⟩⟩
  · exact h

namespace Decisions

/-! ## Statements -/

theorem spelling_lookup (t : TextureUse) : t.lookup.spelling ⊆ plainWords := by
  unfold TextureUse.lookup
  cases t.projected <;> decide

theorem spelling_combination (t : TextureUse) :
    ∀ e ∈ t.combination, e.spelling ⊆ plainWords := by
  obtain ⟨function, rgba, projected⟩ := t
  cases function <;> cases rgba <;> cases projected <;> decide

theorem spelling_plusSecondary (d : Decisions) {e : Expr} (he : e.spelling ⊆ plainWords) :
    (d.plusSecondary e).spelling ⊆ plainWords := by
  unfold plusSecondary
  split
  · exact List.append_subset.mpr ⟨bracketedSpelling_subset e _ he, by decide⟩
  · exact he

theorem spelling_colorStage (d : Decisions) : ∀ s ∈ d.colorStage, s.spelling ⊆ plainWords := by
  have hdeclare : ∀ {name : String} {value : Expr}, name ∈ plainWords →
      value.spelling ⊆ plainWords → (Stmt.declare .vec4 name value).spelling ⊆ plainWords := by
    intro name value hname hvalue
    exact List.cons_subset.mpr ⟨by decide, List.cons_subset.mpr ⟨hname, List.cons_subset.mpr
      ⟨by decide, List.append_subset.mpr ⟨hvalue, by decide⟩⟩⟩⟩
  rw [colorStage, List.forall_mem_append]
  refine ⟨forall_mem_onlyIf (by decide) _, ?_⟩
  cases d.texture with
  | none =>
      rw [List.forall_mem_singleton]
      exact hdeclare (by decide) (d.spelling_plusSecondary (by decide))
  | some t =>
      have hvalue : (t.combination.elim (.var "p") d.plusSecondary).spelling ⊆ plainWords := by
        cases hc : t.combination with
        | none => exact show ["p"] ⊆ plainWords by decide
        | some e => exact d.spelling_plusSecondary (spelling_combination t e hc)
      simp only [List.forall_mem_cons]
      exact ⟨hdeclare (by decide) (spelling_lookup t), by decide, hdeclare (by decide) hvalue,
        by simp⟩

/-- The words of a test are those of its comparison. -/
theorem spelling_testStage (code : Option TestCode) {lhs rhs : Expr}
    (h : ∀ rel, (Stmt.discardIf (.not (.compare rel lhs rhs))).spelling ⊆ shaderWords) :
    ∀ s ∈ testStage code lhs rhs, s.spelling ⊆ shaderWords := by
  unfold testStage
  split
  · decide
  · next rel =>
      rw [List.forall_mem_singleton]
      exact h rel
  · simp

theorem spelling_alphaTestStage (d : Decisions) (p : EmitPolicy) :
    ∀ s ∈ d.alphaTestStage p, s.spelling ⊆ shaderWords := by
  refine spelling_testStage _ fun rel => ?_
  cases rel <;> cases Quantizer.ofPolicy p <;> decide

theorem spelling_colorTestStage (d : Decisions) (p : EmitPolicy) :
    ∀ s ∈ d.colorTestStage p, s.spelling ⊆ shaderWords := by
  refine spelling_testStage _ fun rel => ?_
  cases rel <;> cases Quantizer.ofPolicy p <;> decide

theorem spelling_doublingStage (d : Decisions) :
    ∀ s ∈ d.doublingStage, s.spelling ⊆ plainWords := by
  unfold doublingStage
  cases d.colorDoubling <;> cases d.alphaDoubling <;> decide

theorem spelling_outputStage (d : Decisions) : ∀ s ∈ d.outputStage, s.spelling ⊆ plainWords := by
  unfold outputStage
  cases d.fog <;> decide

theorem spelling_overlayStage (d : Decisions) :
    ∀ s ∈ d.overlayStage, s.spelling ⊆ plainWords := by
  unfold overlayStage
  cases d.texture.isSome <;> decide

theorem spelling_main (d : Decisions) (p : EmitPolicy) :
    ∀ s ∈ (d.program p).main, s.spelling ⊆ shaderWords := by
  rw [program, List.forall_mem_append, shadingStages]
  constructor
  · split
    · decide
    · simp only [List.forall_mem_append]
      have hcolor := fun s hs => subset_shaderWords (d.spelling_colorStage s hs)
      have hdoubling := fun s hs => subset_shaderWords (d.spelling_doublingStage s hs)
      have houtput := fun s hs => subset_shaderWords (d.spelling_outputStage s hs)
      exact ⟨⟨⟨⟨hcolor, d.spelling_alphaTestStage p⟩, hdoubling⟩, d.spelling_colorTestStage p⟩,
        houtput⟩
  · split
    · exact fun s hs => subset_shaderWords (d.spelling_overlayStage s hs)
    · simp

/-! ## Lines -/

theorem worded_main (d : Decisions) (p : EmitPolicy) :
    ∀ s ∈ (d.program p).main, Worded shaderWords s.line :=
  fun s hs => worded_stmt ((d.wellNamed_program p).main s hs) (d.spelling_main p s hs)

theorem worded_global {g : Global} (hname : IsName g.name) (hmem : g.name ∈ shaderWords) :
    Worded shaderWords g.withoutPrecision.line := by
  refine ⟨_, Global.spells_line (g := g.withoutPrecision) hname, ?_⟩
  have hstorage : g.storage.text ∈ shaderWords := by cases g.storage <;> decide
  have hty : g.ty.ty.text ∈ shaderWords := by cases g.ty.ty <;> decide
  exact List.cons_subset.mpr ⟨hstorage, List.cons_subset.mpr ⟨hty, List.cons_subset.mpr
    ⟨hmem, by decide⟩⟩⟩

theorem worded_globals (d : Decisions) (p : EmitPolicy) :
    ∀ g ∈ d.globals p, Worded shaderWords g.withoutPrecision.line := by
  intro g hg
  have hname := (d.names_globals p).subset (List.mem_map_of_mem hg)
  have hnames : ShaderName.globals ⊆ shaderWords := by decide
  exact worded_global (d.wellNamed_globals p g hg) (hnames hname)

theorem worded_helper (q : Quantizer) (dialect : Dialect) (ty : Ty) {name : String}
    (hname : IsName name) (hmem : name ∈ shaderWords) :
    Worded shaderWords (q.helper dialect ty name).withoutPrecision.line := by
  have hwell : (q.helper dialect ty name).withoutPrecision.WellNamed :=
    { q.wellNamed_helper dialect ty hname with }
  refine ⟨_, Helper.spells_line hwell, ?_⟩
  have hty : ty.text ∈ shaderWords := by cases ty <;> decide
  have htypes : [ty.text] ⊆ shaderWords := List.cons_subset.mpr ⟨hty, List.nil_subset _⟩
  have hparam : "x" ∈ shaderWords := by decide
  have hbody : Helper.bodySpelling { ty := ty } q.locals q.result ⊆ shaderWords := by
    cases q <;> cases ty <;> decide
  exact List.cons_subset.mpr ⟨hty, List.cons_subset.mpr ⟨hmem, List.cons_subset.mpr
    ⟨by decide, List.cons_subset.mpr ⟨by decide, List.append_subset.mpr
      ⟨htypes, List.cons_subset.mpr ⟨hparam, List.cons_subset.mpr ⟨by decide,
        List.cons_subset.mpr ⟨by decide, hbody⟩⟩⟩⟩⟩⟩⟩⟩

theorem worded_helpers (d : Decisions) (p : EmitPolicy) :
    ∀ h ∈ d.helpers p, Worded shaderWords h.withoutPrecision.line := by
  have hscalar : ∀ q : Quantizer, IsName q.scalarName ∧ q.scalarName ∈ shaderWords := by
    intro q
    cases q <;> decide
  have hvector : ∀ q : Quantizer, IsName q.vectorName ∧ q.vectorName ∈ shaderWords := by
    intro q
    cases q <;> decide
  exact forall_mem_helpers (fun q => worded_helper q _ _ (hscalar q).1 (hscalar q).2)
    fun q => worded_helper q _ _ (hvector q).1 (hvector q).2

end Decisions

end FixedFragment
