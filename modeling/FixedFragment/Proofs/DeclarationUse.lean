import FixedFragment.Proofs.ShaderTyping
import FixedFragment.Proofs.SourceKernel
import Mathlib.Data.List.Nodup

set_option autoImplicit false

/-!
# Every declaration is used

A shader text declares a global variable or a helper only if `main` mentions it, and declares it
once. Both sides are read off the text: the declarations line by line (`declaredNames`), and the
lexemes of the lines inside `main` (`mainLexemes`). This holds of the decisions for a state; other
decisions, such as clear mode with a texture, leave declarations unused. Main statement:
`PipelineState.declarations_used`.
-/

namespace FixedFragment.Glsl

/-! ## Names in a text -/

/-- The lexemes of a text, line by line. -/
def lexemeLines (text : String) : List (List String) := (splitLines text.toList).map lexemes

/-- The name that a line declares, if it is a global variable or a helper. -/
def Line.declares? : Line → Option String
  | global g => some g.name
  | helper h => some h.name
  | version _ | precision _ | main | stmt _ | close => none

/-- The global variables and helpers that a text declares, each as often as it is declared. -/
def declaredNames (text : String) : List String :=
  (lexemeLines text).filterMap fun ws => (Line.read? ws).bind Line.declares?

/-- Whether a line with the lexemes `ws` holds `l`. -/
def Line.isHeld (l : Line) (ws : List String) : Bool := Line.read? ws = some l

/-- The part of a list behind the first element that opens, up to the next that closes. -/
def between {α : Type} (opens closes : α → Bool) (as : List α) : List α :=
  (as.dropWhile fun a => !opens a).tail.takeWhile fun a => !closes a

/-- The lexemes between the line that opens `main` and the line that closes it. -/
def mainLexemes (text : String) : List String :=
  (between Line.main.isHeld Line.close.isHeld (lexemeLines text)).flatten

/-! ## Names are lexemes -/

namespace Expr

theorem mem_bracketedSpelling (e : Expr) (least : Nat) {ws : List String} {w : String}
    (h : w ∈ ws) : w ∈ e.bracketedSpelling least ws := by
  unfold bracketedSpelling
  split
  · exact List.mem_cons_of_mem _ (List.mem_append_left _ h)
  · exact h

theorem mem_argsSpelling {wss : List (List String)} {ws : List String} (hws : ws ∈ wss)
    {w : String} (h : w ∈ ws) : w ∈ argsSpelling wss := by
  induction wss with
  | nil => exact absurd hws List.not_mem_nil
  | cons vs wss ih =>
      rcases List.mem_cons.mp hws with rfl | hmem
      · cases wss with
        | nil => exact h
        | cons us wss => exact List.mem_append_left _ h
      · cases wss with
        | nil => exact absurd hmem List.not_mem_nil
        | cons us wss => exact List.mem_append_right _ (List.mem_cons_of_mem _ (ih hmem))

theorem mem_callSpelling_of_args (f : Func) {wss : List (List String)} {ws : List String}
    (hws : ws ∈ wss) {w : String} (h : w ∈ ws) : w ∈ callSpelling f wss :=
  List.mem_cons_of_mem _ (List.mem_cons_of_mem _ (List.mem_append_left _ (mem_argsSpelling hws h)))

theorem mem_callSpelling_of_func {f : Func} {w : String} (h : w ∈ f.names)
    (wss : List (List String)) : w ∈ callSpelling f wss := by
  cases f with
  | helper name =>
      obtain rfl := List.mem_singleton.mp h
      exact List.mem_cons_self
  | vec4 | mix | clamp | floor | fract | texture2D | texture2DProj =>
      exact absurd h List.not_mem_nil

/-- What an expression mentions stands in its text as a lexeme of its own. -/
theorem mem_spelling {e : Expr} {w : String} (h : w ∈ e.names) : w ∈ e.spelling := by
  induction e with
  | lit whole tenths => exact absurd h List.not_mem_nil
  | var name => exact h
  | part e sel ih => exact List.mem_append_left _ (mem_bracketedSpelling e 6 (ih h))
  | not e ih => exact List.mem_cons_of_mem _ (mem_bracketedSpelling e 5 (ih h))
  | arith op lhs rhs ihl ihr =>
      rcases List.mem_append.mp h with h | h
      · exact List.mem_append_left _ (mem_bracketedSpelling lhs _ (ihl h))
      · exact List.mem_append_right _ (List.mem_cons_of_mem _ (mem_bracketedSpelling rhs _ (ihr h)))
  | compare rel lhs rhs ihl ihr =>
      rcases List.mem_append.mp h with h | h
      · exact List.mem_append_left _ (mem_bracketedSpelling lhs _ (ihl h))
      · exact List.mem_append_right _ (List.mem_cons_of_mem _ (mem_bracketedSpelling rhs _ (ihr h)))
  | call1 f a iha =>
      rcases List.mem_append.mp h with h | h
      · exact mem_callSpelling_of_func h _
      · exact mem_callSpelling_of_args f (by simp) (iha h)
  | call2 f a b iha ihb =>
      simp only [names, List.mem_append] at h
      rcases h with h | h | h
      · exact mem_callSpelling_of_func h _
      · exact mem_callSpelling_of_args f (by simp) (iha h)
      · exact mem_callSpelling_of_args f (by simp) (ihb h)
  | call3 f a b c iha ihb ihc =>
      simp only [names, List.mem_append] at h
      rcases h with h | h | h | h
      · exact mem_callSpelling_of_func h _
      · exact mem_callSpelling_of_args f (by simp) (iha h)
      · exact mem_callSpelling_of_args f (by simp) (ihb h)
      · exact mem_callSpelling_of_args f (by simp) (ihc h)
  | call4 f a b c d iha ihb ihc ihd =>
      simp only [names, List.mem_append] at h
      rcases h with h | h | h | h | h
      · exact mem_callSpelling_of_func h _
      · exact mem_callSpelling_of_args f (by simp) (iha h)
      · exact mem_callSpelling_of_args f (by simp) (ihb h)
      · exact mem_callSpelling_of_args f (by simp) (ihc h)
      · exact mem_callSpelling_of_args f (by simp) (ihd h)

end Expr

theorem Stmt.mem_spelling {s : Stmt} {w : String} (h : w ∈ s.uses) : w ∈ s.spelling := by
  cases s with
  | declare ty name value =>
      have hvalue : w ∈ value.spelling := Expr.mem_spelling h
      simp [spelling, hvalue]
  | assign name value | assignPart name sel value | addAssign name value =>
      rcases List.mem_cons.mp h with rfl | h
      · exact List.mem_cons_self
      · have hvalue : w ∈ value.spelling := Expr.mem_spelling h
        simp [spelling, hvalue]
  | discard => exact absurd h List.not_mem_nil
  | discardIf cond =>
      have hcond : w ∈ cond.spelling := Expr.mem_spelling h
      simp [spelling, hcond]

/-- The names that statements use. -/
def usedNames (ss : List Stmt) : List String := ss.flatMap Stmt.uses

theorem usedNames_append (ss ts : List Stmt) :
    usedNames (ss ++ ts) = usedNames ss ++ usedNames ts := List.flatMap_append

theorem mem_usedNames {s : Stmt} {ss : List Stmt} (hs : s ∈ ss) {name : String}
    (h : name ∈ s.uses) : name ∈ usedNames ss :=
  List.mem_flatMap.mpr ⟨s, hs, h⟩

/-! ## The text of a program -/

namespace Program

variable {p : Program}

theorem lexemeLines_text (hp : p.WellNamed) :
    lexemeLines p.text = p.lines.map fun line => lexemes line.toList := by
  rw [lexemeLines, text, pieces, splitLines_of_readsAs (readsAs_lines hp), List.map_map]
  rfl

/-- What the lines tell is what the contents of the program tell. -/
theorem filterMap_readsAs {α : Type} {lines : List String} {ls : List Line}
    (h : List.Forall₂ ReadsAs lines ls) (f : Line → Option α) :
    (lines.map fun line => lexemes line.toList).filterMap (fun ws => (Line.read? ws).bind f)
      = ls.filterMap f := by
  induction h with
  | nil => rfl
  | @cons line l lines ls hline _ ih =>
      rw [List.map_cons, List.filterMap_cons, hline.read, Option.bind_some, ih,
        List.filterMap_cons]

theorem declaredNames_text (hp : p.WellNamed) :
    declaredNames p.text = p.globals.map Global.name ++ p.helpers.map Helper.name := by
  rw [declaredNames, lexemeLines_text hp, filterMap_readsAs (readsAs_lines hp)]
  simp [contents, Line.declares?, List.filterMap_append, List.filterMap_cons, List.filterMap_map,
    Function.comp_def]

theorem between_append {α : Type} {opens closes : α → Bool} {before inside : List α} {a b : α}
    (hbefore : ∀ c ∈ before, opens c = false) (ha : opens a = true)
    (hinside : ∀ c ∈ inside, closes c = false) (hb : closes b = true) (after : List α) :
    between opens closes (before ++ a :: (inside ++ b :: after)) = inside := by
  rw [between, List.dropWhile_append_of_pos (by simpa using hbefore),
    List.dropWhile_cons_of_neg (by simp [ha]), List.tail_cons,
    List.takeWhile_append_of_pos (by simpa using hinside),
    List.takeWhile_cons_of_neg (by simp [hb]), List.append_nil]

theorem isHeld_of_readsAs {line : String} {l : Line} (h : ReadsAs line l) (k : Line) :
    k.isHeld (lexemes line.toList) = decide (l = k) := by
  rw [Line.isHeld, h.read]
  simp only [Option.some.injEq]

/-- The lines in front of `main` do not open it. -/
theorem exists_header (hp : p.WellNamed) :
    ∃ header, p.lines = header ++ mainLine :: (p.main.map Stmt.line ++ [closeLine])
      ∧ ∀ line ∈ header, Line.main.isHeld (lexemes line.toList) = false := by
  refine ⟨versionLine p.version :: (p.precision.toList.map precisionLine
    ++ p.globals.map Global.line ++ p.helpers.map Helper.line), by simp [lines], ?_⟩
  simp only [List.forall_mem_cons, List.forall_mem_append, List.forall_mem_map]
  refine ⟨isHeld_of_readsAs (readsAs_version _) _, ⟨fun q _ => ?_, fun g hg => ?_⟩, fun h hh => ?_⟩
  · exact isHeld_of_readsAs (readsAs_precision q) _
  · exact isHeld_of_readsAs (Global.readsAs_line (hp.globals g hg)) _
  · exact isHeld_of_readsAs (Helper.readsAs_line (hp.helpers h hh)) _

theorem mainLexemes_text (hp : p.WellNamed) :
    mainLexemes p.text = p.main.flatMap Stmt.spelling := by
  obtain ⟨header, hlines, hheader⟩ := exists_header hp
  have hstmts : (p.main.map Stmt.line).map (fun line => lexemes line.toList)
      = p.main.map Stmt.spelling := by
    rw [List.map_map]
    exact List.map_congr_left fun s hs => (Stmt.spells_line (hp.main s hs)).lexemes_eq
  have hinside : ∀ ws ∈ p.main.map Stmt.spelling, Line.close.isHeld ws = false := by
    rw [← hstmts, List.forall_mem_map, List.forall_mem_map]
    exact fun s hs => isHeld_of_readsAs (Stmt.readsAs_line (hp.main s hs)) _
  rw [mainLexemes, lexemeLines_text hp, hlines, List.map_append, List.map_cons, List.map_append,
    hstmts, List.map_singleton, between_append (List.forall_mem_map.mpr hheader)
      (isHeld_of_readsAs readsAs_main _) hinside (isHeld_of_readsAs readsAs_close _)]
  rfl

end Program

end FixedFragment.Glsl

namespace FixedFragment

open Glsl

/-- The global variables that no comparison needs. -/
def ShaderName.uncompared : List String :=
  [sampler, textureEnv, primary, secondary, fogColor, fogDepth, texCoord]

/-! ## What the stages use -/

/-- What is there only under a condition has to be shown only under it. -/
theorem forall_mem_onlyIf_of {α : Type} {P : α → Prop} {b : Bool} {a : α} (h : b = true → P a) :
    ∀ x ∈ onlyIf b a, P x := by
  intro x hx
  cases b with
  | false => exact absurd hx List.not_mem_nil
  | true => exact List.mem_singleton.mp hx ▸ h rfl

namespace Decisions

variable {d : Decisions} {p : EmitPolicy}

/-- The texel is looked up in the sampler at the coordinate. -/
theorem lookup_used {t : TextureUse} (ht : d.texture = some t) :
    ∀ name ∈ [ShaderName.sampler, ShaderName.texCoord], name ∈ usedNames d.colorStage := by
  have hstmt : Stmt.declare .vec4 "t" t.lookup ∈ d.colorStage := by simp [colorStage, ht]
  have huses : (Stmt.declare .vec4 "t" t.lookup).uses
      = [ShaderName.sampler, ShaderName.texCoord] := by
    unfold TextureUse.lookup
    cases t.projected <;> rfl
  exact fun name hname => mem_usedNames hstmt (huses ▸ hname)

theorem names_plusSecondary (d : Decisions) {e : Expr} {name : String} (h : name ∈ e.names) :
    name ∈ (d.plusSecondary e).names := by
  unfold plusSecondary
  split
  · exact List.mem_append_left _ h
  · exact h

/-- Blending mixes with the environment color, with and without texel alpha. -/
theorem textureEnv_used {t : TextureUse} (ht : d.texture = some t) (hblend : t.function = .blend) :
    ShaderName.textureEnv ∈ usedNames d.colorStage := by
  obtain ⟨e, he, hname⟩ : ∃ e, t.combination = some e ∧ ShaderName.textureEnv ∈ e.names := by
    rw [TextureUse.combination, hblend]
    exact ⟨_, rfl, by decide⟩
  refine mem_usedNames (s := .declare .vec4 "v" (d.plusSecondary e)) ?_
    (d.names_plusSecondary hname)
  simp [colorStage, ht, he]

theorem primary_used (d : Decisions) : ShaderName.primary ∈ usedNames d.colorStage := by
  cases ht : d.texture with
  | none =>
      refine mem_usedNames (s := .declare .vec4 "v" (d.plusSecondary (.var ShaderName.primary))) ?_
        (d.names_plusSecondary (by decide))
      simp [colorStage, ht]
  | some t =>
      refine mem_usedNames (s := .declare .vec4 "p" (.var ShaderName.primary)) ?_ (by decide)
      simp [colorStage, ht]

theorem secondary_used (hd : d.secondaryColor = true) :
    ShaderName.secondary ∈ usedNames d.colorStage :=
  mem_usedNames (s := .declare .vec4 "s" (.call2 .vec4 (.var ShaderName.secondary) (.lit 0 0)))
    (List.mem_append_left _ (mem_onlyIf hd _)) (by decide)

theorem fog_used (hd : d.fog = true) :
    ∀ name ∈ [ShaderName.fogColor, ShaderName.fogDepth], name ∈ usedNames d.outputStage := by
  rw [outputStage, if_pos hd]
  decide

/-- A test that compares is one statement, which uses what its two sides mention. -/
theorem testStage_used {code : Option TestCode} (hcode : code.any TestCode.isCompare = true)
    (lhs rhs : Expr) : usedNames (testStage code lhs rhs) = lhs.names ++ rhs.names := by
  rcases code with - | ⟨- | rel⟩
  · cases hcode
  · cases hcode
  · exact List.append_nil _

theorem alphaTest_used (hd : d.comparesAlpha p = true) :
    ∀ name ∈ [ShaderName.reference, (Quantizer.ofPolicy p).scalarName],
      name ∈ usedNames (d.alphaTestStage p) := by
  rw [alphaTestStage, testStage_used hd]
  simp [Expr.names, Func.names]

theorem colorTest_used (hd : d.comparesColor = true) :
    ∀ name ∈ [ShaderName.reference, ShaderName.colorMask, (Quantizer.ofPolicy p).vectorName],
      name ∈ usedNames (d.colorTestStage p) := by
  rw [colorTestStage, testStage_used hd]
  simp [Expr.names, Func.names]

/-! ## Declarations are used -/

/-- Outside clear mode `main` uses what the stages use. -/
theorem mem_usedNames_main (hmode : d.clearMode = false) {ss : List Stmt}
    (hss : ss ∈ [d.colorStage, d.alphaTestStage p, d.colorTestStage p, d.outputStage])
    {name : String} (h : name ∈ usedNames ss) : name ∈ usedNames (d.program p).main := by
  rw [program, usedNames_append]
  apply List.mem_append_left
  simp only [List.mem_cons, List.not_mem_nil, or_false] at hss
  rw [shadingStages, if_neg (by simp [hmode])]
  simp only [usedNames_append, List.mem_append]
  rcases hss with rfl | rfl | rfl | rfl <;> simp only [h, true_or, or_true]

theorem globals_used (hmode : d.clearMode = false) :
    ∀ v ∈ d.globals p, v.name ∈ usedNames (d.program p).main := by
  have hcolor : ∀ name ∈ usedNames d.colorStage, name ∈ usedNames (d.program p).main :=
    fun _ => mem_usedNames_main hmode (by simp)
  have halphaTest : ∀ name ∈ usedNames (d.alphaTestStage p), name ∈ usedNames (d.program p).main :=
    fun _ => mem_usedNames_main hmode (by simp)
  have hcolorTest : ∀ name ∈ usedNames (d.colorTestStage p), name ∈ usedNames (d.program p).main :=
    fun _ => mem_usedNames_main hmode (by simp)
  have houtput : ∀ name ∈ usedNames d.outputStage, name ∈ usedNames (d.program p).main :=
    fun _ => mem_usedNames_main hmode (by simp)
  simp only [globals, List.forall_mem_append, List.forall_mem_singleton]
  refine ⟨⟨⟨⟨⟨⟨⟨⟨?sampler, ?reference⟩, ?colorMask⟩, ?textureEnv⟩, ?primary⟩, ?secondary⟩,
    ?fogColor⟩, ?fogDepth⟩, ?texCoord⟩
  case sampler =>
    refine forall_mem_onlyIf_of fun hd => ?_
    obtain ⟨t, ht⟩ := Option.isSome_iff_exists.mp hd
    exact hcolor _ (lookup_used ht _ (by simp))
  case reference =>
    refine forall_mem_onlyIf_of fun hd => ?_
    rcases Bool.or_eq_true_iff.mp hd with hd | hd
    · exact halphaTest _ (alphaTest_used hd _ List.mem_cons_self)
    · exact hcolorTest _ (colorTest_used hd _ List.mem_cons_self)
  case colorMask =>
    exact forall_mem_onlyIf_of fun hd => hcolorTest _ (colorTest_used hd _ (by simp))
  case textureEnv =>
    refine forall_mem_onlyIf_of fun hd => ?_
    obtain ⟨t, ht, hblend⟩ := (Option.any_eq_true _ _).mp hd
    exact hcolor _ (textureEnv_used ht (of_decide_eq_true hblend))
  case primary => exact hcolor _ d.primary_used
  case secondary => exact forall_mem_onlyIf_of fun hd => hcolor _ (secondary_used hd)
  case fogColor => exact forall_mem_onlyIf_of fun hd => houtput _ (fog_used hd _ (by simp))
  case fogDepth => exact forall_mem_onlyIf_of fun hd => houtput _ (fog_used hd _ (by simp))
  case texCoord =>
    intro v hv
    obtain ⟨t, ht, rfl⟩ := List.mem_map.mp hv
    exact hcolor _ (lookup_used (Option.mem_toList.mp ht) _ (by simp))

theorem helpers_used (hmode : d.clearMode = false) :
    ∀ h ∈ d.helpers p, h.name ∈ usedNames (d.program p).main := by
  have halphaTest : ∀ name ∈ usedNames (d.alphaTestStage p), name ∈ usedNames (d.program p).main :=
    fun _ => mem_usedNames_main hmode (by simp)
  have hcolorTest : ∀ name ∈ usedNames (d.colorTestStage p), name ∈ usedNames (d.program p).main :=
    fun _ => mem_usedNames_main hmode (by simp)
  rw [helpers, List.forall_mem_append]
  refine ⟨forall_mem_onlyIf_of fun hd => ?_, forall_mem_onlyIf_of fun hd => ?_⟩
  · exact halphaTest _ (alphaTest_used hd _ (by simp [Quantizer.helper]))
  · exact hcolorTest _ (colorTest_used hd _ (by simp [Quantizer.helper]))

/-- The names that a program declares, in order. -/
def declared (d : Decisions) (p : EmitPolicy) : List String :=
  (d.globals p).map Global.name ++ (d.helpers p).map Helper.name

theorem declaredNames_source (d : Decisions) (p : EmitPolicy) :
    declaredNames (d.source p) = d.declared p :=
  Program.declaredNames_text (d.wellNamed_program p)

theorem nodup_declared (d : Decisions) (p : EmitPolicy) : (d.declared p).Nodup := by
  refine ((d.names_globals p).append (d.names_helpers p)).nodup ?_
  cases Quantizer.ofPolicy p <;> decide

/-- In clear mode the primary color is all that is declared, since all else is off. -/
theorem declared_of_clear (hd : d.Settled) (hclear : d.clearMode = true) :
    d.declared p = [ShaderName.primary] := by
  rw [hd.clear hclear]
  rfl

theorem declared_used (hd : d.Settled) : ∀ name ∈ d.declared p,
    name ∈ usedNames (d.program p).main := by
  cases hmode : d.clearMode with
  | true =>
      rw [declared_of_clear hd hmode, List.forall_mem_singleton, program, usedNames_append,
        shadingStages, if_pos hmode]
      exact List.mem_append_left _ (by decide)
  | false =>
      rw [declared, List.forall_mem_append, List.forall_mem_map, List.forall_mem_map]
      exact ⟨globals_used hmode, helpers_used hmode⟩

/-- Where neither test compares, the reference, the mask and the helpers are left out. -/
theorem declared_of_uncompared (halpha : d.comparesAlpha p = false)
    (hcolor : d.comparesColor = false) : ∀ name ∈ d.declared p, name ∈ ShaderName.uncompared := by
  have hcoord : ∀ v ∈ d.texture.toList.map fun t =>
      (⟨.varying, { ty := if t.projected then .vec3 else .vec2 }, ShaderName.texCoord⟩ : Global),
      v.name ∈ ShaderName.uncompared := by
    rw [List.forall_mem_map]
    exact fun t _ => show ShaderName.texCoord ∈ ShaderName.uncompared by decide
  have hname : ∀ {storage ty name} (b : Bool), name ∈ ShaderName.uncompared →
      ∀ v ∈ onlyIf b (⟨storage, ty, name⟩ : Global), v.name ∈ ShaderName.uncompared :=
    fun b h => forall_mem_onlyIf (P := fun v : Global => v.name ∈ ShaderName.uncompared) h b
  have hhelpers : d.helpers p = [] := by rw [helpers, halpha, hcolor]; rfl
  rw [declared, hhelpers, List.map_nil, List.append_nil, List.forall_mem_map]
  simp only [globals, halpha, hcolor, Bool.or_self, List.forall_mem_append,
    List.forall_mem_singleton]
  have hnone : ∀ {v : Global}, ∀ w ∈ onlyIf false v, w.name ∈ ShaderName.uncompared :=
    fun _ h => absurd h List.not_mem_nil
  exact ⟨⟨⟨⟨⟨⟨⟨⟨hname _ (by decide), hnone⟩, hnone⟩, hname _ (by decide)⟩, by decide⟩,
    hname _ (by decide)⟩, hname _ (by decide)⟩, hname _ (by decide)⟩, hcoord⟩

end Decisions

namespace PipelineState

/-- **No orphans.** Every global variable and every helper that the shader text of a state declares
is declared once, and is a lexeme of the lines inside `main`. So clear mode declares the primary
color alone, and where neither test compares, because it is dropped, discards all or is skipped by
the policy, there is no reference, no mask and no helper. -/
theorem declarations_used (s : PipelineState) (p : EmitPolicy) :
    (∃ prog, Program.parse (s.source p) = some prog
      ∧ declaredNames (s.source p) = prog.globals.map Global.name ++ prog.helpers.map Helper.name)
    ∧ (∀ name ∈ declaredNames (s.source p),
        (declaredNames (s.source p)).count name = 1 ∧ name ∈ mainLexemes (s.source p))
    ∧ (s.clearMode = true → declaredNames (s.source p) = [ShaderName.primary])
    ∧ ((Decisions.ofState s).comparesAlpha p = false →
        (Decisions.ofState s).comparesColor = false →
        ∀ name ∈ declaredNames (s.source p), name ∈ ShaderName.uncompared) := by
  have hd := Decisions.settled_ofState s
  have hdeclared : declaredNames (s.source p) = (Decisions.ofState s).declared p :=
    Decisions.declaredNames_source _ p
  have hmain : mainLexemes (s.source p)
      = ((Decisions.ofState s).program p).main.flatMap Stmt.spelling :=
    Program.mainLexemes_text (Decisions.wellNamed_program _ p)
  rw [hdeclared, hmain]
  refine ⟨⟨_, Decisions.parse_source _ p, rfl⟩, fun name hname => ⟨?_, ?_⟩, fun hclear => ?_,
    Decisions.declared_of_uncompared⟩
  · exact List.count_eq_one_of_mem (Decisions.nodup_declared _ p) hname
  · obtain ⟨stmt, hstmt, huses⟩ := List.mem_flatMap.mp (Decisions.declared_used hd name hname)
    exact List.mem_flatMap.mpr ⟨stmt, hstmt, Stmt.mem_spelling huses⟩
  · exact Decisions.declared_of_clear hd (by rw [Decisions.clearMode_ofState, hclear])

/-- The driver skips the one comparison of this state, so that its reference and its helper are not
declared; the environment color is, once, and is used. -/
theorem declarations_used_skipped :
    let s : PipelineState :=
      { textureEnabled := true, textureFunction := .blend
        alphaTest := { enabled := true, func := .notEqual, reference := 1 } }
    let text := s.source (.forTarget .glslEs100 .powerVr)
    (Decisions.ofState s).alphaTest = some .notEqual
      ∧ ShaderName.textureEnv ∈ declaredNames text
      ∧ (declaredNames text).count ShaderName.textureEnv = 1
      ∧ ShaderName.textureEnv ∈ mainLexemes text
      ∧ ShaderName.reference ∉ declaredNames text := by
  intro s text
  obtain ⟨-, hused, -, huncompared⟩ :=
    declarations_used s (.forTarget .glslEs100 .powerVr)
  have hmem : ShaderName.textureEnv ∈ declaredNames text := by
    rw [show declaredNames text = _ from Decisions.declaredNames_source _ _]
    decide
  refine ⟨by decide, hmem, (hused _ hmem).1, (hused _ hmem).2, fun h => ?_⟩
  exact absurd (huncompared (by decide) (by decide) _ h) (by decide)

end PipelineState

end FixedFragment
