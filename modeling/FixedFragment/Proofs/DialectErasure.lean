import FixedFragment.Glsl.Evaluation
import FixedFragment.Proofs.ShaderWords

set_option autoImplicit false

/-!
# One program in two dialects

The dialects differ in the lines in front and in the precision that declarations ask for. Erasing
the word for the precision turns the text in the embedded dialect into the text in the desktop
dialect, and both programs run alike: `Decisions.dialects_agree`.
-/

namespace FixedFragment.Glsl

open Text

/-! ## Programs without precisions -/

namespace Program

/-- The program without a default precision and without precisions in its declarations. -/
def withoutPrecisions (p : Program) : Program :=
  { p with
    precision := none
    globals := p.globals.map Global.withoutPrecision
    helpers := p.helpers.map Helper.withoutPrecision }

theorem applyHelper_withoutPrecision (hs : List Helper) :
    applyHelper (hs.map Helper.withoutPrecision) = applyHelper hs := by
  funext name v
  rw [applyHelper, applyHelper, List.find?_map, Option.bind_map]
  rfl

/-- Precisions take no part in a run. -/
theorem run_withoutPrecisions (p : Program) (g : Env) : p.withoutPrecisions.run g = p.run g := by
  rw [run, run, withoutPrecisions, applyHelper_withoutPrecision]

end Program

/-! ## Erasing the precision from a line -/

theorem mediump_ne_empty : "mediump " ≠ "" := by decide

/-- The text has no precision to erase, nor does it end inside of one. -/
def Unmarked (s : String) : Prop :=
  ¬"mediump ".toList <:+: s.toList
    ∧ s.toList.getLast?.all (· ∉ "mediump ".toList.dropLast) = true

instance (s : String) : Decidable (Unmarked s) := inferInstanceAs (Decidable (_ ∧ _))

theorem Unmarked.becomes {s : String} (h : Unmarked s) : Becomes "mediump " "" s s :=
  becomes_of_contains_eq_false mediump_ne_empty (String.contains_string_eq_false_iff.mpr h.1) h.2

/-- A raised precision is erased together with the blank behind it. -/
theorem QualifiedTy.becomes_text {q : QualifiedTy} (h : q.precision ≠ some .lowp) :
    Becomes "mediump " "" q.text q.ty.text := by
  -- No type ends in a letter that the word for the precision goes on from.
  have hty : Becomes "mediump " "" q.ty.text q.ty.text := by
    refine Unmarked.becomes ?_
    cases q.ty <;> decide +kernel
  obtain ⟨precision, ty⟩ := q
  match precision with
  | none => exact hty
  | some .lowp => exact absurd rfl h
  | some .mediump =>
      have hprecision : Becomes "mediump " "" "mediump " "" := becomes_self mediump_ne_empty ""
      have htext := hprecision.append hty
      rwa [String.empty_append] at htext

theorem Global.replace_line {g : Global} (hty : g.ty.precision ≠ some .lowp)
    (hname : Unmarked (" " ++ g.name ++ ";")) :
    g.line.replace "mediump " "" = g.withoutPrecision.line := by
  have hstorage : Unmarked (g.storage.text ++ " ") := by cases g.storage <;> decide +kernel
  have hline := (hstorage.becomes.append (QualifiedTy.becomes_text hty)).append hname.becomes
  rw [line, line, withoutPrecision, QualifiedTy.withoutPrecision]
  simp only [String.append_assoc] at hline ⊢
  exact hline.replace_eq mediump_ne_empty

theorem Helper.replace_line {h : Helper} (hty : h.ty.precision ≠ some .lowp)
    (hname : Unmarked (" " ++ h.name ++ "(in ")) (hparam : Unmarked (" " ++ h.param ++ ") \x7b "))
    (hlocals : ∀ l ∈ h.locals, Unmarked (" " ++ l.1 ++ " = " ++ l.2.text ++ "; "))
    (hresult : Unmarked ("return " ++ h.result.text ++ "; \x7d")) :
    h.line.replace "mediump " "" = h.withoutPrecision.line := by
  have htype := QualifiedTy.becomes_text hty
  have hlocal : ∀ l ∈ h.locals,
      Becomes "mediump " "" (h.localText l) (h.withoutPrecision.localText l) := by
    intro l hl
    have hl' := htype.append (hlocals l hl).becomes
    simp only [← String.append_assoc] at hl'
    exact hl'
  have hline := ((((htype.append hname.becomes).append htype).append hparam.becomes).append
    (becomes_join hlocal)).append hresult.becomes
  rw [line, line]
  simp only [String.append_assoc] at hline ⊢
  exact hline.replace_eq mediump_ne_empty

end FixedFragment.Glsl

namespace FixedFragment

open Glsl Text

namespace Decisions

/-! ## Shader programs -/

theorem precision_globals (d : Decisions) (p : EmitPolicy) :
    ∀ g ∈ d.globals p, g.ty.precision ≠ some .lowp := by
  have hraised : p.dialect.raisedPrecision ≠ some .lowp := by cases p.dialect <;> decide
  have hdeclared : ∀ {b : Bool} {g : Global}, g.ty.precision ≠ some .lowp →
      ∀ g' ∈ onlyIf b g, g'.ty.precision ≠ some .lowp :=
    fun {b _} hg => forall_mem_onlyIf (P := fun g : Global => g.ty.precision ≠ some .lowp) hg b
  have hnone : (none : Option Precision) ≠ some .lowp := by decide
  simp only [globals, List.forall_mem_append, List.forall_mem_singleton]
  refine ⟨⟨⟨⟨⟨⟨⟨⟨hdeclared hnone, hdeclared hraised⟩, hdeclared hnone⟩, hdeclared hnone⟩, hnone⟩,
    hdeclared hnone⟩, hdeclared hnone⟩, hdeclared hraised⟩, fun g hg => ?_⟩
  obtain ⟨t, -, rfl⟩ := List.mem_map.mp hg
  exact hnone

theorem replace_globals (d : Decisions) (p : EmitPolicy) :
    ∀ g ∈ d.globals p, g.line.replace "mediump " "" = g.withoutPrecision.line := by
  have hnames : ∀ name ∈ ShaderName.globals, Unmarked (" " ++ name ++ ";") := by decide +kernel
  exact fun g hg => Global.replace_line (d.precision_globals p g hg)
    (hnames _ ((d.names_globals p).subset (List.mem_map_of_mem hg)))

theorem replace_helper (q : Quantizer) (dialect : Dialect) (ty : Ty) {name : String}
    (hname : Unmarked (" " ++ name ++ "(in ")) :
    (q.helper dialect ty name).line.replace "mediump " ""
      = (q.helper dialect ty name).withoutPrecision.line := by
  have hraised : dialect.raisedPrecision ≠ some .lowp := by cases dialect <;> decide
  have hparam : Unmarked (" " ++ "x" ++ ") \x7b ") := by decide +kernel
  have hlocals : ∀ l ∈ q.locals, Unmarked (" " ++ l.1 ++ " = " ++ l.2.text ++ "; ") := by
    cases q <;> decide +kernel
  have hresult : Unmarked ("return " ++ q.result.text ++ "; \x7d") := by
    cases q <;> decide +kernel
  exact Helper.replace_line hraised hname hparam hlocals hresult

theorem replace_helpers (d : Decisions) (p : EmitPolicy) :
    ∀ h ∈ d.helpers p, h.line.replace "mediump " "" = h.withoutPrecision.line := by
  have hscalar : ∀ q : Quantizer, Unmarked (" " ++ q.scalarName ++ "(in ") := by
    intro q
    cases q <;> decide +kernel
  have hvector : ∀ q : Quantizer, Unmarked (" " ++ q.vectorName ++ "(in ") := by
    intro q
    cases q <;> decide +kernel
  exact forall_mem_helpers (fun q => replace_helper q _ _ (hscalar q))
    fun q => replace_helper q _ _ (hvector q)

theorem replace_main (d : Decisions) (p : EmitPolicy) :
    ∀ s ∈ (d.program p).main, s.line.replace "mediump " "" = s.line := by
  intro s hs
  have hfree : s.line.contains "mediump" = false :=
    (d.worded_main p s hs).contains_eq_false (by decide) (by decide +kernel)
  exact replace_eq_self mediump_ne_empty "" (contains_eq_false_of_part (by decide +kernel) hfree)

/-- The program in the desktop dialect is the one in the embedded dialect without precisions. -/
theorem program_desktop (d : Decisions) (w : Workarounds) (overlay : Bool) :
    d.program ⟨.glsl110, w, overlay⟩
      = { (d.program ⟨.glslEs100, w, overlay⟩).withoutPrecisions with version := 110 } := by
  have hglobals : d.globals ⟨.glsl110, w, overlay⟩
      = (d.globals ⟨.glslEs100, w, overlay⟩).map Global.withoutPrecision := by
    simp only [globals, List.map_append, map_onlyIf, List.map_map]
    rfl
  have hhelpers : d.helpers ⟨.glsl110, w, overlay⟩
      = (d.helpers ⟨.glslEs100, w, overlay⟩).map Helper.withoutPrecision := by
    simp only [helpers, List.map_append, map_onlyIf]
    rfl
  rw [program, hglobals, hhelpers]
  rfl

theorem replace_frame : ∀ l ∈ [mainLine, closeLine], l.replace "mediump " "" = l := by
  have hfree : ∀ l ∈ [mainLine, closeLine], ¬"mediump ".toList <:+: l.toList := by decide +kernel
  exact fun l hl => replace_eq_self mediump_ne_empty ""
    (String.contains_string_eq_false_iff.mpr (hfree l hl))

/-- Line by line, the text in the desktop dialect is the other one with the precision erased. -/
theorem bodyLines_desktop (d : Decisions) (w : Workarounds) (overlay : Bool) :
    (d.program ⟨.glsl110, w, overlay⟩).bodyLines
      = (d.program ⟨.glslEs100, w, overlay⟩).bodyLines.map (·.replace "mediump " "") := by
  have hglobals := List.map_congr_left (d.replace_globals ⟨.glslEs100, w, overlay⟩)
  have hhelpers := List.map_congr_left (d.replace_helpers ⟨.glslEs100, w, overlay⟩)
  have hmain := List.map_congr_left (d.replace_main ⟨.glslEs100, w, overlay⟩)
  rw [program_desktop]
  simp only [Program.bodyLines, Program.mainLines, Program.withoutPrecisions, List.map_append,
    List.map_cons, List.map_nil, List.map_map, replace_frame mainLine (by decide),
    replace_frame closeLine (by decide)]
  exact congrArg₂ _ (congrArg₂ _ hglobals.symm hhelpers.symm)
    (congrArg (mainLine :: · ++ [closeLine]) hmain.symm)

/-- A word that no line is written with is not in the text in the desktop dialect. -/
theorem contains_desktop (d : Decisions) (w : Workarounds) (overlay : Bool) {word : String}
    (hword : IsWord word) (hunused : ∀ v ∈ shaderWords, ¬word.toList <:+: v.toList)
    (hframe : ∀ l ∈ [versionLine 110, mainLine, closeLine], ¬word.toList <:+: l.toList) :
    (d.source ⟨.glsl110, w, overlay⟩).contains word = false := by
  have hline : '\n' ∉ word.toList := fun hmem => absurd (hword.2 _ hmem) (by decide)
  have hne : word ≠ "" := mt String.toList_eq_nil_iff.mpr hword.1
  have hfixed : ∀ l ∈ [versionLine 110, mainLine, closeLine], l.contains word = false :=
    fun l hl => String.contains_string_eq_false_iff.mpr (hframe l hl)
  rw [source, program_desktop]
  refine contains_joinLines hne hline ?_
  simp only [Program.lines, Program.withoutPrecisions, Option.toList_none, List.map_nil,
    List.nil_append, List.map_map, List.forall_mem_cons, List.forall_mem_append,
    List.forall_mem_map]
  refine ⟨hfixed _ (by decide), ⟨fun g hg => ?_, fun h hh => ?_⟩, hfixed _ (by decide),
    fun s hs => ?_, hfixed _ (by decide), fun l hl => absurd hl List.not_mem_nil⟩
  · exact (d.worded_globals _ g hg).contains_eq_false hword hunused
  · exact (d.worded_helpers _ h hh).contains_eq_false hword hunused
  · exact (d.worded_main _ s hs).contains_eq_false hword hunused

/-- The texts in the two dialects differ in the lines in front and in the precision, which the
desktop dialect leaves out wherever the embedded one raises it. The programs have the same
declarations up to precisions and the same `main`, and run alike. -/
theorem dialects_agree (d : Decisions) (w : Workarounds) (overlay : Bool) :
    let embedded : EmitPolicy := ⟨.glslEs100, w, overlay⟩
    let desktop : EmitPolicy := ⟨.glsl110, w, overlay⟩
    (∃ body, d.source embedded = "#version 100\nprecision lowp float;\n" ++ body
        ∧ d.source desktop = "#version 110\n" ++ body.replace "mediump " "")
      ∧ (d.source desktop).contains "mediump" = false
      ∧ (d.source desktop).contains "precision" = false
      ∧ ∃ e f, Program.parse (d.source embedded) = some e
        ∧ Program.parse (d.source desktop) = some f
        ∧ f.globals = e.globals.map Global.withoutPrecision
        ∧ f.helpers = e.helpers.map Helper.withoutPrecision
        ∧ f.main = e.main
        ∧ ∀ g, f.run g = e.run g := by
  intro embedded desktop
  have hprogram := d.program_desktop w overlay
  have hbody := d.bodyLines_desktop w overlay
  refine ⟨⟨joinLines (d.program embedded).bodyLines, ?_, ?_⟩, ?_, ?_,
    d.program embedded, d.program desktop, d.parse_source _, d.parse_source _, ?_, ?_, ?_, ?_⟩
  · have hhead : joinLines (d.program embedded).headLines
        = "#version 100\nprecision lowp float;\n" :=
      show joinLines [versionLine 100, precisionLine .lowp] = _ by decide +kernel
    exact hhead ▸ (d.program embedded).text_eq_joinLines
  · have hhead : joinLines (d.program desktop).headLines = "#version 110\n" :=
      show joinLines [versionLine 110] = _ by decide +kernel
    rw [replace_joinLines mediump_ne_empty (by decide), ← hbody]
    exact hhead ▸ (d.program desktop).text_eq_joinLines
  · exact d.contains_desktop w overlay (by decide) (by decide +kernel) (by decide +kernel)
  · exact d.contains_desktop w overlay (by decide) (by decide +kernel) (by decide +kernel)
  · rw [hprogram]
    rfl
  · rw [hprogram]
    rfl
  · rw [hprogram]
    rfl
  · intro g
    rw [hprogram]
    exact (d.program embedded).run_withoutPrecisions g

end Decisions

end FixedFragment
