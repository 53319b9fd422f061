import FixedFragment.Proofs.ProgramReading
import FixedFragment.ShaderProgram

set_option autoImplicit false

/-!
# Reading shader texts back

All names in a shader program are names, so its text is read back as the program that was written:
`Decisions.parse_source`. What holds of the program holds of the text.
-/

namespace FixedFragment.Glsl

/-! ## Deciding that names are names -/

instance (f : Func) : Decidable f.WellNamed :=
  match f with
  | .helper name => inferInstanceAs (Decidable (IsName name))
  | .vec4 | .mix | .clamp | .floor | .fract | .texture2D | .texture2DProj => .isTrue trivial

/-- Names are checked from the leaves up. -/
def Expr.decideWellNamed : (e : Expr) → Decidable e.WellNamed
  | lit _ _ => .isTrue trivial
  | var name => inferInstanceAs (Decidable (IsName name))
  | part e _ =>
      have := e.decideWellNamed
      inferInstanceAs (Decidable (_ ∧ _))
  | not e => e.decideWellNamed
  | arith _ lhs rhs | compare _ lhs rhs =>
      have := lhs.decideWellNamed
      have := rhs.decideWellNamed
      inferInstanceAs (Decidable (_ ∧ _))
  | call1 _ a =>
      have := a.decideWellNamed
      inferInstanceAs (Decidable (_ ∧ _))
  | call2 _ a b =>
      have := a.decideWellNamed
      have := b.decideWellNamed
      inferInstanceAs (Decidable (_ ∧ _ ∧ _))
  | call3 _ a b c =>
      have := a.decideWellNamed
      have := b.decideWellNamed
      have := c.decideWellNamed
      inferInstanceAs (Decidable (_ ∧ _ ∧ _ ∧ _))
  | call4 _ a b c d =>
      have := a.decideWellNamed
      have := b.decideWellNamed
      have := c.decideWellNamed
      have := d.decideWellNamed
      inferInstanceAs (Decidable (_ ∧ _ ∧ _ ∧ _ ∧ _))

instance (e : Expr) : Decidable e.WellNamed := e.decideWellNamed

instance (s : Stmt) : Decidable s.WellNamed :=
  match s with
  | .declare .. | .assign .. | .assignPart .. | .addAssign .. =>
      inferInstanceAs (Decidable (_ ∧ _))
  | .discard => .isTrue trivial
  | .discardIf cond => inferInstanceAs (Decidable cond.WellNamed)

end FixedFragment.Glsl

namespace FixedFragment

open Glsl

/-! ## The parts of a shader program -/

theorem forall_mem_onlyIf {α : Type} {P : α → Prop} {a : α} (h : P a) (b : Bool) :
    ∀ x ∈ onlyIf b a, P x := by
  intro x hx
  cases b with
  | false => exact absurd hx List.not_mem_nil
  | true => exact List.mem_singleton.mp hx ▸ h

theorem Quantizer.wellNamed_locals (q : Quantizer) :
    ∀ l ∈ q.locals, IsName l.1 ∧ l.2.WellNamed := by
  cases q <;> decide

theorem Quantizer.wellNamed_result (q : Quantizer) : q.result.WellNamed := by
  cases q <;> decide

theorem Quantizer.wellNamed_helper (q : Quantizer) (dialect : Dialect) (ty : Ty) {name : String}
    (hname : IsName name) : (q.helper dialect ty name).WellNamed where
  name := hname
  param := show IsName "x" by decide
  locals := q.wellNamed_locals
  result := q.wellNamed_result

theorem TextureUse.wellNamed_lookup (t : TextureUse) : t.lookup.WellNamed := by
  unfold lookup
  cases t.projected <;> decide

theorem TextureUse.wellNamed_combination (t : TextureUse) :
    ∀ e ∈ t.combination, e.WellNamed := by
  obtain ⟨function, rgba, projected⟩ := t
  cases function <;> cases rgba <;> cases projected <;> decide

namespace Decisions

theorem wellNamed_globals (d : Decisions) (p : EmitPolicy) :
    ∀ g ∈ d.globals p, g.WellNamed := by
  have hname : ∀ {storage ty name}, IsName name → Global.WellNamed ⟨storage, ty, name⟩ := id
  simp only [globals, List.forall_mem_append, List.forall_mem_singleton]
  refine ⟨⟨⟨⟨⟨⟨⟨⟨?_, ?_⟩, ?_⟩, ?_⟩, ?_⟩, ?_⟩, ?_⟩, ?_⟩, ?_⟩
  -- The primary color is always declared, and the coordinate by a list of its own.
  case refine_5 => exact hname (by decide)
  case refine_9 =>
    intro g hg
    obtain ⟨t, -, rfl⟩ := List.mem_map.mp hg
    exact hname (by decide)
  all_goals exact forall_mem_onlyIf (hname (by decide)) _

/-- What holds of both helpers of every quantizer holds of the helpers of a program. -/
theorem forall_mem_helpers {P : Helper → Prop} {d : Decisions} {p : EmitPolicy}
    (hscalar : ∀ q : Quantizer, P (q.helper p.dialect .float q.scalarName))
    (hvector : ∀ q : Quantizer, P (q.helper p.dialect .vec3 q.vectorName)) :
    ∀ h ∈ d.helpers p, P h := by
  rw [helpers, List.forall_mem_append]
  exact ⟨forall_mem_onlyIf (hscalar _) _, forall_mem_onlyIf (hvector _) _⟩

theorem wellNamed_helpers (d : Decisions) (p : EmitPolicy) :
    ∀ h ∈ d.helpers p, h.WellNamed := by
  have hscalar : ∀ q : Quantizer, IsName q.scalarName := by intro q; cases q <;> decide
  have hvector : ∀ q : Quantizer, IsName q.vectorName := by intro q; cases q <;> decide
  exact forall_mem_helpers (fun q => q.wellNamed_helper _ _ (hscalar q))
    fun q => q.wellNamed_helper _ _ (hvector q)

theorem wellNamed_plusSecondary (d : Decisions) {e : Expr} (he : e.WellNamed) :
    (d.plusSecondary e).WellNamed := by
  unfold plusSecondary
  split
  · exact ⟨he, by decide⟩
  · exact he

theorem wellNamed_colorStage (d : Decisions) : ∀ s ∈ d.colorStage, s.WellNamed := by
  rw [colorStage, List.forall_mem_append]
  refine ⟨forall_mem_onlyIf (by decide) _, ?_⟩
  cases d.texture with
  | none =>
      simp only [List.forall_mem_singleton]
      exact ⟨by decide, d.wellNamed_plusSecondary (by decide)⟩
  | some t =>
      -- The reserved functions have no combination and leave the primary color.
      have hvalue : (t.combination.elim (.var "p") d.plusSecondary).WellNamed := by
        cases hc : t.combination with
        | none => exact show IsName "p" by decide
        | some e => exact d.wellNamed_plusSecondary (t.wellNamed_combination e hc)
      simp only [List.forall_mem_cons]
      exact ⟨⟨by decide, t.wellNamed_lookup⟩, by decide, ⟨by decide, hvalue⟩, by simp⟩

theorem wellNamed_testStage (code : Option TestCode) {lhs rhs : Expr} (hl : lhs.WellNamed)
    (hr : rhs.WellNamed) : ∀ s ∈ testStage code lhs rhs, s.WellNamed := by
  unfold testStage
  split
  · simp [Stmt.WellNamed]
  · simp only [List.forall_mem_singleton]
    exact ⟨hl, hr⟩
  · simp

theorem wellNamed_alphaTestStage (d : Decisions) (p : EmitPolicy) :
    ∀ s ∈ d.alphaTestStage p, s.WellNamed := by
  unfold alphaTestStage
  cases Quantizer.ofPolicy p <;> exact wellNamed_testStage _ (by decide) (by decide)

theorem wellNamed_doublingStage (d : Decisions) : ∀ s ∈ d.doublingStage, s.WellNamed := by
  unfold doublingStage
  cases d.colorDoubling <;> cases d.alphaDoubling <;> decide

theorem wellNamed_colorTestStage (d : Decisions) (p : EmitPolicy) :
    ∀ s ∈ d.colorTestStage p, s.WellNamed := by
  unfold colorTestStage
  cases Quantizer.ofPolicy p <;> exact wellNamed_testStage _ (by decide) (by decide)

theorem wellNamed_outputStage (d : Decisions) : ∀ s ∈ d.outputStage, s.WellNamed := by
  unfold outputStage
  cases d.fog <;> decide

theorem wellNamed_overlayStage (d : Decisions) : ∀ s ∈ d.overlayStage, s.WellNamed := by
  unfold overlayStage
  cases d.texture.isSome <;> decide

theorem wellNamed_shadingStages (d : Decisions) (p : EmitPolicy) :
    ∀ s ∈ d.shadingStages p, s.WellNamed := by
  unfold shadingStages
  split
  · decide
  · simp only [List.forall_mem_append]
    exact ⟨⟨⟨⟨d.wellNamed_colorStage, d.wellNamed_alphaTestStage p⟩, d.wellNamed_doublingStage⟩,
      d.wellNamed_colorTestStage p⟩, d.wellNamed_outputStage⟩

/-! ## The whole program -/

theorem wellNamed_program (d : Decisions) (p : EmitPolicy) : (d.program p).WellNamed where
  globals := d.wellNamed_globals p
  helpers := d.wellNamed_helpers p
  main := by
    rw [program, List.forall_mem_append]
    refine ⟨d.wellNamed_shadingStages p, ?_⟩
    split
    · exact d.wellNamed_overlayStage
    · simp

/-- The text of a shader is read back as its program. -/
theorem parse_source (d : Decisions) (p : EmitPolicy) :
    Program.parse (d.source p) = some (d.program p) :=
  Program.parse_text (d.wellNamed_program p)

end Decisions

end FixedFragment
