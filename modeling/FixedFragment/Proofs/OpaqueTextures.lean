import FixedFragment.Proofs.ShaderMeaning

set_option autoImplicit false

/-!
# Textures without alpha bits

Where every texel has alpha 1, all texture functions but `replace` combine alike with and without
texel alpha (`TextureUse.combine_withRgba`). The decisions for a texture without alpha bits leave
texel alpha out for exactly these functions, and the shader does the same to every fragment as the
one for a texture with alpha bits. Main statement: `fullAlpha_agrees`.
-/

namespace FixedFragment

open Glsl

/-! ## Combinations with an opaque texel -/

theorem Rgb.mix_grey_one (c d : Rgb) : c.mix d (.grey 1) = d := by
  obtain ⟨r, g, b⟩ := c
  obtain ⟨r', g', b'⟩ := d
  simp [mix, grey]

/-- Texel alpha 1 makes no difference but to the function that takes alpha from the texel alone. -/
theorem TextureUse.combine_withRgba {t : TextureUse} (ht : t.function ≠ .replace) (rgba : Bool)
    (env : Rgb) (primary : Rgba) {texel : Rgba} (halpha1 : texel.a = 1) :
    ({ t with rgba := rgba } : TextureUse).combine env primary texel
      = t.combine env primary texel := by
  have hproduct : primary.a * texel.a = primary.a := by rw [halpha1, mul_one]
  have hmix : primary.rgb.mix texel.rgb (.grey texel.a) = texel.rgb := by
    rw [halpha1, Rgb.mix_grey_one]
  unfold combine
  cases hf : t.function with
  | replace => exact absurd hf ht
  | modulate | decal | add => simp only [hproduct, hmix, ite_self]
  | blend | reserved5 | reserved6 | reserved7 => rfl

namespace Decisions

variable {d : Decisions} {t : TextureUse}

/-- The decisions `d` with the texture use `t`, with or without texel alpha. -/
def withRgba (d : Decisions) (t : TextureUse) (rgba : Bool) : Decisions :=
  { d with texture := some { t with rgba := rgba } }

theorem workingColor_withRgba (hd : d.texture = some t) (ht : t.function ≠ .replace) (rgba : Bool)
    (u : Uniforms) {x : Fragment} (halpha1 : x.texel.a = 1) :
    (d.withRgba t rgba).workingColor u x = d.workingColor u x := by
  have hcombine := TextureUse.combine_withRgba ht rgba u.textureEnv x.primary halpha1
  simp only [workingColor, withRgba, hd, hcombine]
  rfl

/-- Tests, doubling and fog see the same color. -/
theorem shade_withRgba (hd : d.texture = some t) (ht : t.function ≠ .replace) (rgba : Bool)
    (keeps : CompareFunc → Bool) (u : Uniforms) {x : Fragment} (halpha1 : x.texel.a = 1) :
    (d.withRgba t rgba).shade keeps u x = d.shade keeps u x := by
  unfold shade
  rw [workingColor_withRgba hd ht rgba u halpha1]
  rfl

theorem fragment_withRgba (hd : d.texture = some t) (rgba : Bool) (x : ShaderInput) :
    x.fragment (d.withRgba t rgba) = x.fragment d := by
  rw [ShaderInput.fragment, ShaderInput.fragment, hd]
  rfl

theorem globals_withRgba (hd : d.texture = some t) (rgba : Bool) (x : ShaderInput)
    (u : Uniforms) : x.globals u (d.withRgba t rgba) = x.globals u d := by
  rw [ShaderInput.globals, ShaderInput.globals, ShaderInput.coordValue, ShaderInput.coordValue, hd]
  rfl

theorem shown_withRgba (hd : d.texture = some t) (ht : t.function ≠ .replace) (rgba : Bool)
    (p : EmitPolicy) (u : Uniforms) {x : ShaderInput} (halpha1 : (x.fragment d).texel.a = 1) :
    (d.withRgba t rgba).shown p u x = d.shown p u x := by
  have hpicture : (d.withRgba t rgba).picture x = d.picture x := by
    rw [picture, picture, hd]
    rfl
  rw [shown, shown, fragment_withRgba hd, shade_withRgba hd ht rgba _ u halpha1, hpicture]

/-! ## Decisions for a texture without alpha bits -/

/-- With alpha bits, texel alpha takes part wherever the state and the function ask for it. -/
theorem ofState_alphaBits (s : PipelineState) :
    ofState { s with textureFullAlpha := false }
      = { ofState s with
          texture := (ofState s).texture.map fun t =>
            { t with rgba := s.textureAlphaUsed && !t.function.isReserved } } := by
  have huse : ({ s with textureFullAlpha := false } : PipelineState).textureUse
      = { s.textureUse with rgba := s.textureAlphaUsed && !s.textureFunction.isReserved } := by
    simp [PipelineState.textureUse]
  unfold ofState
  rw [huse]
  cases s.clearMode with
  | true => rfl
  | false => cases s.textureEnabled <;> rfl

/-- Without alpha bits, texel alpha takes part in `replace` alone. -/
theorem rgba_of_fullAlpha {s : PipelineState} (hs : s.textureFullAlpha = true) {t : TextureUse}
    (ht : (ofState s).texture = some t) :
    t.rgba = (s.textureAlphaUsed && t.function = .replace && !t.function.isReserved) := by
  unfold ofState at ht
  split at ht
  · cases ht
  · simp only [Option.ite_none_right_eq_some, Option.some.injEq] at ht
    obtain ⟨-, rfl⟩ := ht
    simp [PipelineState.textureUse, hs]

/-- Taking the alpha bits away leaves the decisions, or leaves texel alpha out of a combination. -/
theorem ofState_fullAlpha {s : PipelineState} (hs : s.textureFullAlpha = true) :
    ofState { s with textureFullAlpha := false } = ofState s
      ∨ ∃ t, (ofState s).texture = some t ∧ t.function ≠ .replace ∧ t.rgba = false
        ∧ ofState { s with textureFullAlpha := false } = (ofState s).withRgba t true := by
  rw [ofState_alphaBits]
  cases ht : (ofState s).texture with
  | none =>
      left
      rw [Option.map_none, ← ht]
  | some t =>
      have hrgba := rgba_of_fullAlpha hs ht
      by_cases hsame : (s.textureAlphaUsed && !t.function.isReserved) = t.rgba
      · left
        rw [Option.map_some, hsame, ← ht]
      · right
        have hreplace : t.function ≠ .replace := fun h => hsame (by rw [hrgba]; simp [h])
        have hoff : t.rgba = false := by rw [hrgba]; simp [hreplace]
        rw [hoff, Bool.not_eq_false] at hsame
        refine ⟨t, rfl, hreplace, hoff, ?_⟩
        rw [Option.map_some, hsame]
        rfl

end Decisions

namespace PipelineState

/-- **Textures without alpha bits.** The shader for a state whose texture has no alpha bits and the
one for the same state with alpha bits do the same to every fragment whose texel has alpha 1: both
discard it, or both give it the same color. Where the texts differ, the decisions differ in nothing
but texel alpha, which is left out of the combination. -/
theorem fullAlpha_agrees (s : PipelineState) (hs : s.textureFullAlpha = true) (p : EmitPolicy) :
    let s' : PipelineState := { s with textureFullAlpha := false }
    let d := Decisions.ofState s
    (∃ program program', Program.parse (s.source p) = some program
      ∧ Program.parse (s'.source p) = some program'
      ∧ ∀ x : ShaderInput, (x.fragment d).texel.a = 1 →
          ∃ color, program.run (x.globals (Uniforms.ofState s) d) = Decisions.drawn color
            ∧ program'.run (x.globals (Uniforms.ofState s) d) = Decisions.drawn color)
    ∧ (s.source p ≠ s'.source p → ∃ t, d.texture = some t ∧ t.rgba = false
        ∧ Decisions.ofState s' = { d with texture := some { t with rgba := true } }) := by
  intro s' d
  have hdecisions : Decisions.ofState s' = d ∨ _ := Decisions.ofState_fullAlpha hs
  refine ⟨⟨d.program p, (Decisions.ofState s').program p, d.parse_source p,
    (Decisions.ofState s').parse_source p, fun x halpha1 => ?_⟩, fun hdiffer => ?_⟩
  · have hrun := d.run_eq_drawn_shown p (Uniforms.ofState s) x
    refine ⟨_, hrun, ?_⟩
    obtain hsame | ⟨t, ht, hreplace, -, hrgba⟩ := hdecisions
    · rw [hsame]
      exact hrun
    · have hrun' := (d.withRgba t true).run_eq_drawn_shown p (Uniforms.ofState s) x
      rw [ShaderInput.run, Decisions.globals_withRgba ht,
        Decisions.shown_withRgba ht hreplace true p _ halpha1] at hrun'
      rw [hrgba]
      exact hrun'
  · obtain hsame | ⟨t, ht, -, hoff, hrgba⟩ := hdecisions
    · exact absurd (by rw [source, source, hsame]) hdiffer
    · exact ⟨t, ht, hoff, hrgba⟩

/-- The texel replaces the color of the fragment with and without a mixture at weight 1; the alpha
test and the second color see no difference. -/
theorem fullAlpha_agrees_decal :
    let s : PipelineState :=
      { textureEnabled := true, textureFunction := .decal, textureAlphaUsed := true
        textureFullAlpha := true, lightingEnabled := true, secondaryColor := true
        alphaTest := { enabled := true, func := .less, reference := 200 } }
    let s' : PipelineState := { s with textureFullAlpha := false }
    let x : ShaderInput :=
      { primary := ⟨⟨1, 1, 1⟩, 1 / 2⟩, secondary := ⟨1 / 4, 0, 0⟩, fogDepth := 0
        coord := (0, 1 / 3, 1), texture := fun s t => ⟨⟨s, t, 1⟩, 1⟩ }
    let d := Decisions.ofState s
    s.textureFullAlpha = true ∧ (x.fragment d).texel.a = 1
      ∧ s.source .embedded ≠ s'.source .embedded
      ∧ Decisions.ofState s' = { d with texture := some ⟨.decal, true, false⟩ }
      ∧ ∃ program program', Program.parse (s.source .embedded) = some program
        ∧ Program.parse (s'.source .embedded) = some program'
        ∧ program.run (x.globals (Uniforms.ofState s) d) = .done ⟨⟨1 / 4, 1 / 3, 1⟩, 1 / 2⟩
        ∧ program'.run (x.globals (Uniforms.ofState s) d) = .done ⟨⟨1 / 4, 1 / 3, 1⟩, 1 / 2⟩ := by
  intro s s' x d
  have hdiffer : s.source .embedded ≠ s'.source .embedded := by decide +kernel
  have halpha1 : (x.fragment d).texel.a = 1 := rfl
  obtain ⟨⟨program, program', hparse, hparse', hruns⟩, hdecisions⟩ :=
    fullAlpha_agrees s rfl .embedded
  obtain ⟨color, hrun, hrun'⟩ := hruns x halpha1
  have hprogram : program = d.program .embedded :=
    Option.some.inj (hparse.symm.trans (d.parse_source .embedded))
  have hcolor : program.run (x.globals (Uniforms.ofState s) d)
      = .done ⟨⟨1 / 4, 1 / 3, 1⟩, 1 / 2⟩ := by
    rw [hprogram]
    refine (d.run_eq_drawn_shown .embedded (Uniforms.ofState s) x).trans ?_
    exact congrArg Decisions.drawn
      (show _ = some (⟨⟨1 / 4, 1 / 3, 1⟩, 1 / 2⟩ : Rgba) by decide +kernel)
  obtain ⟨t, ht, -, hrgba⟩ := hdecisions hdiffer
  obtain rfl : _ = t := Option.some.inj ht
  exact ⟨rfl, halpha1, hdiffer, hrgba, program, program', hparse, hparse', hcolor,
    (hrun'.trans hrun.symm).trans hcolor⟩

end PipelineState

end FixedFragment
