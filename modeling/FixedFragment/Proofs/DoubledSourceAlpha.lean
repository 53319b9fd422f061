import Mathlib.Tactic.NormNum
import FixedFragment.Proofs.DroppedAlphaTest
import FixedFragment.Shading

set_option autoImplicit false

/-!
# Source alpha that is doubled in the shader

Where one blend factor is twice the source alpha, the shader may double alpha and blending use it
once. The color stays the same as long as the other factor does not read alpha, since that one
would see it doubled. The choice rules out two of the three factors that read it and lets twice
its inverse pass. Main statement: `alphaDoubling_blends_alike_iff`.
-/

namespace FixedFragment

/-! ## Blending with doubled alpha -/

/-- The fragment behind the doubling stage. -/
def BlendInput.doubleAlpha (x : BlendInput) : BlendInput :=
  { x with source := ({ alphaDoubling := true } : Decisions).doubled x.source }

/-- The factor that goes with doubled alpha. -/
def BlendSrcFactor.undoubled (f : BlendSrcFactor) : BlendSrcFactor :=
  if f = .doubleSrcAlpha then .srcAlpha else f

/-- The factor that goes with doubled alpha. -/
def BlendDstFactor.undoubled (f : BlendDstFactor) : BlendDstFactor :=
  if f = .doubleSrcAlpha then .srcAlpha else f

/-- Blending as it is set up for a shader that doubles alpha. -/
def Blend.undoubled (b : Blend) : Blend :=
  { b with src := b.src.undoubled, dst := b.dst.undoubled }

/-- Neither factor reads alpha otherwise than as twice the source alpha. -/
def Blend.ReadsAlphaDoubled (b : Blend) : Prop :=
  b.src ∉ [.srcAlpha, .invSrcAlpha, .doubleInvSrcAlpha]
    ∧ b.dst ∉ [.srcAlpha, .invSrcAlpha, .doubleInvSrcAlpha]

theorem BlendSrcFactor.value_undoubled {f : BlendSrcFactor}
    (h : f ∉ [.srcAlpha, .invSrcAlpha, .doubleInvSrcAlpha]) (x : BlendInput) :
    f.undoubled.value x.doubleAlpha = f.value x := by
  cases f with
  | srcAlpha | invSrcAlpha | doubleInvSrcAlpha => exact absurd (by decide) h
  | doubleSrcAlpha => rfl
  | dstColor | invDstColor | dstAlpha | invDstAlpha | doubleDstAlpha | doubleInvDstAlpha
  | fixed => rfl

theorem BlendDstFactor.value_undoubled {f : BlendDstFactor}
    (h : f ∉ [.srcAlpha, .invSrcAlpha, .doubleInvSrcAlpha]) (x : BlendInput) :
    f.undoubled.value x.doubleAlpha = f.value x := by
  cases f with
  | srcAlpha | invSrcAlpha | doubleInvSrcAlpha => exact absurd (by decide) h
  | doubleSrcAlpha => rfl
  | srcColor | invSrcColor | dstAlpha | invDstAlpha | doubleDstAlpha | doubleInvDstAlpha
  | fixed => rfl

/-- Doubling alpha changes no color, and the factors take the values they had. -/
theorem Blend.color_undoubled {b : Blend} (h : b.ReadsAlphaDoubled) (x : BlendInput) :
    b.undoubled.color x.doubleAlpha = b.color x := by
  have hcolor : blendColor b.src.undoubled b.dst.undoubled x.doubleAlpha
      = blendColor b.src b.dst x := by
    unfold blendColor
    rw [BlendSrcFactor.value_undoubled h.1, BlendDstFactor.value_undoubled h.2]
    rfl
  unfold Blend.color Blend.undoubled
  split
  · exact hcolor
  · rfl

/-! ## Grey on grey -/

/-- A grey fragment of alpha 1/4 over the same grey. -/
def greyOnGrey : BlendInput where
  source := ⟨.grey (1 / 2), 1 / 4⟩
  dest := ⟨.grey (1 / 2), 1⟩
  fixedSrc := .grey 0
  fixedDst := .grey 0

theorem inUnit_greyOnGrey : greyOnGrey.InUnit := by
  have hgrey : (Rgb.grey (1 / 2)).InUnit := Rgb.inUnit_grey (by norm_num) (by norm_num)
  have hblack : (Rgb.grey 0).InUnit := Rgb.inUnit_grey (le_refl 0) zero_le_one
  have hquarter : (0 : Rat) ≤ 1 / 4 ∧ (1 / 4 : Rat) ≤ 1 := by norm_num
  exact ⟨⟨hgrey, hquarter⟩, ⟨hgrey, zero_le_one, le_refl 1⟩, hblack, hblack⟩

namespace PipelineState

/-! ## When the shader doubles alpha -/

/-- One factor is twice the source alpha; the other is not, and neither is it the source alpha or
its inverse. -/
theorem of_alphaDoubledInShader {s : PipelineState} (h : s.alphaDoubledInShader = true) :
    s.blend.enabled = true
      ∧ ((s.blend.src = .doubleSrcAlpha
            ∧ s.blend.dst ∉ [.doubleSrcAlpha, .srcAlpha, .invSrcAlpha])
          ∨ (s.blend.dst = .doubleSrcAlpha
            ∧ s.blend.src ∉ [.doubleSrcAlpha, .srcAlpha, .invSrcAlpha])) := by
  unfold alphaDoubledInShader at h
  rw [Bool.and_eq_true] at h
  refine ⟨h.1, ?_⟩
  have hfactors := h.2
  split at hfactors
  · cases hfactors
  · next hsrc hdst =>
      refine .inl ⟨hsrc, ?_⟩
      simp only [ne_eq, Bool.and_eq_true, decide_eq_true_eq] at hfactors
      simp only [List.mem_cons, List.not_mem_nil, or_false, not_or]
      exact ⟨hdst, hfactors⟩
  · next hdst hsrc =>
      refine .inr ⟨hdst, ?_⟩
      simp only [ne_eq, Bool.and_eq_true, decide_eq_true_eq] at hfactors
      simp only [List.mem_cons, List.not_mem_nil, or_false, not_or]
      exact ⟨hsrc, hfactors⟩
  · cases hfactors

/-- A factor is twice the inverse of source alpha, which reads alpha and is not ruled out. -/
def InverseAlphaPartner (s : PipelineState) : Prop :=
  s.blend.src = .doubleInvSrcAlpha ∨ s.blend.dst = .doubleInvSrcAlpha

theorem readsAlphaDoubled {s : PipelineState} (h : s.alphaDoubledInShader = true)
    (hpartner : ¬s.InverseAlphaPartner) : s.blend.ReadsAlphaDoubled := by
  obtain ⟨-, hfactors⟩ := of_alphaDoubledInShader h
  rw [InverseAlphaPartner, not_or] at hpartner
  simp only [List.mem_cons, List.not_mem_nil, or_false, not_or] at hfactors
  simp only [Blend.ReadsAlphaDoubled, List.mem_cons, List.not_mem_nil, or_false, not_or]
  rcases hfactors with ⟨hsrc, -, hdst⟩ | ⟨hdst, -, hsrc⟩
  · exact ⟨by simp [hsrc], hdst.1, hdst.2, hpartner.2⟩
  · exact ⟨⟨hsrc.1, hsrc.2, hpartner.1⟩, by simp [hdst]⟩

/-- The weights 1/2 and 3/2 turn to 1/2 and 1. -/
theorem color_greyOnGrey {s : PipelineState} (h : s.alphaDoubledInShader = true)
    (hpartner : s.InverseAlphaPartner) :
    s.blend.color greyOnGrey = .grey 1
      ∧ s.blend.undoubled.color greyOnGrey.doubleAlpha = .grey (3 / 4) := by
  obtain ⟨henabled, hfactors⟩ := of_alphaDoubledInShader h
  have hpair : (s.blend.src = .doubleSrcAlpha ∧ s.blend.dst = .doubleInvSrcAlpha)
      ∨ (s.blend.src = .doubleInvSrcAlpha ∧ s.blend.dst = .doubleSrcAlpha) := by
    rcases hfactors with ⟨hsrc, -⟩ | ⟨hdst, -⟩ <;> rcases hpartner with hinv | hinv
    · exact absurd (hsrc.symm.trans hinv) (by decide)
    · exact .inl ⟨hsrc, hinv⟩
    · exact .inr ⟨hinv, hdst⟩
    · exact absurd (hdst.symm.trans hinv) (by decide)
  simp only [Blend.undoubled, Blend.color, henabled, if_true]
  rcases hpair with ⟨hsrc, hdst⟩ | ⟨hsrc, hdst⟩ <;> rw [hsrc, hdst] <;>
  · constructor <;> decide +kernel

theorem color_greyOnGrey_ne {s : PipelineState} (h : s.alphaDoubledInShader = true)
    (hpartner : s.InverseAlphaPartner) :
    s.blend.undoubled.color greyOnGrey.doubleAlpha ≠ s.blend.color greyOnGrey := by
  obtain ⟨hcolor, hdoubled⟩ := color_greyOnGrey h hpartner
  rw [hcolor, hdoubled]
  exact fun heq => absurd (congrArg Rgb.r heq) (by norm_num [Rgb.grey])

/-! ## The exact condition -/

/-- **When doubling alpha in the shader is harmless.** The shader of a state doubles alpha. Then
blending the doubled fragment with the source alpha in place of twice the source alpha gives the
color that the blending of the state gives, for all colors and every alpha up to 1/2, if and only
if no factor is twice the inverse of source alpha. Otherwise there are colors in range for which
the two differ. -/
theorem alphaDoubling_blends_alike_iff (s : PipelineState) (h : s.alphaDoubledInShader = true) :
    (s.clearMode = false → ∀ v : Rgba, ((Decisions.ofState s).doubled v).a = 2 * v.a)
      ∧ ((∀ x : BlendInput, 0 ≤ 2 * x.source.a → 2 * x.source.a ≤ 1 →
            s.blend.undoubled.color x.doubleAlpha = s.blend.color x)
          ↔ ¬s.InverseAlphaPartner)
      ∧ (s.InverseAlphaPartner →
          ∃ x : BlendInput, x.InUnit ∧ 2 * x.source.a ≤ 1
            ∧ s.blend.undoubled.color x.doubleAlpha ≠ s.blend.color x) := by
  have hhalf : 2 * greyOnGrey.source.a ≤ 1 := by norm_num [greyOnGrey]
  refine ⟨fun hmode v => ?_, ⟨fun hall hpartner => ?_, fun hpartner x _ _ => ?_⟩,
    fun hpartner => ⟨greyOnGrey, inUnit_greyOnGrey, hhalf, color_greyOnGrey_ne h hpartner⟩⟩
  · have hon : (Decisions.ofState s).alphaDoubling = true := by
      simpa [Decisions.ofState, hmode] using h
    rw [Decisions.doubled, if_pos hon]
  · have hpos : 0 ≤ 2 * greyOnGrey.source.a := by norm_num [greyOnGrey]
    exact color_greyOnGrey_ne h hpartner (hall greyOnGrey hpos hhalf)
  · exact Blend.color_undoubled (readsAlphaDoubled h hpartner) x

/-- With a fixed destination factor doubling is harmless: a red fragment of alpha 1/3 blends alike
before and after. -/
theorem alphaDoubling_blends_alike_fixed :
    let s : PipelineState :=
      { blend := { enabled := true, src := .doubleSrcAlpha, dst := .fixed } }
    let x : BlendInput :=
      { source := ⟨⟨1, 0, 0⟩, 1 / 3⟩, dest := ⟨⟨0, 1, 0⟩, 1⟩, fixedSrc := .grey 0,
        fixedDst := .grey (1 / 2) }
    s.alphaDoubledInShader = true
      ∧ s.blend.undoubled.color x.doubleAlpha = s.blend.color x := by
  intro s x
  have hdoubled : s.alphaDoubledInShader = true := by decide
  have hpartner : ¬s.InverseAlphaPartner := by
    rintro (hsrc | hdst)
    · cases hsrc
    · cases hdst
  refine ⟨hdoubled, ?_⟩
  exact (alphaDoubling_blends_alike_iff s hdoubled).2.1.mpr hpartner x (by norm_num [x])
    (by norm_num [x])

/-- Where the destination is weighed by twice the inverse of source alpha, alpha is doubled all
the same, and a grey fragment of alpha 1/4 gets darker by it. -/
theorem alphaDoubling_darkens :
    let s : PipelineState :=
      { blend := { enabled := true, src := .doubleSrcAlpha, dst := .doubleInvSrcAlpha } }
    s.alphaDoubledInShader = true ∧ (Decisions.ofState s).alphaDoubling = true
      ∧ 0 ≤ 2 * greyOnGrey.source.a ∧ 2 * greyOnGrey.source.a ≤ 1
      ∧ s.blend.undoubled.color greyOnGrey.doubleAlpha ≠ s.blend.color greyOnGrey := by
  intro s
  have hdoubled : s.alphaDoubledInShader = true := by decide
  exact ⟨hdoubled, by decide, by norm_num [greyOnGrey], by norm_num [greyOnGrey],
    color_greyOnGrey_ne hdoubled (.inr rfl)⟩

end PipelineState

end FixedFragment
