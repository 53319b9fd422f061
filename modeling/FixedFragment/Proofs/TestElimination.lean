import FixedFragment.Proofs.DroppedAlphaTest

set_option autoImplicit false

/-!
# Which alpha tests are eliminated

An alpha test can be eliminated if every alpha that it stops is 0 and a fragment of alpha 0 is
invisible (`Eliminable`). Invisible means that nothing but blending could show the fragment, and
that blending scales its color by its alpha and does not rescale the destination because of it;
`mem_rescaling_iff` says which factors rescale. Eliminating is sound, and complete but for one
comparison: `alphaTestTrivial_iff_eliminable`.
-/

namespace FixedFragment

/-! ## Fragments of alpha 0 -/

/-- The factors that rescale the destination where source alpha is 0. -/
def BlendDstFactor.rescaling : List BlendDstFactor :=
  [.srcAlpha, .doubleSrcAlpha, .doubleInvSrcAlpha]

/-- A fragment of alpha 0 where everything else has the grey `c`. -/
def BlendInput.greyZeroAlpha (c : Rat) : BlendInput where
  source := ⟨.grey c, 0⟩
  dest := ⟨.grey c, c⟩
  fixedSrc := .grey c
  fixedDst := .grey c

/-- These are the factors that weigh the destination by one number other than 1, whatever the
colors are, where source alpha is 0. -/
theorem mem_rescaling_iff (dst : BlendDstFactor) :
    dst ∈ BlendDstFactor.rescaling
      ↔ ∃ w : Rat, w ≠ 1 ∧ ∀ x : BlendInput, x.source.a = 0 → dst.value x = Rgb.grey w := by
  constructor
  · intro hmem
    simp only [BlendDstFactor.rescaling, List.mem_cons, List.not_mem_nil, or_false] at hmem
    rcases hmem with rfl | rfl | rfl
    · exact ⟨0, by norm_num, fun x hx => by simp [BlendDstFactor.value, hx]⟩
    · exact ⟨0, by norm_num, fun x hx => by simp [BlendDstFactor.value, hx]⟩
    · exact ⟨2, by norm_num, fun x hx => by simp [BlendDstFactor.value, hx]⟩
  · rintro ⟨w, hw, h⟩
    -- Of the others only the inverse of source alpha weighs alike where all is black or white.
    have hblack : (dst.value (.greyZeroAlpha 0)).r = w := congrArg Rgb.r (h _ rfl)
    have hwhite : (dst.value (.greyZeroAlpha 1)).r = w := congrArg Rgb.r (h _ rfl)
    cases dst with
    | srcAlpha | doubleSrcAlpha | doubleInvSrcAlpha => decide
    | invSrcAlpha =>
        simp [BlendDstFactor.value, BlendInput.greyZeroAlpha, Rgb.grey] at hblack
        exact absurd hblack.symm hw
    | srcColor | invSrcColor | dstAlpha | invDstAlpha | doubleDstAlpha | doubleInvDstAlpha
    | fixed =>
        have hsame := hblack.trans hwhite.symm
        simp [BlendDstFactor.value, BlendInput.greyZeroAlpha, Rgb.grey] at hsame

namespace PipelineState

/-- A fragment of alpha 0 is invisible: it takes part in no depth or stencil test, blending scales
its color by its alpha, and does not rescale the destination because alpha is 0. -/
structure ZeroAlphaInvisible (s : PipelineState) : Prop where
  depth : s.depthTestEnabled = false
  stencil : s.stencilTestEnabled = false
  blending : s.blend.enabled = true
  src : s.blend.src = .srcAlpha
  dst : s.blend.dst ∉ BlendDstFactor.rescaling

theorem zeroAlphaUnseen_iff (s : PipelineState) :
    s.zeroAlphaUnseen = true ↔ s.ZeroAlphaInvisible := by
  have hunseen : s.zeroAlphaUnseen
      = (!s.stencilTestEnabled && !s.depthTestEnabled && s.blend.enabled && s.blend.src = .srcAlpha
        && decide (s.blend.dst ∉ BlendDstFactor.rescaling)) := by
    unfold zeroAlphaUnseen
    cases s.blend.dst <;> rfl
  rw [hunseen]
  simp only [Bool.and_eq_true, Bool.not_eq_true', decide_eq_true_eq]
  constructor
  · rintro ⟨⟨⟨⟨hstencil, hdepth⟩, hblending⟩, hsrc⟩, hdst⟩
    exact ⟨hdepth, hstencil, hblending, hsrc, hdst⟩
  · rintro ⟨hdepth, hstencil, hblending, hsrc, hdst⟩
    exact ⟨⟨⟨⟨hstencil, hdepth⟩, hblending⟩, hsrc⟩, hdst⟩

end PipelineState

/-! ## Comparisons with all alphas -/

namespace CompareFunc

/-- A comparison lets every alpha but 0 pass only if it is one of these. -/
theorem of_passes_nonzero {f : CompareFunc} {ref : UInt8}
    (h : ∀ a : UInt8, a ≠ 0 → f.passes a ref = true) :
    f = .always ∨ (f = .lessEqual ∧ ref = 255) ∨ ((f = .notEqual ∨ f = .greater) ∧ ref = 0)
      ∨ (f = .greaterEqual ∧ (ref = 0 ∨ ref = 1)) := by
  -- Every other comparison stops 1, 2, 255 or the reference.
  have hone := h 1 (by decide)
  have htop := h 255 (by decide)
  cases f with
  | never => cases hone
  | always => exact .inl rfl
  | equal =>
      have hone : 1 = ref := by simpa [passes] using hone
      have htwo : 2 = ref := by simpa [passes] using h 2 (by decide)
      exact absurd (hone.trans htwo.symm) (by decide)
  | notEqual =>
      refine .inr (.inr (.inl ⟨.inl rfl, ?_⟩))
      by_contra hne
      simpa [passes] using h ref hne
  | less =>
      have htop : 255 < ref := by simpa [passes] using htop
      grind
  | lessEqual =>
      have htop : 255 ≤ ref := by simpa [passes] using htop
      exact .inr (.inl ⟨rfl, by grind⟩)
  | greater =>
      have hone : ref < 1 := by simpa [passes] using hone
      exact .inr (.inr (.inl ⟨.inr rfl, by grind⟩))
  | greaterEqual =>
      have hone : ref ≤ 1 := by simpa [passes] using hone
      exact .inr (.inr (.inr ⟨rfl, by grind⟩))

/-- At least 1 is the same as above 0. -/
theorem passes_greaterEqual_one (a : UInt8) :
    passes .greaterEqual a 1 = passes .greater a 0 := by
  have h : (1 : UInt8) ≤ a ↔ 0 < a := by grind
  simp [passes, h]

end CompareFunc

/-! ## Elimination -/

namespace PipelineState

/-- Nobody sees whether the alpha test is there: it stops no alpha but 0, and this one only where
a fragment of alpha 0 is invisible. -/
def Eliminable (s : PipelineState) : Prop :=
  ∀ a : UInt8, s.alphaTest.func.passes a s.alphaTest.reference = true
    ∨ (a = 0 ∧ s.ZeroAlphaInvisible)

theorem eliminable_of_alphaTestTrivial {s : PipelineState} (h : s.alphaTestTrivial = true) :
    s.Eliminable := by
  intro a
  cases hpass : s.alphaTest.func.passes a s.alphaTest.reference with
  | true => exact .inl rfl
  | false =>
      obtain ⟨ha, -, -, hunseen⟩ := of_alphaTestTrivial h hpass
      exact .inr ⟨ha, s.zeroAlphaUnseen_iff.mp hunseen⟩

theorem Eliminable.passes_nonzero {s : PipelineState} (h : s.Eliminable) (a : UInt8)
    (ha : a ≠ 0) : s.alphaTest.func.passes a s.alphaTest.reference = true := by
  rcases h a with hpass | ⟨hzero, -⟩
  · exact hpass
  · exact absurd hzero ha

/-- If a test that can be eliminated stops alpha 0, a fragment of alpha 0 is invisible. -/
theorem Eliminable.invisible {s : PipelineState} (h : s.Eliminable)
    (hstop : s.alphaTest.func.passes 0 s.alphaTest.reference = false) :
    s.ZeroAlphaInvisible := by
  rcases h 0 with hpass | ⟨-, hinvisible⟩
  · exact absurd (hstop.symm.trans hpass) Bool.false_ne_true
  · exact hinvisible

/-- A test that can be eliminated is known to be trivial, or it is the comparison that is kept. -/
theorem Eliminable.alphaTestTrivial_or {s : PipelineState} (h : s.Eliminable) :
    s.alphaTestTrivial = true
      ∨ (s.alphaTest.func = .greaterEqual ∧ s.alphaTest.reference = 1) := by
  unfold alphaTestTrivial
  rcases CompareFunc.of_passes_nonzero h.passes_nonzero with
    hf | ⟨hf, href⟩ | ⟨hf, href⟩ | ⟨hf, href⟩
  · exact .inl (by rw [hf])
  · exact .inl (by simp [hf, href])
  · -- Both comparisons with 0 stop alpha 0.
    have hstop : s.alphaTest.func.passes 0 s.alphaTest.reference = false := by
      rcases hf with hf | hf <;> rw [hf, href] <;> decide
    have hunseen := s.zeroAlphaUnseen_iff.mpr (h.invisible hstop)
    rcases hf with hf | hf <;> exact .inl (by simp [hf, href, hunseen])
  · rcases href with href | href
    · exact .inl (by simp [hf, href])
    · exact .inr ⟨hf, href⟩

/-- **Eliminating alpha tests is exact but for one comparison.** An alpha test is known to be
trivial if and only if it can be eliminated and does not ask for an alpha of at least 1. So the
tests that could be eliminated and are kept are those that ask for it while a fragment of alpha 0
is invisible, and to ask for it is to ask for an alpha above 0. -/
theorem alphaTestTrivial_iff_eliminable (s : PipelineState) :
    (s.alphaTestTrivial = true
      ↔ s.Eliminable ∧ ¬(s.alphaTest.func = .greaterEqual ∧ s.alphaTest.reference = 1))
    ∧ (s.Eliminable ∧ s.alphaTestTrivial = false
      ↔ s.alphaTest.func = .greaterEqual ∧ s.alphaTest.reference = 1 ∧ s.ZeroAlphaInvisible)
    ∧ ∀ a : UInt8, CompareFunc.passes .greaterEqual a 1 = CompareFunc.passes .greater a 0 := by
  have hkept : s.alphaTest.func = .greaterEqual → s.alphaTest.reference = 1 →
      s.alphaTestTrivial = false := by
    intro hf href
    simp [alphaTestTrivial, hf, href]
  refine ⟨?_, ?_, CompareFunc.passes_greaterEqual_one⟩
  · constructor
    · intro h
      refine ⟨eliminable_of_alphaTestTrivial h, ?_⟩
      rintro ⟨hf, href⟩
      exact absurd ((hkept hf href).symm.trans h) Bool.false_ne_true
    · rintro ⟨h, hother⟩
      exact h.alphaTestTrivial_or.resolve_right hother
  · constructor
    · rintro ⟨h, hfalse⟩
      obtain ⟨hf, href⟩ := h.alphaTestTrivial_or.resolve_left (by simp [hfalse])
      exact ⟨hf, href, h.invisible (by rw [hf, href]; decide)⟩
    · rintro ⟨hf, href, hinvisible⟩
      refine ⟨fun a => ?_, hkept hf href⟩
      by_cases ha : a = 0
      · exact .inr ⟨ha, hinvisible⟩
      · have hpass : (1 : UInt8) ≤ a := by grind
        exact .inl (by simpa [hf, href, CompareFunc.passes] using hpass)

end PipelineState

end FixedFragment
