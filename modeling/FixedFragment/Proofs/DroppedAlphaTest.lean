import Mathlib.Tactic.NormNum
import FixedFragment.Blend.Equation
import FixedFragment.Decisions
import FixedFragment.Proofs.ByteGrid

set_option autoImplicit false

/-!
# Alpha tests that are left out

An alpha test that is on and yet left out of the decisions stops fragments of alpha 0 only, and
these only while they count as unseen (`of_alphaTestTrivial`). Such a fragment really leaves no
trace if the destination is weighed by the inverse of source alpha; every other factor that counts
as safe can be 0 at the fragment, which then blackens the destination. Main statement:
`dropped_alphaTest_traceless_iff`.
-/

namespace FixedFragment

namespace PipelineState

/-! ## What a test that is left out stops -/

/-- The alpha test is one of the two that are left out because of blending. -/
def StopsZeroAlpha (s : PipelineState) : Prop :=
  s.alphaTest.func = .notEqual ∨ s.alphaTest.func = .greater

/-- A test that is left out and stops an alpha compares with 0, and stops this alpha only. -/
theorem of_alphaTestTrivial {s : PipelineState} (h : s.alphaTestTrivial = true) {a : UInt8}
    (hstop : s.alphaTest.func.passes a s.alphaTest.reference = false) :
    a = 0 ∧ s.StopsZeroAlpha ∧ s.alphaTest.reference = 0 ∧ s.zeroAlphaUnseen = true := by
  unfold alphaTestTrivial at h
  unfold StopsZeroAlpha
  cases hf : s.alphaTest.func with
  | never => simp [hf] at h
  | equal => simp [hf] at h
  | less => simp [hf] at h
  | always => simp [hf, CompareFunc.passes] at hstop
  | greaterEqual =>
      simp [hf] at h
      simp [hf, h, CompareFunc.passes] at hstop
  | lessEqual =>
      -- No byte is above the reference 255.
      simp [hf] at h
      have hle : a ≤ 255 := by
        rw [UInt8.le_iff_toNat_le]
        exact Nat.le_of_lt_succ a.toNat_lt
      simp [hf, h, CompareFunc.passes] at hstop
      exact absurd hle (UInt8.not_le.mpr hstop)
  | notEqual =>
      simp [hf] at h
      simp [hf, h.1, CompareFunc.passes] at hstop
      exact ⟨hstop, .inl rfl, h.1, h.2⟩
  | greater =>
      simp [hf] at h
      simp [hf, h.1, CompareFunc.passes] at hstop
      exact ⟨hstop, .inr rfl, h.1, h.2⟩

theorem alphaTestTrivial_of_dropped {s : PipelineState} (hmode : s.clearMode = false)
    (hon : s.alphaTest.enabled = true) (hdrop : (Decisions.ofState s).alphaTest = none) :
    s.alphaTestTrivial = true := by
  simpa [Decisions.ofState, hmode, hon] using hdrop

/-- What it takes for a fragment of alpha 0 to count as unseen. -/
theorem of_zeroAlphaUnseen {s : PipelineState} (h : s.zeroAlphaUnseen = true) :
    s.depthTestEnabled = false ∧ s.stencilTestEnabled = false ∧ s.blend.enabled = true
      ∧ s.blend.src = .srcAlpha ∧ s.blend.dst ≠ .doubleInvSrcAlpha := by
  unfold zeroAlphaUnseen at h
  simp only [Bool.and_eq_true, Bool.not_eq_true', decide_eq_true_eq] at h
  obtain ⟨⟨⟨⟨hstencil, hdepth⟩, henabled⟩, hsrc⟩, hdst⟩ := h
  refine ⟨hdepth, hstencil, henabled, hsrc, fun hdouble => ?_⟩
  rw [hdouble] at hdst
  cases hdst

end PipelineState

/-! ## Blending a fragment of alpha 0 -/

/-- All colors that blending reads are in range. -/
def BlendInput.InUnit (x : BlendInput) : Prop :=
  x.source.InUnit ∧ x.dest.InUnit ∧ x.fixedSrc.InUnit ∧ x.fixedDst.InUnit

/-- A source color scaled by an alpha of 0 adds nothing. -/
theorem blendColor_zero_alpha {x : BlendInput} (ha : x.source.a = 0) (dst : BlendDstFactor) :
    blendColor .srcAlpha dst x = x.dest.rgb * dst.value x := by
  rw [blendColor, BlendSrcFactor.value, ha]
  cases x.source.rgb
  cases x.dest.rgb
  cases dst.value x
  simp [Rgb.grey]

/-- The inverse of an alpha of 0 weighs the destination by 1. -/
theorem blendColor_zero_alpha_inv {x : BlendInput} (ha : x.source.a = 0) :
    blendColor .srcAlpha .invSrcAlpha x = x.dest.rgb := by
  rw [blendColor_zero_alpha ha, BlendDstFactor.value, ha]
  cases x.dest.rgb
  simp [Rgb.grey]

/-- A fragment of alpha 0 over white, with the other colors black or white so that a factor of the
destination which can be 0 is 0. -/
def blackening (dst : BlendDstFactor) : BlendInput where
  source := ⟨.grey (if dst = .invSrcColor then 1 else 0), 0⟩
  dest := ⟨.grey 1, if dst = .invDstAlpha ∨ dst = .doubleInvDstAlpha then 1 else 0⟩
  fixedSrc := .grey 0
  fixedDst := .grey 0

theorem inUnit_blackening (dst : BlendDstFactor) : (blackening dst).InUnit := by
  have hbit : ∀ (c : Prop) [Decidable c],
      0 ≤ (if c then 1 else 0 : Rat) ∧ (if c then 1 else 0 : Rat) ≤ 1 := by
    intro c _
    split <;> simp
  have hblack : (Rgb.grey 0).InUnit := Rgb.inUnit_grey (le_refl 0) zero_le_one
  have hwhite : (Rgb.grey 1).InUnit := Rgb.inUnit_grey zero_le_one (le_refl 1)
  have hsource : (blackening dst).source.rgb.InUnit := Rgb.inUnit_grey (hbit _).1 (hbit _).2
  exact ⟨⟨hsource, le_refl 0, zero_le_one⟩, ⟨hwhite, hbit _⟩, hblack, hblack⟩

/-- All factors but the two inverses of source alpha turn white to black there. -/
theorem blendColor_blackening {dst : BlendDstFactor} (hinv : dst ≠ .invSrcAlpha)
    (hdouble : dst ≠ .doubleInvSrcAlpha) :
    blendColor .srcAlpha dst (blackening dst) = .grey 0 := by
  cases dst with
  | invSrcAlpha => exact absurd rfl hinv
  | doubleInvSrcAlpha => exact absurd rfl hdouble
  | srcColor | invSrcColor | srcAlpha | dstAlpha | invDstAlpha | doubleSrcAlpha | doubleDstAlpha
  | doubleInvDstAlpha | fixed =>
      simp [blendColor, blackening, BlendSrcFactor.value, BlendDstFactor.value, Rgb.grey]

/-! ## Traces in the framebuffer -/

namespace PipelineState

/-- A fragment changes nothing: it writes no depth or stencil value, and blending keeps the color
behind it. -/
def Traceless (s : PipelineState) (x : BlendInput) : Prop :=
  s.depthTestEnabled = false ∧ s.stencilTestEnabled = false ∧ s.blend.color x = x.dest.rgb

/-- **When leaving out an alpha test is harmless.** The alpha test of a state is on and left out.
Then the fragments that it would have stopped all leave no trace, whatever the colors, if and only
if the test is not one of those left out because of blending, or blending weighs the destination
by the inverse of source alpha. Otherwise there are colors in range for which a fragment that the
test would have stopped changes the color behind it. -/
theorem dropped_alphaTest_traceless_iff (s : PipelineState) (hmode : s.clearMode = false)
    (hon : s.alphaTest.enabled = true) (hdrop : (Decisions.ofState s).alphaTest = none) :
    ((∀ (a : UInt8) (x : BlendInput), x.source.a = Uniforms.unitChannel a →
        s.alphaTest.func.passes a s.alphaTest.reference = false → s.Traceless x)
      ↔ (s.StopsZeroAlpha → s.blend.dst = .invSrcAlpha))
    ∧ (s.StopsZeroAlpha → s.blend.dst ≠ .invSrcAlpha →
        s.alphaTest.func.passes 0 s.alphaTest.reference = false
          ∧ ∃ x : BlendInput, x.InUnit ∧ x.source.a = 0 ∧ s.blend.color x ≠ x.dest.rgb) := by
  have htrivial : s.alphaTestTrivial = true := alphaTestTrivial_of_dropped hmode hon hdrop
  have hvisible : s.StopsZeroAlpha → s.blend.dst ≠ .invSrcAlpha →
      s.alphaTest.func.passes 0 s.alphaTest.reference = false
        ∧ ∃ x : BlendInput, x.InUnit ∧ x.source.a = 0 ∧ s.blend.color x ≠ x.dest.rgb := by
    intro hkind hdst
    have hzero : s.alphaTest.reference = 0 ∧ s.zeroAlphaUnseen = true := by
      unfold alphaTestTrivial at htrivial
      rcases hkind with hf | hf <;> simpa [hf] using htrivial
    obtain ⟨-, -, henabled, hsrc, hdouble⟩ := of_zeroAlphaUnseen hzero.2
    refine ⟨?_, blackening s.blend.dst, inUnit_blackening _, rfl, ?_⟩
    · rw [hzero.1]
      rcases hkind with hf | hf <;> rw [hf] <;> decide
    · rw [Blend.color, if_pos henabled, hsrc, blendColor_blackening hdst hdouble]
      exact fun h => absurd (congrArg Rgb.r h) zero_ne_one
  refine ⟨⟨fun h hkind => ?_, fun h a x ha hstop => ?_⟩, hvisible⟩
  · -- Another factor has colors that it changes, against what holds of all colors.
    by_contra hdst
    obtain ⟨hstop, x, -, hx, hchange⟩ := hvisible hkind hdst
    exact hchange (h 0 x (hx.trans unitChannel_zero.symm) hstop).2.2
  · -- The test stopped alpha 0, so the source adds nothing and its inverse is 1.
    obtain ⟨rfl, hkind, -, hunseen⟩ := of_alphaTestTrivial htrivial hstop
    obtain ⟨hdepth, hstencil, henabled, hsrc, -⟩ := of_zeroAlphaUnseen hunseen
    have hx : x.source.a = 0 := ha.trans unitChannel_zero
    refine ⟨hdepth, hstencil, ?_⟩
    rw [Blend.color, if_pos henabled, hsrc, h hkind, blendColor_zero_alpha_inv hx]

/-- The usual blending of translucent colors is harmless: with `greater 0` left out, a red fragment
of alpha 0 leaves no trace on a half-transparent green. -/
theorem dropped_alphaTest_traceless_invSrcAlpha :
    (Decisions.ofState
        { alphaTest := { enabled := true, func := .greater }
          blend := { enabled := true } }).alphaTest = none
      ∧ Traceless
        { alphaTest := { enabled := true, func := .greater }, blend := { enabled := true } }
        { source := ⟨⟨1, 0, 0⟩, 0⟩, dest := ⟨⟨0, 1, 0⟩, 1 / 2⟩, fixedSrc := .grey 1,
          fixedDst := .grey 1 } := by
  have h := (dropped_alphaTest_traceless_iff
    { alphaTest := { enabled := true, func := .greater }, blend := { enabled := true } }
    rfl rfl (by decide)).1
  exact ⟨by decide, h.mpr (fun _ => rfl) 0 _ unitChannel_zero.symm (by decide)⟩

/-- Where the destination is weighed by the source color, `greater 0` is left out all the same, and
a black fragment of alpha 0, which it would have stopped, turns white to black. -/
theorem dropped_alphaTest_visible :
    let s : PipelineState :=
      { alphaTest := { enabled := true, func := .greater }
        blend := { enabled := true, src := .srcAlpha, dst := .srcColor } }
    let x : BlendInput :=
      { source := ⟨.grey 0, 0⟩, dest := ⟨.grey 1, 1⟩, fixedSrc := .grey 0, fixedDst := .grey 0 }
    s.clearMode = false ∧ s.alphaTest.enabled = true ∧ (Decisions.ofState s).alphaTest = none
      ∧ x.source.a = Uniforms.unitChannel 0
      ∧ s.alphaTest.func.passes 0 s.alphaTest.reference = false ∧ ¬s.Traceless x := by
  refine ⟨rfl, rfl, by decide, unitChannel_zero.symm, by decide, fun h => ?_⟩
  have hkept : Rgb.r _ = 1 := congrArg Rgb.r h.2.2
  simp [Blend.color, blendColor, BlendSrcFactor.value, BlendDstFactor.value, Rgb.grey] at hkept

end PipelineState

end FixedFragment
