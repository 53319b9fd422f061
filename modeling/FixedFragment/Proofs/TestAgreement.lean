import FixedFragment.Proofs.ByteGrid
import FixedFragment.Proofs.ColorRange
import FixedFragment.Proofs.DroppedAlphaTest
import FixedFragment.Proofs.ShaderMeaning

set_option autoImplicit false

/-!
# Tests of shaders and tests of registers

What the registers of a test say about bytes, and what the shader does to a fragment, agree. For the
alpha test there are two exceptions, in which the shader never discards (`AlphaTestSkipped`); main
statement `alphaTest_agrees`. The color test compares the bytes under the mask that is not empty,
which is the comparison of masked words where every byte of the mask is empty or full; main
statement `colorTest_agrees`.
-/

namespace FixedFragment

open Glsl Uniforms

/-! ## The alpha test -/

/-- Whether the alpha test stays and lets a byte pass. -/
def Decisions.passesAlphaByte (d : Decisions) (keeps : CompareFunc → Bool) (reference a : UInt8) :
    Bool :=
  (d.alphaTest.filter keeps).all fun f => f.passes a reference

/-- Where alpha is rounded to a byte, the alpha test compares bytes. -/
theorem Decisions.alphaPasses_byte {d : Decisions} {keeps : CompareFunc → Bool}
    {s : PipelineState} {v : Rgba} {a : UInt8} (hv : quantize v.a = byteChannel a) :
    d.alphaPasses keeps (Uniforms.ofState s) v
      = d.passesAlphaByte keeps s.alphaTest.reference a := by
  have hpasses : ∀ f : CompareFunc,
      f.passes (quantize v.a) (Uniforms.ofState s).reference.a
        = f.passes a s.alphaTest.reference := by
    intro f
    rw [hv]
    exact f.passes_byteChannel a s.alphaTest.reference
  rw [alphaPasses, funext hpasses, passesAlphaByte]

namespace PipelineState

variable {s : PipelineState} {p : EmitPolicy}

/-- The shader carries out no alpha test although the test of the registers can fail: it is left
out because fragments of alpha 0 count as unseen, or because the driver must not discard on
equality. -/
def AlphaTestSkipped (s : PipelineState) (p : EmitPolicy) : Prop :=
  (s.StopsZeroAlpha ∧ (Decisions.ofState s).alphaTest = none)
    ∨ (s.alphaTest.func = .notEqual ∧ p.workarounds.contains .noEqualityDiscard = true)

theorem alphaTest_ofState (hmode : s.clearMode = false) (hon : s.alphaTest.enabled = true) :
    (Decisions.ofState s).alphaTest
      = if s.alphaTestTrivial then none else some s.alphaTest.func := by
  cases htrivial : s.alphaTestTrivial <;> simp [Decisions.ofState, hmode, hon, htrivial]

/-- A test that is left out because of blending fails for alpha 0 alone. -/
theorem passes_eq_false_iff_of_dropped (hmode : s.clearMode = false)
    (hon : s.alphaTest.enabled = true) (hkind : s.StopsZeroAlpha)
    (hdrop : (Decisions.ofState s).alphaTest = none) (a : UInt8) :
    s.alphaTest.func.passes a s.alphaTest.reference = false ↔ a = 0 := by
  have htrivial : s.alphaTestTrivial = true := alphaTestTrivial_of_dropped hmode hon hdrop
  constructor
  · exact fun hstop => (of_alphaTestTrivial htrivial hstop).1
  · rintro rfl
    unfold alphaTestTrivial at htrivial
    rcases hkind with hf | hf
    all_goals
      simp only [hf, Bool.and_eq_true, decide_eq_true_eq] at htrivial
      rw [hf, htrivial.1]
      decide

/-- The alpha test of the shader is that of the registers. -/
theorem alphaPasses_ofState (hmode : s.clearMode = false) (hon : s.alphaTest.enabled = true)
    (hskip : ¬s.AlphaTestSkipped p) {v : Rgba} {a : UInt8} (hv : quantize v.a = byteChannel a) :
    (Decisions.ofState s).alphaPasses p.keepsAlphaTest (Uniforms.ofState s) v
      = s.alphaTest.func.passes a s.alphaTest.reference := by
  rw [Decisions.alphaPasses_byte hv, Decisions.passesAlphaByte]
  cases htrivial : s.alphaTestTrivial with
  | true =>
      have hdrop : (Decisions.ofState s).alphaTest = none := by
        rw [alphaTest_ofState hmode hon, htrivial]
        rfl
      -- A test that can fail would have been left out because of blending.
      have hpass : s.alphaTest.func.passes a s.alphaTest.reference = true := by
        by_contra hstop
        have hkind := (of_alphaTestTrivial htrivial (Bool.eq_false_of_not_eq_true hstop)).2.1
        exact hskip (.inl ⟨hkind, hdrop⟩)
      rw [hpass, hdrop]
      rfl
  | false =>
      have hkeeps : p.keepsAlphaTest s.alphaTest.func = true := by
        rw [EmitPolicy.keepsAlphaTest, Bool.not_eq_true', Bool.eq_false_iff]
        intro hboth
        rw [Bool.and_eq_true, decide_eq_true_eq] at hboth
        exact hskip (.inr hboth)
      rw [alphaTest_ofState hmode hon, htrivial, if_neg Bool.false_ne_true, Option.filter_some,
        if_pos hkeeps, Option.all_some]

/-- A test that is skipped lets every fragment pass. -/
theorem alphaPasses_of_skipped (hmode : s.clearMode = false) (hon : s.alphaTest.enabled = true)
    (hskip : s.AlphaTestSkipped p) (u : Uniforms) (v : Rgba) :
    (Decisions.ofState s).alphaPasses p.keepsAlphaTest u v = true := by
  have hnone : (Decisions.ofState s).alphaTest.filter p.keepsAlphaTest = none := by
    rcases hskip with ⟨-, hdrop⟩ | ⟨hf, hdriver⟩
    · rw [hdrop]
      rfl
    · rw [alphaTest_ofState hmode hon]
      split
      · rfl
      · rw [Option.filter_some, if_neg]
        simp [EmitPolicy.keepsAlphaTest, hf, hdriver]
  rw [Decisions.alphaPasses, hnone]
  rfl

/-- **The alpha test of a shader.** For a state whose alpha test is on, the text of its shader is a
program whose second stage is the alpha test. The stage finds a working alpha `c.a`; where it lies
between 0 and 1 it is rounded to a byte, and the fragment is discarded if and only if that byte
fails the test of the registers, except for a test that is skipped, which discards nothing. A test
that is left out because of blending would have failed for the byte 0 alone. The first stage
leaves a working alpha between 0 and 1 for every fragment whose colors are. -/
theorem alphaTest_agrees (s : PipelineState) (hmode : s.clearMode = false)
    (hon : s.alphaTest.enabled = true) (p : EmitPolicy) :
    let d := Decisions.ofState s
    let u := Uniforms.ofState s
    (∃ program rest, Program.parse (s.source p) = some program
      ∧ program.main = d.colorStage ++ (d.alphaTestStage p ++ rest)
      ∧ (∀ (x : ShaderInput) g c, Working (x.globals u d) g c → 0 ≤ c.a → c.a ≤ 1 →
          ∃ a : UInt8, quantize c.a = byteChannel a
            ∧ (¬s.AlphaTestSkipped p →
                runAll (applyHelper program.helpers) g (d.alphaTestStage p)
                  = if s.alphaTest.func.passes a s.alphaTest.reference = true then .done g
                    else .discarded)
            ∧ (s.AlphaTestSkipped p →
                runAll (applyHelper program.helpers) g (d.alphaTestStage p) = .done g))
      ∧ ∀ x : ShaderInput, (x.fragment d).InUnit →
          ∃ g, runAll (applyHelper program.helpers) (x.globals u d) d.colorStage = .done g
            ∧ Working (x.globals u d) g (d.workingColor u (x.fragment d))
            ∧ 0 ≤ (d.workingColor u (x.fragment d)).a
            ∧ (d.workingColor u (x.fragment d)).a ≤ 1)
    ∧ (s.StopsZeroAlpha → d.alphaTest = none →
        ∀ a, s.alphaTest.func.passes a s.alphaTest.reference = false ↔ a = 0) := by
  intro d u
  have hclear : d.clearMode = false := (Decisions.clearMode_ofState s).trans hmode
  refine ⟨⟨d.program p, _, d.parse_source p, Decisions.main_program hclear p, ?_, ?_⟩, ?_⟩
  case refine_3 => exact fun hkind hdrop => passes_eq_false_iff_of_dropped hmode hon hkind hdrop
  · intro x g c hg h0 h1
    obtain ⟨a, ha⟩ := exists_byte_quantize h0 h1
    have hstage := Decisions.runAll_alphaTestStage (p := p) hg
    refine ⟨a, ha, fun hskip => ?_, fun hskip => ?_⟩
    · rw [alphaPasses_ofState hmode hon hskip ha] at hstage
      exact hstage
    · rw [alphaPasses_of_skipped hmode hon hskip] at hstage
      exact hstage
  · intro x hx
    obtain ⟨g, hrun, hg⟩ := d.runAll_colorStage (applyHelper (d.helpers p)) u x
    exact ⟨g, hrun, hg, Decisions.workingColor_a_inUnit hx⟩

/-- A fragment of alpha 1/2 is rounded to the byte 128, so `greater 128` discards it. -/
theorem alphaTest_agrees_half :
    let s : PipelineState :=
      { alphaTest := { enabled := true, func := .greater, reference := 128 } }
    let x : ShaderInput :=
      { primary := ⟨⟨1, 0, 1 / 3⟩, 1 / 2⟩, secondary := .grey 0, fogDepth := 0, coord := (0, 0, 1)
        texture := fun _ _ => ⟨.grey 0, 0⟩ }
    let d := Decisions.ofState s
    s.clearMode = false ∧ s.alphaTest.enabled = true ∧ ¬s.AlphaTestSkipped .embedded
      ∧ (x.fragment d).InUnit
      ∧ ∃ program rest g, Program.parse (s.source .embedded) = some program
        ∧ program.main = d.colorStage ++ (d.alphaTestStage .embedded ++ rest)
        ∧ runAll (applyHelper program.helpers) (x.globals (.ofState s) d) d.colorStage = .done g
        ∧ runAll (applyHelper program.helpers) g (d.alphaTestStage .embedded) = .discarded := by
  intro s x d
  have hskip : ¬s.AlphaTestSkipped .embedded := by
    rintro (⟨-, hdrop⟩ | ⟨hf, -⟩)
    · exact absurd hdrop (by decide)
    · exact absurd hf (by decide)
  have hx : (x.fragment d).InUnit := by
    simp only [Fragment.InUnit, Rgba.InUnit, Rgb.InUnit]
    decide +kernel
  obtain ⟨⟨program, rest, hparse, hmain, hstage, hcolor⟩, -⟩ := alphaTest_agrees s rfl rfl .embedded
  obtain ⟨g, hrun, hg, h0, h1⟩ := hcolor x hx
  obtain ⟨a, ha, htest, -⟩ := hstage x g _ hg h0 h1
  refine ⟨rfl, rfl, hskip, hx, program, rest, g, hparse, hmain, hrun, ?_⟩
  have hbyte : a = 128 := byteChannel_inj.mp (ha.symm.trans (by decide +kernel))
  rw [htest hskip, hbyte]
  rfl

end PipelineState

/-! ## The color test -/

namespace ColorTest

/-- The color of a word agrees with the reference on every byte where the mask has a bit. -/
def Agrees (t : ColorTest) (w : UInt32) : Prop :=
  ∀ i ∈ colorPlaces, wordByte t.mask i ≠ 0 → wordByte w i = wordByte t.reference i

instance (t : ColorTest) (w : UInt32) : Decidable (t.Agrees w) :=
  inferInstanceAs (Decidable (∀ i ∈ colorPlaces, _))

/-- Whether the color of a word passes the test on the bytes where the mask has a bit. -/
def passesMasked (t : ColorTest) (w : UInt32) : Bool :=
  match t.func with
  | .never => false
  | .always => true
  | .equal => t.Agrees w
  | .notEqual => ¬t.Agrees w

/-- Numbers of bytes agree under a mask if the bytes agree or the mask is empty. -/
theorem byteChannel_mul_maskChannel_inj (a b m : UInt8) :
    byteChannel a * maskChannel m = byteChannel b * maskChannel m ↔ (m ≠ 0 → a = b) := by
  rw [maskChannel]
  by_cases hm : m = 0
  · simp [hm]
  · rw [if_neg hm, Rat.mul_one, Rat.mul_one, byteChannel_inj]
    simp [hm]

/-- The shader compares colors that are multiplied by the mask. -/
theorem passesMasked_eq (t : ColorTest) (w : UInt32) :
    t.passesMasked w
      = t.func.passes (registerColor byteChannel w * registerColor maskChannel t.mask)
          (registerColor byteChannel t.reference * registerColor maskChannel t.mask) := by
  have hagrees : registerColor byteChannel w * registerColor maskChannel t.mask
      = registerColor byteChannel t.reference * registerColor maskChannel t.mask ↔ t.Agrees w := by
    simp only [registerColor, Rgb.mul_mk, Rgb.mk.injEq, byteChannel_mul_maskChannel_inj]
    simp [Agrees, colorPlaces]
  cases hf : t.func with
  | never | always => simp only [passesMasked, hf, ColorTestFunc.passes]
  | equal | notEqual => simp only [passesMasked, hf, ColorTestFunc.passes, ne_eq, hagrees]

/-- Where every byte of the mask is empty or full, the test is that of masked words. -/
theorem passesMasked_eq_words {t : ColorTest}
    (hmask : ∀ i ∈ colorPlaces, wordByte t.mask i = 0 ∨ wordByte t.mask i = 0xFF) (w : UInt32) :
    t.passesMasked w
      = t.func.passes (w &&& t.mask &&& 0xFFFFFF) (t.reference &&& t.mask &&& 0xFFFFFF) := by
  have hagrees : w &&& t.mask &&& 0xFFFFFF = t.reference &&& t.mask &&& 0xFFFFFF ↔ t.Agrees w :=
    masked_low24_eq_iff hmask w t.reference
  cases hf : t.func with
  | never | always => simp only [passesMasked, hf, ColorTestFunc.passes]
  | equal | notEqual => simp only [passesMasked, hf, ColorTestFunc.passes, ne_eq, hagrees]

end ColorTest

namespace PipelineState

/-- The color test of the shader is that of the registers; one that is left out lets every color
pass. -/
theorem colorPasses_ofState {s : PipelineState} (hmode : s.clearMode = false)
    (hon : s.colorTest.enabled = true) {v : Rgba} {w : UInt32}
    (hv : v.rgb.map quantize = registerColor byteChannel w) :
    (Decisions.ofState s).colorPasses (Uniforms.ofState s) v = s.colorTest.passesMasked w := by
  have htest : (Decisions.ofState s).colorTest
      = if s.colorTestTrivial then none else some s.colorTest.func := by
    cases htrivial : s.colorTestTrivial <;> simp [Decisions.ofState, hmode, hon, htrivial]
  rw [Decisions.colorPasses, htest]
  cases htrivial : s.colorTestTrivial with
  | true =>
      have halways : s.colorTest.func = .always := by
        unfold colorTestTrivial at htrivial
        cases hf : s.colorTest.func <;> first | rfl | simp [hf] at htrivial
      rw [ColorTest.passesMasked, halways]
      rfl
  | false =>
      rw [if_neg Bool.false_ne_true, Option.all_some, hv, ColorTest.passesMasked_eq]
      rfl

/-- **The color test of a shader.** For a state whose color test is on, the text of its shader is a
program whose fourth stage is the color test. The stage finds a working color `c`; where it lies
between black and white, it is rounded to the color of a word, and the fragment is discarded if and
only if that word fails the test of the registers on the bytes where the mask has a bit. Where
every byte of the mask is empty or full, this is the comparison of the masked words in their low 24
bits. -/
theorem colorTest_agrees (s : PipelineState) (hmode : s.clearMode = false)
    (hon : s.colorTest.enabled = true) (p : EmitPolicy) :
    let d := Decisions.ofState s
    let u := Uniforms.ofState s
    ∃ program rest, Program.parse (s.source p) = some program
      ∧ program.main
        = d.colorStage ++ (d.alphaTestStage p ++ (d.doublingStage ++ (d.colorTestStage p ++ rest)))
      ∧ ∀ (x : ShaderInput) g c, Working (x.globals u d) g c → c.rgb.InUnit →
          ∃ w : UInt32, w < 0x1000000 ∧ c.rgb.map quantize = registerColor byteChannel w
            ∧ runAll (applyHelper program.helpers) g (d.colorTestStage p)
              = (if s.colorTest.passesMasked w = true then .done g else .discarded)
            ∧ ((∀ i ∈ colorPlaces,
                  wordByte s.colorTest.mask i = 0 ∨ wordByte s.colorTest.mask i = 0xFF) →
                s.colorTest.passesMasked w
                  = s.colorTest.func.passes (w &&& s.colorTest.mask &&& 0xFFFFFF)
                      (s.colorTest.reference &&& s.colorTest.mask &&& 0xFFFFFF)) := by
  intro d u
  have hclear : d.clearMode = false := (Decisions.clearMode_ofState s).trans hmode
  refine ⟨d.program p, _, d.parse_source p, Decisions.main_program hclear p, ?_⟩
  intro x g c hg hc
  obtain ⟨w, hw, hbytes⟩ := exists_word_quantize hc
  have hstage := Decisions.runAll_colorTestStage (p := p) hg
  rw [colorPasses_ofState hmode hon hbytes] at hstage
  exact ⟨w, hw, hbytes, hstage, fun hmask => ColorTest.passesMasked_eq_words hmask w⟩

/-- Only green is compared, so a color of green 2/5 passes `equal 0x6600` under the mask `0xFF00`
whatever its red. -/
theorem colorTest_agrees_green :
    let s : PipelineState :=
      { colorTest := { enabled := true, func := .equal, reference := 0x6600, mask := 0xFF00 } }
    let x : ShaderInput :=
      { primary := ⟨⟨1, 2 / 5, 0⟩, 1⟩, secondary := .grey 0, fogDepth := 0, coord := (0, 0, 1)
        texture := fun _ _ => ⟨.grey 0, 0⟩ }
    let d := Decisions.ofState s
    let g : Env := ("v", .vec4 x.primary) :: x.globals (.ofState s) d
    s.clearMode = false ∧ s.colorTest.enabled = true ∧ x.primary.rgb.InUnit
      ∧ Working (x.globals (.ofState s) d) g x.primary
      ∧ (∀ i ∈ colorPlaces, wordByte s.colorTest.mask i = 0 ∨ wordByte s.colorTest.mask i = 0xFF)
      ∧ ∃ program rest, Program.parse (s.source .desktop) = some program
        ∧ program.main
          = d.colorStage ++ (d.alphaTestStage .desktop ++ (d.doublingStage
              ++ (d.colorTestStage .desktop ++ rest)))
        ∧ runAll (applyHelper program.helpers) g (d.colorTestStage .desktop) = .done g := by
  intro s x d g
  have hg : Working (x.globals (.ofState s) d) g x.primary :=
    ⟨Keeps.push (fun _ _ => rfl) (by decide) _, rfl⟩
  have hx : x.primary.rgb.InUnit := by
    simp only [Rgb.InUnit]
    decide +kernel
  obtain ⟨program, rest, hparse, hmain, hstage⟩ := colorTest_agrees s rfl rfl .desktop
  obtain ⟨w, -, hbytes, htest, -⟩ := hstage x g x.primary hg hx
  refine ⟨rfl, rfl, hx, hg, by decide, program, rest, hparse, hmain, ?_⟩
  have hgreen : wordByte w 1 = 0x66 :=
    byteChannel_inj.mp ((congrArg Rgb.g hbytes).symm.trans (by decide +kernel))
  have hagrees : s.colorTest.Agrees w := by
    intro i hi hmask
    simp only [colorPlaces, List.mem_cons, List.not_mem_nil, or_false] at hi
    rcases hi with rfl | rfl | rfl
    · exact absurd (by decide) hmask
    · exact hgreen.trans (by decide)
    · exact absurd (by decide) hmask
  rw [htest, if_pos (show s.colorTest.passesMasked w = true from decide_eq_true hagrees)]

end PipelineState

end FixedFragment
