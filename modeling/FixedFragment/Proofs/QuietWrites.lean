import FixedFragment.ShaderProgram
import FixedFragment.ShaderId.Encoding
import Mathlib.Logic.Relation

set_option autoImplicit false

/-!
# Register writes that keep the shader

Most registers reach the fragment stage through uniforms or not at all. A write that only changes
these, or a register whose value does not count where it is written, keeps the decisions and with
them the identifier and the program: `PipelineState.shader_eq_of_quietWrites`.
-/

namespace FixedFragment

namespace PipelineState

/-! ## Writes -/

/-- A register write that the decisions do not see. -/
inductive QuietWrite : PipelineState → PipelineState → Prop where
  /-- Colors, the operands of the color test and the mask of the alpha test reach the program by
  uniforms only. -/
  | uniforms (s : PipelineState) (textureEnvColor fogColor reference colorMask : UInt32)
      (alphaMask : UInt8) :
      QuietWrite s
        { s with
          textureEnvColor := textureEnvColor
          fogColor := fogColor
          colorTest.reference := reference
          colorTest.mask := colorMask
          alphaTest.mask := alphaMask }
  /-- A reference that is neither the least nor the greatest byte becomes another such one. -/
  | alphaReference (s : PipelineState) (reference : UInt8)
      (hold : 1 ≤ s.alphaTest.reference ∧ s.alphaTest.reference ≤ 254)
      (hnew : 1 ≤ reference ∧ reference ≤ 254) :
      QuietWrite s { s with alphaTest.reference := reference }
  | untextured (s : PipelineState) (function : TextureFunction) (alphaUsed fullAlpha : Bool)
      (envColor : UInt32) (uvGenMode : UvGenMode) (h : s.textureEnabled = false) :
      QuietWrite s
        { s with
          textureFunction := function
          textureAlphaUsed := alphaUsed
          textureFullAlpha := fullAlpha
          textureEnvColor := envColor
          uvGenMode := uvGenMode }
  /-- Only the texture matrix makes coordinates that are projected. -/
  | uvGenMode (s : PipelineState) (mode : UvGenMode) (hold : s.uvGenMode ≠ .textureMatrix)
      (hnew : mode ≠ .textureMatrix) : QuietWrite s { s with uvGenMode := mode }
  | textureAlphaUsed (s : PipelineState) (on : Bool)
      (h : s.textureFunction.isReserved = true) : QuietWrite s { s with textureAlphaUsed := on }
  | textureFullAlpha (s : PipelineState) (on : Bool)
      (h : s.textureFunction = .replace ∨ s.textureFunction.isReserved = true
        ∨ s.textureAlphaUsed = false) : QuietWrite s { s with textureFullAlpha := on }
  | disabledAlphaTest (s : PipelineState) (func : CompareFunc) (reference : UInt8)
      (h : s.alphaTest.enabled = false) :
      QuietWrite s { s with alphaTest.func := func, alphaTest.reference := reference }
  | disabledColorTest (s : PipelineState) (func : ColorTestFunc) (reference : UInt32)
      (h : s.colorTest.enabled = false) :
      QuietWrite s { s with colorTest.func := func, colorTest.reference := reference }
  | secondaryColor (s : PipelineState) (on : Bool) (h : s.lightingEnabled = false) :
      QuietWrite s { s with secondaryColor := on }
  | fogEnabled (s : PipelineState) (on : Bool) (h : s.throughMode = true) :
      QuietWrite s { s with fogEnabled := on }
  | throughMode (s : PipelineState) (on : Bool) (h : s.fogEnabled = false) :
      QuietWrite s { s with throughMode := on }
  | blendFactors (s : PipelineState) (src : BlendSrcFactor) (dst : BlendDstFactor)
      (h : s.blend.enabled = false) : QuietWrite s { s with blend.src := src, blend.dst := dst }
  /-- Depth and stencil values count where a test stops fragments of alpha 0 alone. -/
  | depthStencil (s : PipelineState) (depth stencil : Bool)
      (h : ¬(s.alphaTest.enabled = true
        ∧ (s.alphaTest.func = .notEqual ∨ s.alphaTest.func = .greater)
        ∧ s.alphaTest.reference = 0)) :
      QuietWrite s { s with depthTestEnabled := depth, stencilTestEnabled := stencil }

/-! ## What decisions see -/

/-- The use of a texture that is switched on. -/
def liveTexture (s : PipelineState) : Option TextureUse :=
  if s.textureEnabled then some s.textureUse else none

/-- The alpha test that is switched on and can change the result. -/
def liveAlphaTest (s : PipelineState) : Option CompareFunc :=
  if s.alphaTest.enabled && !s.alphaTestTrivial then some s.alphaTest.func else none

/-- The color test that is switched on and can change the result. -/
def liveColorTest (s : PipelineState) : Option ColorTestFunc :=
  if s.colorTest.enabled && !s.colorTestTrivial then some s.colorTest.func else none

/-- Two states in which everything that decisions are made from is the same. -/
structure DecidesAlike (s t : PipelineState) : Prop where
  clearMode : s.clearMode = t.clearMode := by rfl
  texture : s.liveTexture = t.liveTexture := by rfl
  secondaryColor :
    (s.lightingEnabled && s.secondaryColor) = (t.lightingEnabled && t.secondaryColor) := by rfl
  alphaTestEnabled : s.alphaTest.enabled = t.alphaTest.enabled := by rfl
  alphaTest : s.liveAlphaTest = t.liveAlphaTest := by rfl
  colorTestEnabled : s.colorTest.enabled = t.colorTest.enabled := by rfl
  colorTest : s.liveColorTest = t.liveColorTest := by rfl
  fog : (s.fogEnabled && !s.throughMode) = (t.fogEnabled && !t.throughMode) := by rfl
  colorDoubling : s.colorDoubling = t.colorDoubling := by rfl
  alphaDoubling : s.alphaDoubledInShader = t.alphaDoubledInShader := by rfl

theorem ofState_eq (s : PipelineState) :
    Decisions.ofState s
      = if s.clearMode then { clearMode := true }
        else
          { texture := s.liveTexture
            secondaryColor := s.lightingEnabled && s.secondaryColor
            alphaTestEnabled := s.alphaTest.enabled
            alphaTest := s.liveAlphaTest
            colorTestEnabled := s.colorTest.enabled
            colorTest := s.liveColorTest
            fog := s.fogEnabled && !s.throughMode
            colorDoubling := s.colorDoubling
            alphaDoubling := s.alphaDoubledInShader } :=
  rfl

theorem DecidesAlike.ofState_eq {s t : PipelineState} (h : DecidesAlike s t) :
    Decisions.ofState s = Decisions.ofState t := by
  rw [PipelineState.ofState_eq, PipelineState.ofState_eq, h.clearMode, h.texture,
    h.secondaryColor, h.alphaTestEnabled, h.alphaTest, h.colorTestEnabled, h.colorTest, h.fog,
    h.colorDoubling, h.alphaDoubling]

/-! ## Writes keep decisions -/

section

variable {s t : PipelineState}

theorem liveTexture_eq_of_disabled (hs : s.textureEnabled = false)
    (ht : t.textureEnabled = false) : s.liveTexture = t.liveTexture := by
  rw [liveTexture, liveTexture, hs, ht]
  rfl

theorem liveAlphaTest_eq_of_disabled (hs : s.alphaTest.enabled = false)
    (ht : t.alphaTest.enabled = false) : s.liveAlphaTest = t.liveAlphaTest := by
  rw [liveAlphaTest, liveAlphaTest, hs, ht]
  rfl

theorem liveColorTest_eq_of_disabled (hs : s.colorTest.enabled = false)
    (ht : t.colorTest.enabled = false) : s.liveColorTest = t.liveColorTest := by
  rw [liveColorTest, liveColorTest, hs, ht]
  rfl

/-- Beside its own registers a test sees whether alpha 0 counts as unseen. -/
theorem alphaTestTrivial_congr (halphaTest : s.alphaTest = t.alphaTest)
    (hunseen : s.zeroAlphaUnseen = t.zeroAlphaUnseen) :
    s.alphaTestTrivial = t.alphaTestTrivial := by
  rw [alphaTestTrivial, alphaTestTrivial, halphaTest, hunseen]

end

/-- Against a reference between the extremes only the test that always passes is trivial. -/
theorem alphaTestTrivial_of_between {s : PipelineState}
    (h : 1 ≤ s.alphaTest.reference ∧ s.alphaTest.reference ≤ 254) :
    s.alphaTestTrivial = decide (s.alphaTest.func = .always) := by
  have hleast : s.alphaTest.reference ≠ 0 := by
    intro heq
    rw [heq] at h
    exact absurd h.1 (by decide)
  have hgreatest : s.alphaTest.reference ≠ 255 := by
    intro heq
    rw [heq] at h
    exact absurd h.2 (by decide)
  unfold alphaTestTrivial
  cases s.alphaTest.func <;> simp [hleast, hgreatest]

/-- Depth and stencil values take part in one place. -/
theorem alphaTestTrivial_depthStencil {s : PipelineState} (depth stencil : Bool)
    (h : ¬((s.alphaTest.func = .notEqual ∨ s.alphaTest.func = .greater)
      ∧ s.alphaTest.reference = 0)) :
    { s with depthTestEnabled := depth, stencilTestEnabled := stencil }.alphaTestTrivial
      = s.alphaTestTrivial := by
  unfold alphaTestTrivial
  cases hfunc : s.alphaTest.func with
  | never | always | equal | less | lessEqual | greaterEqual => rfl
  | notEqual | greater =>
      have hreference : s.alphaTest.reference ≠ 0 := fun heq => h ⟨by simp [hfunc], heq⟩
      simp only [hreference, decide_false, Bool.false_and]

/-- A quiet write keeps everything that decisions are made from. -/
theorem QuietWrite.decidesAlike {s t : PipelineState} (h : QuietWrite s t) :
    DecidesAlike s t := by
  cases h with
  | uniforms => exact {}
  | alphaReference reference hold hnew =>
      refine { alphaTest := ?_ }
      rw [liveAlphaTest, liveAlphaTest, alphaTestTrivial_of_between hold,
        alphaTestTrivial_of_between hnew]
  | untextured function alphaUsed fullAlpha envColor mode h =>
      exact { texture := liveTexture_eq_of_disabled h h }
  | uvGenMode mode hold hnew =>
      refine { texture := ?_ }
      rw [liveTexture, liveTexture, textureUse, textureUse, decide_eq_false hold,
        decide_eq_false hnew]
  | textureAlphaUsed on h =>
      refine { texture := ?_ }
      rw [liveTexture, liveTexture, textureUse, textureUse, h, Bool.not_true, Bool.and_false,
        Bool.and_false]
  | textureFullAlpha on h =>
      refine { texture := ?_ }
      rw [liveTexture, liveTexture, textureUse, textureUse]
      rcases h with h | h | h <;> simp [h]
  | disabledAlphaTest func reference h =>
      exact { alphaTest := liveAlphaTest_eq_of_disabled h h }
  | disabledColorTest func reference h =>
      exact { colorTest := liveColorTest_eq_of_disabled h h }
  | secondaryColor on h =>
      refine { secondaryColor := ?_ }
      rw [h, Bool.false_and, Bool.false_and]
  | fogEnabled on h =>
      refine { fog := ?_ }
      rw [h, Bool.not_true, Bool.and_false, Bool.and_false]
  | throughMode on h =>
      refine { fog := ?_ }
      rw [h, Bool.false_and, Bool.false_and]
  | blendFactors src dst h =>
      have hunseen : zeroAlphaUnseen { s with blend.src := src, blend.dst := dst }
          = s.zeroAlphaUnseen := by
        simp only [zeroAlphaUnseen, h, Bool.and_false, Bool.false_and]
      have htrivial : alphaTestTrivial { s with blend.src := src, blend.dst := dst }
          = s.alphaTestTrivial :=
        alphaTestTrivial_congr rfl hunseen
      refine { alphaTest := ?_, alphaDoubling := ?_ }
      · rw [liveAlphaTest, liveAlphaTest, htrivial]
      · rw [alphaDoubledInShader, alphaDoubledInShader, h, Bool.false_and, Bool.false_and]
  | depthStencil depth stencil h =>
      refine { alphaTest := ?_ }
      by_cases henabled : s.alphaTest.enabled = true
      · have htrivial := alphaTestTrivial_depthStencil depth stencil
          fun hlast => h ⟨henabled, hlast.1, hlast.2⟩
        rw [liveAlphaTest, liveAlphaTest, htrivial]
      · rw [Bool.not_eq_true] at henabled
        exact liveAlphaTest_eq_of_disabled henabled henabled

/-- Any number of quiet writes keeps the decisions. -/
theorem ofState_eq_of_quietWrites {s t : PipelineState}
    (h : Relation.ReflTransGen QuietWrite s t) : Decisions.ofState s = Decisions.ofState t := by
  induction h with
  | refl => rfl
  | tail _ hlast ih => exact ih.trans hlast.decidesAlike.ofState_eq

theorem ofState_eq_of_clearMode {s t : PipelineState} (hs : s.clearMode = true)
    (ht : t.clearMode = true) : Decisions.ofState s = Decisions.ofState t := by
  rw [ofState_eq, ofState_eq, if_pos hs, if_pos ht]

/-- Two states of clear mode, and two states with any number of quiet writes between them, have one
identifier and, under every policy, one shader text. -/
theorem shader_eq_of_quietWrites {s t : PipelineState}
    (h : s.clearMode = true ∧ t.clearMode = true ∨ Relation.ReflTransGen QuietWrite s t) :
    s.shaderId = t.shaderId ∧ ∀ p, s.source p = t.source p := by
  have hdecisions : Decisions.ofState s = Decisions.ofState t := by
    rcases h with ⟨hs, ht⟩ | h
    · exact ofState_eq_of_clearMode hs ht
    · exact ofState_eq_of_quietWrites h
  exact ⟨congrArg Decisions.shaderId hdecisions,
    fun p => congrArg (Decisions.source · p) hdecisions⟩

/-- A reference moves, a texture loses its alpha bits under `replace`, and depth values are
written. -/
theorem shader_eq_of_quietWrites_replace :
    let s : PipelineState :=
      { textureEnabled := true
        textureFunction := .replace
        textureAlphaUsed := true
        alphaTest := { enabled := true, func := .greater, reference := 10 } }
    let t : PipelineState :=
      { s with
        textureFullAlpha := true
        alphaTest.reference := 200
        depthTestEnabled := true }
    s.shaderId = t.shaderId ∧ ∀ p, s.source p = t.source p := by
  intro s t
  have hreference := QuietWrite.alphaReference s 200 (by decide) (by decide)
  have hfullAlpha := QuietWrite.textureFullAlpha { s with alphaTest.reference := 200 } true
    (Or.inl rfl)
  have hdepth := QuietWrite.depthStencil
    { s with textureFullAlpha := true, alphaTest.reference := 200 } true false (by decide)
  exact shader_eq_of_quietWrites (Or.inr (((Relation.ReflTransGen.single hreference).tail
    hfullAlpha).tail hdepth))

end PipelineState

end FixedFragment
