import FixedFragment.Proofs.TestAgreement
import Mathlib.Tactic.NormNum

set_option autoImplicit false

/-!
# Operands of tests on the byte grid

References are bytes, and the helpers of a shader round to integers; whether these are bytes too
depends on what is rounded. `Program.OnBytes` says that a run rounds to bytes alone: helpers that
have no value otherwise do not get it stuck, and so make no difference (`onBytes_iff_run`). Alpha is
always rounded to a byte. The color is not clamped before its test, so where the decisions add to it
or double it, white is rounded to 510 or more. Main statement: `operands_onBytes_iff`, over all
fragments whose colors are in range.
-/

namespace FixedFragment

open Glsl Uniforms

/-! ## Runs on bytes -/

namespace Glsl

/-- Whether all components of a value are integers from 0 to 255. -/
def Value.isBytes : Value → Bool
  | num xs => xs.all fun x => x.isInt && 0 ≤ x && x ≤ 255
  | bool _ | sampler _ => false

/-- Calls that have a value only where it consists of bytes. -/
def bytesOnly (call : String → Value → Option Value) (name : String) (v : Value) : Option Value :=
  (call name v).filter Value.isBytes

/-- All calls of helpers in the run of a program give bytes: the run does not get stuck although
calls that give anything else have no value. -/
def Program.OnBytes (p : Program) (g : Env) : Prop :=
  runAll (bytesOnly (applyHelper p.helpers)) g p.main ≠ .stuck

section

variable {call : String → Value → Option Value} {g : Env}

theorem bytesOnly_of_isBytes {name : String} {v w : Value} (hcall : call name v = some w)
    (hw : w.isBytes = true) : bytesOnly call name v = some w := by
  rw [bytesOnly, hcall, Option.filter_some, if_pos hw]

theorem bytesOnly_of_not_isBytes {name : String} {v w : Value} (hcall : call name v = some w)
    (hw : w.isBytes = false) : bytesOnly call name v = none := by
  rw [bytesOnly, hcall, Option.filter_some, hw]
  rfl

theorem Func.eval_of_bytesOnly {f : Func} {args : List Value} {w : Value}
    (h : f.eval (bytesOnly call) args = some w) : f.eval call args = some w := by
  unfold eval at h ⊢
  split at h
  all_goals try exact h
  exact (Option.filter_eq_some_iff.mp h).1

/-- An expression that has a value on bytes has this value. -/
theorem Expr.eval_of_bytesOnly {e : Expr} {v : Value} (h : e.eval (bytesOnly call) g = some v) :
    e.eval call g = some v := by
  induction e generalizing v with
  | lit | var => exact h
  | part e sel ih =>
      rw [eval, Option.bind_eq_some_iff] at h
      obtain ⟨w, hw, hpart⟩ := h
      rw [eval, ih hw]
      exact hpart
  | not e ih =>
      rw [eval] at h
      split at h
      · next b hb =>
        rw [eval, ih hb]
        exact h
      · cases h
  | arith op lhs rhs ihl ihr | compare rel lhs rhs ihl ihr =>
      simp only [eval, Option.bind_eq_bind, Option.bind_eq_some_iff] at h
      obtain ⟨w, hw, w', hw', hresult⟩ := h
      rw [eval, ihl hw, ihr hw']
      exact hresult
  | call1 f a iha =>
      simp only [eval, Option.bind_eq_bind, Option.bind_eq_some_iff] at h
      obtain ⟨va, ha, hcall⟩ := h
      rw [eval, iha ha]
      exact Func.eval_of_bytesOnly hcall
  | call2 f a b iha ihb =>
      simp only [eval, Option.bind_eq_bind, Option.bind_eq_some_iff] at h
      obtain ⟨va, ha, vb, hb, hcall⟩ := h
      rw [eval, iha ha, ihb hb]
      exact Func.eval_of_bytesOnly hcall
  | call3 f a b c iha ihb ihc =>
      simp only [eval, Option.bind_eq_bind, Option.bind_eq_some_iff] at h
      obtain ⟨va, ha, vb, hb, vc, hc, hcall⟩ := h
      rw [eval, iha ha, ihb hb, ihc hc]
      exact Func.eval_of_bytesOnly hcall
  | call4 f a b c d iha ihb ihc ihd =>
      simp only [eval, Option.bind_eq_bind, Option.bind_eq_some_iff] at h
      obtain ⟨va, ha, vb, hb, vc, hc, vd, hd, hcall⟩ := h
      rw [eval, iha ha, ihb hb, ihc hc, ihd hd]
      exact Func.eval_of_bytesOnly hcall

theorem Stmt.run_of_bytesOnly {s : Stmt} (h : s.run (bytesOnly call) g ≠ .stuck) :
    s.run (bytesOnly call) g = s.run call g := by
  have hvalue : ∀ {e : Expr}, e.eval (bytesOnly call) g = none
      ∨ e.eval (bytesOnly call) g = e.eval call g := by
    intro e
    cases hv : e.eval (bytesOnly call) g with
    | none => exact .inl rfl
    | some v => exact .inr (Expr.eval_of_bytesOnly hv).symm
  cases s with
  | discard => rfl
  | declare ty name e | assign name e | discardIf e =>
      rcases hvalue (e := e) with hnone | heq
      · exact absurd (by simp [run, hnone, Outcome.ofOption]) h
      · rw [run, run, heq]
  | assignPart name sel e | addAssign name e =>
      rcases hvalue (e := e) with hnone | heq
      · refine absurd ?_ h
        rw [run, hnone]
        cases g.lookup name <;> rfl
      · rw [run, run, heq]

/-- A run on bytes is the run. -/
theorem runAll_of_bytesOnly {ss : List Stmt} (h : runAll (bytesOnly call) g ss ≠ .stuck) :
    runAll (bytesOnly call) g ss = runAll call g ss := by
  induction ss generalizing g with
  | nil => rfl
  | cons s ss ih =>
      rw [runAll] at h ⊢
      have hs : s.run (bytesOnly call) g = s.run call g := by
        refine Stmt.run_of_bytesOnly fun hstuck => h ?_
        rw [hstuck]
        rfl
      rw [runAll, ← hs]
      cases hrun : s.run (bytesOnly call) g with
      | stuck | discarded => rfl
      | done g' =>
          rw [hrun] at h
          exact ih h

end

/-- A run that does not get stuck rounds to bytes alone if and only if it is the same with helpers
that have no other values. -/
theorem Program.onBytes_iff_run {p : Program} {g : Env} (hrun : p.run g ≠ .stuck) :
    p.OnBytes g ↔ runAll (bytesOnly (applyHelper p.helpers)) g p.main
      = runAll (applyHelper p.helpers) g p.main := by
  refine ⟨runAll_of_bytesOnly, fun h hstuck => hrun ?_⟩
  rw [Program.run, ← h, hstuck]
  rfl

end Glsl

/-! ## Bytes in values -/

theorem isByte_byteChannel (b : UInt8) :
    ((byteChannel b).isInt && 0 ≤ byteChannel b && byteChannel b ≤ 255) = true := by
  have hint : (byteChannel b).isInt = true := rfl
  have hlow : 0 ≤ byteChannel b := Rat.natCast_nonneg
  have hhigh : byteChannel b ≤ 255 :=
    Rat.natCast_le_natCast.mpr (Nat.le_of_lt_succ b.toNat_lt)
  simp [hint, hlow, hhigh]

/-- A number between 0 and 1 is rounded to a byte. -/
theorem isBytes_quantize {x : Rat} (h0 : 0 ≤ x) (h1 : x ≤ 1) :
    (Value.num [quantize x]).isBytes = true := by
  obtain ⟨b, hb⟩ := exists_byte_quantize h0 h1
  rw [hb]
  simp [Value.isBytes, isByte_byteChannel b]

/-- A color between black and white is rounded to bytes. -/
theorem Rgb.InUnit.isBytes_quantize {c : Rgb} (h : c.InUnit) :
    (Value.vec3 (c.map quantize)).isBytes = true := by
  obtain ⟨r, hr⟩ := exists_byte_quantize h.1.1 h.1.2
  obtain ⟨g, hg⟩ := exists_byte_quantize h.2.1.1 h.2.1.2
  obtain ⟨b, hb⟩ := exists_byte_quantize h.2.2.1 h.2.2.2
  simp only [Rgb.map, hr, hg, hb]
  simp [Value.vec3, Value.isBytes, isByte_byteChannel]

/-- A color whose red is twice white or more is rounded past the bytes. -/
theorem isBytes_quantize_of_two_le {c : Rgb} (h : 2 ≤ c.r) :
    (Value.vec3 (c.map quantize)).isBytes = false := by
  have hpast : (256 : Int) ≤ quantize c.r := by
    rw [le_quantize_iff]
    push_cast
    linarith
  have hnot : ¬quantize c.r ≤ 255 := by
    intro hle
    have : (256 : Rat) ≤ 255 := le_trans (by exact_mod_cast hpast) hle
    norm_num at this
  simp [Value.vec3, Value.isBytes, Rgb.map, hnot]

/-! ## Stages on bytes -/

namespace Decisions

variable {d : Decisions} {p : EmitPolicy} {u : Uniforms} {x : ShaderInput} {g : Env} {c : Rgba}

/-- A color comparison without a value for its operand gets the run stuck. -/
theorem runAll_colorTestStage_stuck {call : String → Value → Option Value}
    (hg : Working (x.globals u d) g c) (hcompares : d.comparesColor = true)
    (hcall : call (Quantizer.ofPolicy p).vectorName (.vec3 c.rgb) = none) :
    runAll call g (d.colorTestStage p) = .stuck := by
  have hv : (Expr.var "v").eval call g = some (.vec4 c) := hg.color
  have hoperand : (Expr.call1 (.helper (Quantizer.ofPolicy p).vectorName)
      (.part (.var "v") .rgb)).eval call g = none := by
    rw [Expr.eval, Expr.eval_rgb hv]
    exact hcall
  rw [comparesColor] at hcompares
  rw [colorTestStage]
  rcases hcode : d.colorTestCode with - | ⟨- | rel⟩
  · rw [hcode] at hcompares
    exact absurd hcompares Bool.false_ne_true
  · rw [hcode] at hcompares
    exact absurd hcompares Bool.false_ne_true
  · -- Nothing that contains the operand has a value.
    have hproduct : ∀ mask : Expr, (Expr.arith .mul (.call1
        (.helper (Quantizer.ofPolicy p).vectorName) (.part (.var "v") .rgb)) mask).eval call g
        = none := by
      intro mask
      rw [Expr.eval, hoperand]
      rfl
    have hcond : ∀ mask rhs : Expr, (Expr.not (.compare rel (.arith .mul (.call1
        (.helper (Quantizer.ofPolicy p).vectorName) (.part (.var "v") .rgb)) mask) rhs)).eval
        call g = none := by
      intro mask rhs
      rw [Expr.eval, Expr.eval, hproduct]
      rfl
    simp only [testStage, runAll, Stmt.run, hcond]
    rfl

/-- The picture for debugging, where there is one, calls no helper. -/
theorem runAll_overlay_ne_stuck (call : String → Value → Option Value)
    (hg : Keeps (x.globals u d) g) :
    runAll call g (if p.debugOverlay then d.overlayStage else []) ≠ .stuck := by
  split
  · obtain ⟨g', hrun, -⟩ := runAll_overlayStage call hg
    rw [hrun]
    simp
  · simp [runAll]

/-- From the color test on, a run rounds to bytes alone unless the operand of the comparison is
more. -/
theorem runAll_lastStages_onBytes_iff (hg : Working (x.globals u d) g c) :
    runAll (bytesOnly (applyHelper (d.helpers p))) g (d.colorTestStage p
        ++ (d.outputStage ++ if p.debugOverlay then d.overlayStage else [])) ≠ .stuck
      ↔ (d.comparesColor = true → (Value.vec3 (c.rgb.map quantize)).isBytes = true) := by
  rw [runAll_append]
  by_cases hbytes : d.comparesColor = true → (Value.vec3 (c.rgb.map quantize)).isBytes = true
  · refine iff_of_true ?_ hbytes
    have hstage := runAll_colorTestStage_of (p := p) hg fun hcompares =>
      bytesOnly_of_isBytes (applyHelper_vector hcompares [c.rgb.r, c.rgb.g, c.rgb.b])
        (hbytes hcompares)
    obtain ⟨g', houtput, hg', -⟩ := runAll_outputStage (bytesOnly (applyHelper (d.helpers p))) hg
    rw [hstage]
    split
    · simp only [Outcome.bind, runAll_append, houtput]
      exact runAll_overlay_ne_stuck _ hg'
    · simp [Outcome.bind]
  · refine iff_of_false (not_not_intro ?_) hbytes
    rw [Classical.not_imp, Bool.not_eq_true] at hbytes
    rw [runAll_colorTestStage_stuck hg hbytes.1
      (bytesOnly_of_not_isBytes (applyHelper_vector hbytes.1 [c.rgb.r, c.rgb.g, c.rgb.b]) hbytes.2)]
    rfl

/-- A run for a fragment of alpha in range rounds to bytes alone unless it gets to a color
comparison whose operand is more. -/
theorem onBytes_iff (halpha : 0 ≤ (d.workingColor u (x.fragment d)).a
      ∧ (d.workingColor u (x.fragment d)).a ≤ 1) :
    (d.program p).OnBytes (x.globals u d)
      ↔ (d.clearMode = false →
          d.alphaPasses p.keepsAlphaTest u (d.workingColor u (x.fragment d)) = true →
          d.comparesColor = true →
          (Value.vec3 ((d.doubled (d.workingColor u (x.fragment d))).rgb.map quantize)).isBytes
            = true) := by
  rw [Program.OnBytes, show (d.program p).helpers = d.helpers p from rfl]
  cases hmode : d.clearMode with
  | true =>
      have hmain : (d.program p).main = .assign ShaderName.output (.var ShaderName.primary)
          :: if p.debugOverlay then d.overlayStage else [] := by
        rw [program, shadingStages, hmode]
        rfl
      have hstart : Keeps (x.globals u d) (x.globals u d) := fun _ _ => rfl
      have hprimary : ∀ call, (Expr.var ShaderName.primary).eval call (x.globals u d)
          = some (.vec4 x.primary) := fun _ => hstart.primary
      rw [hmain, runAll_assign (hprimary _)]
      exact iff_of_true (runAll_overlay_ne_stuck _ (hstart.push (by decide) _))
        fun h => absurd h.symm Bool.false_ne_true
  | false =>
      obtain ⟨g, hcolor, hg⟩ :=
        d.runAll_colorStage (bytesOnly (applyHelper (d.helpers p))) u x
      obtain ⟨g', hdoubling, hg'⟩ :=
        runAll_doublingStage (bytesOnly (applyHelper (d.helpers p))) hg
      have hstage := runAll_alphaTestStage_of (p := p) hg fun hcompares =>
        bytesOnly_of_isBytes (applyHelper_scalar hcompares [_])
          (isBytes_quantize halpha.1 halpha.2)
      rw [main_program hmode, runAll_append, hcolor]
      simp only [Outcome.bind, runAll_append _ _ (d.alphaTestStage p), hstage]
      by_cases hpass : d.alphaPasses p.keepsAlphaTest u (d.workingColor u (x.fragment d)) = true
      · simp only [hpass, if_true, runAll_append _ _ d.doublingStage, hdoubling, forall_const]
        exact runAll_lastStages_onBytes_iff hg'
      · rw [if_neg hpass]
        exact iff_of_true (by simp) fun _ h => absurd h hpass

end Decisions

/-! ## Fragments whose color exceeds white -/

/-- A texel that keeps white white, except in a sum, and keeps the alpha `a`. -/
def TextureFunction.neutralTexel (function : TextureFunction) (a : Rat) : Rgba :=
  ⟨.grey (if function = .blend then 0 else 1), if function = .replace then a else 1⟩

theorem TextureFunction.inUnit_neutralTexel (function : TextureFunction) {a : Rat}
    (ha : 0 ≤ a ∧ a ≤ 1) : (function.neutralTexel a).InUnit := by
  have hone : (0 : Rat) ≤ 1 ∧ (1 : Rat) ≤ 1 := ⟨zero_le_one, le_refl 1⟩
  have hgrey : 0 ≤ (if function = .blend then 0 else 1 : Rat)
      ∧ (if function = .blend then 0 else 1 : Rat) ≤ 1 := by
    split
    · exact ⟨le_refl 0, zero_le_one⟩
    · exact hone
  refine ⟨Rgb.inUnit_grey hgrey.1 hgrey.2, ?_⟩
  show 0 ≤ (if function = .replace then a else 1) ∧ (if function = .replace then a else 1) ≤ 1
  split
  · exact ha
  · exact hone

theorem TextureUse.combine_neutralTexel {t : TextureUse} {env : Rgb} {a : Rat} {c : Rgba}
    (hc : t.combine env ⟨.grey 1, a⟩ (t.function.neutralTexel a) = some c) :
    c.rgb.r = (if t.function = .add then 2 else 1) ∧ c.a = a := by
  obtain ⟨function, rgba, projected⟩ := t
  obtain ⟨r, g, b⟩ := env
  cases function with
  | reserved5 | reserved6 | reserved7 => exact nomatch hc
  | modulate | decal | blend | replace | add =>
      cases hc
      cases rgba <;> simp [TextureFunction.neutralTexel, Rgb.grey, Rgb.mix] <;> norm_num

namespace Decisions

/-- White with a white second color, a texel that darkens neither, and alpha `a`. -/
def overbright (d : Decisions) (a : Rat) : ShaderInput where
  primary := ⟨.grey 1, a⟩
  secondary := .grey 1
  fogDepth := 0
  coord := (0, 0, 1)
  texture _ _ := d.texture.elim ⟨.grey 1, 1⟩ fun t => t.function.neutralTexel a

theorem fragment_overbright (d : Decisions) (a : Rat) :
    (d.overbright a).fragment d
      = ⟨⟨.grey 1, a⟩, .grey 1, d.texture.elim ⟨.grey 1, 1⟩ fun t => t.function.neutralTexel a,
          0⟩ := by
  have htexel : ∀ projected, (d.overbright a).texel projected
      = d.texture.elim ⟨.grey 1, 1⟩ fun t => t.function.neutralTexel a := by
    intro projected
    cases projected <;> rfl
  rw [ShaderInput.fragment, htexel]
  rfl

theorem inUnit_overbright (d : Decisions) {a : Rat} (ha : 0 ≤ a ∧ a ≤ 1) :
    ((d.overbright a).fragment d).InUnit := by
  have hwhite : (Rgb.grey 1).InUnit := Rgb.inUnit_grey zero_le_one (le_refl 1)
  rw [fragment_overbright]
  refine ⟨⟨hwhite, ha⟩, hwhite, ?_⟩
  cases d.texture with
  | none => exact ⟨hwhite, zero_le_one, le_refl 1⟩
  | some t => exact t.function.inUnit_neutralTexel ha

/-- The working alpha of the fragment is its alpha; the working color is at least white, and twice
white where it is a sum. -/
theorem workingColor_overbright (d : Decisions) (u : Uniforms) (a : Rat) :
    (d.workingColor u ((d.overbright a).fragment d)).a = a
      ∧ 1 ≤ (d.workingColor u ((d.overbright a).fragment d)).rgb.r
      ∧ (d.addsToColor = true → 2 ≤ (d.workingColor u ((d.overbright a).fragment d)).rgb.r) := by
  -- The second color is white where it is added.
  have hsum : ∀ c : Rgba, (c + ⟨if d.secondaryColor then .grey 1 else .grey 0, 0⟩ : Rgba).a = c.a
      ∧ (c + ⟨if d.secondaryColor then .grey 1 else .grey 0, 0⟩ : Rgba).rgb.r
        = c.rgb.r + if d.secondaryColor then 1 else 0 := by
    intro c
    refine ⟨Rat.add_zero c.a, ?_⟩
    cases d.secondaryColor <;> rfl
  rw [fragment_overbright, workingColor, addsToColor]
  cases d.texture with
  | none =>
      simp only [hsum]
      cases d.secondaryColor <;> norm_num [Rgb.grey]
  | some t =>
      have hdefined := t.isNone_combine u.textureEnv ⟨.grey 1, a⟩ (t.function.neutralTexel a)
      cases hc : t.combine u.textureEnv ⟨.grey 1, a⟩ (t.function.neutralTexel a) with
      | none =>
          rw [hc] at hdefined
          simp only [Option.elim_some, hc]
          simp [← hdefined, Rgb.grey]
      | some c =>
          obtain ⟨hr, ha⟩ := TextureUse.combine_neutralTexel hc
          simp only [Option.elim_some, hc, hsum, hr, ha]
          cases d.secondaryColor <;> by_cases hadd : t.function = .add <;> norm_num [hadd]

/-- Where the color is added to or doubled, the operand of the color test is twice white. -/
theorem two_le_doubled_overbright {d : Decisions} (hd : d.exceedsWhite = true) (u : Uniforms)
    (a : Rat) :
    2 ≤ (d.doubled (d.workingColor u ((d.overbright a).fragment d))).rgb.r := by
  obtain ⟨-, hone, htwo⟩ := d.workingColor_overbright u a
  rw [exceedsWhite, Bool.or_eq_true] at hd
  rw [doubled]
  by_cases hdouble : d.colorDoubling = true
  · rw [if_pos hdouble]
    show 2 ≤ 2 * _
    linarith
  · rw [if_neg hdouble]
    exact htwo (hd.resolve_left hdouble)

/-- A state in clear mode compares no colors. -/
theorem clearMode_of_comparesColor {s : PipelineState}
    (h : (Decisions.ofState s).comparesColor = true) :
    (Decisions.ofState s).clearMode = false := by
  cases hmode : s.clearMode with
  | false => exact (clearMode_ofState s).trans hmode
  | true =>
      have hall : Decisions.ofState s = { clearMode := true } := if_pos hmode
      rw [hall] at h
      exact absurd h Bool.false_ne_true

end Decisions

/-! ## Which states round to bytes alone -/

namespace PipelineState

/-- **When the operands of tests are bytes.** The text of the shader for a state is a program whose
tests round to bytes alone, for all fragments in range, if and only if it compares no colors, or
neither adds to the color nor doubles it, or stops every alpha before. To round to bytes alone
means that helpers that have no other values make no difference to the run. -/
theorem operands_onBytes_iff (s : PipelineState) (p : EmitPolicy) :
    let d := Decisions.ofState s
    let u := Uniforms.ofState s
    ∃ program, Program.parse (s.source p) = some program
      ∧ (∀ x : ShaderInput, program.OnBytes (x.globals u d)
        ↔ runAll (bytesOnly (applyHelper program.helpers)) (x.globals u d) program.main
          = runAll (applyHelper program.helpers) (x.globals u d) program.main)
      ∧ ((∀ x : ShaderInput, (x.fragment d).InUnit → program.OnBytes (x.globals u d))
        ↔ (d.comparesColor = true → d.exceedsWhite = true →
            ∀ a, d.passesAlphaByte p.keepsAlphaTest s.alphaTest.reference a = false)) := by
  intro d u
  refine ⟨d.program p, d.parse_source p, fun x => Program.onBytes_iff_run ?_,
    fun h hcompares hexceeds a => ?_, fun h x hx => ?_⟩
  · have hrun : (d.program p).run (x.globals u d) = Decisions.drawn (d.shown p u x) :=
      d.run_eq_drawn_shown p u x
    rw [hrun]
    exact Decisions.drawn_ne_stuck _
  · -- White of an alpha that passes gets to the comparison of colors.
    have ha : 0 ≤ unitChannel a ∧ unitChannel a ≤ 1 := inUnit_unitChannel a
    have hx : ((d.overbright (unitChannel a)).fragment d).InUnit := d.inUnit_overbright ha
    have halpha : quantize (d.workingColor u ((d.overbright (unitChannel a)).fragment d)).a
        = byteChannel a := by
      rw [(d.workingColor_overbright u (unitChannel a)).1, quantize_unitChannel]
    have hoperand := isBytes_quantize_of_two_le
      (Decisions.two_le_doubled_overbright hexceeds u (unitChannel a))
    rw [← Bool.not_eq_true, ← Decisions.alphaPasses_byte halpha]
    intro hpass
    have hbytes := (Decisions.onBytes_iff (Decisions.workingColor_a_inUnit hx)).mp (h _ hx)
      (Decisions.clearMode_of_comparesColor hcompares) hpass hcompares
    rw [hoperand] at hbytes
    exact Bool.false_ne_true hbytes
  · rw [Decisions.onBytes_iff (Decisions.workingColor_a_inUnit hx)]
    intro hmode hpass hcompares
    cases hexceeds : d.exceedsWhite with
    | false =>
        exact Rgb.InUnit.isBytes_quantize
          (Decisions.doubled_rgb_inUnit hexceeds (inUnit_textureEnv s) hx)
    | true =>
        -- The alpha that has passed is a byte, but none passes.
        have hrange := Decisions.workingColor_a_inUnit (d := d) (u := u) hx
        obtain ⟨a, ha⟩ := exists_byte_quantize hrange.1 hrange.2
        rw [Decisions.alphaPasses_byte ha, h hcompares hexceeds a] at hpass
        exact absurd hpass Bool.false_ne_true

/-- A texture that modulates leaves the color in range, so both comparisons of this state meet bytes
alone. -/
theorem operands_onBytes_modulate :
    let s : PipelineState :=
      { textureEnabled := true
        alphaTest := { enabled := true, func := .greaterEqual, reference := 128 }
        colorTest := { enabled := true, func := .equal, reference := 0xFFFFFF } }
    let d := Decisions.ofState s
    let u := Uniforms.ofState s
    d.comparesAlpha .embedded = true ∧ d.comparesColor = true
      ∧ ∃ program, Program.parse (s.source .embedded) = some program
        ∧ ∀ x : ShaderInput, (x.fragment d).InUnit →
            program.OnBytes (x.globals u d)
              ∧ runAll (bytesOnly (applyHelper program.helpers)) (x.globals u d) program.main
                = runAll (applyHelper program.helpers) (x.globals u d) program.main := by
  intro s d u
  obtain ⟨program, hparse, hrun, hiff⟩ := operands_onBytes_iff s .embedded
  have hexceeds : d.exceedsWhite = false := by decide
  have hbytes := hiff.mpr fun _ h => absurd h (hexceeds ▸ Bool.false_ne_true)
  exact ⟨by decide, by decide, program, hparse,
    fun x hx => ⟨hbytes x hx, (hrun x).mp (hbytes x hx)⟩⟩

/-- Doubled white is rounded to 510. So the comparison with the reference 255 fails, and the shader
discards a fragment whose color, kept in range, passes the test of the registers. -/
theorem operands_offBytes_doubled :
    let s : PipelineState :=
      { colorDoubling := true
        colorTest := { enabled := true, func := .equal, reference := 0xFFFFFF } }
    let x : ShaderInput :=
      { primary := ⟨.grey 1, 1⟩, secondary := .grey 0, fogDepth := 0, coord := (0, 0, 1)
        texture := fun _ _ => ⟨.grey 0, 0⟩ }
    let d := Decisions.ofState s
    let u := Uniforms.ofState s
    let v := (d.doubled (d.workingColor u (x.fragment d))).rgb
    (x.fragment d).InUnit
      ∧ v.map quantize = .grey 510
      ∧ (v.map clampUnit).map quantize = registerColor byteChannel 0xFFFFFF
      ∧ s.colorTest.passesMasked 0xFFFFFF = true
      ∧ ∃ program, Program.parse (s.source .desktop) = some program
        ∧ ¬program.OnBytes (x.globals u d) ∧ program.run (x.globals u d) = .discarded := by
  intro s x d u v
  have hx : (x.fragment d).InUnit := by
    simp only [Fragment.InUnit, Rgba.InUnit, Rgb.InUnit]
    decide +kernel
  refine ⟨hx, by decide +kernel, by decide +kernel, by decide, d.program .desktop,
    d.parse_source .desktop, fun h => ?_, ?_⟩
  · have hbytes := (Decisions.onBytes_iff (Decisions.workingColor_a_inUnit hx)).mp h rfl
      (by decide +kernel) (by decide)
    exact absurd hbytes (by decide +kernel)
  · have hrun := d.run_eq_drawn .desktop rfl u x
    have hshade : d.shade (EmitPolicy.desktop).keepsAlphaTest u (x.fragment d) = none := by
      decide +kernel
    rw [hshade] at hrun
    exact hrun

end PipelineState

end FixedFragment
