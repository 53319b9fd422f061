import Mathlib.Algebra.Order.Ring.Nat
import Mathlib.Tactic.GCongr
import FixedFragment.Proofs.TerminatedText

set_option autoImplicit false

/-!
# How long shader texts get

The length of a text is the sum over its lines, and each part of a program has a longest form:
one lemma for each group of lines. The helpers are measured together with the comparisons that
call them, since the long helpers have the short names. Main statement: `source_fits_maxLength`.
-/

namespace FixedFragment

open Glsl

/-! ## Lengths of lines -/

/-- The number of bytes of lines, each with its line end. -/
def lineBytes (lines : List String) : Nat := (lines.map fun line => line.utf8ByteSize + 1).sum

@[simp] theorem lineBytes_nil : lineBytes [] = 0 := rfl

@[simp] theorem lineBytes_cons (line : String) (lines : List String) :
    lineBytes (line :: lines) = line.utf8ByteSize + 1 + lineBytes lines := by
  simp [lineBytes]

@[simp] theorem lineBytes_append (ks ls : List String) :
    lineBytes (ks ++ ls) = lineBytes ks + lineBytes ls := by
  simp [lineBytes]

theorem length_bytes_text (p : Program) : (Text.bytes p.text).length = lineBytes p.lines := by
  rw [Program.text, Program.pieces]
  induction p.lines with
  | nil => rfl
  | cons line lines ih =>
      rw [List.map_cons, String.join_cons, Text.bytes_append, Text.bytes_append,
        List.length_append, List.length_append, ih, lineBytes_cons]
      rfl

theorem lineBytes_onlyIf_le {α : Type} {f : α → String} {a : α} {n : Nat} (b : Bool)
    (h : (f a).utf8ByteSize + 1 ≤ n) : lineBytes ((onlyIf b a).map f) ≤ n := by
  cases b with
  | false => exact Nat.zero_le n
  | true => simpa [onlyIf] using h

theorem lineBytes_lines (p : Program) :
    lineBytes p.lines
      = lineBytes (versionLine p.version :: p.precision.toList.map precisionLine)
        + lineBytes (p.globals.map Global.line) + lineBytes (p.helpers.map Helper.line)
        + lineBytes [mainLine] + lineBytes (p.main.map Stmt.line) + lineBytes [closeLine] := by
  simp only [Program.lines, lineBytes_cons, lineBytes_append, lineBytes_nil]
  omega

namespace Decisions

/-! ## Declarations -/

theorem lineBytes_head_le (dialect : Dialect) :
    lineBytes (versionLine dialect.version :: dialect.defaultPrecision.toList.map precisionLine)
      ≤ 35 := by
  cases dialect <;> decide

theorem lineBytes_globals_le (d : Decisions) (p : EmitPolicy) :
    lineBytes ((d.globals p).map Global.line) ≤ 240 := by
  have hraised : ∀ dialect : Dialect,
      (Global.line ⟨.uniform, { precision := dialect.raisedPrecision, ty := .vec4 },
        ShaderName.reference⟩).utf8ByteSize + 1 ≤ 38
      ∧ (Global.line ⟨.varying, { precision := dialect.raisedPrecision, ty := .float },
        ShaderName.fogDepth⟩).utf8ByteSize + 1 ≤ 34 := by
    intro dialect
    cases dialect <;> decide
  have htexCoord : ∀ projected : Bool, (Global.line ⟨.varying,
      { ty := if projected then .vec3 else .vec2 }, ShaderName.texCoord⟩).utf8ByteSize + 1 ≤ 25 := by
    decide
  calc lineBytes ((d.globals p).map Global.line)
      ≤ 23 + 38 + 26 + 23 + 23 + 23 + 25 + 34 + 25 := by
        simp only [globals, List.map_append, lineBytes_append]
        gcongr
        · exact lineBytes_onlyIf_le _ (by decide)
        · exact lineBytes_onlyIf_le _ (hraised p.dialect).1
        · exact lineBytes_onlyIf_le _ (by decide)
        · exact lineBytes_onlyIf_le _ (by decide)
        · decide
        · exact lineBytes_onlyIf_le _ (by decide)
        · exact lineBytes_onlyIf_le _ (by decide)
        · exact lineBytes_onlyIf_le _ (hraised p.dialect).2
        · cases d.texture with
          | none => exact Nat.zero_le 25
          | some t => simpa using htexCoord t.projected
    _ = 240 := rfl

/-! ## Working color -/

theorem bytes_lookup_le (t : TextureUse) :
    (Stmt.line (.declare .vec4 "t" t.lookup)).utf8ByteSize + 1 ≤ 43 := by
  unfold TextureUse.lookup
  cases t.projected <;> decide

/-- The longest combination is that of `blend`, and the second color makes it longer. -/
theorem bytes_combination_le (d : Decisions) (t : TextureUse) :
    (Stmt.line (.declare .vec4 "v" (t.combination.elim (.var "p") d.plusSecondary))).utf8ByteSize
      + 1 ≤ 65 := by
  have hplus : d.plusSecondary
      = fun e => if d.secondaryColor then .arith .add e (.var "s") else e := rfl
  -- Projection takes no part in the combination.
  have ht : t.combination = TextureUse.combination ⟨t.function, t.rgba, false⟩ := rfl
  rw [hplus, ht]
  cases d.secondaryColor <;> cases t.function <;> cases t.rgba <;> decide

theorem lineBytes_colorStage_le (d : Decisions) :
    lineBytes (d.colorStage.map Stmt.line) ≤ 161 := by
  have hsecondary : lineBytes ((onlyIf d.secondaryColor
      (Stmt.declare .vec4 "s" (.call2 .vec4 (.var ShaderName.secondary) (.lit 0 0)))).map
        Stmt.line) ≤ 32 := lineBytes_onlyIf_le _ (by decide)
  rw [colorStage, List.map_append, lineBytes_append]
  cases d.texture with
  | none =>
      have hplain : (Stmt.line (.declare .vec4 "v"
          (d.plusSecondary (.var ShaderName.primary)))).utf8ByteSize + 1 ≤ 25 := by
        unfold plusSecondary
        cases d.secondaryColor <;> decide
      simp only [List.map_cons, List.map_nil, lineBytes_cons, lineBytes_nil]
      omega
  | some t =>
      have hlookup := bytes_lookup_le t
      have hprimary : (Stmt.line (.declare .vec4 "p" (.var ShaderName.primary))).utf8ByteSize + 1
          ≤ 21 := by decide
      have hcombination := d.bytes_combination_le t
      simp only [List.map_cons, List.map_nil, lineBytes_cons, lineBytes_nil]
      omega

/-! ## Later stages -/

theorem lineBytes_testStage_le (code : Option TestCode) {lhs rhs : Expr} {n : Nat} (hn : 11 ≤ n)
    (h : ∀ rel, (Stmt.line (.discardIf (.not (.compare rel lhs rhs)))).utf8ByteSize + 1 ≤ n) :
    lineBytes ((testStage code lhs rhs).map Stmt.line) ≤ n := by
  cases code with
  | none => exact Nat.zero_le n
  | some code =>
      cases code with
      | discardAll => exact Nat.le_trans (show lineBytes [Stmt.line .discard] ≤ 11 by decide) hn
      | compare rel => simpa [testStage] using h rel

theorem lineBytes_doublingStage_le (d : Decisions) :
    lineBytes (d.doublingStage.map Stmt.line) ≤ 23 := by
  unfold doublingStage
  cases d.colorDoubling <;> cases d.alphaDoubling <;> decide

theorem lineBytes_outputStage_le (d : Decisions) :
    lineBytes (d.outputStage.map Stmt.line) ≤ 104 := by
  unfold outputStage
  cases d.fog <;> decide

theorem lineBytes_overlayStage_le (d : Decisions) :
    lineBytes (d.overlayStage.map Stmt.line) ≤ 92 := by
  unfold overlayStage
  cases d.texture.isSome <;> decide

/-! ## Helpers and the comparisons that call them -/

/-- What a quantizer adds to a text at most: its two helpers and the two comparisons that call
them, each with its longest relation. -/
structure QuantizerBytes (q : Quantizer) (scalar vector alpha color : Nat) : Prop where
  scalar_le : ∀ dialect : Dialect,
    (q.helper dialect .float q.scalarName).line.utf8ByteSize + 1 ≤ scalar
  vector_le : ∀ dialect : Dialect,
    (q.helper dialect .vec3 q.vectorName).line.utf8ByteSize + 1 ≤ vector
  alpha_le : ∀ rel, (Stmt.line (.discardIf (.not (.compare rel
    (.call1 (.helper q.scalarName) (.part (.var "v") .a))
    (.part (.var ShaderName.reference) .a))))).utf8ByteSize + 1 ≤ alpha
  color_le : ∀ rel, (Stmt.line (.discardIf (.not (.compare rel
    (.arith .mul (.call1 (.helper q.vectorName) (.part (.var "v") .rgb))
      (.part (.var ShaderName.colorMask) .rgb))
    (.arith .mul (.part (.var ShaderName.reference) .rgb)
      (.part (.var ShaderName.colorMask) .rgb)))))).utf8ByteSize + 1 ≤ color

theorem quantizerBytes_floor : QuantizerBytes .floor 89 87 65 105 where
  scalar_le dialect := by cases dialect <;> decide
  vector_le dialect := by cases dialect <;> decide
  alpha_le rel := by cases rel <;> decide
  color_le rel := by cases rel <;> decide

set_option maxRecDepth 1000 in
theorem quantizerBytes_biased : QuantizerBytes .biased 144 141 59 99 where
  scalar_le dialect := by cases dialect <;> decide
  vector_le dialect := by cases dialect <;> decide
  alpha_le rel := by cases rel <;> decide
  color_le rel := by cases rel <;> decide

theorem lineBytes_tests_le_of (d : Decisions) (p : EmitPolicy) {scalar vector alpha color : Nat}
    (h : QuantizerBytes (Quantizer.ofPolicy p) scalar vector alpha color) (halpha : 11 ≤ alpha)
    (hcolor : 11 ≤ color) :
    lineBytes ((d.helpers p).map Helper.line) + lineBytes ((d.alphaTestStage p).map Stmt.line)
      + lineBytes ((d.colorTestStage p).map Stmt.line) ≤ scalar + vector + alpha + color := by
  have hhelpers : lineBytes ((d.helpers p).map Helper.line) ≤ scalar + vector := by
    rw [helpers, List.map_append, lineBytes_append]
    exact Nat.add_le_add (lineBytes_onlyIf_le _ (h.scalar_le p.dialect))
      (lineBytes_onlyIf_le _ (h.vector_le p.dialect))
  have halphaStage := lineBytes_testStage_le (d.alphaTestCode p) halpha h.alpha_le
  have hcolorStage := lineBytes_testStage_le d.colorTestCode hcolor h.color_le
  exact Nat.add_le_add (Nat.add_le_add hhelpers halphaStage) hcolorStage

/-- The helpers that do without `floor` are longer by more than the comparisons are shorter. -/
theorem lineBytes_tests_le (d : Decisions) (p : EmitPolicy) :
    lineBytes ((d.helpers p).map Helper.line) + lineBytes ((d.alphaTestStage p).map Stmt.line)
      + lineBytes ((d.colorTestStage p).map Stmt.line) ≤ 443 := by
  cases hq : Quantizer.ofPolicy p with
  | floor =>
      have hfloor := lineBytes_tests_le_of d p (hq ▸ quantizerBytes_floor) (by decide) (by decide)
      omega
  | biased => exact lineBytes_tests_le_of d p (hq ▸ quantizerBytes_biased) (by decide) (by decide)

/-! ## Whole texts -/

theorem lineBytes_main_le (d : Decisions) (p : EmitPolicy) :
    lineBytes ((d.helpers p).map Helper.line) + lineBytes ((d.program p).main.map Stmt.line)
      ≤ 823 := by
  have htests := d.lineBytes_tests_le p
  have hoverlay : lineBytes ((if p.debugOverlay then d.overlayStage else []).map Stmt.line)
      ≤ 92 := by
    cases p.debugOverlay with
    | false => exact Nat.zero_le 92
    | true => exact d.lineBytes_overlayStage_le
  rw [program, List.map_append, lineBytes_append, shadingStages]
  by_cases hclear : d.clearMode
  · have hwrite : lineBytes ([Stmt.assign ShaderName.output (.var ShaderName.primary)].map
        Stmt.line) ≤ 27 := by decide
    rw [if_pos hclear]
    omega
  · have hcolor := d.lineBytes_colorStage_le
    have hdoubling := d.lineBytes_doublingStage_le
    have houtput := d.lineBytes_outputStage_le
    rw [if_neg hclear]
    simp only [List.map_append, lineBytes_append]
    omega

/-- No text has more bytes than this. -/
theorem length_source_le (d : Decisions) (p : EmitPolicy) :
    (Text.bytes (d.source p)).length ≤ 1114 := by
  have hhead := lineBytes_head_le p.dialect
  have hglobals := d.lineBytes_globals_le p
  have hmain := d.lineBytes_main_le p
  have hopen : lineBytes [mainLine] = 14 := by decide
  have hclose : lineBytes [closeLine] = 2 := by decide
  calc (Text.bytes (d.source p)).length
      = lineBytes (versionLine p.dialect.version
            :: p.dialect.defaultPrecision.toList.map precisionLine)
          + lineBytes ((d.globals p).map Global.line) + lineBytes ((d.helpers p).map Helper.line)
          + lineBytes [mainLine] + lineBytes ((d.program p).main.map Stmt.line)
          + lineBytes [closeLine] := by
        rw [source, length_bytes_text, lineBytes_lines]
        rfl
    _ ≤ 35 + 240 + 14 + 823 + 2 := by omega
    _ = 1114 := rfl

/-- There is a text with as many: everything is on, for the embedded dialect and without
`floor`. -/
example :
    (Text.bytes (source
      { texture := some ⟨.blend, true, true⟩, secondaryColor := true, alphaTest := some .equal,
        colorTest := some .equal, fog := true, colorDoubling := true }
      { dialect := .glslEs100, workarounds := .biasedRounding, debugOverlay := true })).length
      = 1114 := by decide +kernel

end Decisions

/-- **Shader texts fit a fixed buffer.** The text for any decisions under any policy has at most
`maxSourceLength` bytes. So a buffer with one byte more takes the shader of any state, and writing
gives the length of its text. -/
theorem source_fits_maxLength :
    (∀ (d : Decisions) (p : EmitPolicy), (Text.bytes (d.source p)).length ≤ maxSourceLength)
    ∧ ∀ (s : PipelineState) (p : EmitPolicy) (buffer : List UInt8),
        maxSourceLength + 1 ≤ buffer.length →
        (s.writeTerminated p buffer).1 = .ok (Text.bytes (s.source p)).length := by
  have hbound : ∀ (d : Decisions) (p : EmitPolicy),
      (Text.bytes (d.source p)).length ≤ maxSourceLength := fun d p =>
    Nat.le_trans (d.length_source_le p) (by decide)
  refine ⟨hbound, fun s p buffer hbuffer => ?_⟩
  have hfits : (Text.bytes (s.source p)).length + 1 ≤ buffer.length :=
    Nat.le_trans (Nat.succ_le_succ (hbound (Decisions.ofState s) p)) hbuffer
  rw [PipelineState.writeTerminated_eq, FixedBuffer.terminate_filled_of_fits hfits]

/-- A shader that uses nearly everything fits a buffer of just that size. -/
theorem source_fits_maxLength_powerVr :
    let s : PipelineState :=
      { textureEnabled := true, textureFunction := .blend, uvGenMode := .textureMatrix
        fogEnabled := true, colorDoubling := true
        alphaTest := { enabled := true, func := .lessEqual, reference := 7 }
        colorTest := { enabled := true, func := .equal } }
    let p := EmitPolicy.forTarget .glslEs100 .powerVr
    maxSourceLength + 1 ≤ (List.replicate (maxSourceLength + 1) (7 : UInt8)).length
      ∧ (s.writeTerminated p (List.replicate (maxSourceLength + 1) 7)).1
        = .ok (Text.bytes (s.source p)).length := by
  intro s p
  have hroom : maxSourceLength + 1 ≤ (List.replicate (maxSourceLength + 1) (7 : UInt8)).length := by
    rw [List.length_replicate]
  exact ⟨hroom, source_fits_maxLength.2 s p _ hroom⟩

end FixedFragment
