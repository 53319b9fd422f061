import FixedFragment.Proofs.CacheTransparency
import FixedFragment.Proofs.PolicyEffects

set_option autoImplicit false

/-!
# Recorded draws and written alpha tests

A session counts a draw by the decisions, whatever the policy in force, while the shader has an
alpha test only if the policy keeps it. `Session.recorded_iff_written_iff` says when the two agree.
-/

namespace FixedFragment

open Glsl

/-! ## Alpha tests in programs -/

/-- The statements that an alpha test can be: it discards every fragment, or those whose alpha as a
byte does not compare with the reference. -/
inductive IsAlphaTest (q : Quantizer) : Stmt → Prop where
  | discardAll : IsAlphaTest q .discard
  | compare (rel : Relation) :
      IsAlphaTest q (.discardIf (.not (.compare rel q.alpha referenceAlpha)))

namespace Decisions

/-- The alpha test is alive, and the policy leaves it out. -/
def SkipsAlphaTest (d : Decisions) (p : EmitPolicy) : Prop :=
  d.alphaTest = some .notEqual ∧ p.workarounds.contains .noEqualityDiscard = true

/-- Behind the working color stands at most one statement for the alpha test. -/
theorem alphaTestStage_cases (d : Decisions) (p : EmitPolicy) :
    d.alphaTestStage p = []
      ∨ ∃ s, d.alphaTestStage p = [s] ∧ IsAlphaTest (Quantizer.ofPolicy p) s := by
  have hstage : d.alphaTestStage p
      = testStage (d.alphaTestCode p) (Quantizer.ofPolicy p).alpha referenceAlpha := rfl
  rw [hstage]
  match d.alphaTestCode p with
  | none => exact Or.inl rfl
  | some .discardAll => exact Or.inr ⟨_, rfl, .discardAll⟩
  | some (.compare rel) => exact Or.inr ⟨_, rfl, .compare rel⟩

theorem exists_main_eq {d : Decisions} (hmode : d.clearMode = false) (p : EmitPolicy) :
    ∃ rest, (d.program p).main = d.colorStage ++ d.alphaTestStage p ++ rest := by
  refine ⟨d.doublingStage ++ (d.colorTestStage p ++ (d.outputStage
    ++ if p.debugOverlay then d.overlayStage else [])), ?_⟩
  rw [program, shadingStages, hmode, if_neg Bool.false_ne_true]
  simp only [List.append_assoc]

/-- An alpha test is written where one is alive and the policy keeps it. -/
theorem alphaTestStage_ne_nil_iff {d : Decisions} (hd : d.Settled) (p : EmitPolicy) :
    d.alphaTestStage p ≠ [] ↔ d.alphaTest.isSome = true ∧ ¬d.SkipsAlphaTest p := by
  have hstage : d.alphaTestStage p ≠ [] ↔ (d.alphaTestCode p).isSome = true := by
    unfold alphaTestStage testStage
    split
    · next h => simp [h]
    · next h => simp [h]
    · next h => simp [h]
  rw [hstage, alphaTestCode, SkipsAlphaTest]
  cases halpha : d.alphaTest with
  | none => simp
  | some f =>
      have halive : f ≠ .always := (hd.alphaTest f halpha).2
      have hcode : (CompareFunc.testCode f).isSome = true := by
        cases f with
        | always => exact absurd rfl halive
        | never | equal | notEqual | less | lessEqual | greater | greaterEqual => rfl
      by_cases hkeeps : p.keepsAlphaTest f = true
      · have hkept : ¬(f = .notEqual ∧ p.workarounds.contains .noEqualityDiscard = true) := by
          rw [← p.keepsAlphaTest_eq_false, hkeeps]
          decide
        rw [Option.filter_some_pos hkeeps, Option.bind_some, Option.some.injEq]
        exact ⟨fun _ => ⟨rfl, hkept⟩, fun _ => hcode⟩
      · rw [Bool.not_eq_true] at hkeeps
        have hskipped := p.keepsAlphaTest_eq_false.mp hkeeps
        rw [Option.filter_some_neg hkeeps, Option.bind_none, Option.some.injEq]
        exact ⟨fun h => absurd h Bool.false_ne_true, fun h => absurd hskipped h.2⟩

end Decisions

namespace ShaderCache.Session

/-! ## Draws of a session -/

/-- **What is recorded against what is written.** After any uses, and whatever has been counted, a
look-up outside of clear mode records one draw and gives a shader that runs its alpha test behind
the working color. An alpha test that is written is recorded, and one is recorded without being
written exactly where the policy in force leaves out the comparison that discards on equality. -/
theorem recorded_iff_written_iff (p : EmitPolicy) (us : List Use) (stats : DrawStats)
    (s : PipelineState) (hmode : s.clearMode = false) :
    let cache := (({ cache := .new p } : Session).run us).1.cache
    let x : Session := { cache := cache, stats := stats }
    let q := policyAfter p us
    let d := Decisions.ofState s
    ∃ (recorded : Bool) (prog : Program) (rest : List Stmt),
      (x.get s).2.stats = stats.record recorded
        ∧ Program.parse (x.get s).1.source = some prog
        ∧ prog.main = d.colorStage ++ d.alphaTestStage q ++ rest
        ∧ (d.alphaTestStage q = []
          ∨ ∃ test, d.alphaTestStage q = [test] ∧ IsAlphaTest (Quantizer.ofPolicy q) test)
        ∧ (d.alphaTestStage q ≠ [] → recorded = true)
        ∧ ((recorded = true ↔ d.alphaTestStage q ≠ []) ↔ ¬d.SkipsAlphaTest q) := by
  intro cache x q d
  have hd : d.clearMode = false := (Decisions.clearMode_ofState s).trans hmode
  have hwritten := Decisions.alphaTestStage_ne_nil_iff (Decisions.settled_ofState s) q
  obtain ⟨hfaithful, hpolicy, -⟩ :=
    run_faithful (x := { cache := .new p }) (faithful_new p) us
  have hshader : (x.get s).1 = s.freshShader q :=
    (lookup_fst hfaithful s).trans (congrArg s.freshShader hpolicy)
  obtain ⟨rest, hmain⟩ := Decisions.exists_main_eq hd q
  refine ⟨d.alphaTest.isSome, d.program q, rest, ?_, ?_, hmain, d.alphaTestStage_cases q,
    fun h => (hwritten.mp h).1, ?_⟩
  · have hdraws : d.draws = [d.alphaTest.isSome] := by
      rw [Decisions.draws, hd, if_neg Bool.false_ne_true]
    show stats.recordAll d.draws = _
    rw [hdraws]
    rfl
  · rw [hshader]
    exact d.parse_source q
  · rw [hwritten]
    constructor
    · intro hagree hskips
      have hrecorded : d.alphaTest.isSome = true := by rw [hskips.1]; rfl
      exact (hagree.mp hrecorded).2 hskips
    · exact fun hkept => ⟨fun h => ⟨h, hkept⟩, And.left⟩

/-- Under the workaround for equality other comparisons are written and recorded. -/
theorem recorded_iff_written_iff_less :
    let us : List Use := [.get {}, .setPolicy { workarounds := .noEqualityDiscard }]
    let s : PipelineState := { alphaTest := { enabled := true, func := .less, reference := 10 } }
    let x : Session := { cache := (({ cache := .new .desktop } : Session).run us).1.cache }
    s.clearMode = false ∧ (x.get s).2.stats = ⟨1, 0⟩ := by
  intro us s x
  obtain ⟨recorded, _, _, hstats, -, -, -, hrecorded, -⟩ :=
    recorded_iff_written_iff .desktop us {} s rfl
  have hwritten : recorded = true := hrecorded (by decide)
  rw [hwritten] at hstats
  exact ⟨rfl, hstats⟩

/-- The comparison that discards on equality is recorded under the workaround that leaves it
out. -/
theorem recorded_not_written :
    let p : EmitPolicy := { workarounds := .noEqualityDiscard }
    let s : PipelineState :=
      { alphaTest := { enabled := true, func := .notEqual, reference := 10 } }
    let x : Session := { cache := .new p }
    (x.get s).2.stats = ⟨1, 0⟩
      ∧ (Decisions.ofState s).alphaTestStage p = []
      ∧ (x.get s).1.source
        = "#version 110\nvarying vec4 v_color0;\nvoid main() \x7b\n  vec4 v = v_color0;\n"
          ++ "  gl_FragColor = v;\n\x7d\n" := by
  intro p s x
  refine ⟨rfl, by decide, ?_⟩
  have hshader : (x.get s).1 = s.freshShader p := lookup_fst (faithful_new p) s
  rw [hshader]
  decide +kernel

end ShaderCache.Session

end FixedFragment
