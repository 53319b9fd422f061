import FixedFragment.Proofs.ByteGrid
import FixedFragment.Proofs.PolicyEffects
import FixedFragment.Proofs.ShaderMeaning

set_option autoImplicit false

/-!
# The two ways of rounding agree

Both quantizers compute `quantize`, on all numbers and by components. It takes numbers to integers,
keeps their order, takes the 255th part of an integer to the integer, and takes the numbers between
0 and 1 onto the integers from 0 to 255 (`exists_quantize_eq_iff`). So policies that differ in the
quantizer alone give shaders that discard the same fragments and draw the same colors. Main
statement: `Quantizer.quantizers_agree`.
-/

namespace FixedFragment

open Glsl Uniforms

/-! ## Rounding as a function -/

theorem quantize_mono : Monotone quantize := by
  intro x y hxy
  show (((x * 255 + 1 / 2).floor : Int) : Rat) ≤ quantize y
  rw [le_quantize_iff]
  calc (((x * 255 + 1 / 2).floor : Int) : Rat) ≤ x * 255 + 1 / 2 := Rat.floor_le _
    _ ≤ y * 255 + 1 / 2 := by linarith

/-- The numbers between 0 and 1 are rounded to all bytes and to nothing else. -/
theorem exists_quantize_eq_iff (y : Rat) :
    (∃ x, 0 ≤ x ∧ x ≤ 1 ∧ quantize x = y) ↔ ∃ b : UInt8, y = byteChannel b := by
  constructor
  · rintro ⟨x, h0, h1, rfl⟩
    exact exists_byte_quantize h0 h1
  · rintro ⟨b, rfl⟩
    exact ⟨unitChannel b, (inUnit_unitChannel b).1, (inUnit_unitChannel b).2,
      quantize_unitChannel b⟩

/-! ## Policies that differ in the quantizer -/

/-- The policies differ in the workaround for rounding at most. -/
structure EmitPolicy.AlikeButRounding (p p' : EmitPolicy) : Prop where
  dialect : p.dialect = p'.dialect
  workarounds : p.workarounds.without .biasedRounding = p'.workarounds.without .biasedRounding
  debugOverlay : p.debugOverlay = p'.debugOverlay

theorem EmitPolicy.AlikeButRounding.keepsAlphaTest {p p' : EmitPolicy}
    (h : p.AlikeButRounding p') : p.keepsAlphaTest = p'.keepsAlphaTest := by
  -- The test is left out for another workaround than the one for rounding.
  have hskips (p : EmitPolicy) : p.workarounds.contains .noEqualityDiscard
      = (p.workarounds.without .biasedRounding).contains .noEqualityDiscard :=
    (Workarounds.contains_without_of_disjoint (by decide)).symm
  funext f
  rw [EmitPolicy.keepsAlphaTest, EmitPolicy.keepsAlphaTest, hskips p, hskips p', h.workarounds]

theorem Decisions.shown_congr {p p' : EmitPolicy} (h : p.AlikeButRounding p') (d : Decisions)
    (u : Uniforms) (x : ShaderInput) : d.shown p u x = d.shown p' u x := by
  rw [Decisions.shown, Decisions.shown, h.keepsAlphaTest, h.debugOverlay]

namespace Quantizer

/-- **The two ways of rounding agree.** Both helpers give `quantize` on every component, whatever
the dialect, by the formula of the one and by that of the other. It takes every number to an
integer, keeps the order of numbers, takes the 255th part of an integer to the integer, and the
numbers between 0 and 1 onto the bytes. The shaders for two policies that differ in the quantizer
alone have helpers that round alike, and for the same input they discard the fragment both or draw
the same color. -/
theorem quantizers_agree :
    (∀ (q : Quantizer) (dialect : Dialect) (ty : Ty) (name : String) (xs : List Rat),
        (q.helper dialect ty name).apply (.num xs) = some (.num (xs.map quantize)))
      ∧ (∀ x : Rat, roundDown (x * 255 + 1 / 2) = quantize x
          ∧ let y := x + 1 / 2 / 255
            (y - fraction (y * 255) * (1 / 255)) * 255 = quantize x)
      ∧ ((∀ x : Rat, ∃ n : Int, quantize x = n) ∧ Monotone quantize
          ∧ (∀ n : Int, quantize ((n : Rat) / 255) = n)
          ∧ ∀ y : Rat, (∃ x, 0 ≤ x ∧ x ≤ 1 ∧ quantize x = y) ↔ ∃ b : UInt8, y = byteChannel b)
      ∧ ∀ (d : Decisions) (p p' : EmitPolicy), p.AlikeButRounding p' →
          ∃ prog prog', Program.parse (d.source p) = some prog
            ∧ Program.parse (d.source p') = some prog'
            ∧ (∀ h ∈ prog.helpers ++ prog'.helpers, ∀ xs,
              h.apply (.num xs) = some (.num (xs.map quantize)))
            ∧ ∀ (u : Uniforms) (x : ShaderInput), ∃ c : Option Rgba,
              prog.run (x.globals u d) = Decisions.drawn c
                ∧ prog'.run (x.globals u d) = Decisions.drawn c := by
  refine ⟨apply_helper, fun x => ⟨rfl, biased_eq_quantize x⟩,
    ⟨fun x => ⟨_, rfl⟩, quantize_mono, quantize_div, exists_quantize_eq_iff⟩,
    fun d p p' hp => ⟨d.program p, d.program p', d.parse_source p, d.parse_source p', ?_,
      fun u x => ⟨d.shown p u x, d.run_eq_drawn_shown p u x, ?_⟩⟩⟩
  · rw [List.forall_mem_append]
    exact ⟨d.apply_of_mem_helpers p, d.apply_of_mem_helpers p'⟩
  · rw [d.shown_congr hp]
    exact d.run_eq_drawn_shown p' u x

/-- One policy rounds by `floor` and the other by a bias, and both leave out the comparison that
discards on equality. -/
theorem quantizers_agree_everyStage :
    let p : EmitPolicy := { workarounds := .noEqualityDiscard }
    let p' : EmitPolicy := .forTarget .glsl110 .powerVr
    let d := Decisions.everyStage
    p.AlikeButRounding p' ∧ ofPolicy p = floor ∧ ofPolicy p' = biased
      ∧ ∃ prog prog', Program.parse (d.source p) = some prog
        ∧ Program.parse (d.source p') = some prog'
        ∧ ∀ (u : Uniforms) (x : ShaderInput), ∃ c : Option Rgba,
          prog.run (x.globals u d) = Decisions.drawn c
            ∧ prog'.run (x.globals u d) = Decisions.drawn c := by
  intro p p' d
  have halike : p.AlikeButRounding p' := ⟨rfl, by decide, rfl⟩
  obtain ⟨prog, prog', hparse, hparse', -, hrun⟩ := quantizers_agree.2.2.2 d p p' halike
  exact ⟨halike, by decide, by decide, prog, prog', hparse, hparse', hrun⟩

end Quantizer

end FixedFragment
