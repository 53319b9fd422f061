import FixedFragment.Proofs.FieldReadback

set_option autoImplicit false

/-!
# Words in any layout

A word can be cut into fields of any widths. Writing the fields of a word gives the word back, as
far as the widths reach: `layout_lossless`. The step is that the bits below an offset and the
field above them are the bits below the end of the field (`toNat_value_push_cut`).
-/

namespace FixedFragment

namespace ShaderId

/-- The fields of an identifier that stand one behind the other from an offset on. -/
def cut (id : ShaderId) (offset : Nat) : List Nat → List Field
  | [] => []
  | width :: widths => ⟨id.field offset width, width⟩ :: id.cut (offset + width) widths

/-- What is read with a width fits the width. -/
theorem fits_field (id : ShaderId) (offset : Nat) {width : Nat} (h : 1 ≤ width ∧ width ≤ 31) :
    Field.Fits ⟨id.field offset width, width⟩ := by
  refine ⟨h.1, Nat.lt_succ_of_le h.2, ?_⟩
  show (id.field offset width).toNat < 1 <<< width
  rw [toNat_field, Nat.one_shiftLeft]
  exact Nat.mod_lt _ (Nat.two_pow_pos width)

end ShaderId

namespace FieldWriter

variable {id : ShaderId} {w : FieldWriter}

/-- A writer that holds the low bits of a word, and is given the field above them, holds the low
bits up to the end of the field. -/
theorem toNat_value_push_cut (hw : w.Tight)
    (hlow : w.value.toNat = id.word.toNat % 2 ^ w.offset) {width : Nat}
    (hwidth : 1 ≤ width ∧ width ≤ 31) (hroom : w.offset + width ≤ 32) :
    (w.push ⟨id.field w.offset width, width⟩).value.toNat
      = id.word.toNat % 2 ^ (w.offset + width) := by
  rw [toNat_value_push hw (id.fits_field w.offset hwidth) hroom, hlow, ShaderId.toNat_field,
    Nat.pow_add, Nat.mod_mul, Nat.mul_comm]

/-- The fields of a word, cut from the writer's offset on, are all written, and the writer then
holds the low bits of the word up to where the cut ends. -/
theorem writeAll_cut (widths : List Nat) (hw : w.Tight)
    (hlow : w.value.toNat = id.word.toNat % 2 ^ w.offset)
    (hwidths : ∀ n ∈ widths, 1 ≤ n ∧ n ≤ 31) (hroom : w.offset + widths.sum ≤ 32) :
    ∃ w', w.writeAll (id.cut w.offset widths) = .ok w'
      ∧ w'.value.toNat = id.word.toNat % 2 ^ (w.offset + widths.sum) := by
  induction widths generalizing w with
  | nil => exact ⟨w, rfl, hlow⟩
  | cons width widths ih =>
      rw [List.sum_cons] at hroom
      have hwidth : 1 ≤ width ∧ width ≤ 31 := hwidths width List.mem_cons_self
      have hf := id.fits_field w.offset hwidth
      have hfirst : w.offset + width ≤ 32 := by omega
      have hstep := write_eq_ok hf hfirst
      obtain ⟨w', hwrite, hvalue⟩ := ih (tight_push hw hf hfirst)
        (toNat_value_push_cut hw hlow hwidth hfirst)
        (fun n hn => hwidths n (List.mem_cons_of_mem width hn))
        (show w.offset + width + widths.sum ≤ 32 by omega)
      refine ⟨w', ?_, ?_⟩
      · rw [ShaderId.cut, writeAll, List.foldlM_cons, hstep]
        exact hwrite
      · rw [hvalue, List.sum_cons, ← Nat.add_assoc]
        rfl

end FieldWriter

namespace ShaderId

/-- **Reading undoes writing in any layout.** Reading a field of any offset and width is division
and remainder by powers of two, also past the end of the word. The fields of a word, one behind
the other with widths that a field can have and that fit the word, are all written, and the writer
ends with the bits of the word that they cover; if they cover it, with the word. -/
theorem layout_lossless (id : ShaderId) :
    (∀ offset width : Nat,
      (id.field offset width).toNat = id.word.toNat / 2 ^ offset % 2 ^ width)
    ∧ ∀ widths : List Nat, (∀ n ∈ widths, 1 ≤ n ∧ n ≤ 31) → widths.sum ≤ 32 →
        ∃ w, FieldWriter.writeAll {} (id.cut 0 widths) = .ok w
          ∧ w.finish.word.toNat = id.word.toNat % 2 ^ widths.sum
          ∧ (widths.sum = 32 → w.finish = id) := by
  refine ⟨id.toNat_field, fun widths hwidths hsum => ?_⟩
  have hlow : ({} : FieldWriter).value.toNat = id.word.toNat % 2 ^ ({} : FieldWriter).offset :=
    (Nat.mod_one _).symm
  have hroom : ({} : FieldWriter).offset + widths.sum ≤ 32 := by
    rw [show ({} : FieldWriter).offset = 0 from rfl, Nat.zero_add]
    exact hsum
  obtain ⟨w, hwrite, hvalue⟩ :=
    FieldWriter.writeAll_cut widths FieldWriter.tight_empty hlow hwidths hroom
  have hword : w.finish.word.toNat = id.word.toNat % 2 ^ widths.sum := by
    rw [← Nat.zero_add widths.sum]
    exact hvalue
  refine ⟨w, hwrite, hword, fun hfull => ?_⟩
  rw [hfull, Nat.mod_eq_of_lt id.word.toNat_lt] at hword
  exact congrArg ShaderId.mk (UInt32.toNat_inj.mp hword)

/-- Four fields of different widths cover a word, and three of them its low nine bits. -/
theorem layout_lossless_covered :
    (∃ w, FieldWriter.writeAll {} (cut ⟨0xDEADBEEF⟩ 0 [1, 3, 5, 23]) = .ok w
        ∧ w.finish = ⟨0xDEADBEEF⟩)
      ∧ ∃ w, FieldWriter.writeAll {} (cut ⟨0xDEADBEEF⟩ 0 [1, 3, 5]) = .ok w
        ∧ w.finish.word.toNat = 0xDEADBEEF % 2 ^ 9 := by
  obtain ⟨-, hlayout⟩ := layout_lossless ⟨0xDEADBEEF⟩
  obtain ⟨w, hwrite, -, hfull⟩ := hlayout [1, 3, 5, 23] (by decide) (by decide)
  obtain ⟨w', hwrite', hword, -⟩ := hlayout [1, 3, 5] (by decide) (by decide)
  exact ⟨⟨w, hwrite, hfull rfl⟩, ⟨w', hwrite', hword⟩⟩

end ShaderId

end FixedFragment
