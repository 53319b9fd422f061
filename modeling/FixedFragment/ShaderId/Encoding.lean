import FixedFragment.Decisions
import FixedFragment.ShaderId.FieldWriter

set_option autoImplicit false

/-!
# Decisions as identifiers

The identifier of a shader packs the decisions it is made from, absent parts as zero. Every
clear-mode shader has the identifier `ShaderId.clear`. `Decisions.pack_isOk` says that packing
never fails.
-/

namespace FixedFragment.Decisions

open RegisterField (code)

/-- The fields of an identifier, from the lowest bit up. -/
def fields (d : Decisions) : List Field :=
  [.flag false,
    .flag d.texture.isSome,
    ⟨UInt32.ofNat (d.texture.elim 0 fun t => code t.function), 3⟩,
    .flag (d.texture.any fun t => t.rgba),
    .reserved 1,
    .flag d.secondaryColor,
    .flag d.alphaTestEnabled,
    ⟨UInt32.ofNat (d.alphaTest.elim 0 code), 3⟩,
    .flag d.colorTestEnabled,
    ⟨UInt32.ofNat (d.colorTest.elim 0 code), 2⟩,
    .flag d.fog,
    .flag (d.texture.any fun t => t.projected),
    .flag d.colorDoubling,
    .flag d.alphaDoubling,
    .flag d.alphaTest.isSome,
    .flag d.colorTest.isSome]

/-- Packs decisions into an identifier. -/
def pack (d : Decisions) : Except FieldError ShaderId :=
  if d.clearMode then .ok .clear else (FieldWriter.writeAll {} d.fields).map FieldWriter.finish

/-! ## Packing never fails -/

theorem flag_fits (b : Bool) : (Field.flag b).Fits := by
  cases b <;> decide

theorem code_fits {α : Type} [RegisterField α] [DecidableEq α] (width : Nat) (o : Option α)
    (h0 : 0 < width) (h32 : width < 32)
    (h : (RegisterField.values : List α).length ≤ 1 <<< width) :
    (Field.mk (UInt32.ofNat (o.elim 0 code)) width).Fits := by
  have hlt : o.elim 0 code < 1 <<< width := by
    cases o with
    | none => exact Nat.one_shiftLeft width ▸ Nat.two_pow_pos width
    | some a => exact Nat.lt_of_lt_of_le (RegisterField.code_lt a) h
  refine ⟨h0, h32, ?_⟩
  exact Nat.lt_of_le_of_lt (Nat.mod_le _ _) hlt

theorem fields_fit (d : Decisions) : ∀ f ∈ d.fields, f.Fits := by
  have hfunction : (Field.mk (UInt32.ofNat (d.texture.elim 0 fun t => code t.function)) 3).Fits := by
    have h := code_fits 3 (d.texture.map TextureUse.function) (by decide) (by decide)
      (by decide)
    cases ht : d.texture <;> simpa [ht] using h
  have halpha := code_fits 3 d.alphaTest (by decide) (by decide) (by decide)
  have hcolor := code_fits 2 d.colorTest (by decide) (by decide) (by decide)
  have hreserved : (Field.reserved 1).Fits := by decide
  simp [fields, flag_fits, hfunction, halpha, hcolor, hreserved]

theorem totalWidth_fields (d : Decisions) : Field.totalWidth d.fields = Slot.usedBits := by
  simp [fields, Field.totalWidth, Field.flag, Field.reserved, Slot.usedBits]

theorem pack_isOk (d : Decisions) : ∃ id, d.pack = .ok id := by
  unfold pack
  split
  · exact ⟨_, rfl⟩
  · obtain ⟨w, h⟩ := @FieldWriter.writeAll_isOk d.fields {} d.fields_fit
      (by rw [totalWidth_fields]; decide)
    exact ⟨w.finish, by rw [h]; rfl⟩

/-- The identifier of the shader for `d`. -/
def shaderId (d : Decisions) : ShaderId :=
  match h : d.pack with
  | .ok id => id
  | .error e => False.elim (by
      obtain ⟨id, hok⟩ := d.pack_isOk
      rw [hok] at h
      cases h)

theorem pack_eq (d : Decisions) : d.pack = .ok d.shaderId := by
  unfold shaderId
  split
  · next id h => exact h
  · next e h =>
      obtain ⟨id, hok⟩ := d.pack_isOk
      rw [hok] at h
      cases h

end FixedFragment.Decisions

namespace FixedFragment.PipelineState

/-- The identifier of the shader that a state needs. -/
def shaderId (s : PipelineState) : ShaderId := (Decisions.ofState s).shaderId

end FixedFragment.PipelineState
