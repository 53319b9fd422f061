import Mathlib.Tactic.Ring
import FixedFragment.ShaderId.FieldWriter

set_option autoImplicit false

/-!
# Fields read back as written

Reading bits is division and remainder (`toNat_field`), and appending a field is addition above
the bits in use (`toNat_value_push`). A writer whose bits lie below its offset therefore keeps
every field that it took: `writeAll_spec` says that the slots of a list of fields, read from the
identifier at the end, hold the values of the fields.
-/

namespace FixedFragment

/-! ## Reading -/

theorem toNat_shifted (word : UInt32) (offset : Nat) :
    (if offset < 32 then word >>> UInt32.ofNat offset else 0).toNat = word.toNat / 2 ^ offset := by
  by_cases h : offset < 32
  · -- Shift counts of words are taken modulo 32.
    have hmod : offset % 4294967296 % 32 = offset := by omega
    simp [h, hmod, Nat.shiftRight_eq_div_pow]
  · have hword : word.toNat < 2 ^ 32 := word.toNat_lt
    have hpow : 2 ^ 32 ≤ 2 ^ offset := Nat.pow_le_pow_right (by decide) (by omega)
    rw [if_neg h, Nat.div_eq_of_lt (by omega)]
    rfl

/-- A bit that is moved up inside the word is a power of two. -/
theorem toNat_one_shiftLeft {count : UInt32} (h : count < 32) :
    ((1 : UInt32) <<< count).toNat = 2 ^ count.toNat := by
  have hcount : count.toNat < 32 := UInt32.lt_iff_toNat_lt.mp h
  have hpow : 2 ^ count.toNat < 2 ^ 32 := Nat.pow_lt_pow_right (by decide) hcount
  rw [UInt32.toNat_shiftLeft, Nat.mod_eq_of_lt hcount, UInt32.toNat_one, Nat.one_shiftLeft,
    Nat.mod_eq_of_lt hpow]

theorem toNat_mask (width : Nat) :
    (if width < 32 then (1 <<< UInt32.ofNat width) - 1 else 0xFFFFFFFF : UInt32).toNat
      = 2 ^ min width 32 - 1 := by
  by_cases h : width < 32
  · have hcount : (UInt32.ofNat width).toNat = width :=
      Nat.mod_eq_of_lt (Nat.lt_trans h (by decide))
    have hpos : 0 < 2 ^ width := Nat.two_pow_pos width
    have hbit : ((1 : UInt32) <<< UInt32.ofNat width).toNat = 2 ^ width := by
      rw [toNat_one_shiftLeft (by rwa [UInt32.lt_iff_toNat_lt, hcount]), hcount]
    rw [if_pos h, UInt32.toNat_sub_of_le _ _ (by rw [UInt32.le_iff_toNat_le, hbit]; exact hpos),
      hbit, Nat.min_eq_left (by omega)]
    rfl
  · rw [if_neg h, Nat.min_eq_right (by omega)]
    rfl

/-- Reading is division by the offset's power of two, and the remainder by the width's. -/
theorem ShaderId.toNat_field (id : ShaderId) (offset width : Nat) :
    (id.field offset width).toNat = id.word.toNat / 2 ^ offset % 2 ^ width := by
  rw [field, UInt32.toNat_and, toNat_shifted, toNat_mask, Nat.and_two_pow_sub_one_eq_mod]
  by_cases h : width < 32
  · rw [Nat.min_eq_left (by omega)]
  · -- A field wider than the word reads the whole word, which the remainder keeps.
    have hword : id.word.toNat < 2 ^ 32 := id.word.toNat_lt
    have hpow : 2 ^ 32 ≤ 2 ^ width := Nat.pow_le_pow_right (by decide) (by omega)
    have hle : id.word.toNat / 2 ^ offset ≤ id.word.toNat := Nat.div_le_self _ _
    rw [Nat.min_eq_right (by omega), Nat.mod_eq_of_lt (by omega), Nat.mod_eq_of_lt (by omega)]

/-! ## Writing one field -/

theorem Field.Fits.value_lt {f : Field} (hf : f.Fits) : f.value.toNat < 2 ^ f.width :=
  Nat.one_shiftLeft f.width ▸ hf.2.2

namespace FieldWriter

/-- All bits written so far lie below the offset, and the offset is inside the word. -/
structure Tight (w : FieldWriter) : Prop where
  value_lt : w.value.toNat < 2 ^ w.offset
  offset_le : w.offset ≤ 32

theorem tight_empty : Tight {} := ⟨by decide, by decide⟩

/-- A field that was written fits its width and the bits that were left. -/
theorem of_write_eq_ok {w w' : FieldWriter} {f : Field} (h : w.write f = .ok w') :
    f.Fits ∧ w.offset + f.width ≤ 32 ∧ w' = w.push f := by
  unfold write at h
  split at h
  · cases h
  · next hwidth =>
      split at h
      · cases h
      · next hvalue =>
          split at h
          · cases h
          · next hroom =>
              have hwidth := Decidable.of_not_not hwidth
              have hvalue := Decidable.of_not_not hvalue
              have hroom := Decidable.of_not_not hroom
              exact ⟨⟨hwidth.1, hwidth.2, hvalue⟩, hroom, (Except.ok.inj h).symm⟩

variable {w : FieldWriter} {f : Field}

/-- A field above the bits in use adds to the value. -/
theorem toNat_value_push (hw : w.Tight) (hf : f.Fits) (hroom : w.offset + f.width ≤ 32) :
    (w.push f).value.toNat = w.value.toNat + f.value.toNat * 2 ^ w.offset := by
  have hpos : 0 < f.width := hf.1
  have hvalue : f.value.toNat < 2 ^ f.width := hf.value_lt
  have hmod : w.offset % 4294967296 % 32 = w.offset := by omega
  have hlt : f.value.toNat * 2 ^ w.offset < 2 ^ 32 := by
    calc f.value.toNat * 2 ^ w.offset
        < 2 ^ f.width * 2 ^ w.offset := Nat.mul_lt_mul_of_pos_right hvalue (Nat.two_pow_pos _)
      _ = 2 ^ (w.offset + f.width) := by rw [Nat.pow_add, Nat.mul_comm]
      _ ≤ 2 ^ 32 := Nat.pow_le_pow_right (by decide) hroom
  have hshift : (f.value <<< UInt32.ofNat w.offset).toNat = 2 ^ w.offset * f.value.toNat := by
    rw [UInt32.toNat_shiftLeft, UInt32.toNat_ofNat', hmod, Nat.shiftLeft_eq, Nat.mod_eq_of_lt hlt,
      Nat.mul_comm]
  -- The new bits lie above the old ones, so joining them is adding them.
  rw [push, UInt32.toNat_or, hshift, Nat.or_comm, ← Nat.two_pow_add_eq_or_of_lt hw.value_lt,
    Nat.add_comm, Nat.mul_comm]

theorem tight_push (hw : w.Tight) (hf : f.Fits) (hroom : w.offset + f.width ≤ 32) :
    (w.push f).Tight := by
  refine ⟨?_, hroom⟩
  rw [toNat_value_push hw hf hroom]
  have hnext : f.value.toNat + 1 ≤ 2 ^ f.width := hf.value_lt
  calc w.value.toNat + f.value.toNat * 2 ^ w.offset
      < 2 ^ w.offset + f.value.toNat * 2 ^ w.offset := Nat.add_lt_add_right hw.value_lt _
    _ = (f.value.toNat + 1) * 2 ^ w.offset := by ring
    _ ≤ 2 ^ f.width * 2 ^ w.offset := Nat.mul_le_mul_right _ hnext
    _ = 2 ^ (w.offset + f.width) := by ring

/-- The new field reads as its value. -/
theorem field_push_new (hw : w.Tight) (hf : f.Fits) (hroom : w.offset + f.width ≤ 32) :
    (w.push f).finish.field w.offset f.width = f.value := by
  apply UInt32.toNat_inj.mp
  rw [ShaderId.toNat_field, finish, toNat_value_push hw hf hroom,
    Nat.add_mul_div_right _ _ (Nat.two_pow_pos _), Nat.div_eq_of_lt hw.value_lt, Nat.zero_add,
    Nat.mod_eq_of_lt hf.value_lt]

/-- Bits below the offset read as before. -/
theorem field_push_old (hw : w.Tight) (hf : f.Fits) (hroom : w.offset + f.width ≤ 32)
    {offset width : Nat} (hbelow : offset + width ≤ w.offset) :
    (w.push f).finish.field offset width = w.finish.field offset width := by
  apply UInt32.toNat_inj.mp
  -- What the field adds is a multiple of the power at which reading ends.
  obtain ⟨gap, hgap⟩ := Nat.exists_eq_add_of_le hbelow
  have hsplit : f.value.toNat * 2 ^ w.offset
      = f.value.toNat * 2 ^ gap * 2 ^ width * 2 ^ offset := by
    rw [hgap]
    ring
  rw [ShaderId.toNat_field, ShaderId.toNat_field, finish, finish, toNat_value_push hw hf hroom,
    hsplit, Nat.add_mul_div_right _ _ (Nat.two_pow_pos _), Nat.add_mul_mod_self_right]

/-! ## Writing fields in order -/

/-- The slots that fields take when they are written in order from an offset on. -/
def slotsFrom (offset : Nat) : List Field → List Slot
  | [] => []
  | f :: fs => ⟨offset, f.width⟩ :: slotsFrom (offset + f.width) fs

/-- What writing fields in order does to a writer: its bits stay below its offset, the offset
moves by the widths, earlier bits are kept, and every field reads as its value. -/
theorem writeAll_spec {fs : List Field} {w w' : FieldWriter} (hw : w.Tight)
    (h : w.writeAll fs = .ok w') :
    w'.Tight ∧ w'.offset = w.offset + Field.totalWidth fs
      ∧ (∀ offset width, offset + width ≤ w.offset →
          w'.finish.field offset width = w.finish.field offset width)
      ∧ (slotsFrom w.offset fs).map w'.finish.read = fs.map Field.value := by
  induction fs generalizing w with
  | nil =>
      cases h
      exact ⟨hw, rfl, fun _ _ _ => rfl, rfl⟩
  | cons f fs ih =>
      rw [writeAll, List.foldlM_cons] at h
      cases hstep : w.write f with
      | error e =>
          rw [hstep] at h
          cases h
      | ok w₁ =>
          rw [hstep] at h
          obtain ⟨hf, hroom, rfl⟩ := of_write_eq_ok hstep
          obtain ⟨htight, hoffset, hold, hread⟩ := ih (tight_push hw hf hroom) h
          have hmove : (w.push f).offset = w.offset + f.width := rfl
          refine ⟨htight, ?_, fun offset width hbelow => ?_, ?_⟩
          · rw [hoffset, hmove, Field.totalWidth, Nat.add_assoc]
          · rw [hold offset width (by omega), field_push_old hw hf hroom hbelow]
          · -- The first field was put right above the old bits, and later fields keep it.
            have hnew : w'.finish.read ⟨w.offset, f.width⟩ = f.value := by
              rw [ShaderId.read, hold w.offset f.width (by omega), field_push_new hw hf hroom]
            rw [slotsFrom, List.map_cons, List.map_cons, hnew]
            exact congrArg (f.value :: ·) hread

end FieldWriter

end FixedFragment
