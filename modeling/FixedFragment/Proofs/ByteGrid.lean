import FixedFragment.Proofs.ColorAlgebra
import FixedFragment.Shading
import Mathlib.Tactic.Linarith

set_option autoImplicit false

/-!
# The byte grid

Shaders compare numbers on the grid of the integers from 0 to 255, and registers hold bytes. The
two agree: a number between 0 and 1 is rounded to the number of a byte (`exists_byte_quantize`),
and comparing numbers of bytes is comparing bytes (`CompareFunc.passes_byteChannel`). A color
between black and white is rounded to the color of a register word (`exists_word_quantize`).
-/

namespace FixedFragment

open Uniforms

/-! ## Numbers of bytes -/

theorem byteChannel_le_iff (a b : UInt8) : byteChannel a ≤ byteChannel b ↔ a ≤ b := by
  rw [byteChannel, byteChannel, Rat.natCast_le_natCast, UInt8.le_iff_toNat_le]

theorem byteChannel_lt_iff (a b : UInt8) : byteChannel a < byteChannel b ↔ a < b := by
  rw [byteChannel, byteChannel, Rat.natCast_lt_natCast, UInt8.lt_iff_toNat_lt]

theorem byteChannel_inj {a b : UInt8} : byteChannel a = byteChannel b ↔ a = b := by
  rw [byteChannel, byteChannel, Rat.natCast_inj, UInt8.toNat_inj]

theorem unitChannel_zero : unitChannel 0 = 0 := by simp [unitChannel]

theorem Uniforms.inUnit_unitChannel (b : UInt8) : 0 ≤ unitChannel b ∧ unitChannel b ≤ 1 := by
  have hle : (b.toNat : Rat) ≤ 255 := by exact_mod_cast Nat.le_of_lt_succ b.toNat_lt
  have hpos : (0 : Rat) < 255 := by norm_num
  rw [unitChannel]
  exact ⟨div_nonneg Rat.natCast_nonneg hpos.le, div_le_one_of_le₀ hle hpos.le⟩

theorem maskChannel_eq_iff {a b : UInt8} : maskChannel a = maskChannel b ↔ (a ≠ 0 ↔ b ≠ 0) := by
  unfold maskChannel
  by_cases ha : a = 0 <;> by_cases hb : b = 0 <;> simp [ha, hb]

/-- Comparing the numbers of two bytes is comparing the bytes. -/
theorem CompareFunc.passes_byteChannel (f : CompareFunc) (a b : UInt8) :
    f.passes (byteChannel a) (byteChannel b) = f.passes a b := by
  cases f with
  | never | always => rfl
  | equal | notEqual => simp only [passes, ne_eq, byteChannel_inj]
  | less | greater => simp only [passes, byteChannel_lt_iff]
  | lessEqual | greaterEqual => simp only [passes, byteChannel_le_iff]

/-! ## Rounding -/

/-- What rounding is at least, by what it rounds. -/
theorem le_quantize_iff {n : Int} {x : Rat} :
    (n : Rat) ≤ quantize x ↔ (n : Rat) ≤ x * 255 + 1 / 2 := by
  rw [quantize, Rat.intCast_le_intCast, Rat.le_floor_iff]

/-- A number between 0 and 1 is rounded to a byte. -/
theorem exists_byte_quantize {x : Rat} (h0 : 0 ≤ x) (h1 : x ≤ 1) :
    ∃ b : UInt8, quantize x = byteChannel b := by
  have hlow : 0 ≤ (x * 255 + 1 / 2).floor := by
    rw [Rat.le_floor_iff]
    have : 0 ≤ x * 255 + 1 / 2 := by linarith
    exact_mod_cast this
  have hhigh : (x * 255 + 1 / 2).floor < 256 := by
    rw [Rat.floor_lt_iff]
    have : x * 255 + 1 / 2 < 256 := by linarith
    exact_mod_cast this
  obtain ⟨n, hn⟩ := Int.eq_ofNat_of_zero_le hlow
  have hbyte : n < 256 := by omega
  refine ⟨UInt8.ofNat n, ?_⟩
  rw [quantize, hn, byteChannel, UInt8.toNat_ofNat_of_lt' hbyte]
  rfl

/-- Rounding takes what is less than half a step away from an integer to the integer. -/
theorem quantize_of_near {x : Rat} {n : Int} (h : |x * 255 - n| < 1 / 2) : quantize x = n := by
  obtain ⟨hbelow, habove⟩ := abs_lt.mp h
  have hlow : n ≤ (x * 255 + 1 / 2).floor := by
    rw [Rat.le_floor_iff]
    linarith
  have hhigh : (x * 255 + 1 / 2).floor < n + 1 := by
    rw [Rat.floor_lt_iff]
    push_cast
    linarith
  have hfloor : (x * 255 + 1 / 2).floor = n := by omega
  rw [quantize, hfloor]

/-- The 255th part of an integer is rounded to the integer. -/
theorem quantize_div (n : Int) : quantize ((n : Rat) / 255) = n := by
  refine quantize_of_near ?_
  rw [Rat.div_mul_cancel (by decide), sub_self, abs_zero]
  norm_num

/-- Rounding takes the number between 0 and 1 that a byte stands for back to the byte. -/
theorem quantize_unitChannel (b : UInt8) : quantize (unitChannel b) = byteChannel b :=
  quantize_div b.toNat

theorem unitChannel_inj {a b : UInt8} : unitChannel a = unitChannel b ↔ a = b := by
  constructor
  · intro h
    rw [← byteChannel_inj, ← quantize_unitChannel, ← quantize_unitChannel, h]
  · exact congrArg unitChannel

/-! ## Bytes of words -/

theorem toNat_wordByte (w : UInt32) {i : Nat} (hi : i < 4) :
    (wordByte w i).toNat = w.toNat / 2 ^ (8 * i) % 256 := by
  have hsmall : 8 * i < UInt32.size := Nat.lt_of_lt_of_le (by omega : 8 * i < 32) (by decide)
  have hshift : (UInt32.ofNat (8 * i)).toNat % 32 = 8 * i := by
    rw [UInt32.toNat_ofNat_of_lt' hsmall]
    omega
  rw [wordByte, UInt32.toNat_toUInt8, UInt32.toNat_shiftRight, hshift, Nat.shiftRight_eq_div_pow]

/-- A word of three bytes. -/
def wordOfBytes (r g b : UInt8) : UInt32 :=
  UInt32.ofNat (r.toNat + g.toNat * 256 + b.toNat * 65536)

theorem toNat_wordOfBytes (r g b : UInt8) :
    (wordOfBytes r g b).toNat = r.toNat + g.toNat * 256 + b.toNat * 65536 := by
  have hr := r.toNat_lt
  have hg := g.toNat_lt
  have hb := b.toNat_lt
  have hsmall : r.toNat + g.toNat * 256 + b.toNat * 65536 < 0x1000000 := by omega
  exact UInt32.toNat_ofNat_of_lt' (Nat.lt_of_lt_of_le hsmall (by decide))

theorem registerColor_wordOfBytes (channel : UInt8 → Rat) (r g b : UInt8) :
    registerColor channel (wordOfBytes r g b) = ⟨channel r, channel g, channel b⟩ := by
  have hr := r.toNat_lt
  have hg := g.toNat_lt
  have hb := b.toNat_lt
  have hbyte : ∀ {i : Nat} {c : UInt8}, i < 4 →
      (r.toNat + g.toNat * 256 + b.toNat * 65536) / 2 ^ (8 * i) % 256 = c.toNat →
      wordByte (wordOfBytes r g b) i = c := by
    intro i c hi hc
    rw [← UInt8.toNat_inj, toNat_wordByte _ hi, toNat_wordOfBytes, hc]
  rw [registerColor, hbyte (by decide) (c := r) (by omega), hbyte (by decide) (c := g) (by omega),
    hbyte (by decide) (c := b) (by omega)]

/-- The places of the bytes that make up a color. -/
def colorPlaces : List Nat := [0, 1, 2]

/-- The low 24 bits of a word are its three color bytes. -/
theorem low24_eq_iff (v w : UInt32) :
    v &&& 0xFFFFFF = w &&& 0xFFFFFF ↔ ∀ i ∈ colorPlaces, wordByte v i = wordByte w i := by
  have hlow : ∀ v : UInt32, (v &&& 0xFFFFFF).toNat = v.toNat % 2 ^ 24 := fun v =>
    (UInt32.toNat_and v 0xFFFFFF).trans (Nat.and_two_pow_sub_one_eq_mod v.toNat 24)
  have hbytes : (∀ i ∈ colorPlaces, wordByte v i = wordByte w i)
      ↔ wordByte v 0 = wordByte w 0 ∧ wordByte v 1 = wordByte w 1
        ∧ wordByte v 2 = wordByte w 2 := by
    simp [colorPlaces]
  rw [hbytes]
  simp only [← UInt8.toNat_inj, ← UInt32.toNat_inj, hlow, toNat_wordByte _ (show 0 < 4 by decide),
    toNat_wordByte _ (show 1 < 4 by decide), toNat_wordByte _ (show 2 < 4 by decide)]
  omega

theorem wordByte_and (v w : UInt32) (i : Nat) :
    wordByte (v &&& w) i = wordByte v i &&& wordByte w i := by
  rw [wordByte, UInt32.shiftRight_and, UInt32.toUInt8_and]
  rfl

/-- Where every byte of a mask is empty or full, comparing masked colors is comparing the bytes
under the mask. -/
theorem masked_low24_eq_iff {mask : UInt32}
    (hmask : ∀ i ∈ colorPlaces, wordByte mask i = 0 ∨ wordByte mask i = 0xFF) (v w : UInt32) :
    v &&& mask &&& 0xFFFFFF = w &&& mask &&& 0xFFFFFF
      ↔ ∀ i ∈ colorPlaces, wordByte mask i ≠ 0 → wordByte v i = wordByte w i := by
  rw [low24_eq_iff]
  refine forall₂_congr fun i hi => ?_
  rw [wordByte_and, wordByte_and]
  rcases hmask i hi with hempty | hfull
  · rw [hempty]
    simp
  · rw [hfull]
    have hall : ∀ b : UInt8, b &&& 0xFF = b := fun b => UInt8.and_neg_one
    rw [hall, hall]
    simp

/-- A color between black and white is rounded to the color of a word of three bytes. -/
theorem exists_word_quantize {c : Rgb} (h : c.InUnit) :
    ∃ w : UInt32, w < 0x1000000 ∧ c.map quantize = registerColor byteChannel w := by
  obtain ⟨r, hr⟩ := exists_byte_quantize h.1.1 h.1.2
  obtain ⟨g, hg⟩ := exists_byte_quantize h.2.1.1 h.2.1.2
  obtain ⟨b, hb⟩ := exists_byte_quantize h.2.2.1 h.2.2.2
  refine ⟨wordOfBytes r g b, ?_, ?_⟩
  · have hr := r.toNat_lt
    have hg := g.toNat_lt
    have hb := b.toNat_lt
    rw [UInt32.lt_iff_toNat_lt, toNat_wordOfBytes]
    show _ < 0x1000000
    omega
  · rw [registerColor_wordOfBytes, Rgb.map, hr, hg, hb]

end FixedFragment
