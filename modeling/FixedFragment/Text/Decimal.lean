set_option autoImplicit false

/-!
# Decimal numbers

The decimal text of a natural number, without sign and without leading zeros, and the reader of
exactly these texts.
-/

namespace FixedFragment.Decimal

/-- The decimal digits of `n`, most significant first. -/
def digits (n : Nat) : List Char := Nat.toDigits 10 n

/-- The decimal text of `n`. -/
def text (n : Nat) : String := String.ofList (digits n)

/-- Reads a nonempty run of digits whose first digit is zero only if it is the whole number. -/
def read? (cs : List Char) : Option Nat :=
  if cs ≠ [] ∧ cs.all Char.isDigit ∧ (cs.head? = some '0' → cs = ['0']) then
    some (Nat.ofDigitChars 10 cs 0)
  else
    none

theorem toList_text (n : Nat) : (text n).toList = digits n :=
  String.toList_ofList

theorem digits_ne_nil (n : Nat) : digits n ≠ [] := Nat.toDigits_ne_nil

theorem all_isDigit_digits (n : Nat) : (digits n).all Char.isDigit = true :=
  List.all_eq_true.mpr fun _ hc => Nat.isDigit_of_mem_toDigits (by decide) (by decide) hc

/-- Only zero is written with a leading zero. -/
theorem head?_digits_ne_zero {n : Nat} (hn : 0 < n) : (digits n).head? ≠ some '0' := by
  induction n using Nat.strongRecOn with
  | ind n ih =>
      by_cases hsmall : n < 10
      · rw [digits, Nat.toDigits_of_lt_base hsmall]
        have hdigit : ∀ m : Fin 10, 0 < m.val → m.val.digitChar ≠ '0' := by decide
        simpa using hdigit ⟨n, hsmall⟩ hn
      · have hpos : 0 < n / 10 := Nat.div_pos (by omega) (by decide)
        have hhead := ih (n / 10) (Nat.div_lt_self hn (by decide)) hpos
        rw [digits, Nat.toDigits_of_base_le (by decide) (by omega), List.head?_append]
        cases hdigits : (Nat.toDigits 10 (n / 10)).head? with
        | none => exact absurd (List.head?_eq_none_iff.mp hdigits) (digits_ne_nil (n / 10))
        | some c =>
            rw [digits, hdigits] at hhead
            simpa using hhead

/-- Reading undoes writing. -/
theorem read?_digits (n : Nat) : read? (digits n) = some n := by
  have hzero : (digits n).head? = some '0' → digits n = ['0'] := by
    intro hhead
    cases n with
    | zero => rfl
    | succ n => exact absurd hhead (head?_digits_ne_zero (Nat.succ_pos n))
  rw [read?, if_pos ⟨digits_ne_nil n, all_isDigit_digits n, hzero⟩]
  exact congrArg some Nat.ofDigitChars_ten_toDigits

/-! ## Numerals -/

/-- The decimal text of some number: digits only, so without a sign, and no leading zeros. -/
structure IsNumeral (cs : List Char) : Prop where
  ne_nil : cs ≠ []
  all_isDigit : cs.all Char.isDigit = true
  no_leading_zero : cs.head? = some '0' → cs = ['0']

theorem read?_eq_some_iff_isNumeral {cs : List Char} {n : Nat} :
    read? cs = some n ↔ IsNumeral cs ∧ Nat.ofDigitChars 10 cs 0 = n := by
  constructor
  · intro h
    obtain ⟨⟨hne, hdigits, hzero⟩, hn⟩ := Option.ite_none_right_eq_some.mp h
    exact ⟨⟨hne, hdigits, hzero⟩, Option.some.inj hn⟩
  · rintro ⟨h, rfl⟩
    exact if_pos ⟨h.ne_nil, h.all_isDigit, h.no_leading_zero⟩

theorem isNumeral_digits (n : Nat) : IsNumeral (digits n) :=
  (read?_eq_some_iff_isNumeral.mp (read?_digits n)).1

theorem sub_zero_lt_ten {c : Char} (hc : c.isDigit = true) : c.toNat - '0'.toNat < 10 := by
  have hhigh : c.toNat ≤ 57 := (Char.isDigit_iff_toNat.mp hc).2
  show c.toNat - 48 < 10
  omega

theorem digits_of_isDigit {c : Char} (hc : c.isDigit = true) :
    digits (c.toNat - '0'.toNat) = [c] := by
  have hsmall := sub_zero_lt_ten hc
  rw [digits, Nat.toDigits_of_lt_base hsmall]
  refine congrArg (fun d => [d]) (Char.toNat_inj.mp ?_)
  rw [Nat.toNat_digitChar_of_lt_ten hsmall]
  have hlow : 48 ≤ c.toNat := (Char.isDigit_iff_toNat.mp hc).1
  show 48 + (c.toNat - 48) = c.toNat
  omega

/-- More digits behind those of a positive number are the digits of what is read on from it. -/
theorem digits_append {ds : List Char} (hds : ds.all Char.isDigit = true) {n : Nat} (hn : 0 < n) :
    digits n ++ ds = digits (Nat.ofDigitChars 10 ds n) := by
  induction ds generalizing n with
  | nil => exact List.append_nil _
  | cons c ds ih =>
      rw [List.all_cons, Bool.and_eq_true] at hds
      have hnext : 0 < 10 * n + (c.toNat - '0'.toNat) := by omega
      have hone : digits n ++ [c] = digits (10 * n + (c.toNat - '0'.toNat)) := by
        rw [← digits_of_isDigit hds.1]
        exact Nat.toDigits_append_toDigits (by decide) hn (sub_zero_lt_ten hds.1)
      rw [Nat.ofDigitChars_cons, ← ih hds.2 hnext, ← hone, List.append_assoc]
      rfl

/-- A numeral is the text of what it is read as. -/
theorem IsNumeral.eq_digits {cs : List Char} (h : IsNumeral cs) :
    cs = digits (Nat.ofDigitChars 10 cs 0) := by
  cases cs with
  | nil => exact absurd rfl h.ne_nil
  | cons c ds =>
      have hall := h.all_isDigit
      rw [List.all_cons, Bool.and_eq_true] at hall
      rw [Nat.ofDigitChars_cons, Nat.mul_zero, Nat.zero_add]
      rcases Nat.eq_zero_or_pos (c.toNat - '0'.toNat) with hzero | hpos
      · have hc : [c] = ['0'] := by rw [← digits_of_isDigit hall.1, hzero]; rfl
        obtain rfl : c = '0' := List.head_eq_of_cons_eq hc
        obtain rfl : ds = [] := List.tail_eq_of_cons_eq (h.no_leading_zero rfl)
        rfl
      · rw [← digits_append hall.2 hpos, digits_of_isDigit hall.1]
        rfl

/-- Reading accepts exactly what writing produces. -/
theorem read?_eq_some_iff {cs : List Char} {n : Nat} : read? cs = some n ↔ cs = digits n := by
  constructor
  · intro h
    obtain ⟨hcs, rfl⟩ := read?_eq_some_iff_isNumeral.mp h
    exact hcs.eq_digits
  · rintro rfl
    exact read?_digits n

end FixedFragment.Decimal
