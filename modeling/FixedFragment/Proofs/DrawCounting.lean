import Mathlib.Algebra.Group.Nat.Defs
import FixedFragment.DrawStats

set_option autoImplicit false

/-!
# Counting draws

Each of the two counters counts its draws modulo `2 ^ 64` (`toNat_counter_recordAll`), so fewer
draws are counted exactly, and their order does not matter (`recordAll_perm`).
-/

namespace FixedFragment

namespace DrawStats

/-- The counter of the draws that kept an alpha test, or of those that did not. -/
def counter (s : DrawStats) (alphaTested : Bool) : UInt64 :=
  if alphaTested then s.alphaTested else s.nonAlphaTested

theorem ext_counter {s t : DrawStats} (h : ∀ b, s.counter b = t.counter b) : s = t := by
  obtain ⟨a, n⟩ := s
  obtain ⟨a', n'⟩ := t
  obtain rfl : a = a' := h true
  obtain rfl : n = n' := h false
  rfl

/-- A draw is counted by its own counter alone. -/
theorem toNat_counter_record (s : DrawStats) (draw b : Bool) :
    ((s.record draw).counter b).toNat = ((s.counter b).toNat + [draw].count b) % 2 ^ 64 := by
  by_cases h : draw = b
  · subst h
    rw [List.count_singleton_self]
    cases draw with
    | true => exact UInt64.toNat_add s.alphaTested 1
    | false => exact UInt64.toNat_add s.nonAlphaTested 1
  · have hother : (s.record draw).counter b = s.counter b := by
      cases draw <;> cases b <;> first | rfl | exact absurd rfl h
    rw [hother, List.count_singleton, beq_false_of_ne h]
    exact (Nat.mod_eq_of_lt (s.counter b).toNat_lt).symm

theorem toNat_counter_recordAll (s : DrawStats) (draws : List Bool) (b : Bool) :
    ((s.recordAll draws).counter b).toNat
      = ((s.counter b).toNat + draws.count b) % 2 ^ 64 := by
  induction draws generalizing s with
  | nil => exact (Nat.mod_eq_of_lt (s.counter b).toNat_lt).symm
  | cons draw draws ih =>
      show (((s.record draw).recordAll draws).counter b).toNat = _
      rw [ih, toNat_counter_record, Nat.mod_add_mod, Nat.add_assoc, ← List.count_append]
      rfl

theorem toNat_counter_new (b : Bool) : (({} : DrawStats).counter b).toNat = 0 := by
  cases b <;> rfl

/-- New counters count fewer than `2 ^ 64` draws exactly. -/
theorem toNat_counter_recordAll_new {draws : List Bool} (h : draws.length < 2 ^ 64) (b : Bool) :
    ((recordAll {} draws).counter b).toNat = draws.count b := by
  rw [toNat_counter_recordAll, toNat_counter_new, Nat.zero_add]
  exact Nat.mod_eq_of_lt (Nat.lt_of_le_of_lt List.count_le_length h)

theorem recordAll_perm {draws draws' : List Bool} (h : draws.Perm draws') (s : DrawStats) :
    s.recordAll draws = s.recordAll draws' := by
  refine ext_counter fun b => ?_
  rw [← UInt64.toNat_inj, toNat_counter_recordAll, toNat_counter_recordAll, h.count_eq]

end DrawStats

end FixedFragment
