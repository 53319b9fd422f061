import Mathlib.Algebra.Order.Ring.Nat
import Mathlib.Data.Bool.Count
import Mathlib.Data.Nat.ModEq
import FixedFragment.Proofs.DrawCounting

set_option autoImplicit false

/-!
# Draw statistics conserve events

A use of the counters sends them events, or it is a reading, and a reset is a reading that leaves
them empty. Modulo `2 ^ 64` no event is lost: what the resets of a run gave back and what a counter
holds at the end add up to its events (`accounted_modEq`). Between two readings the order of the
events does not matter (`run_block`). Main statement: `run_conserves`.
-/

namespace FixedFragment.DrawStats

/-! ## Events and readings -/

namespace Use

/-- The events of a use, each named by its counter: `true` for the draws that kept an alpha test.
A draw is one event outside of clear mode and none in it. -/
def events : Use → List Bool
  | record alphaTested => [alphaTested]
  | countAlphaTested => [true]
  | countNonAlphaTested => [false]
  | draw s => if s.clearMode then [] else [(Decisions.ofState s).alphaTest.isSome]
  | snapshot | reset => []

/-- The use gives back what the counters hold. -/
def isReading : Use → Bool
  | snapshot | reset => true
  | record _ | countAlphaTested | countNonAlphaTested | draw _ => false

theorem eq_snapshot_or_reset {u : Use} (hu : u.isReading = true) : u = snapshot ∨ u = reset := by
  cases u with
  | snapshot => exact Or.inl rfl
  | reset => exact Or.inr rfl
  | record _ | countAlphaTested | countNonAlphaTested | draw _ => exact absurd hu Bool.false_ne_true

end Use

/-- The events of uses in order. -/
def eventsOf (us : List Use) : List Bool := us.flatMap Use.events

/-- What resets gave back, out of all that was given back to the readings among `us`. -/
def resetValues (us : List Use) (given : List DrawStats) : List DrawStats :=
  (((us.filter Use.isReading).zip given).filter fun r => r.1 = .reset).map Prod.snd

/-! ## Runs -/

section

variable {s : DrawStats} {u : Use} {us vs : List Use}

/-- A use that is no reading counts its events. -/
theorem step_event (s : DrawStats) (hu : u.isReading = false) :
    s.step u = (s.recordAll u.events, none) := by
  cases u with
  | record b => rfl
  | countAlphaTested => rfl
  | countNonAlphaTested => rfl
  | draw st =>
      have hdraws : st.draws = (Use.draw st).events := by
        rw [PipelineState.draws, Decisions.draws, Decisions.clearMode_ofState]
        rfl
      exact congrArg (fun draws => (s.recordAll draws, none)) hdraws
  | snapshot | reset => exact absurd hu.symm Bool.false_ne_true

theorem run_event (s : DrawStats) (hu : u.isReading = false) (us : List Use) :
    s.run (u :: us) = (s.recordAll u.events).run us := by
  rw [run, step_event s hu]
  rfl

theorem run_snapshot (s : DrawStats) (us : List Use) :
    s.run (.snapshot :: us) = ((s.run us).1, s :: (s.run us).2) := rfl

theorem run_reset (s : DrawStats) (us : List Use) :
    s.run (.reset :: us) = ((run {} us).1, s :: (run {} us).2) := rfl

theorem run_append (s : DrawStats) (us vs : List Use) :
    s.run (us ++ vs)
      = (((s.run us).1.run vs).1, (s.run us).2 ++ ((s.run us).1.run vs).2) := by
  induction us generalizing s with
  | nil => rfl
  | cons u us ih =>
      show (((s.step u).1.run (us ++ vs)).1,
        (s.step u).2.toList ++ ((s.step u).1.run (us ++ vs)).2) = _
      rw [ih, ← List.append_assoc]
      rfl

/-- Uses without a reading among them count all their events. -/
theorem run_block (s : DrawStats) (hus : ∀ u ∈ us, u.isReading = false) :
    s.run us = (s.recordAll (eventsOf us), []) := by
  induction us generalizing s with
  | nil => rfl
  | cons u us ih =>
      rw [run_event s (hus u List.mem_cons_self), ih _ fun v hv => hus v (List.mem_cons_of_mem u hv),
        ← recordAll_append]
      rfl

/-- Induction along a run: a use counts its events, or it is a reading, and behind a reset the run
goes on with new counters. -/
@[elab_as_elim]
theorem run_induction {motive : DrawStats → List Use → Prop} (nil : ∀ s, motive s [])
    (event : ∀ s u us, u.isReading = false → motive (s.recordAll u.events) us →
      motive s (u :: us))
    (snapshot : ∀ s us, motive s us → motive s (.snapshot :: us))
    (reset : ∀ s us, motive {} us → motive s (.reset :: us)) (s : DrawStats) (us : List Use) :
    motive s us := by
  induction us generalizing s with
  | nil => exact nil s
  | cons u us ih =>
      -- Uses that are no readings differ only in the events they send.
      cases hu : u.isReading with
      | false => exact event s u us hu (ih _)
      | true =>
          obtain rfl | rfl := Use.eq_snapshot_or_reset hu
          · exact snapshot s us (ih s)
          · exact reset s us (ih {})

/-- Each reading gives back one value. -/
theorem length_run (s : DrawStats) (us : List Use) :
    (s.run us).2.length = (us.filter Use.isReading).length := by
  induction s, us using run_induction with
  | nil s => rfl
  | event s u us hu ih => rw [run_event s hu, ih, List.filter_cons_of_neg (by simp [hu])]
  | snapshot s us ih => exact congrArg (· + 1) ih
  | reset s us ih => exact congrArg (· + 1) ih

/-! ## Conservation -/

/-- What the resets of a run gave back of one counter, and what it holds at the end. -/
def accounted (s : DrawStats) (us : List Use) (b : Bool) : Nat :=
  ((resetValues us (s.run us).2).map fun g => (g.counter b).toNat).sum
    + ((s.run us).1.counter b).toNat

theorem accounted_event (s : DrawStats) (hu : u.isReading = false) (us : List Use) (b : Bool) :
    s.accounted (u :: us) b = (s.recordAll u.events).accounted us b := by
  rw [accounted, run_event s hu, resetValues, List.filter_cons_of_neg (by simp [hu])]
  rfl

theorem accounted_snapshot (s : DrawStats) (us : List Use) (b : Bool) :
    s.accounted (.snapshot :: us) b = s.accounted us b := rfl

theorem accounted_reset (s : DrawStats) (us : List Use) (b : Bool) :
    s.accounted (.reset :: us) b = (s.counter b).toNat + accounted {} us b :=
  Nat.add_assoc _ _ _

theorem count_eventsOf_cons (u : Use) (us : List Use) (b : Bool) :
    (eventsOf (u :: us)).count b = u.events.count b + (eventsOf us).count b :=
  List.count_append

/-- Modulo `2 ^ 64` a counter accounts for what it held before and for all its events. -/
theorem accounted_modEq (s : DrawStats) (us : List Use) (b : Bool) :
    s.accounted us b ≡ (s.counter b).toNat + (eventsOf us).count b [MOD 2 ^ 64] := by
  induction s, us using run_induction with
  | nil s => exact congrArg (· % 2 ^ 64) (Nat.zero_add _)
  | event s u us hu ih =>
      have hcounted : ((s.recordAll u.events).counter b).toNat
          ≡ (s.counter b).toNat + u.events.count b [MOD 2 ^ 64] := by
        rw [toNat_counter_recordAll]
        exact Nat.mod_modEq _ _
      rw [accounted_event s hu, count_eventsOf_cons, ← Nat.add_assoc]
      exact ih.trans (hcounted.add_right _)
  | snapshot s us ih =>
      rw [accounted_snapshot, count_eventsOf_cons]
      simpa [Use.events] using ih
  | reset s us ih =>
      rw [accounted_reset, count_eventsOf_cons]
      simpa [Use.events, toNat_counter_new] using ih.add_left (s.counter b).toNat

/-! ## Totals -/

/-- The number of draws in both counters. -/
def drawn (s : DrawStats) : Nat := s.alphaTested.toNat + s.nonAlphaTested.toNat

theorem drawn_recordAll_le (s : DrawStats) (draws : List Bool) :
    (s.recordAll draws).drawn ≤ s.drawn + draws.length := by
  have hcounter (b : Bool) :
      ((s.recordAll draws).counter b).toNat ≤ (s.counter b).toNat + draws.count b := by
    rw [toNat_counter_recordAll]
    exact Nat.mod_le _ _
  have halpha := hcounter true
  have hother := hcounter false
  have hlength := List.count_true_add_count_false draws
  show ((s.recordAll draws).counter true).toNat + ((s.recordAll draws).counter false).toNat
    ≤ (s.counter true).toNat + (s.counter false).toNat + draws.length
  omega

theorem length_eventsOf_cons (u : Use) (us : List Use) :
    (eventsOf (u :: us)).length = u.events.length + (eventsOf us).length :=
  List.length_append

/-- Nothing that a run gives back has more draws than the counters held before and were sent. -/
theorem drawn_le_of_mem_run (s : DrawStats) (us : List Use) :
    ∀ g ∈ (s.run us).2, g.drawn ≤ s.drawn + (eventsOf us).length := by
  induction s, us using run_induction with
  | nil s =>
      intro g hg
      exact absurd hg List.not_mem_nil
  | event s u us hu ih =>
      intro g hg
      rw [run_event s hu] at hg
      have hlater := ih g hg
      have hnow := s.drawn_recordAll_le u.events
      rw [length_eventsOf_cons]
      omega
  | snapshot s us ih =>
      intro g hg
      rw [run_snapshot, List.mem_cons] at hg
      rw [length_eventsOf_cons]
      rcases hg with rfl | hg
      · omega
      · have hlater := ih g hg
        omega
  | reset s us ih =>
      intro g hg
      rw [run_reset, List.mem_cons] at hg
      rw [length_eventsOf_cons]
      rcases hg with rfl | hg
      · omega
      · have hlater := ih g hg
        have hempty : ({} : DrawStats).drawn = 0 := rfl
        omega

theorem total_of_drawn_lt (h : s.drawn < 2 ^ 64) :
    ∃ n, s.total = .ok n ∧ n.toNat = s.drawn := by
  refine ⟨s.alphaTested + s.nonAlphaTested, if_pos h, ?_⟩
  rw [UInt64.toNat_add]
  exact Nat.mod_eq_of_lt h

end

/-! ## Whole runs -/

/-- **Draw statistics conserve events.** After any uses of new counters, one value was given back
to each reading, and a snapshot gives one more. For each counter the values given back by resets
and the last snapshot add up, modulo `2 ^ 64`, to its events: one for each draw outside of clear
mode, in the counter that says whether an alpha test is alive. Fewer than `2 ^ 64` events have a
total at every reading. Events between two readings can come in any order. -/
theorem run_conserves (us : List Use) :
    let last := (run {} us).1
    let given := (run {} us).2
    (given.length = (us.filter Use.isReading).length
        ∧ (run {} (us ++ [.snapshot])).2 = given ++ [last])
      ∧ (∀ b, ((resetValues us given).map fun g => (g.counter b).toNat).sum
            + (last.counter b).toNat ≡ (eventsOf us).count b [MOD 2 ^ 64])
      ∧ ((eventsOf us).length < 2 ^ 64 →
          ∀ g ∈ given ++ [last], ∃ n, g.total = .ok n ∧ n.toNat = g.drawn)
      ∧ ∀ block block' later : List Use, (∀ u ∈ block, u.isReading = false) →
          block.Perm block' →
          run {} (us ++ block ++ later) = run {} (us ++ block' ++ later) := by
  intro last given
  have hlast : (run {} (us ++ [.snapshot])).2 = given ++ [last] :=
    congrArg Prod.snd (run_append {} us [.snapshot])
  refine ⟨⟨length_run {} us, hlast⟩, fun b => ?_, fun hfew g hg => ?_,
    fun block block' later hblock hperm => ?_⟩
  · have haccounted := accounted_modEq {} us b
    rwa [toNat_counter_new, Nat.zero_add] at haccounted
  · -- A snapshot at the end makes what the counters hold one more value given back.
    rw [← hlast] at hg
    have hevents : eventsOf (us ++ [.snapshot]) = eventsOf us :=
      List.flatMap_append.trans (List.append_nil _)
    have hdrawn := drawn_le_of_mem_run {} (us ++ [.snapshot]) g hg
    rw [hevents, show ({} : DrawStats).drawn = 0 from rfl, Nat.zero_add] at hdrawn
    exact total_of_drawn_lt (Nat.lt_of_le_of_lt hdrawn hfew)
  · have hblock' : ∀ u ∈ block', u.isReading = false :=
      fun u hu => hblock u (hperm.mem_iff.mpr hu)
    have hevents : (eventsOf block).Perm (eventsOf block') := hperm.flatMap_right Use.events
    rw [run_append _ _ later, run_append _ _ later, run_append _ us, run_append _ us,
      run_block _ hblock, run_block _ hblock', recordAll_perm hevents]

/-- A draw in clear mode is no event, and one with a living alpha test is an event of the first
counter wherever it stands among others. -/
theorem run_conserves_reordered :
    let us : List Use := [.record true, .draw { clearMode := true }, .snapshot, .reset]
    let tested : PipelineState := { alphaTest := { enabled := true, func := .less } }
    let block : List Use := [.draw tested, .countNonAlphaTested]
    let block' : List Use := [.countNonAlphaTested, .draw tested]
    (eventsOf us).length < 2 ^ 64
      ∧ (∀ g ∈ (run {} us).2 ++ [(run {} us).1], ∃ n, g.total = .ok n ∧ n.toNat = g.drawn)
      ∧ (∀ u ∈ block, u.isReading = false) ∧ block.Perm block'
      ∧ run {} (us ++ block ++ [.reset]) = run {} (us ++ block' ++ [.reset])
      ∧ run {} (us ++ block ++ [.reset]) = (⟨0, 0⟩, [⟨1, 0⟩, ⟨1, 0⟩, ⟨1, 1⟩]) := by
  intro us tested block block'
  have hfew : (eventsOf us).length < 2 ^ 64 := by decide
  have hblock : ∀ u ∈ block, u.isReading = false := by simp [block, Use.isReading]
  have hperm : block.Perm block' := List.Perm.swap _ _ _
  obtain ⟨-, -, htotal, horder⟩ := run_conserves us
  exact ⟨hfew, htotal hfew, hblock, hperm, horder block block' [.reset] hblock hperm, rfl⟩

end FixedFragment.DrawStats
