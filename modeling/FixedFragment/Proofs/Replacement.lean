set_option autoImplicit false

/-!
# Replacing in a text

`String.replace` finds a pattern from the left and puts another text for each occurrence. What comes
out is described by `Replaced`, character by character (`replaced_replace`), and from there by
equations for parts of a text: a text without the pattern stays, a pattern in front is exchanged,
and a text can be cut wherever no occurrence reaches across the cut.
-/

namespace FixedFragment.Text

/-! ## Occurrences from the left -/

/-- `t` is `s` with `new` for each `old`, the occurrences of `old` being taken from the left. -/
inductive Replaced (old new : List Char) : List Char → List Char → Prop where
  | nil : Replaced old new [] []
  | hit {s t : List Char} (h : Replaced old new s t) : Replaced old new (old ++ s) (new ++ t)
  | miss {c : Char} {s t : List Char} (hc : ¬old <+: c :: s) (h : Replaced old new s t) :
      Replaced old new (c :: s) (c :: t)

section

variable {old new s t u : List Char}

/-- There is one result. -/
theorem Replaced.unique (hold : old ≠ []) (ht : Replaced old new s t) (hu : Replaced old new s u) :
    t = u := by
  induction ht generalizing u with
  | nil =>
      generalize hs : ([] : List Char) = s at hu
      cases hu with
      | nil => rfl
      | hit _ => exact absurd (List.append_eq_nil_iff.mp hs.symm).1 hold
      | miss _ _ => cases hs
  | @hit s t _ ih =>
      generalize hs : old ++ s = s' at hu
      cases hu with
      | nil => exact absurd (List.append_eq_nil_iff.mp hs).1 hold
      | hit h => rw [ih (List.append_cancel_left hs ▸ h)]
      | miss hc _ => exact absurd ⟨s, hs⟩ hc
  | @miss c s t hc _ ih =>
      generalize hs : c :: s = s' at hu
      cases hu with
      | nil => cases hs
      | @hit s' _ _ => exact absurd ⟨s', hs.symm⟩ hc
      | miss _ h =>
          obtain ⟨rfl, rfl⟩ := List.cons.inj hs
          rw [ih h]

theorem replaced_of_absent (h : ¬old <:+: s) : Replaced old new s s := by
  induction s with
  | nil => exact .nil
  | cons c s ih =>
      have hrest : ¬old <:+: s := fun hs => h (hs.trans (List.suffix_cons c s).isInfix)
      exact .miss (fun hc => h hc.isInfix) (ih hrest)

/-- Characters at none of which the pattern begins stay. -/
theorem Replaced.append_left {r : List Char}
    (hr : ∀ r₁ r₂, r = r₁ ++ r₂ → r₂ ≠ [] → ¬old <+: r₂ ++ s) (h : Replaced old new s t) :
    Replaced old new (r ++ s) (r ++ t) := by
  induction r with
  | nil => exact h
  | cons c r ih =>
      refine .miss (hr [] (c :: r) rfl (List.cons_ne_nil c r)) (ih fun r₁ r₂ heq hne => ?_)
      exact hr (c :: r₁) r₂ (by rw [heq, List.cons_append]) hne

/-- No occurrence of the pattern has some characters at the end of `s` and some at the start of
`t`. -/
def Parted (pattern s t : List Char) : Prop :=
  ∀ u v, u ≠ [] → v ≠ [] → u <:+ s → v <+: t → pattern ≠ u ++ v

theorem Parted.of_suffix (h : Parted old s t) (hu : u <:+ s) : Parted old u t :=
  fun _ _ hne hne' hsuffix hfront => h _ _ hne hne' (hsuffix.trans hu) hfront

/-- The last character in front of the cut can only be the last one of the pattern. -/
theorem parted_of_getLast? (h : s.getLast?.all (· ∉ old.dropLast) = true) : Parted old s t := by
  rintro u v hu hv ⟨s', rfl⟩ - rfl
  rw [List.getLast?_append, List.getLast?_eq_some_getLast hu] at h
  refine of_decide_eq_true h ?_
  rw [List.dropLast_append_of_ne_nil hv]
  exact List.mem_append_left _ (List.getLast_mem hu)

/-- The first character behind the cut can only be the first one of the pattern. -/
theorem parted_of_head? (h : t.head?.all (· ∉ old.tail) = true) : Parted old s t := by
  rintro u v hu hv - ⟨t', rfl⟩ rfl
  rw [List.head?_append, List.head?_eq_some_head hv] at h
  refine of_decide_eq_true h ?_
  rw [List.tail_append_of_ne_nil hu]
  exact List.mem_append_right _ (List.head_mem hv)

/-- A text is replaced in two parts if no occurrence reaches across the cut. -/
theorem Replaced.append {s' t' : List Char} (hs : Replaced old new s s')
    (ht : Replaced old new t t') (h : Parted old s t) : Replaced old new (s ++ t) (s' ++ t') := by
  induction hs with
  | nil => exact ht
  | @hit s s' _ ih =>
      rw [List.append_assoc, List.append_assoc]
      exact .hit (ih (h.of_suffix (List.suffix_append old s)))
  | @miss c s s' hc _ ih =>
      refine .miss ?_ (ih (h.of_suffix (List.suffix_cons c s)))
      rintro ⟨r, hr⟩
      -- The occurrence ends in front of the cut, or has characters on both sides.
      rcases List.append_eq_append_iff.mp (hr.trans (List.cons_append).symm) with
        ⟨v, hv, -⟩ | ⟨v, hv, hv'⟩
      · exact hc ⟨v, hv.symm⟩
      · by_cases hnil : v = []
        · rw [hnil, List.append_nil] at hv
          exact hc (hv ▸ List.prefix_refl _)
        · exact h (c :: s) v (List.cons_ne_nil c s) hnil (List.suffix_refl _) ⟨r, hv'.symm⟩ hv

end

/-! ## The library function -/

open String.Slice.Pattern.Model

/-- What one step of the search writes. -/
def written (new : String) {s : String.Slice} : String.Slice.Pattern.SearchStep s → String
  | .matched _ _ => new
  | .rejected start stop => (s.slice! start stop).copy

/-- The pattern does not begin at a position where the search finds none. -/
theorem not_prefix_of_not_matchesAt {old : String} {s : String.Slice} {pos : s.Pos}
    {before after : String} (hpos : pos.Splits before after) (h : ¬MatchesAt old pos) :
    ¬old.toList <+: after.toList := by
  rintro ⟨r, hr⟩
  have hafter : after = old ++ String.ofList r := by
    rw [← String.toList_inj, String.toList_append, String.toList_ofList, hr]
  exact h (ForwardStringSearcher.matchesAt_iff_splits.mpr ⟨before, _, hafter ▸ hpos⟩)

/-- The steps of a search write what is behind its start, with the pattern replaced. -/
theorem replaced_of_search {old : String} (new : String) {s : String.Slice} {pos : s.Pos}
    {steps : List (String.Slice.Pattern.SearchStep s)} (h : IsValidSearchFrom old pos steps)
    {before after : String} (hpos : pos.Splits before after) :
    Replaced old.toList new.toList after.toList
      (String.join (steps.map (written new))).toList := by
  induction h generalizing before after with
  | endPos =>
      obtain rfl : after = "" := hpos.eq_endPos_iff.mp rfl
      exact .nil
  | @matched steps start stop hmatch _ ih =>
      obtain ⟨_, rest, hstart, hstop⟩ :=
        ForwardStringSearcher.isLongestMatchAt_iff_splits.mp hmatch
      rw [hpos.eq_right hstart, List.map_cons, String.join_cons, String.toList_append,
        String.toList_append]
      exact .hit (ih hstop)
  | @mismatched steps start stop hlt hno _ ih =>
      have hstop := stop.splits
      obtain ⟨r, -, hbefore, rfl⟩ := (hpos.lt_iff_exists_eq_append hstop).mp hlt
      rw [hbefore] at hstop
      obtain ⟨_, hwritten⟩ := String.Slice.copy_slice_eq_iff_splits.mpr ⟨before, _, hpos, hstop⟩
      rw [String.Slice.slice_eq_slice!] at hwritten
      rw [List.map_cons, String.join_cons, String.toList_append, String.toList_append, written,
        hwritten]
      refine (ih hstop).append_left fun r₁ r₂ hr hne => ?_
      -- The search passed over the position behind `r₁`.
      obtain rfl : r = String.ofList r₁ ++ String.ofList r₂ := by
        rw [← String.toList_inj, hr, String.toList_append, String.toList_ofList,
          String.toList_ofList]
      have hcopy : s.copy = before ++ String.ofList r₁
          ++ (String.ofList r₂ ++ (s.sliceFrom stop).copy) := by
        rw [hpos.eq_append, String.append_assoc, String.append_assoc]
      have hp := String.Slice.Pos.splits_ofEqAppend hcopy
      have hbehind : start ≤ String.Slice.Pos.ofEqAppend hcopy := by
        rw [hpos.le_iff_exists_eq_append hp]
        exact ⟨_, rfl, String.append_assoc ..⟩
      have hbelow : String.Slice.Pos.ofEqAppend hcopy < stop := by
        rw [hp.lt_iff_exists_eq_append hstop]
        exact ⟨_, by simpa using hne, (String.append_assoc ..).symm, rfl⟩
      have hfront := not_prefix_of_not_matchesAt hp (hno _ hbehind hbelow)
      rwa [String.toList_append, String.toList_ofList] at hfront

theorem foldl_written (new : String) {s : String.Slice}
    {write : String → String.Slice.Pattern.SearchStep s → String}
    (hwrite : ∀ sofar step, write sofar step = sofar ++ written new step)
    (steps : List (String.Slice.Pattern.SearchStep s)) (sofar : String) :
    steps.foldl write sofar = sofar ++ String.join (steps.map (written new)) := by
  induction steps generalizing sofar with
  | nil => exact String.append_empty.symm
  | cons step steps ih =>
      rw [List.foldl_cons, ih, hwrite, List.map_cons, String.join_cons, String.append_assoc]

/-- The library function replaces the occurrences of a pattern that are found from the left. -/
theorem replaced_replace {old : String} (hold : old ≠ "") (new s : String) :
    Replaced old.toList new.toList s.toList (s.replace old new).toList := by
  have hsearch :=
    (ForwardStringSearcher.lawfulToForwardSearcherModel hold).isValidSearchFrom_toList s.toSlice
  have hreplaced := replaced_of_search new hsearch (String.Slice.splits_startPos s.toSlice)
  rw [String.copy_toSlice] at hreplaced
  rw [String.replace, String.Slice.replace, ← Std.Iter.foldl_toList, foldl_written new]
  · rwa [String.empty_append]
  · intro sofar step
    cases step with
    | matched _ _ => exact congrArg (sofar ++ ·) String.copy_toSlice
    | rejected _ _ => rfl

/-! ## Equations -/

section

variable {old : String}

theorem replace_eq_of_replaced (hold : old ≠ "") {new s t : String}
    (h : Replaced old.toList new.toList s.toList t.toList) : s.replace old new = t := by
  have hne : old.toList ≠ [] := fun hnil => hold (String.toList_eq_nil_iff.mp hnil)
  exact String.toList_inj.mp ((replaced_replace hold new s).unique hne h)

/-- A text without the pattern stays as it is. -/
theorem replace_eq_self (hold : old ≠ "") (new : String) {s : String}
    (h : s.contains old = false) : s.replace old new = s :=
  replace_eq_of_replaced hold (replaced_of_absent (String.contains_string_eq_false_iff.mp h))

/-- The pattern in front of a text is exchanged. -/
theorem replace_append_self (hold : old ≠ "") (new s : String) :
    (old ++ s).replace old new = new ++ s.replace old new := by
  refine replace_eq_of_replaced hold ?_
  rw [String.toList_append, String.toList_append]
  exact .hit (replaced_replace hold new s)

/-- Replacing goes by parts where no occurrence reaches across the cut. -/
theorem replace_append (hold : old ≠ "") (new : String) {s t : String}
    (h : Parted old.toList s.toList t.toList) :
    (s ++ t).replace old new = s.replace old new ++ t.replace old new := by
  refine replace_eq_of_replaced hold ?_
  rw [String.toList_append, String.toList_append]
  exact (replaced_replace hold new s).append (replaced_replace hold new t) h

/-- Searching goes by parts where no occurrence reaches across the cut. -/
theorem contains_append_eq_false {s t : String} (h : Parted old.toList s.toList t.toList)
    (hs : s.contains old = false) (ht : t.contains old = false) :
    (s ++ t).contains old = false := by
  rw [String.contains_string_eq_false_iff] at *
  rw [String.toList_append, List.infix_append_iff_ne_nil]
  rintro (hfound | hfound | ⟨u, v, hu, hv, heq, hsuffix, hfront⟩)
  · exact hs hfound
  · exact ht hfound
  · exact h u v hu hv hsuffix hfront heq

/-- Where a part of the pattern is not found, the pattern is not found. -/
theorem contains_eq_false_of_part {part s : String} (h : part.toList <:+: old.toList)
    (hs : s.contains part = false) : s.contains old = false := by
  rw [String.contains_string_eq_false_iff] at *
  exact fun hfound => hs (h.trans hfound)

/-- Where a character of the pattern is missing, the pattern is not found. -/
theorem contains_eq_false_of_mem {c : Char} {s : String} (hc : c ∈ old.toList)
    (hs : c ∉ s.toList) : s.contains old = false := by
  rw [String.contains_string_eq_false_iff]
  exact fun hfound => hs (hfound.subset hc)

theorem contains_empty (hold : old ≠ "") : "".contains old = false := by
  rw [String.contains_string_eq_false_iff]
  exact fun h => hold (String.toList_eq_nil_iff.mp (List.infix_nil.mp h))

end

/-! ## Parts of a text -/

/-- `s` becomes `t`, whatever stands behind it. -/
def Becomes (old new s t : String) : Prop :=
  ∀ rest, (s ++ rest).replace old new = t ++ rest.replace old new

section

variable {old new s t : String}

theorem becomes_self (hold : old ≠ "") (new : String) : Becomes old new old new :=
  replace_append_self hold new

theorem becomes_of_contains_eq_false (hold : old ≠ "") (h : s.contains old = false)
    (hlast : s.toList.getLast?.all (· ∉ old.toList.dropLast) = true) : Becomes old new s s := by
  intro rest
  rw [replace_append hold new (parted_of_getLast? hlast), replace_eq_self hold new h]

theorem Becomes.append {s' t' : String} (h : Becomes old new s t) (h' : Becomes old new s' t') :
    Becomes old new (s ++ s') (t ++ t') := by
  intro rest
  rw [String.append_assoc, h, h', String.append_assoc]

theorem Becomes.replace_eq (hold : old ≠ "") (h : Becomes old new s t) :
    s.replace old new = t := by
  have hrest := h ""
  rwa [String.append_empty, replace_eq_self hold new (contains_empty hold), String.append_empty]
    at hrest

/-- One occurrence is exchanged. -/
theorem replace_between (hold : old ≠ "") (new : String) {front back : String}
    (hfront : front.contains old = false)
    (hcut : front.toList.getLast?.all (· ∉ old.toList.dropLast) = true)
    (hback : back.contains old = false) :
    (front ++ (old ++ back)).replace old new = front ++ (new ++ back) := by
  rw [becomes_of_contains_eq_false hold hfront hcut, becomes_self hold,
    replace_eq_self hold new hback]

theorem becomes_join {α : Type} {f g : α → String} {as : List α}
    (h : ∀ a ∈ as, Becomes old new (f a) (g a)) :
    Becomes old new (String.join (as.map f)) (String.join (as.map g)) := by
  induction as with
  | nil => exact fun rest => by rw [List.map_nil, List.map_nil, String.join_nil,
      String.empty_append, String.empty_append]
  | cons a as ih =>
      rw [List.forall_mem_cons] at h
      rw [List.map_cons, List.map_cons, String.join_cons, String.join_cons]
      exact h.1.append (ih h.2)

end

/-! ## Lines -/

/-- Lines with their line ends, one after another. -/
def joinLines (ls : List String) : String := String.join (ls.map (· ++ "\n"))

theorem joinLines_append (ls ls' : List String) :
    joinLines (ls ++ ls') = joinLines ls ++ joinLines ls' := by
  rw [joinLines, List.map_append, String.join_append]
  rfl

section

variable {old : String}

theorem parted_lineEnd (hline : '\n' ∉ old.toList) (s : String) :
    Parted old.toList s.toList "\n".toList :=
  parted_of_head? (decide_eq_true fun hmem => hline (List.mem_of_mem_tail hmem))

theorem parted_behind_lineEnd (hline : '\n' ∉ old.toList) (l : String) (t : List Char) :
    Parted old.toList (l ++ "\n").toList t := by
  refine parted_of_getLast? ?_
  rw [String.toList_append, List.getLast?_append]
  exact decide_eq_true fun hmem => hline ((List.dropLast_sublist _).subset hmem)

theorem contains_lineEnd (hold : old ≠ "") (hline : '\n' ∉ old.toList) :
    "\n".contains old = false := by
  rw [String.contains_string_eq_false_iff]
  intro hfound
  obtain ⟨c, hc⟩ := List.exists_mem_of_ne_nil _ (mt String.toList_eq_nil_iff.mp hold)
  obtain rfl : c = '\n' := List.mem_singleton.mp (hfound.subset hc)
  exact hline hc

/-- A pattern on one line is replaced in each line by itself. -/
theorem becomes_line (hold : old ≠ "") (hline : '\n' ∉ old.toList) (new l : String) :
    Becomes old new (l ++ "\n") (l.replace old new ++ "\n") := by
  intro rest
  rw [replace_append hold new (parted_behind_lineEnd hline l _),
    replace_append hold new (parted_lineEnd hline l),
    replace_eq_self hold new (contains_lineEnd hold hline)]

theorem replace_joinLines (hold : old ≠ "") (hline : '\n' ∉ old.toList) (new : String)
    (ls : List String) :
    (joinLines ls).replace old new = joinLines (ls.map (·.replace old new)) := by
  have h := (becomes_join fun l (_ : l ∈ ls) => becomes_line hold hline new l).replace_eq hold
  rw [joinLines, h, joinLines, List.map_map]
  rfl

/-- A pattern on one line is searched for in each line by itself. -/
theorem contains_joinLines (hold : old ≠ "") (hline : '\n' ∉ old.toList) {ls : List String}
    (h : ∀ l ∈ ls, l.contains old = false) : (joinLines ls).contains old = false := by
  induction ls with
  | nil => exact contains_empty hold
  | cons l ls ih =>
      rw [List.forall_mem_cons] at h
      rw [joinLines, List.map_cons, String.join_cons]
      have hfirst : (l ++ "\n").contains old = false :=
        contains_append_eq_false (parted_lineEnd hline l) h.1 (contains_lineEnd hold hline)
      exact contains_append_eq_false (parted_behind_lineEnd hline l _) hfirst (ih h.2)

end

end FixedFragment.Text
