import Mathlib.Data.List.DropRight
import FixedFragment.Policy

set_option autoImplicit false

/-!
# Vendor names

Blanks at the ends of a name do not matter (`Text.trim_surrounded`), and the rules for names are
`Unambiguous`: all rules that match a name give one vendor, so their order does not matter
(`firstMatch_perm`). A name keeps its vendor when more words are put behind it
(`ofName_append_iff`), except for the one that is matched as a whole.
-/

namespace FixedFragment

/-! ## Blanks at the ends -/

namespace Text

/-- A text of blanks only. -/
def AllBlank (cs : List Char) : Prop := ∀ c ∈ cs, isBlank c = true

/-- What is left of a text without the blanks at its end. -/
def trimEnd (cs : List Char) : List Char := cs.rdropWhile isBlank

variable {cs ds : List Char}

theorem trim_eq (cs : List Char) : trim cs = trimEnd (cs.dropWhile isBlank) := rfl

theorem allBlank_cons_iff {c : Char} : AllBlank (c :: cs) ↔ isBlank c = true ∧ AllBlank cs :=
  List.forall_mem_cons

theorem trimEnd_eq_nil_iff : trimEnd cs = [] ↔ AllBlank cs := List.rdropWhile_eq_nil_iff

/-- Either what is behind is cut off as a whole, or only its own end is. -/
theorem trimEnd_append (cs ds : List Char) :
    trimEnd (cs ++ ds) = if trimEnd ds = [] then trimEnd cs else cs ++ trimEnd ds := by
  simp only [trimEnd, List.rdropWhile, List.reverse_append, List.dropWhile_append,
    List.isEmpty_iff, List.reverse_eq_nil_iff]
  split
  · rfl
  · rw [List.reverse_append, List.reverse_reverse]

theorem trimEnd_append_blank (hds : AllBlank ds) (cs : List Char) :
    trimEnd (cs ++ ds) = trimEnd cs := by
  rw [trimEnd_append, if_pos (trimEnd_eq_nil_iff.mpr hds)]

theorem trimEnd_append_of_not_blank (hds : ¬AllBlank ds) (cs : List Char) :
    trimEnd (cs ++ ds) = cs ++ trimEnd ds := by
  rw [trimEnd_append, if_neg (mt trimEnd_eq_nil_iff.mp hds)]

theorem trim_blank_append (hcs : AllBlank cs) (ds : List Char) : trim (cs ++ ds) = trim ds := by
  rw [trim_eq, trim_eq, List.dropWhile_append_of_pos hcs]

theorem trim_append_blank (hds : AllBlank ds) (cs : List Char) : trim (cs ++ ds) = trim cs := by
  rw [trim_eq, trim_eq, List.dropWhile_append]
  split
  · next h =>
      rw [List.isEmpty_iff] at h
      have hnone : ds.dropWhile isBlank = [] := List.dropWhile_eq_nil_iff.mpr hds
      rw [h, hnone]
  · exact trimEnd_append_blank hds _

/-- Blanks at the ends do not matter. -/
theorem trim_surrounded {before after : List Char} (hbefore : AllBlank before)
    (hafter : AllBlank after) (cs : List Char) : trim (before ++ cs ++ after) = trim cs := by
  rw [trim_append_blank hafter, trim_blank_append hbefore]

/-- The blanks that trimming takes from the end of a text. -/
def blanksBehind (cs : List Char) : List Char := (cs.dropWhile isBlank).rtakeWhile isBlank

theorem trim_append_blanksBehind (cs : List Char) :
    trim cs ++ blanksBehind cs = cs.dropWhile isBlank :=
  List.rdropWhile_append_rtakeWhile

/-- What is put behind a text keeps the blanks in front of it. -/
theorem trim_append_of_not_blank (hcs : trim cs ≠ []) (hds : ¬AllBlank ds) :
    trim (cs ++ ds) = trim cs ++ (blanksBehind cs ++ trimEnd ds) := by
  have hnonempty : ¬(cs.dropWhile isBlank).isEmpty = true := by
    intro h
    rw [List.isEmpty_iff] at h
    exact hcs (congrArg trimEnd h)
  rw [trim_eq, List.dropWhile_append, if_neg hnonempty, trimEnd_append_of_not_blank hds,
    ← trim_append_blanksBehind, List.append_assoc]

end Text

/-! ## Rules -/

namespace GpuVendor

/-- The text that a name which the rule matches begins with. -/
def NameRule.text : NameRule → String
  | exact name => name
  | opening start => start

theorem NameRule.text_of_matches {r : NameRule} {name : List Char} (h : r.matches name = true) :
    r.text.toList <+: name := by
  cases r with
  | exact s =>
      have hname : name = s.toList := of_decide_eq_true h
      rw [hname]
      exact List.prefix_refl _
  | opening s => exact List.isPrefixOf_iff_prefix.mp h

/-- The vendor of the first rule that matches a name. -/
def firstMatch (rules : List (NameRule × GpuVendor)) (name : List Char) : GpuVendor :=
  match rules.find? fun r => r.1.matches name with
  | some r => r.2
  | none => unknown

theorem ofTrimmed_eq (name : List Char) : ofTrimmed name = firstMatch nameRules name := rfl

/-- All rules that match a name give the same vendor. -/
def Unambiguous (rules : List (NameRule × GpuVendor)) : Prop :=
  ∀ name : List Char, ∀ r ∈ rules, ∀ r' ∈ rules,
    r.1.matches name = true → r'.1.matches name = true → r.2 = r'.2

section

variable {rules rules' : List (NameRule × GpuVendor)} {name : List Char}

theorem firstMatch_of_matches (hrules : Unambiguous rules) {r : NameRule × GpuVendor}
    (hr : r ∈ rules) (hmatch : r.1.matches name = true) : firstMatch rules name = r.2 := by
  unfold firstMatch
  split
  · next r' hfound =>
      have hmatch' : r'.1.matches name = true := by simpa using List.find?_some hfound
      exact hrules name r' (List.mem_of_find?_eq_some hfound) r hr hmatch' hmatch
  · next hnone => exact absurd hmatch (List.find?_eq_none.mp hnone r hr)

theorem firstMatch_of_no_match (h : ∀ r ∈ rules, r.1.matches name = false) :
    firstMatch rules name = unknown := by
  have hnone : (rules.find? fun r => r.1.matches name) = none :=
    List.find?_eq_none.mpr fun r hr => Bool.eq_false_iff.mp (h r hr)
  rw [firstMatch, hnone]

theorem exists_rule_of_firstMatch (h : firstMatch rules name ≠ unknown) :
    ∃ r ∈ rules, r.1.matches name = true ∧ firstMatch rules name = r.2 := by
  unfold firstMatch at h ⊢
  split at h
  · next r hfound =>
      have hmatch : r.1.matches name = true := by simpa using List.find?_some hfound
      exact ⟨r, List.mem_of_find?_eq_some hfound, hmatch, rfl⟩
  · exact absurd rfl h

/-- The order of unambiguous rules does not matter. -/
theorem firstMatch_perm (hrules : Unambiguous rules) (h : rules'.Perm rules) (name : List Char) :
    firstMatch rules' name = firstMatch rules name := by
  by_cases hsome : ∃ r ∈ rules, r.1.matches name = true
  · obtain ⟨r, hr, hmatch⟩ := hsome
    have hrules' : Unambiguous rules' := fun name r hr r' hr' =>
      hrules name r (h.mem_iff.mp hr) r' (h.mem_iff.mp hr')
    rw [firstMatch_of_matches hrules hr hmatch,
      firstMatch_of_matches hrules' (h.mem_iff.mpr hr) hmatch]
  · have hnone : ∀ r ∈ rules, r.1.matches name = false := fun r hr =>
      Bool.eq_false_iff.mpr fun hmatch => hsome ⟨r, hr, hmatch⟩
    rw [firstMatch_of_no_match hnone,
      firstMatch_of_no_match fun r hr => hnone r (h.mem_iff.mp hr)]

end

/-- No text of a rule begins with the text of a rule for another vendor. -/
theorem unambiguous_nameRules : Unambiguous nameRules := by
  have hapart : ∀ r ∈ nameRules, ∀ r' ∈ nameRules,
      r.1.text.toList <+: r'.1.text.toList → r.2 = r'.2 := by decide
  intro name r hr r' hr' hmatch hmatch'
  -- Two texts that one name begins with are comparable.
  rcases List.prefix_or_prefix_of_prefix (NameRule.text_of_matches hmatch)
    (NameRule.text_of_matches hmatch') with h | h
  · exact hapart r hr r' hr' h
  · exact (hapart r' hr' r hr h).symm

theorem ofTrimmed_of_matches {r : NameRule × GpuVendor} (hr : r ∈ nameRules) {name : List Char}
    (hmatch : r.1.matches name = true) : ofTrimmed name = r.2 :=
  firstMatch_of_matches unambiguous_nameRules hr hmatch

theorem ofTrimmed_nil : ofTrimmed [] = unknown := by decide

/-! ## Names with more words behind -/

/-- The name that is matched as a whole. -/
def wholeName : List Char := "ARM".toList

/-- A name that is matched by how it opens keeps its vendor whatever is put behind it. -/
theorem ofTrimmed_append_of_ne {name : List Char} (hknown : ofTrimmed name ≠ unknown)
    (hname : name ≠ wholeName) (more : List Char) :
    ofTrimmed (name ++ more) = ofTrimmed name := by
  obtain ⟨⟨rule, vendor⟩, hr, hmatch, hvendor⟩ := exists_rule_of_firstMatch hknown
  rw [ofTrimmed_eq name, hvendor]
  refine ofTrimmed_of_matches hr ?_
  cases rule with
  | exact s =>
      have hwhole : ∀ r ∈ nameRules, ∀ s, r.1 = .exact s → s.toList = wholeName := by
        simp [nameRules, wholeName]
      have hs : name = s.toList := of_decide_eq_true hmatch
      exact absurd (hs.trans (hwhole _ hr s rfl)) hname
  | opening s =>
      have hstart : s.toList <+: name := List.isPrefixOf_iff_prefix.mp hmatch
      exact List.isPrefixOf_iff_prefix.mpr (hstart.trans (List.prefix_append name more))

/-- Behind the name that is matched as a whole only a space goes on with it. -/
theorem ofTrimmed_wholeName_append (c : Char) (more : List Char) :
    ofTrimmed (wholeName ++ c :: more) = if c = ' ' then mali else unknown := by
  split
  · next hc =>
      subst hc
      exact ofTrimmed_of_matches (r := (.opening "ARM ", mali)) (by decide) rfl
  · next hc =>
      have hspace : ' ' ≠ c := fun h => hc h.symm
      refine firstMatch_of_no_match ?_
      simp [nameRules, NameRule.matches, wholeName, List.isPrefixOf, hspace]

/-- The first character behind the name decides, and without blanks that is the space. -/
theorem ofTrimmed_wholeName_append_iff (blanks more : List Char) :
    ofTrimmed (wholeName ++ (blanks ++ ' ' :: more)) = mali ↔ ¬∃ c ∈ blanks.head?, c ≠ ' ' := by
  cases blanks with
  | nil => simp [ofTrimmed_wholeName_append]
  | cons c rest => by_cases hc : c = ' ' <;> simp [ofTrimmed_wholeName_append, hc]

/-- Putting `more` behind `s` takes its vendor away: `s` is the name that is matched as a whole,
with a blank other than the space directly behind it, and `more` is not all blanks. -/
def LosesVendor (s more : String) : Prop :=
  Text.trim s.toList = wholeName ∧ (∃ c ∈ (Text.blanksBehind s.toList).head?, c ≠ ' ')
    ∧ ¬Text.AllBlank more.toList

theorem ofName_append_iff {s : String} (hknown : ofName s ≠ unknown) (more : String) :
    ofName (s ++ " " ++ more) = ofName s ↔ ¬LosesVendor s more := by
  have htrimmed : Text.trim s.toList ≠ [] := fun h => by
    rw [ofName, h] at hknown
    exact hknown ofTrimmed_nil
  have hlist : (s ++ " " ++ more).toList = s.toList ++ ' ' :: more.toList := by
    rw [String.toList_append, String.toList_append, List.append_assoc]
    rfl
  by_cases hmore : Text.AllBlank more.toList
  · have hblank : Text.AllBlank (' ' :: more.toList) :=
      Text.allBlank_cons_iff.mpr ⟨by decide, hmore⟩
    rw [ofName, hlist, Text.trim_append_blank hblank]
    exact ⟨fun _ h => h.2.2 hmore, fun _ => rfl⟩
  · have hnot : ¬Text.AllBlank (' ' :: more.toList) := fun h =>
      hmore (Text.allBlank_cons_iff.mp h).2
    have hend : Text.trimEnd (' ' :: more.toList) = ' ' :: Text.trimEnd more.toList :=
      Text.trimEnd_append_of_not_blank hmore [' ']
    rw [ofName, hlist, Text.trim_append_of_not_blank htrimmed hnot, hend]
    -- Every other name is known by how it opens, and still opens so.
    by_cases hwhole : Text.trim s.toList = wholeName
    · have hmali : ofName s = mali := by
        rw [ofName, hwhole]
        decide
      rw [hmali, hwhole, ofTrimmed_wholeName_append_iff, not_iff_not]
      exact ⟨fun h => ⟨hwhole, h, hmore⟩, fun h => h.2.1⟩
    · have hkeeps : ¬LosesVendor s more := fun h => hwhole h.1
      rw [ofTrimmed_append_of_ne hknown hwhole]
      exact ⟨fun _ => hkeeps, fun _ => rfl⟩

/-! ## Policies for vendors -/

theorem ofName_eq_powerVr_iff (s : String) :
    ofName s = powerVr ↔ "Imagination Technologies".toList <+: Text.trim s.toList := by
  have hrule : ∀ r ∈ nameRules, r.2 = powerVr → r.1 = .opening "Imagination Technologies" := by
    simp [nameRules]
  constructor
  · intro h
    have hknown : firstMatch nameRules (Text.trim s.toList) ≠ unknown := by
      rw [← ofTrimmed_eq, ← ofName, h]
      decide
    obtain ⟨r, hr, hmatch, hvendor⟩ := exists_rule_of_firstMatch hknown
    have hopening := hrule r hr (hvendor.symm.trans h)
    rw [hopening] at hmatch
    exact List.isPrefixOf_iff_prefix.mp hmatch
  · intro h
    exact ofTrimmed_of_matches (r := (.opening "Imagination Technologies", powerVr)) (by decide)
      (List.isPrefixOf_iff_prefix.mpr h)

theorem forTarget_eq_iff (dialect : Dialect) (v : GpuVendor) :
    EmitPolicy.forTarget dialect v = .forTarget dialect .unknown ↔ v ≠ powerVr := by
  cases v <;> cases dialect <;> decide

/-! ## All names -/

/-- **What vendor detection depends on.** Blanks at the ends of a name do not matter. The rules that
match a trimmed name give one vendor, so every order of the rules gives it. A vendor that is known
stays the same when a space and more words are put behind the name, unless the name is the one that
is matched as a whole, has another blank than the space directly behind it, and the words are not
all blank. A target is given workarounds exactly if the trimmed name begins as that of the one
vendor that needs them. -/
theorem ofName_stable (s : String) :
    (∀ before after : String, Text.AllBlank before.toList → Text.AllBlank after.toList →
        ofName (before ++ s ++ after) = ofName s)
      ∧ ((∀ r ∈ nameRules, ∀ r' ∈ nameRules, r.1.matches (Text.trim s.toList) = true →
            r'.1.matches (Text.trim s.toList) = true → r.2 = r'.2)
          ∧ ∀ rules : List (NameRule × GpuVendor), rules.Perm nameRules →
            firstMatch rules (Text.trim s.toList) = ofName s)
      ∧ (ofName s ≠ unknown → ∀ more : String,
          (ofName (s ++ " " ++ more) = ofName s ↔ ¬LosesVendor s more))
      ∧ ∀ dialect : Dialect,
          EmitPolicy.forTarget dialect (ofName s) ≠ .forTarget dialect .unknown
            ↔ "Imagination Technologies".toList <+: Text.trim s.toList := by
  refine ⟨fun before after hbefore hafter => ?_, ⟨unambiguous_nameRules _, fun rules hrules => ?_⟩,
    fun hknown more => ofName_append_iff hknown more, fun dialect => ?_⟩
  · rw [ofName, String.toList_append, String.toList_append, Text.trim_surrounded hbefore hafter,
      ofName]
  · exact firstMatch_perm unambiguous_nameRules hrules _
  · rw [ne_eq, forTarget_eq_iff, not_ne_iff, ofName_eq_powerVr_iff]

/-- The no-break space is a blank, a name goes on behind it, and the rules can be turned around. -/
theorem ofName_stable_arm :
    Text.AllBlank "\u00a0".toList ∧ ofName ("\u00a0" ++ "ARM" ++ "\u00a0") = ofName "ARM"
      ∧ nameRules.reverse.Perm nameRules
      ∧ firstMatch nameRules.reverse (Text.trim "ARM".toList) = mali
      ∧ ofName "ARM" ≠ unknown ∧ ofName ("ARM" ++ " " ++ "Limited") = ofName "ARM"
      ∧ EmitPolicy.forTarget .glslEs100 (ofName "ARM") = .forTarget .glslEs100 .unknown := by
  obtain ⟨hblanks, ⟨-, horder⟩, happend, hpolicy⟩ := ofName_stable "ARM"
  have hblank : Text.AllBlank "\u00a0".toList := by
    intro c hc
    rw [List.mem_singleton.mp hc]
    decide
  have hbehind : (Text.blanksBehind "ARM".toList).head? = none := by decide
  have hperm : nameRules.reverse.Perm nameRules := List.reverse_perm nameRules
  have hknown : ofName "ARM" ≠ unknown := by decide
  refine ⟨hblank, hblanks _ _ hblank hblank, hperm, (horder _ hperm).trans (by decide), hknown,
    (happend hknown "Limited").mpr ?_, ?_⟩
  · rintro ⟨-, ⟨c, hc, -⟩, -⟩
    rw [hbehind] at hc
    simp at hc
  · exact not_ne_iff.mp (mt (hpolicy .glslEs100).mp (by decide))

/-- A line break behind the name that is matched as a whole is a blank at its end, and no space. -/
theorem lineBreak_loses_vendor :
    ofName "ARM\n" = mali ∧ ofName ("ARM\n" ++ " " ++ "Limited") = unknown := by
  decide

end GpuVendor

end FixedFragment
