import FixedFragment.Text.Json

set_option autoImplicit false

/-!
# Objects of numbers

The reader of objects accepts exactly what is written (`read?_eq_some_iff`), and what is written is
a JSON text of one value only, the object with these members in this order (`isText_write_iff`).
-/

namespace FixedFragment

namespace JsonNumbers

/-! ## Runs of characters -/

/-- Nothing is left, or a character without the property. -/
def Stops (p : Char → Bool) (rest : List Char) : Prop := ∀ c ∈ rest.head?, p c = false

section

variable {p : Char → Bool} {cs run rest : List Char}

theorem stops_cons {c : Char} (hc : p c = false) : Stops p (c :: cs) := by
  rintro _ ⟨⟩
  exact hc

theorem stops_dropWhile (p : Char → Bool) (cs : List Char) : Stops p (cs.dropWhile p) := by
  intro c hc
  have h := List.head?_dropWhile_not p cs
  rw [Option.mem_def.mp hc] at h
  exact h

theorem takeWhile_run (hrun : run.all p = true) (hrest : Stops p rest) :
    (run ++ rest).takeWhile p = run := by
  rw [List.takeWhile_append_of_pos (List.all_eq_true.mp hrun)]
  cases rest with
  | nil => exact List.append_nil run
  | cons c rest => rw [List.takeWhile_cons_of_neg (by simp [hrest c rfl]), List.append_nil]

/-- A run and what stands behind it are found again. -/
theorem run_unique {run' rest' : List Char} (hrun : run.all p = true) (hrest : Stops p rest)
    (hrun' : run'.all p = true) (hrest' : Stops p rest') (h : run ++ rest = run' ++ rest') :
    run = run' ∧ rest = rest' := by
  have hruns : run = run' := by
    rw [← takeWhile_run hrun hrest, h, takeWhile_run hrun' hrest']
  subst hruns
  exact ⟨rfl, List.append_cancel_left h⟩

theorem dropWhile_run (hrun : run.all p = true) (hrest : Stops p rest) :
    (run ++ rest).dropWhile p = rest :=
  (run_unique List.all_takeWhile (stops_dropWhile p _) hrun hrest
    List.takeWhile_append_dropWhile).2

end

/-! ## Ends of members -/

/-- A comma or the end of an object comes first. -/
inductive Ends : List Char → Prop where
  | comma (cs : List Char) : Ends (',' :: cs)
  | close (cs : List Char) : Ends ('\x7d' :: cs)

theorem Ends.stops {p : Char → Bool} {cs : List Char} (h : Ends cs) (hcomma : p ',' = false)
    (hclose : p '\x7d' = false) : Stops p cs := by
  cases h with
  | comma => exact stops_cons hcomma
  | close => exact stops_cons hclose

theorem ends_writeRest (ms : List (String × Nat)) : Ends (writeRest ms) := by
  cases ms with
  | nil => exact .close []
  | cons m ms => exact .comma _

/-! ## Reading -/

section

variable {cs rest name : List Char} {m : String × Nat} {ms : List (String × Nat)} {n fuel : Nat}

/-- All names stand for themselves. -/
def PlainNames (ms : List (String × Nat)) : Prop := ∀ m ∈ ms, m.1.toList.all isPlain = true

theorem readName_eq_some_iff :
    readName cs = some (name, rest)
      ↔ name.all isPlain = true ∧ cs = '"' :: (name ++ '"' :: rest) := by
  constructor
  · intro h
    unfold readName at h
    split at h
    · next cs =>
        split at h
        · next behind hbehind =>
            obtain ⟨rfl, rfl⟩ := Prod.mk.inj (Option.some.inj h)
            refine ⟨List.all_takeWhile, congrArg ('"' :: ·) ?_⟩
            rw [← hbehind, List.takeWhile_append_dropWhile]
        · cases h
    · cases h
  · rintro ⟨hname, rfl⟩
    have hquote : Stops isPlain ('"' :: rest) := stops_cons rfl
    simp only [readName, takeWhile_run hname hquote, dropWhile_run hname hquote]

theorem readNumber_eq_some_iff :
    readNumber cs = some (n, rest)
      ↔ cs = Decimal.digits n ++ rest ∧ Stops Char.isDigit rest := by
  constructor
  · intro h
    obtain ⟨n', hn, heq⟩ := Option.map_eq_some_iff.mp h
    obtain ⟨rfl, rfl⟩ := Prod.mk.inj heq
    refine ⟨?_, stops_dropWhile _ cs⟩
    rw [← Decimal.read?_eq_some_iff.mp hn, List.takeWhile_append_dropWhile]
  · rintro ⟨rfl, hrest⟩
    have hdigits := Decimal.all_isDigit_digits n
    rw [readNumber, takeWhile_run hdigits hrest, dropWhile_run hdigits hrest, Decimal.read?_digits]
    rfl

theorem readMember_eq_some_iff :
    readMember cs = some (m, rest)
      ↔ m.1.toList.all isPlain = true ∧ cs = writeMember m ++ rest ∧ Stops Char.isDigit rest := by
  constructor
  · intro h
    obtain ⟨⟨name, behind⟩, hname, hbehind⟩ := Option.bind_eq_some_iff.mp h
    obtain ⟨hplain, rfl⟩ := readName_eq_some_iff.mp hname
    dsimp only at hbehind
    split at hbehind
    · next number =>
        obtain ⟨⟨n, last⟩, hnumber, hm⟩ := Option.bind_eq_some_iff.mp hbehind
        obtain ⟨rfl, hrest⟩ := readNumber_eq_some_iff.mp hnumber
        obtain ⟨rfl, rfl⟩ := Prod.mk.inj (Option.some.inj hm)
        refine ⟨?_, ?_, hrest⟩
        · rwa [String.toList_ofList]
        · simp [writeMember]
    · cases hbehind
  · rintro ⟨hplain, rfl, hrest⟩
    have hname : readName (writeMember m ++ rest)
        = some (m.1.toList, ':' :: (Decimal.digits m.2 ++ rest)) :=
      readName_eq_some_iff.mpr ⟨hplain, by simp [writeMember]⟩
    have hnumber : readNumber (Decimal.digits m.2 ++ rest) = some (m.2, rest) :=
      readNumber_eq_some_iff.mpr ⟨rfl, hrest⟩
    simp only [readMember, hname, Option.bind_eq_bind, Option.bind_some, hnumber,
      String.ofList_toList]

theorem exists_of_readMembers (h : readMembers fuel cs = some ms) :
    ∃ m ms', ms = m :: ms' ∧ PlainNames (m :: ms') ∧ cs = writeMember m ++ writeRest ms' := by
  induction fuel generalizing cs ms with
  | zero => cases h
  | succ fuel ih =>
      obtain ⟨⟨m, rest⟩, hm, hrest⟩ := Option.bind_eq_some_iff.mp h
      obtain ⟨hplain, rfl, -⟩ := readMember_eq_some_iff.mp hm
      dsimp only at hrest
      split at hrest
      · obtain rfl := Option.some.inj hrest
        exact ⟨m, [], rfl, List.forall_mem_singleton.mpr hplain, rfl⟩
      · next rest _ =>
          obtain ⟨ms', hms', rfl⟩ := Option.map_eq_some_iff.mp hrest
          obtain ⟨m', ms', rfl, hplain', rfl⟩ := ih hms'
          exact ⟨m, m' :: ms', rfl, List.forall_mem_cons.mpr ⟨hplain, hplain'⟩, rfl⟩
      · cases hrest

theorem readMembers_write (hplain : PlainNames (m :: ms)) (hfuel : ms.length < fuel) :
    readMembers fuel (writeMember m ++ writeRest ms) = some (m :: ms) := by
  induction fuel generalizing m ms with
  | zero => exact absurd hfuel (Nat.not_lt_zero _)
  | succ fuel ih =>
      have hm := readMember_eq_some_iff.mpr
        ⟨hplain m List.mem_cons_self, rfl, (ends_writeRest ms).stops rfl rfl⟩
      rw [readMembers, hm]
      cases ms with
      | nil => rfl
      | cons m' ms =>
          have hms := ih (List.forall_mem_cons.mp hplain).2 (Nat.lt_of_succ_lt_succ hfuel)
          show (readMembers fuel (writeMember m' ++ writeRest ms)).map (m :: ·) = _
          rw [hms]
          rfl

theorem length_lt_writeRest (ms : List (String × Nat)) : ms.length < (writeRest ms).length := by
  induction ms with
  | nil => exact Nat.one_pos
  | cons m ms ih =>
      simp only [writeRest, List.length_cons, List.length_append]
      omega

/-- Reading accepts exactly what writing produces from plain names. -/
theorem read?_eq_some_iff {text : String} :
    read? text = some ms ↔ PlainNames ms ∧ text = write ms := by
  constructor
  · intro h
    unfold read? at h
    split at h
    · next htext =>
        obtain rfl := Option.some.inj h
        refine ⟨List.forall_mem_nil _, ?_⟩
        rw [← String.toList_inj, htext]
        rfl
    · next rest _ htext =>
        obtain ⟨m, ms', rfl, hplain, rfl⟩ := exists_of_readMembers h
        refine ⟨hplain, ?_⟩
        rw [← String.toList_inj, htext, write, String.toList_ofList]
    · cases h
  · rintro ⟨hplain, rfl⟩
    cases ms with
    | nil => rfl
    | cons m ms =>
        -- The reader is given one unit of fuel for each character, and members have more than one.
        have hfuel : ms.length < (writeMember m ++ writeRest ms).length := by
          have hrest := length_lt_writeRest ms
          rw [List.length_append]
          omega
        rw [read?, write, String.toList_ofList]
        exact readMembers_write hplain hfuel

end

end JsonNumbers

namespace Json

open JsonNumbers (Stops stops_cons run_unique Ends ends_writeRest PlainNames writeMember writeRest
  write)

section

variable {cs rest behind : List Char} {v : Value} {m : String × Nat} {ms : List (String × Nat)}

/-! ## Blanks -/

/-- Where no blank stands nothing is passed over. -/
theorem Blanks.eq_of_stops (h : Blanks cs rest) (hcs : Stops isBlank cs) : rest = cs := by
  cases h with
  | none => rfl
  | blank hc _ => exact absurd (hcs _ rfl) (by simp [hc])

/-- What stands behind blanks or a blank itself comes first. -/
theorem Blanks.stops {p : Char → Bool} (h : Blanks cs rest)
    (hblank : ∀ c, isBlank c = true → p c = false) (hrest : Stops p rest) : Stops p cs := by
  cases h with
  | none => exact hrest
  | blank hc _ => exact stops_cons (hblank _ hc)

/-! ## Names -/

theorem isStringBody_of_plain (h : cs.all JsonNumbers.isPlain = true) : IsStringBody cs := by
  induction cs with
  | nil => exact .nil
  | cons c cs ih =>
      rw [List.all_cons, Bool.and_eq_true] at h
      exact .plain h.1 (ih h.2)

/-- A string whose characters all stand for themselves ends at the next quote. -/
theorem eq_of_plain {name body : List Char} (hname : name.all JsonNumbers.isPlain = true)
    (hbody : IsStringBody body) (h : name ++ '"' :: rest = body ++ '"' :: behind) :
    body = name ∧ behind = rest := by
  induction hbody generalizing name with
  | nil =>
      cases name with
      | nil => exact ⟨rfl, (List.cons.inj h).2.symm⟩
      | cons c name =>
          obtain rfl := (List.cons.inj h).1
          exact absurd hname (by simp [JsonNumbers.isPlain])
  | plain hc _ ih =>
      cases name with
      | nil =>
          obtain rfl := (List.cons.inj h).1
          exact absurd hc (by decide)
      | cons c name =>
          obtain ⟨rfl, htail⟩ := List.cons.inj h
          rw [List.all_cons, Bool.and_eq_true] at hname
          obtain ⟨rfl, rfl⟩ := ih hname.2 htail
          exact ⟨rfl, rfl⟩
  | escape _ _ _ | codePoint _ _ _ _ =>
      cases name with
      | nil => exact absurd (List.cons.inj h).1 (by decide)
      | cons c name =>
          obtain rfl := (List.cons.inj h).1
          exact absurd hname (by simp [JsonNumbers.isPlain])

theorem quotedAt_iff {name body : String} (hname : name.toList.all JsonNumbers.isPlain = true) :
    QuotedAt ('"' :: (name.toList ++ '"' :: rest)) body behind ↔ body = name ∧ behind = rest := by
  constructor
  · rintro ⟨hbody, h⟩
    obtain ⟨hnames, rfl⟩ := eq_of_plain hname hbody (List.cons.inj h).2
    exact ⟨String.toList_inj.mp hnames, rfl⟩
  · rintro ⟨rfl, rfl⟩
    exact ⟨isStringBody_of_plain hname, rfl⟩

/-! ## Numbers -/

/-- The characters of numbers. -/
def isNumberChar (c : Char) : Bool := c.isDigit || ['-', '+', '.', 'e', 'E'].contains c

theorem isNumberChar_of_isBlank {c : Char} (h : isBlank c = true) : isNumberChar c = false := by
  simp only [isBlank, Bool.or_eq_true, decide_eq_true_eq] at h
  rcases h with ((rfl | rfl) | rfl) | rfl <;> rfl

theorem isBlank_of_isDigit {c : Char} (h : c.isDigit = true) : isBlank c = false := by
  rw [Bool.eq_false_iff]
  intro hblank
  have hnumber := isNumberChar_of_isBlank hblank
  rw [isNumberChar, h] at hnumber
  exact Bool.false_ne_true hnumber.symm

theorem all_isNumberChar_of_isDigit (h : cs.all Char.isDigit = true) :
    cs.all isNumberChar = true := by
  rw [List.all_eq_true] at h ⊢
  intro c hc
  rw [isNumberChar, h c hc]
  rfl

theorem IsNumber.all_isNumberChar (h : IsNumber cs) : cs.all isNumberChar = true := by
  obtain ⟨hsign, hwhole, hfraction, hexponent⟩ := h
  have hminus : ∀ sign ∈ [[], ['-']], sign.all isNumberChar = true := by decide
  simp only [List.all_append, Bool.and_eq_true]
  refine ⟨hminus _ hsign, all_isNumberChar_of_isDigit hwhole.all_isDigit, ?_, ?_⟩
  · cases hfraction with
    | none => rfl
    | digits hds =>
        rw [List.all_cons, all_isNumberChar_of_isDigit hds.2]
        rfl
  · cases hexponent with
    | none => rfl
    | digits hmark hsign hds =>
        have hsigns : ∀ sign ∈ [[], ['+'], ['-']], sign.all isNumberChar = true := by decide
        rw [List.all_cons, List.all_append, hsigns _ hsign, all_isNumberChar_of_isDigit hds.2]
        rcases hmark with rfl | rfl <;> rfl

theorem IsNumber.ne_nil (h : IsNumber cs) : cs ≠ [] := by
  obtain ⟨-, hwhole, -, -⟩ := h
  simp [hwhole.ne_nil]

theorem isNumber_digits (n : Nat) : IsNumber (Decimal.digits n) := by
  have h : IsNumber ([] ++ (Decimal.digits n ++ ([] ++ []))) :=
    .parts List.mem_cons_self (Decimal.isNumeral_digits n) .none .none
  simpa using h

/-! ## Members -/

/-- Only a number begins with a digit. -/
theorem ValueAt.number_of_isDigit {c : Char} (h : ValueAt (c :: cs) v rest)
    (hc : c.isDigit = true) :
    ∃ written : String, v = .number written ∧ IsNumber written.toList
      ∧ c :: cs = written.toList ++ rest := by
  cases h with
  | null | boolTrue | boolFalse | emptyArray | array | emptyObject | object =>
      exact absurd hc Bool.false_ne_true
  | string h =>
      obtain rfl := (List.cons.inj h.2).1
      exact absurd hc Bool.false_ne_true
  | number hnumber hcs => exact ⟨_, rfl, hnumber, hcs⟩

/-- A number in front of a comma or the end of an object is read as a whole. -/
theorem itemAt_digits_iff {n : Nat} (hrest : Ends rest) (hbehind : Ends behind) :
    ItemAt (Decimal.digits n ++ rest) v behind
      ↔ v = .number (Decimal.text n) ∧ behind = rest := by
  obtain ⟨c, ds, hds⟩ := List.exists_cons_of_ne_nil (Decimal.digits_ne_nil n)
  have hc : c.isDigit = true := by
    have hall := Decimal.all_isDigit_digits n
    rw [hds, List.all_cons, Bool.and_eq_true] at hall
    exact hall.1
  constructor
  · rintro ⟨hbefore, hvalue, hafter⟩
    rw [hds] at hbefore
    obtain rfl := hbefore.eq_of_stops (stops_cons (isBlank_of_isDigit hc))
    obtain ⟨written, rfl, hnumber, heq⟩ := hvalue.number_of_isDigit hc
    -- Blanks behind the number are no part of it, and neither is what comes after them.
    have hafter' := hafter.stops (fun _ => isNumberChar_of_isBlank) (hbehind.stops rfl rfl)
    obtain ⟨hwritten, rfl⟩ := run_unique
      (all_isNumberChar_of_isDigit (Decimal.all_isDigit_digits n)) (hrest.stops rfl rfl)
      hnumber.all_isNumberChar hafter' (hds ▸ heq)
    refine ⟨congrArg Value.number ?_, hafter.eq_of_stops (hrest.stops rfl rfl)⟩
    rw [← String.toList_inj, ← hwritten, Decimal.toList_text]
  · rintro ⟨rfl, rfl⟩
    have hnumber : IsNumber (Decimal.text n).toList := by
      rw [Decimal.toList_text]
      exact isNumber_digits n
    refine .item (.none _) (.number hnumber ?_) (.none _)
    rw [Decimal.toList_text]

/-- The member that is written for a name and a number. -/
def member (m : String × Nat) : String × Value := (m.1, .number (Decimal.text m.2))

theorem memberAt_iff {m' : String × Value} (hplain : PlainNames (m :: ms)) (hbehind : Ends behind) :
    MemberAt (writeMember m ++ writeRest ms) m' behind ↔ m' = member m ∧ behind = writeRest ms := by
  have hname := hplain m List.mem_cons_self
  have hrest := ends_writeRest ms
  have hwritten : writeMember m ++ writeRest ms
      = '"' :: (m.1.toList ++ '"' :: ':' :: (Decimal.digits m.2 ++ writeRest ms)) := by
    simp [writeMember]
  rw [hwritten]
  constructor
  · rintro ⟨hbefore, hquoted, hcolon, hitem⟩
    obtain rfl := hbefore.eq_of_stops (stops_cons rfl)
    obtain ⟨rfl, rfl⟩ := (quotedAt_iff hname).mp hquoted
    obtain ⟨-, rfl⟩ := List.cons.inj (hcolon.eq_of_stops (stops_cons rfl))
    obtain ⟨rfl, rfl⟩ := (itemAt_digits_iff hrest hbehind).mp hitem
    exact ⟨rfl, rfl⟩
  · rintro ⟨rfl, rfl⟩
    exact .member (.none _) ((quotedAt_iff hname).mpr ⟨rfl, rfl⟩) (.none _)
      ((itemAt_digits_iff hrest hbehind).mpr ⟨rfl, rfl⟩)

/-- Members are read one by one: what stands behind each tells whether it is the last. -/
theorem membersAt_iff {read : List (String × Value)} (hplain : PlainNames (m :: ms)) :
    MembersAt (writeMember m ++ writeRest ms) read rest
      ↔ read = (m :: ms).map member ∧ rest = [] := by
  -- What stands behind a member is the same as it is read and as it is written, so only the last
  -- member written can be the last one read.
  induction ms generalizing m read with
  | nil =>
      constructor
      · intro h
        cases h with
        | last h =>
            obtain ⟨rfl, heq⟩ := (memberAt_iff hplain (.close _)).mp h
            exact ⟨rfl, (List.cons.inj heq).2⟩
        | more h _ =>
            obtain ⟨-, heq⟩ := (memberAt_iff hplain (.comma _)).mp h
            exact absurd (List.cons.inj heq).1 (by decide)
      · rintro ⟨rfl, rfl⟩
        exact .last ((memberAt_iff hplain (.close _)).mpr ⟨rfl, rfl⟩)
  | cons m' ms ih =>
      have hplain' : PlainNames (m' :: ms) := (List.forall_mem_cons.mp hplain).2
      constructor
      · intro h
        cases h with
        | last h =>
            obtain ⟨-, heq⟩ := (memberAt_iff hplain (.close _)).mp h
            exact absurd (List.cons.inj heq).1 (by decide)
        | more h hnext =>
            obtain ⟨rfl, heq⟩ := (memberAt_iff hplain (.comma _)).mp h
            obtain ⟨-, rfl⟩ := List.cons.inj heq
            obtain ⟨rfl, rfl⟩ := (ih hplain').mp hnext
            exact ⟨rfl, rfl⟩
      · rintro ⟨rfl, rfl⟩
        exact .more ((memberAt_iff hplain (.comma _)).mpr ⟨rfl, rfl⟩)
          ((ih hplain').mpr ⟨rfl, rfl⟩)

/-! ## Objects -/

/-- Only an object begins with a brace. -/
theorem ValueAt.object_of_brace (h : ValueAt ('\x7b' :: cs) v rest) :
    v = .object [] ∧ Blanks cs ('\x7d' :: rest)
      ∨ ∃ members, v = .object members ∧ MembersAt cs members rest := by
  cases h with
  | @number _ _ written hnumber hcs =>
      cases hwritten : written.toList with
      | nil => exact absurd hwritten hnumber.ne_nil
      | cons c cs =>
          rw [hwritten] at hcs
          obtain rfl := (List.cons.inj hcs).1
          have hall := hnumber.all_isNumberChar
          rw [hwritten] at hall
          exact absurd hall Bool.false_ne_true
  | string h => exact absurd (List.cons.inj h.2).1 (by decide)
  | emptyObject h => exact Or.inl ⟨rfl, h⟩
  | object h => exact Or.inr ⟨_, rfl, h⟩

theorem MembersAt.eq_quote {c : Char} {members : List (String × Value)}
    (h : MembersAt (c :: cs) members rest) (hc : isBlank c = false) : c = '"' := by
  have hmember : ∃ m' behind, MemberAt (c :: cs) m' behind := by
    cases h with
    | last h | more h _ => exact ⟨_, _, h⟩
  obtain ⟨_, _, hbefore, hname, -, -⟩ := hmember
  obtain rfl := hbefore.eq_of_stops (stops_cons hc)
  exact (List.cons.inj hname.2).1

theorem valueAt_write_iff (hplain : PlainNames ms) :
    ValueAt (write ms).toList v rest ↔ v = .object (ms.map member) ∧ rest = [] := by
  cases ms with
  | nil =>
      constructor
      · intro h
        rcases ValueAt.object_of_brace h with ⟨rfl, hend⟩ | ⟨members, -, hmembers⟩
        · exact ⟨rfl, (List.cons.inj (hend.eq_of_stops (stops_cons rfl))).2⟩
        · exact absurd (hmembers.eq_quote rfl) (by decide)
      · rintro ⟨rfl, rfl⟩
        exact .emptyObject (.none _)
  | cons m ms =>
      rw [write, String.toList_ofList]
      constructor
      · intro h
        rcases h.object_of_brace with ⟨-, hend⟩ | ⟨members, rfl, hmembers⟩
        · exact absurd (List.cons.inj (hend.eq_of_stops (stops_cons rfl))).1 (by decide)
        · obtain ⟨rfl, rfl⟩ := (membersAt_iff hplain).mp hmembers
          exact ⟨rfl, rfl⟩
      · rintro ⟨rfl, rfl⟩
        exact .object ((membersAt_iff hplain).mpr ⟨rfl, rfl⟩)

/-- What is written is a JSON text of one value: the object with these members in this order. -/
theorem isText_write_iff (hplain : PlainNames ms) :
    IsText (write ms) v ↔ v = .object (ms.map member) := by
  have hbrace : Stops isBlank (write ms).toList := by
    cases ms with
    | nil => exact stops_cons rfl
    | cons m ms =>
        rw [write, String.toList_ofList]
        exact stops_cons rfl
  constructor
  · rintro ⟨hbefore, hvalue, -⟩
    obtain rfl := hbefore.eq_of_stops hbrace
    exact ((valueAt_write_iff hplain).mp hvalue).1
  · rintro rfl
    exact .item (.none _) ((valueAt_write_iff hplain).mpr ⟨rfl, rfl⟩) (.none _)

end

end Json

end FixedFragment
