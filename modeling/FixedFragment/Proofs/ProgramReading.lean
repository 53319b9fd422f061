import FixedFragment.Proofs.ExpressionReading

set_option autoImplicit false

/-!
# Reading programs back

A program whose names are names is read back from its text: `Program.parse_text`. Each line has a
spelling (`Stmt.spelling` and so on) that `Line.read?` undoes, and `Program.ofLines` puts the lines
together again.
-/

namespace FixedFragment.Glsl

/-! ## Types -/

/-- The lexemes that start a line of a fixed form. -/
def lineWords : List String := ["#", "precision", "void", "\x7d"]

theorem IsName.notMem_lineWords {name : String} (h : IsName name) : name ∉ lineWords := by
  intro hmem
  simp only [lineWords, List.mem_cons, List.not_mem_nil, or_false] at hmem
  rcases hmem with rfl | rfl | rfl | rfl <;> exact absurd h (by decide)

theorem Ty.read?_text (ty : Ty) : Ty.read? ty.text = some ty := by cases ty <;> decide

theorem Storage.read?_text (s : Storage) : Storage.read? s.text = some s := by
  cases s <;> decide

namespace QualifiedTy

/-- The lexemes of a type as declared. -/
def spelling (q : QualifiedTy) : List String :=
  match q.precision with
  | some p => [p.text, q.ty.text]
  | none => [q.ty.text]

theorem spells_text (q : QualifiedTy) : Spells q.text q.spelling := by
  unfold text spelling
  cases q.precision with
  | some p => exact ((Spells.word p.isWord_text).glue glue_blank).append (.word q.ty.isWord_text)
  | none => exact .word q.ty.isWord_text

theorem read_spelling (q : QualifiedTy) (rest : List String) :
    read (q.spelling ++ rest) = some (q, rest) := by
  obtain ⟨precision, ty⟩ := q
  cases precision with
  | some p => cases p <;> cases ty <;> rfl
  | none => cases ty <;> rfl

/-- A type starts with a word of its own. -/
theorem head_spelling (q : QualifiedTy) : ∃ w ws, q.spelling = w :: ws ∧ w ∉ lineWords
    ∧ w ≠ "return" ∧ Storage.read? w = none := by
  obtain ⟨precision, ty⟩ := q
  cases precision with
  | some p =>
      exact ⟨p.text, [ty.text], rfl, by cases p <;> decide, by cases p <;> decide,
        by cases p <;> decide⟩
  | none =>
      exact ⟨ty.text, [], rfl, by cases ty <;> decide, by cases ty <;> decide,
        by cases ty <;> decide⟩

/-- A name starts no type. -/
theorem read_of_isName {name : String} (h : IsName name) (rest : List String) :
    read (name :: rest) = none := by
  have hprecision : Precision.read? name = none := readWord_of_isName h (by decide)
  have hty : Ty.read? name = none := readWord_of_isName h (by decide)
  simp [read, hprecision, hty]

end QualifiedTy

/-! ## Statements -/

theorem glue_equals : Glue " = " ["="] := by decide

theorem glue_plusEquals : Glue " += " ["+="] := by decide

theorem glue_semicolon : Glue ";" [";"] := by decide

theorem Ty.text_ne_if (ty : Ty) : ty.text ≠ "if" := by cases ty <;> decide

namespace Stmt

/-- All names are names. -/
def WellNamed : Stmt → Prop
  | declare _ name value | assign name value | assignPart name _ value | addAssign name value =>
      IsName name ∧ value.WellNamed
  | discard => True
  | discardIf cond => cond.WellNamed

/-- The lexemes of a statement. -/
def spelling : Stmt → List String
  | declare ty name value => ty.text :: name :: "=" :: (value.spelling ++ [";"])
  | assign name value => name :: "=" :: (value.spelling ++ [";"])
  | assignPart name sel value => name :: "." :: sel.text :: "=" :: (value.spelling ++ [";"])
  | addAssign name value => name :: "+=" :: (value.spelling ++ [";"])
  | discard => ["discard", ";"]
  | discardIf cond => "if" :: "(" :: (cond.spelling ++ [")", "discard", ";"])

theorem spells_text {s : Stmt} (hs : s.WellNamed) : Spells s.text s.spelling := by
  cases s with
  | declare ty name value =>
      have h := ((((((Spells.word ty.isWord_text).glue glue_blank).append (.word hs.1.1)).glue
        glue_equals).append (Expr.spells_text hs.2)).glue glue_semicolon).toSpells
      simpa [text, spelling] using h
  | assign name value =>
      have h := ((((Spells.word hs.1.1).glue glue_equals).append (Expr.spells_text hs.2)).glue
        glue_semicolon).toSpells
      simpa [text, spelling] using h
  | assignPart name sel value =>
      have h := ((((((Spells.word hs.1.1).glue glue_dot).append (.word sel.isWord_text)).glue
        glue_equals).append (Expr.spells_text hs.2)).glue glue_semicolon).toSpells
      simpa [text, spelling] using h
  | addAssign name value =>
      have h := ((((Spells.word hs.1.1).glue glue_plusEquals).append (Expr.spells_text hs.2)).glue
        glue_semicolon).toSpells
      simpa [text, spelling] using h
  | discard => decide
  | discardIf cond =>
      have hopen : OpenSpells "if (" ["if", "("] := by decide
      have hclose : Glue ") discard;" [")", "discard", ";"] := by decide
      exact ((hopen.append (Expr.spells_text hs)).glue hclose).toSpells

theorem spells_line {s : Stmt} (hs : s.WellNamed) : Spells s.line s.spelling := by
  have hindent : OpenSpells "  " [] := by decide
  exact hindent.append (spells_text hs)

theorem endsAt_last : EndsAt 0 [";"] := endsAt_semicolon 0 []

theorem name_ne_operator {name : String} (h : IsName name) :
    name ≠ "=" ∧ name ≠ "+=" ∧ name ≠ "." := by
  refine ⟨?_, ?_, ?_⟩ <;>
  · rintro rfl
    exact absurd h.1 (by decide)

theorem read?_spelling {s : Stmt} (hs : s.WellNamed) : Stmt.read? s.spelling = some s := by
  cases s with
  | declare ty name value =>
      obtain ⟨heq, hplus, hdot⟩ := name_ne_operator hs.1
      rw [spelling, read?.eq_6 _ _ _ (fun h => absurd h ty.text_ne_if) heq hplus
        (fun _ h => absurd h hdot), Ty.read?_text, Expr.readBefore_spelling hs.2 endsAt_last]
      rfl
  | assign name value =>
      rw [spelling, read?.eq_3, Expr.readBefore_spelling hs.2 endsAt_last]
      rfl
  | assignPart name sel value =>
      have hsel : Swizzle.read? sel.text = some sel := by cases sel <;> decide
      rw [spelling, read?.eq_5, hsel, Expr.readBefore_spelling hs.2 endsAt_last]
      rfl
  | addAssign name value =>
      rw [spelling, read?.eq_4, Expr.readBefore_spelling hs.2 endsAt_last]
      rfl
  | discard => rfl
  | discardIf cond =>
      rw [spelling, read?.eq_2, Expr.readBefore_spelling hs (endsAt_close 0 _)]
      rfl

end Stmt

/-! ## Declarations -/

namespace Global

def WellNamed (g : Global) : Prop := IsName g.name

/-- The lexemes of a declaration. -/
def spelling (g : Global) : List String := g.storage.text :: (g.ty.spelling ++ [g.name, ";"])

theorem spells_line {g : Global} (hg : g.WellNamed) : Spells g.line g.spelling := by
  have h := ((((((Spells.word g.storage.isWord_text).glue glue_blank).append
    g.ty.spells_text).glue glue_blank).append (.word hg.1)).glue glue_semicolon).toSpells
  simpa [line, spelling] using h

theorem read?_spelling (g : Global) : Global.read? g.spelling = some g := by
  rw [spelling, read?.eq_2, Storage.read?_text, QualifiedTy.read_spelling]
  rfl

end Global

/-! ## Helpers -/

namespace Helper

/-- All names are names. -/
structure WellNamed (h : Helper) : Prop where
  name : IsName h.name
  param : IsName h.param
  locals : ∀ l ∈ h.locals, IsName l.1 ∧ l.2.WellNamed
  result : h.result.WellNamed

/-- The lexemes of a local variable of type `q`. -/
def localSpelling (q : QualifiedTy) (l : String × Expr) : List String :=
  q.spelling ++ l.1 :: "=" :: (l.2.spelling ++ [";"])

/-- The lexemes of a body behind its opening bracket. -/
def bodySpelling (q : QualifiedTy) (locals : List (String × Expr)) (result : Expr) :
    List String :=
  locals.flatMap (localSpelling q) ++ "return" :: (result.spelling ++ [";", "\x7d"])

/-- The lexemes of a helper. -/
def spelling (h : Helper) : List String :=
  h.ty.spelling ++ h.name :: "(" :: "in" :: (h.ty.spelling ++ h.param :: ")" :: "\x7b"
    :: bodySpelling h.ty h.locals h.result)

theorem spells_localText (h : Helper) {l : String × Expr} (hname : IsName l.1)
    (hvalue : l.2.WellNamed) : OpenSpells (h.localText l) (localSpelling h.ty l) := by
  have hend : Glue "; " [";"] := by decide
  have hl := (((((h.ty.spells_text.glue glue_blank).append (.word hname.1)).glue
    glue_equals).append (Expr.spells_text hvalue)).glue hend)
  simpa [localText, localSpelling] using hl

theorem spells_locals (h : Helper) {locals : List (String × Expr)}
    (hlocals : ∀ l ∈ locals, IsName l.1 ∧ l.2.WellNamed) :
    OpenSpells (String.join (locals.map h.localText)) (locals.flatMap (localSpelling h.ty)) := by
  induction locals with
  | nil =>
      have hempty : OpenSpells "" [] := by decide
      exact hempty
  | cons l locals ih =>
      have hl := hlocals l List.mem_cons_self
      rw [List.map_cons, String.join_cons, List.flatMap_cons]
      exact (spells_localText h hl.1 hl.2).append_open
        (ih fun l' hl' => hlocals l' (List.mem_cons_of_mem l hl'))

theorem spells_line {h : Helper} (hh : h.WellNamed) : Spells h.line h.spelling := by
  have hin : Glue "(in " ["(", "in"] := by decide
  have hbrace : Glue ") \x7b " [")", "\x7b"] := by decide
  have hreturn : OpenSpells "return " ["return"] := by decide
  have hend : Glue "; \x7d" [";", "\x7d"] := by decide
  have hhead := (((((h.ty.spells_text.glue glue_blank).append (.word hh.name.1)).glue hin).append
    h.ty.spells_text).glue glue_blank).append (.word hh.param.1)
  have hbody := (((hhead.glue hbrace).append_open (spells_locals h hh.locals)).append_open
    hreturn).append (Expr.spells_text hh.result)
  simpa [line, spelling, bodySpelling] using (hbody.glue hend).toSpells

/-- The body is read back, one local variable after another. -/
theorem readBody_bodySpelling (q : QualifiedTy) {locals : List (String × Expr)} {result : Expr}
    (hlocals : ∀ l ∈ locals, l.2.WellNamed) (hresult : result.WellNamed) :
    ∀ fuel, locals.length < fuel →
      readBody fuel q (bodySpelling q locals result) = some (locals, result) := by
  have hlast : EndsAt 0 [";", "\x7d"] := endsAt_semicolon 0 _
  induction locals with
  | nil =>
      intro fuel hfuel
      obtain ⟨m, rfl⟩ : ∃ m, fuel = m + 1 := ⟨fuel - 1, by simp at hfuel; omega⟩
      rw [bodySpelling, List.flatMap_nil, List.nil_append, readBody.eq_2,
        Expr.readBefore_spelling hresult hlast]
      rfl
  | cons l locals ih =>
      intro fuel hfuel
      rw [List.length_cons] at hfuel
      obtain ⟨m, rfl⟩ : ∃ m, fuel = m + 1 := ⟨fuel - 1, by omega⟩
      have hmore := ih (fun l' hl' => hlocals l' (List.mem_cons_of_mem l hl')) m (by omega)
      have hbody : bodySpelling q (l :: locals) result
          = q.spelling ++ l.1 :: "=" :: (l.2.spelling ++ ";" :: bodySpelling q locals result) := by
        simp [bodySpelling, localSpelling]
      -- A declaration starts with its type, so it is not taken for the result.
      have hreturn : ∀ ws, bodySpelling q (l :: locals) result ≠ "return" :: ws := by
        obtain ⟨w, ws, hq, -, hne, -⟩ := q.head_spelling
        rw [hbody, hq]
        intro ws' heq
        exact hne (List.cons.inj heq).1
      rw [readBody.eq_3 _ _ _ hreturn, hbody, QualifiedTy.read_spelling]
      simp [Expr.read_spelling (hlocals l List.mem_cons_self) (endsAt_semicolon 0 _), hmore]

theorem length_le_bodySpelling (q : QualifiedTy) (locals : List (String × Expr)) (result : Expr) :
    locals.length ≤ (bodySpelling q locals result).length := by
  induction locals with
  | nil => exact Nat.zero_le _
  | cons l locals ih =>
      simp only [bodySpelling, localSpelling, List.flatMap_cons, List.length_append,
        List.length_cons] at ih ⊢
      omega

theorem read?_spelling {h : Helper} (hh : h.WellNamed) : Helper.read? h.spelling = some h := by
  have hbody := readBody_bodySpelling h.ty (fun l hl => (hh.locals l hl).2) hh.result
    ((bodySpelling h.ty h.locals h.result).length + 1)
    (Nat.lt_succ_of_le (length_le_bodySpelling h.ty h.locals h.result))
  rw [spelling, read?.eq_1, QualifiedTy.read_spelling]
  simp [QualifiedTy.read_spelling, hbody]

end Helper

/-! ## Lines -/

/-- The text lies on one line and is read as `l`. -/
structure ReadsAs (line : String) (l : Line) : Prop where
  read : Line.read? (lexemes line.toList) = some l
  oneLine : '\n' ∉ line.toList

theorem Spells.readsAs {line : String} {ws : List String} {l : Line} (h : Spells line ws)
    (hread : Line.read? ws = some l) : ReadsAs line l where
  read := by rw [h.lexemes_eq, hread]
  oneLine := h.oneLine

theorem Line.read?_cons {w : String} (hw : w ∉ lineWords) (ws : List String) :
    Line.read? (w :: ws) = ((Global.read? (w :: ws)).map .global
      <|> (Helper.read? (w :: ws)).map .helper <|> (Stmt.read? (w :: ws)).map .stmt) := by
  apply Line.read?.eq_5
  · rintro number heq
    exact hw (by rw [(List.cons.inj heq).1]; decide)
  · rintro p heq
    exact hw (by rw [(List.cons.inj heq).1]; decide)
  · rintro heq
    exact hw (by rw [(List.cons.inj heq).1]; decide)
  · rintro heq
    exact hw (by rw [(List.cons.inj heq).1]; decide)

theorem Global.read?_of_storage {w : String} (hw : Storage.read? w = none) (ws : List String) :
    Global.read? (w :: ws) = none := by
  rw [Global.read?.eq_2, hw]
  rfl

theorem readsAs_version (n : Nat) : ReadsAs (versionLine n) (.version n) := by
  have hhead : OpenSpells "#version " ["#", "version"] := by decide
  refine (hhead.append (.word (isWord_decimal n))).readsAs ?_
  rw [List.cons_append, List.cons_append, List.nil_append, Line.read?.eq_1, Decimal.toList_text,
    Decimal.read?_digits]
  rfl

theorem readsAs_precision (p : Precision) : ReadsAs (precisionLine p) (.precision p) := by
  have h : Spells (precisionLine p) ["precision", p.text, "float", ";"] := by
    cases p <;> decide
  exact h.readsAs (by cases p <;> decide)

theorem readsAs_main : ReadsAs mainLine .main := by
  have h : Spells mainLine ["void", "main", "(", ")", "\x7b"] := by decide
  exact h.readsAs rfl

theorem readsAs_close : ReadsAs closeLine .close := by
  have h : Spells closeLine ["\x7d"] := by decide
  exact h.readsAs rfl

theorem Global.readsAs_line {g : Global} (hg : g.WellNamed) : ReadsAs g.line (.global g) := by
  refine (spells_line hg).readsAs ?_
  have hread := read?_spelling g
  rw [spelling] at hread ⊢
  rw [Line.read?_cons (by cases g.storage <;> decide), hread]
  rfl

theorem Helper.readsAs_line {h : Helper} (hh : h.WellNamed) : ReadsAs h.line (.helper h) := by
  refine (spells_line hh).readsAs ?_
  have hread := read?_spelling hh
  obtain ⟨w, ws, hq, hline, -, hstorage⟩ := h.ty.head_spelling
  rw [spelling, hq, List.cons_append] at hread ⊢
  rw [Line.read?_cons hline, Global.read?_of_storage hstorage, hread]
  rfl

namespace Stmt

/-- A statement starts like neither a declaration nor a line of a fixed form. -/
theorem head_spelling {s : Stmt} (hs : s.WellNamed) :
    ∃ w ws, s.spelling = w :: ws ∧ w ∉ lineWords ∧ Storage.read? w = none := by
  cases s with
  | declare ty name value =>
      exact ⟨ty.text, _, rfl, by cases ty <;> decide, by cases ty <;> decide⟩
  | assign name value | assignPart name sel value | addAssign name value =>
      exact ⟨name, _, rfl, hs.1.notMem_lineWords, readWord_of_isName hs.1 (by decide)⟩
  | discard => exact ⟨"discard", _, rfl, by decide, by decide⟩
  | discardIf cond => exact ⟨"if", _, rfl, by decide, by decide⟩

theorem helper_read?_spelling {s : Stmt} (hs : s.WellNamed) : Helper.read? s.spelling = none := by
  cases s with
  | declare ty name value =>
      -- The type is read, but the name behind it is not called.
      have hty := QualifiedTy.read_spelling { ty := ty } (name :: "=" :: (value.spelling ++ [";"]))
      rw [spelling, Helper.read?.eq_1]
      simp only [QualifiedTy.spelling, List.singleton_append] at hty
      rw [hty]
      rfl
  | assign name value | assignPart name sel value | addAssign name value =>
      rw [spelling, Helper.read?.eq_1, QualifiedTy.read_of_isName hs.1]
      rfl
  | discard => rfl
  | discardIf cond => rfl

theorem readsAs_line {s : Stmt} (hs : s.WellNamed) : ReadsAs s.line (.stmt s) := by
  refine (spells_line hs).readsAs ?_
  have hread := read?_spelling hs
  have hhelper := helper_read?_spelling hs
  obtain ⟨w, ws, hspelling, hline, hstorage⟩ := head_spelling hs
  rw [hspelling] at hread hhelper ⊢
  rw [Line.read?_cons hline, Global.read?_of_storage hstorage, hhelper, hread]
  rfl

end Stmt

/-! ## Programs -/

/-- The text of lines that are read one by one is cut into these lines. -/
theorem splitLines_of_readsAs {lines : List String} {ls : List Line}
    (h : List.Forall₂ ReadsAs lines ls) :
    splitLines (String.join (lines.map (· ++ "\n"))).toList = lines.map String.toList := by
  induction h with
  | nil => rfl
  | @cons line l lines ls hline _ ih =>
      have hjoin : (String.join ((line :: lines).map (· ++ "\n"))).toList
          = line.toList ++ '\n' :: (String.join (lines.map (· ++ "\n"))).toList := by
        simp
      rw [hjoin, splitLines_append hline.oneLine, ih, List.map_cons]

theorem mapM_read?_splitLines {lines : List String} {ls : List Line}
    (h : List.Forall₂ ReadsAs lines ls) :
    ((splitLines (String.join (lines.map (· ++ "\n"))).toList).mapM
      fun line => Line.read? (lexemes line)) = some ls := by
  rw [splitLines_of_readsAs h]
  -- The induction is on the lines, each of which is read by itself.
  induction h with
  | nil => rfl
  | cons hline _ ih =>
      rw [List.map_cons, List.mapM_cons, hline.read, ih]
      rfl

theorem Line.collect_map {α : Type} {kind : Line → Option α} (mk : α → Line)
    (hmk : ∀ a, kind (mk a) = some a) (as : List α) {rest : List Line}
    (hrest : ∀ l ∈ rest.head?, kind l = none) :
    collect kind (as.map mk ++ rest) = (as, rest) := by
  induction as with
  | nil =>
      cases rest with
      | nil => rfl
      | cons l ls => rw [List.map_nil, List.nil_append, collect, hrest l rfl]
  | cons a as ih => rw [List.map_cons, List.cons_append, collect, hmk, ih]

/-- Lines of another kind in front keep a run of lines from going on. -/
theorem Line.head?_map_append {α : Type} {kind : Line → Option α} {β : Type} {mk : β → Line}
    (hmk : ∀ b, kind (mk b) = none) (bs : List β) {rest : List Line}
    (hrest : ∀ l ∈ rest.head?, kind l = none) :
    ∀ l ∈ (bs.map mk ++ rest).head?, kind l = none := by
  cases bs with
  | nil => exact hrest
  | cons b bs =>
      intro l hl
      obtain rfl : mk b = l := Option.some.inj hl
      exact hmk b

theorem Line.head?_cons {α : Type} {kind : Line → Option α} {first : Line}
    (hfirst : kind first = none) (rest : List Line) :
    ∀ l ∈ (first :: rest).head?, kind l = none := by
  intro l hl
  obtain rfl : first = l := Option.some.inj hl
  exact hfirst

namespace Program

/-- All names are names. -/
structure WellNamed (p : Program) : Prop where
  globals : ∀ g ∈ p.globals, g.WellNamed
  helpers : ∀ h ∈ p.helpers, h.WellNamed
  main : ∀ s ∈ p.main, s.WellNamed

/-- What the lines of a program hold. -/
def contents (p : Program) : List Line :=
  .version p.version :: (p.precision.toList.map .precision ++ (p.globals.map .global
    ++ (p.helpers.map .helper ++ .main :: (p.main.map .stmt ++ [.close]))))

theorem forall₂_map_readsAs {α : Type} {as : List α} {line : α → String} {mk : α → Line}
    (h : ∀ a ∈ as, ReadsAs (line a) (mk a)) : List.Forall₂ ReadsAs (as.map line) (as.map mk) := by
  rw [List.forall₂_map_left_iff, List.forall₂_map_right_iff, List.forall₂_same]
  exact h

theorem readsAs_lines {p : Program} (hp : p.WellNamed) :
    List.Forall₂ ReadsAs p.lines p.contents := by
  have hprecision := forall₂_map_readsAs fun q (_ : q ∈ p.precision.toList) => readsAs_precision q
  have hglobals := forall₂_map_readsAs fun g hg => Global.readsAs_line (hp.globals g hg)
  have hhelpers := forall₂_map_readsAs fun h hh => Helper.readsAs_line (hp.helpers h hh)
  have hmain := forall₂_map_readsAs fun s hs => Stmt.readsAs_line (hp.main s hs)
  rw [lines, List.append_assoc, List.append_assoc]
  refine .cons (readsAs_version p.version) ?_
  refine List.rel_append hprecision (List.rel_append hglobals (List.rel_append hhelpers ?_))
  exact .cons readsAs_main (List.rel_append hmain (.cons readsAs_close .nil))

/-- The lines are put together to the program that they come from. -/
theorem ofLines_contents (p : Program) : ofLines p.contents = some p := by
  obtain ⟨version, precision, globals, helpers, main⟩ := p
  -- Each run of lines of one kind is taken up to the first line of another kind, last run first.
  have hmain : Line.collect Line.stmt? (main.map .stmt ++ [.close]) = (main, [.close]) :=
    Line.collect_map .stmt (fun _ => rfl) main (Line.head?_cons rfl [])
  generalize hbody : main.map Line.stmt ++ [.close] = body at hmain
  have hhelpers : Line.collect Line.helper? (helpers.map .helper ++ .main :: body)
      = (helpers, .main :: body) :=
    Line.collect_map .helper (fun _ => rfl) helpers (Line.head?_cons rfl body)
  have hglobals : Line.collect Line.global?
      (globals.map .global ++ (helpers.map .helper ++ .main :: body))
      = (globals, helpers.map .helper ++ .main :: body) :=
    Line.collect_map .global (fun _ => rfl) globals
      (Line.head?_map_append (fun _ => rfl) helpers (Line.head?_cons rfl body))
  have hprecision : Line.collect Line.precision? (precision.toList.map .precision
      ++ (globals.map .global ++ (helpers.map .helper ++ .main :: body)))
      = (precision.toList, globals.map .global ++ (helpers.map .helper ++ .main :: body)) :=
    Line.collect_map .precision (fun _ => rfl) precision.toList
      (Line.head?_map_append (fun _ => rfl) globals
        (Line.head?_map_append (fun _ => rfl) helpers (Line.head?_cons rfl body)))
  have hone : precision.toList.length ≤ 1 := by cases precision <;> simp
  have hfirst : precision.toList.head? = precision := by cases precision <;> rfl
  simp only [contents, ofLines, hbody, hprecision, hglobals, hhelpers, hmain, hone, hfirst,
    and_self, if_true]

/-- A program whose names are names is read back from its text. -/
theorem parse_text {p : Program} (hp : p.WellNamed) : parse p.text = some p := by
  rw [parse, text, pieces, mapM_read?_splitLines (readsAs_lines hp)]
  exact ofLines_contents p

end Program

end FixedFragment.Glsl
