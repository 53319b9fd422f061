import Mathlib.Data.List.SplitBy
import FixedFragment.Glsl.Parser

set_option autoImplicit false

/-!
# How programs are spelled

The lexemes of the text of an expression, statement, helper or declaration are written down beside
the text: `Expr.spelling` and so on. `Spells` says of a text that it lies on one line and has these
lexemes. Texts are put together from names and from punctuation whose outer characters join no
neighbour, so that the lexemes of the whole are the lexemes of the parts.
-/

namespace FixedFragment.Glsl

/-! ## Characters that join no neighbour -/

/-- Neither a character of a word nor one that can begin an operator of two characters. -/
def isApart (c : Char) : Bool := !isWordChar c && !(['=', '!', '<', '>', '+'].contains c)

theorem sameLexeme_apart_right (a : Char) {b : Char} (h : isApart b = true) :
    sameLexeme a b = false := by
  have hword : isWordChar b = false := by
    cases hb : isWordChar b with
    | false => rfl
    | true => simp [isApart, hb] at h
  have hne : b ≠ '=' := fun hb => by
    rw [hb] at h
    exact absurd h (by decide)
  simp [sameLexeme, hword, hne]

theorem sameLexeme_apart_left {a : Char} (h : isApart a = true) (b : Char) :
    sameLexeme a b = false := by
  simp only [isApart, Bool.and_eq_true, Bool.not_eq_true'] at h
  simp only [sameLexeme, h.1, h.2, Bool.false_and, Bool.and_false, Bool.or_self]

theorem lexemes_append {cs ds : List Char}
    (h : ∀ a ∈ cs.getLast?, ∀ b ∈ ds.head?, sameLexeme a b = false) :
    lexemes (cs ++ ds) = lexemes cs ++ lexemes ds := by
  rw [lexemes, List.splitBy_append h, List.filter_append, List.map_append]
  rfl

/-! ## Words -/

/-- A nonempty run of word characters. -/
def IsWord (w : String) : Prop := w.toList ≠ [] ∧ ∀ c ∈ w.toList, isWordChar c = true

instance (w : String) : Decidable (IsWord w) :=
  decidable_of_iff (w.toList ≠ [] ∧ w.toList.all isWordChar = true)
    (and_congr_right' List.all_eq_true)

theorem lexemes_word {w : String} (h : IsWord w) : lexemes w.toList = [w] := by
  -- Any two characters of a word belong to one lexeme, neighbours in particular.
  have hchain : w.toList.IsChain fun a b => sameLexeme a b := by
    refine (List.pairwise_iff_getElem.mpr fun i j hi hj _ => ?_).isChain
    rw [sameLexeme, h.2 _ (List.getElem_mem hi), h.2 _ (List.getElem_mem hj)]
    rfl
  have hblank : w.toList ≠ [' '] := fun hb => by
    have hspace := h.2 ' ' (by rw [hb]; exact List.mem_singleton_self _)
    exact absurd hspace (by decide)
  rw [lexemes, List.splitBy_of_isChain h.1 hchain]
  simp [hblank]

/-! ## Spelled texts -/

/-- The text lies on one line and has the lexemes `ws`. -/
structure Spells (text : String) (ws : List String) : Prop where
  lexemes_eq : lexemes text.toList = ws
  oneLine : '\n' ∉ text.toList

/-- A spelled text to whose end anything can be joined. -/
structure OpenSpells (text : String) (ws : List String) : Prop extends Spells text ws where
  ends : ∀ c ∈ text.toList.getLast?, isApart c = true

/-- Punctuation: a spelled text that can be joined to anything on both sides. -/
structure Glue (text : String) (ws : List String) : Prop extends OpenSpells text ws where
  starts : ∀ c ∈ text.toList.head?, isApart c = true
  ne_empty : text ≠ ""

instance (text : String) (ws : List String) : Decidable (Spells text ws) :=
  decidable_of_iff (lexemes text.toList = ws ∧ '\n' ∉ text.toList)
    ⟨fun h => ⟨h.1, h.2⟩, fun h => ⟨h.1, h.2⟩⟩

instance (text : String) (ws : List String) : Decidable (OpenSpells text ws) :=
  decidable_of_iff (Spells text ws ∧ text.toList.getLast?.all isApart = true)
    ⟨fun h => ⟨h.1, (Option.all_eq_true _ _).mp h.2⟩,
      fun h => ⟨h.1, (Option.all_eq_true _ _).mpr h.2⟩⟩

instance (text : String) (ws : List String) : Decidable (Glue text ws) :=
  decidable_of_iff (OpenSpells text ws ∧ text.toList.head?.all isApart = true ∧ text ≠ "")
    ⟨fun h => ⟨h.1, (Option.all_eq_true _ _).mp h.2.1, h.2.2⟩,
      fun h => ⟨h.1, (Option.all_eq_true _ _).mpr h.2, h.3⟩⟩

theorem Spells.word {w : String} (h : IsWord w) : Spells w [w] where
  lexemes_eq := lexemes_word h
  oneLine hmem := absurd (h.2 '\n' hmem) (by decide)

theorem Spells.append_of_apart {s t : String} {ws vs : List String} (hs : Spells s ws)
    (ht : Spells t vs)
    (h : ∀ a ∈ s.toList.getLast?, ∀ b ∈ t.toList.head?, sameLexeme a b = false) :
    Spells (s ++ t) (ws ++ vs) where
  lexemes_eq := by rw [String.toList_append, lexemes_append h, hs.lexemes_eq, ht.lexemes_eq]
  oneLine := by
    rw [String.toList_append, List.mem_append]
    exact fun hmem => hmem.elim hs.oneLine ht.oneLine

/-- Anything can follow an open end. -/
theorem OpenSpells.append {s t : String} {ws vs : List String} (hs : OpenSpells s ws)
    (ht : Spells t vs) : Spells (s ++ t) (ws ++ vs) :=
  hs.toSpells.append_of_apart ht fun a ha b _ => sameLexeme_apart_left (hs.ends a ha) b

theorem ends_append {s t : String} (hs : ∀ c ∈ s.toList.getLast?, isApart c = true)
    (ht : ∀ c ∈ t.toList.getLast?, isApart c = true) :
    ∀ c ∈ (s ++ t).toList.getLast?, isApart c = true := by
  intro c hc
  -- The last character is that of `t`, or that of `s` if `t` is empty.
  rw [String.toList_append, List.getLast?_append, Option.mem_def, Option.or_eq_some_iff] at hc
  rcases hc with hc | ⟨-, hc⟩
  · exact ht c hc
  · exact hs c hc

theorem OpenSpells.append_open {s t : String} {ws vs : List String} (hs : OpenSpells s ws)
    (ht : OpenSpells t vs) : OpenSpells (s ++ t) (ws ++ vs) where
  toSpells := hs.append ht.toSpells
  ends := ends_append hs.ends ht.ends

/-- Punctuation can follow anything and leaves an open end. -/
theorem Spells.glue {s g : String} {ws gs : List String} (hs : Spells s ws) (hg : Glue g gs) :
    OpenSpells (s ++ g) (ws ++ gs) where
  toSpells := hs.append_of_apart hg.toSpells fun a _ b hb =>
    sameLexeme_apart_right a (hg.starts b hb)
  ends := by
    intro c hc
    rw [String.toList_append, List.getLast?_append] at hc
    have hlast : g.toList.getLast? ≠ none := by simp [hg.ne_empty]
    cases hg' : g.toList.getLast? with
    | none => exact absurd hg' hlast
    | some d =>
        rw [hg', Option.some_or] at hc
        exact hg.ends c (hg'.trans hc)

/-! ## Names -/

/-- The words with a meaning of their own. -/
def reserved : List String :=
  ["bool", "float", "vec2", "vec3", "vec4", "sampler2D", "lowp", "mediump", "uniform", "varying",
    "mix", "clamp", "floor", "fract", "texture2D", "texture2DProj", "if", "discard", "return",
    "precision", "void"]

/-- A word that can name a variable or a helper: no number and not reserved. -/
def IsName (w : String) : Prop := IsWord w ∧ ¬w.toList.all Char.isDigit = true ∧ w ∉ reserved

instance (w : String) : Decidable (IsName w) := inferInstanceAs (Decidable (_ ∧ _ ∧ _))

theorem isWord_decimal (n : Nat) : IsWord (Decimal.text n) := by
  rw [IsWord, Decimal.toList_text]
  refine ⟨Decimal.digits_ne_nil n, fun c hc => ?_⟩
  have hdigit : c.isDigit = true := List.all_eq_true.mp (Decimal.all_isDigit_digits n) c hc
  simp [isWordChar, Char.isAlphanum, hdigit]

theorem Ty.isWord_text (ty : Ty) : IsWord ty.text := by cases ty <;> decide

theorem Precision.isWord_text (p : Precision) : IsWord p.text := by cases p <;> decide

theorem Swizzle.isWord_text (sel : Swizzle) : IsWord sel.text := by cases sel <;> decide

theorem Storage.isWord_text (s : Storage) : IsWord s.text := by cases s <;> decide

/-- The name of a helper is a name. -/
def Func.WellNamed : Func → Prop
  | helper name => IsName name
  | vec4 | mix | clamp | floor | fract | texture2D | texture2DProj => True

theorem Func.isWord_text {f : Func} (hf : f.WellNamed) : IsWord f.text := by
  cases f with
  | helper name => exact hf.1
  | vec4 | mix | clamp | floor | fract | texture2D | texture2DProj => decide

/-! ## Expressions -/

theorem spells_arith (op : Arith) : Spells op.text [op.text] := by cases op <;> decide

theorem spells_relation (rel : Relation) : Spells rel.text [rel.text] := by cases rel <;> decide

theorem glue_blank : Glue " " [] := by decide

theorem glue_comma : Glue ", " [","] := by decide

theorem glue_open : Glue "(" ["("] := by decide

theorem glue_close : Glue ")" [")"] := by decide

theorem glue_dot : Glue "." ["."] := by decide

namespace Expr

def isLit : Expr → Bool
  | lit _ _ => true
  | _ => false

/-- Variables and helpers have names, and components are not selected from literals. -/
def WellNamed : Expr → Prop
  | lit _ _ => True
  | var name => IsName name
  | part e _ => e.WellNamed ∧ e.isLit = false
  | not e => e.WellNamed
  | arith _ lhs rhs | compare _ lhs rhs => lhs.WellNamed ∧ rhs.WellNamed
  | call1 f a => f.WellNamed ∧ a.WellNamed
  | call2 f a b => f.WellNamed ∧ a.WellNamed ∧ b.WellNamed
  | call3 f a b c => f.WellNamed ∧ a.WellNamed ∧ b.WellNamed ∧ c.WellNamed
  | call4 f a b c d => f.WellNamed ∧ a.WellNamed ∧ b.WellNamed ∧ c.WellNamed ∧ d.WellNamed

/-- The lexemes of `e` as an operand at a place that asks for strength `least`. -/
def bracketedSpelling (e : Expr) (least : Nat) (ws : List String) : List String :=
  if e.level < least || e.isQuotient then "(" :: (ws ++ [")"]) else ws

/-- The lexemes of arguments, with commas between them. -/
def argsSpelling : List (List String) → List String
  | [] => []
  | [ws] => ws
  | ws :: wss => ws ++ "," :: argsSpelling wss

/-- The lexemes of a call. -/
def callSpelling (f : Func) (args : List (List String)) : List String :=
  f.text :: "(" :: (argsSpelling args ++ [")"])

/-- The lexemes of an expression. -/
def spelling : Expr → List String
  | lit whole tenths => [Decimal.text whole, ".", Decimal.text tenths]
  | var name => [name]
  | part e sel => e.bracketedSpelling 6 e.spelling ++ [".", sel.text]
  | not e => "!" :: e.bracketedSpelling 5 e.spelling
  | arith op lhs rhs =>
      lhs.bracketedSpelling op.level lhs.spelling
        ++ op.text :: rhs.bracketedSpelling (op.level + 1) rhs.spelling
  | compare rel lhs rhs =>
      lhs.bracketedSpelling rel.level lhs.spelling
        ++ rel.text :: rhs.bracketedSpelling (rel.level + 1) rhs.spelling
  | call1 f a => callSpelling f [a.spelling]
  | call2 f a b => callSpelling f [a.spelling, b.spelling]
  | call3 f a b c => callSpelling f [a.spelling, b.spelling, c.spelling]
  | call4 f a b c d => callSpelling f [a.spelling, b.spelling, c.spelling, d.spelling]

theorem spells_bracketed (e : Expr) {text : String} {ws : List String} (h : Spells text ws)
    (least : Nat) : Spells (e.bracketed least text) (e.bracketedSpelling least ws) := by
  unfold bracketed bracketedSpelling
  split
  · exact ((glue_open.toOpenSpells.append h).glue glue_close).toSpells
  · exact h

theorem spells_binary {l op r : String} {ls rs : List String} (hl : Spells l ls)
    (hop : Spells op [op]) (hr : Spells r rs) :
    Spells (l ++ " " ++ op ++ " " ++ r) (ls ++ op :: rs) := by
  have h := (((hl.glue glue_blank).append hop).glue glue_blank).append hr
  simpa using h

/-- The text starts with a character that completes no operator. -/
def StartsFree (text : String) : Prop := ∃ c, text.toList.head? = some c ∧ c ≠ '='

theorem StartsFree.append {s : String} (hs : StartsFree s) (t : String) : StartsFree (s ++ t) := by
  obtain ⟨c, hc, hne⟩ := hs
  refine ⟨c, ?_, hne⟩
  rw [String.toList_append, List.head?_append, hc, Option.some_or]

theorem StartsFree.word {w : String} (h : IsWord w) : StartsFree w := by
  cases hw : w.toList with
  | nil => exact absurd hw h.1
  | cons c cs =>
      refine ⟨c, by rw [hw, List.head?_cons], fun hc => ?_⟩
      have hword : isWordChar c = true := h.2 c (by rw [hw]; exact List.mem_cons_self)
      rw [hc] at hword
      exact absurd hword (by decide)

theorem StartsFree.bracketed {text : String} (h : StartsFree text) (e : Expr) (least : Nat) :
    StartsFree (e.bracketed least text) := by
  unfold Expr.bracketed
  split
  · exact StartsFree.append (s := "(" ++ text) (StartsFree.append ⟨'(', rfl, by decide⟩ _) _
  · exact h

theorem startsFree_text {e : Expr} (he : e.WellNamed) : StartsFree e.text := by
  induction e with
  | lit whole tenths => exact ((StartsFree.word (isWord_decimal whole)).append _).append _
  | var name => exact .word he.1
  | part e sel ih => exact (((ih he.1).bracketed e 6).append _).append _
  | not e => exact StartsFree.append ⟨'!', rfl, by decide⟩ _
  | arith op lhs rhs ihl =>
      exact (((((ihl he.1).bracketed lhs op.level).append _).append _).append _).append _
  | compare rel lhs rhs ihl =>
      exact (((((ihl he.1).bracketed lhs rel.level).append _).append _).append _).append _
  | call1 f a => exact (((StartsFree.word (Func.isWord_text he.1)).append _).append _).append _
  | call2 f a b =>
      exact (((((StartsFree.word (Func.isWord_text he.1)).append _).append _).append _).append
        _).append _
  | call3 f a b c =>
      exact (((((((StartsFree.word (Func.isWord_text he.1)).append _).append _).append _).append
        _).append _).append _).append _
  | call4 f a b c d =>
      exact (((((((((StartsFree.word (Func.isWord_text he.1)).append _).append _).append _).append
        _).append _).append _).append _).append _).append _

/-- An exclamation mark joins no character but one that completes an operator. -/
theorem spells_bang {text : String} {ws : List String} (h : Spells text ws)
    (hstart : StartsFree text) : Spells ("!" ++ text) ("!" :: ws) := by
  have hmark : Spells "!" ["!"] := by decide
  -- The mark is not apart, so it matters which character comes next.
  refine hmark.append_of_apart h fun a ha b hb => ?_
  obtain ⟨c, hc, hne⟩ := hstart
  obtain rfl : c = b := Option.some.inj (hc.symm.trans hb)
  obtain rfl : '!' = a := Option.some.inj ha
  simp [sameLexeme, hne, isWordChar]

/-- The name of what is called and the opening bracket. -/
theorem spells_callee {f : Func} (hf : f.WellNamed) :
    OpenSpells (f.text ++ "(") [f.text, "("] :=
  (Spells.word (Func.isWord_text hf)).glue glue_open

/-- An argument and the comma behind it. -/
theorem spells_argument {s t : String} {ws vs : List String} (hs : OpenSpells s ws)
    (ht : Spells t vs) : OpenSpells (s ++ t ++ ", ") (ws ++ vs ++ [","]) :=
  (hs.append ht).glue glue_comma

/-- The last argument and the closing bracket. -/
theorem spells_lastArgument {s t : String} {ws vs : List String} (hs : OpenSpells s ws)
    (ht : Spells t vs) : Spells (s ++ t ++ ")") (ws ++ vs ++ [")"]) :=
  ((hs.append ht).glue glue_close).toSpells

/-- The text of an expression has the lexemes that its spelling lists. -/
theorem spells_text {e : Expr} (he : e.WellNamed) : Spells e.text e.spelling := by
  induction e with
  | lit whole tenths =>
      exact ((Spells.word (isWord_decimal whole)).glue glue_dot).append
        (.word (isWord_decimal tenths))
  | var name => exact .word he.1
  | part e sel ih =>
      have h := ((spells_bracketed e (ih he.1) 6).glue glue_dot).append (.word sel.isWord_text)
      simpa [text, spelling] using h
  | not e ih =>
      exact spells_bang (spells_bracketed e (ih he) 5)
        (StartsFree.bracketed (startsFree_text (e := e) he) e 5)
  | arith op lhs rhs ihl ihr =>
      exact spells_binary (spells_bracketed lhs (ihl he.1) _) (spells_arith op)
        (spells_bracketed rhs (ihr he.2) _)
  | compare rel lhs rhs ihl ihr =>
      exact spells_binary (spells_bracketed lhs (ihl he.1) _) (spells_relation rel)
        (spells_bracketed rhs (ihr he.2) _)
  | call1 f a iha =>
      have h := spells_lastArgument (spells_callee he.1) (iha he.2)
      simpa [text, spelling, callSpelling, argsSpelling] using h
  | call2 f a b iha ihb =>
      have h := spells_lastArgument (spells_argument (spells_callee he.1) (iha he.2.1))
        (ihb he.2.2)
      simpa [text, spelling, callSpelling, argsSpelling] using h
  | call3 f a b c iha ihb ihc =>
      have h := spells_lastArgument (spells_argument (spells_argument (spells_callee he.1)
        (iha he.2.1)) (ihb he.2.2.1)) (ihc he.2.2.2)
      simpa [text, spelling, callSpelling, argsSpelling] using h
  | call4 f a b c d iha ihb ihc ihd =>
      have h := spells_lastArgument (spells_argument (spells_argument (spells_argument
        (spells_callee he.1) (iha he.2.1)) (ihb he.2.2.1)) (ihc he.2.2.2.1)) (ihd he.2.2.2.2)
      simpa [text, spelling, callSpelling, argsSpelling] using h

end Expr

end FixedFragment.Glsl
