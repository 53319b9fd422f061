set_option autoImplicit false

/-!
# Lines and lexemes

A text is cut into lines, and a line into lexemes: the longest runs of word characters, and
operators of one or two characters. Blanks separate lexemes and mean nothing else.
-/

namespace FixedFragment.Glsl

/-- The lines of a text, without their line ends. -/
def splitLines : List Char → List (List Char)
  | [] => []
  | c :: cs =>
      if c = '\n' then
        [] :: splitLines cs
      else
        match splitLines cs with
        | [] => [[c]]
        | l :: ls => (c :: l) :: ls

/-- A line and its line end are cut from the front of a text. -/
theorem splitLines_append {line : List Char} (h : '\n' ∉ line) (rest : List Char) :
    splitLines (line ++ '\n' :: rest) = line :: splitLines rest := by
  induction line with
  | nil => rfl
  | cons c line ih =>
      have hc : c ≠ '\n' := fun hc => h (by simp [hc])
      have hline : '\n' ∉ line := fun hmem => h (by simp [hmem])
      rw [List.cons_append, splitLines, if_neg hc, ih hline]

/-- The characters of names, words and numbers. -/
def isWordChar (c : Char) : Bool := c.isAlphanum || c = '_'

/-- Whether two neighbouring characters belong to one lexeme. -/
def sameLexeme (a b : Char) : Bool :=
  (isWordChar a && isWordChar b) || (b = '=' && ['=', '!', '<', '>', '+'].contains a)

/-- The lexemes of a line. -/
def lexemes (line : List Char) : List String :=
  ((line.splitBy sameLexeme).filter (· ≠ [' '])).map String.ofList

end FixedFragment.Glsl
