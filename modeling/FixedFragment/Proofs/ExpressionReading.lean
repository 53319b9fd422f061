import FixedFragment.Proofs.Spelling

set_option autoImplicit false

/-!
# Reading expressions back

The readers of expressions undo `Expr.spelling`: `Expr.read_spelling`. An expression that is
followed by more operators is read up to its last operand, and `readChain` then goes on from there
(`TakesChain`). In the same way `readParts` goes on behind an operand whose components are selected
(`TakesParts`). Both leave a bound that is smaller by at most the number of lexemes taken.
-/

namespace FixedFragment.Glsl

/-! ## What may follow -/

/-- The lexemes do not go on with the operand before them. -/
def Detached (rest : List String) : Prop := ∀ w ∈ rest.head?, w ≠ "(" ∧ w ≠ "."

/-- The lexemes do not go on with an expression whose operators bind at least as `least`. -/
def EndsAt (least : Nat) (rest : List String) : Prop :=
  Detached rest ∧ ∀ w ∈ rest.head?, ∀ op, Operator.read? w = some op → op.level < least

theorem EndsAt.mono {k l : Nat} {rest : List String} (h : EndsAt k rest) (hkl : k ≤ l) :
    EndsAt l rest :=
  ⟨h.1, fun w hw op hop => Nat.lt_of_lt_of_le (h.2 w hw op hop) hkl⟩

theorem Operator.read?_text (op : Operator) : Operator.read? op.text = some op := by
  cases op with
  | arith op => cases op <;> decide
  | compare rel => cases rel <;> decide

theorem detached_operator (op : Operator) (rest : List String) : Detached (op.text :: rest) := by
  intro w hw
  obtain rfl : op.text = w := Option.some.inj hw
  cases op with
  | arith op => cases op <;> decide
  | compare rel => cases rel <;> decide

theorem endsAt_operator {op : Operator} {k : Nat} (h : op.level < k) (rest : List String) :
    EndsAt k (op.text :: rest) := by
  refine ⟨detached_operator op rest, fun w hw op' hop' => ?_⟩
  obtain rfl : op.text = w := Option.some.inj hw
  rw [op.read?_text] at hop'
  rw [← Option.some.inj hop']
  exact h

/-- A lexeme that is neither an operator nor goes on with an operand ends every expression. -/
theorem endsAt_cons {w : String} (hnone : Operator.read? w = none) (hopen : w ≠ "(")
    (hdot : w ≠ ".") (k : Nat) (rest : List String) : EndsAt k (w :: rest) := by
  refine ⟨fun v hv => ?_, fun v hv op hop => ?_⟩
  · obtain rfl : w = v := Option.some.inj hv
    exact ⟨hopen, hdot⟩
  · obtain rfl : w = v := Option.some.inj hv
    rw [hnone] at hop
    cases hop

theorem endsAt_close (k : Nat) (rest : List String) : EndsAt k (")" :: rest) :=
  endsAt_cons (by decide) (by decide) (by decide) k rest

theorem endsAt_comma (k : Nat) (rest : List String) : EndsAt k ("," :: rest) :=
  endsAt_cons (by decide) (by decide) (by decide) k rest

theorem endsAt_semicolon (k : Nat) (rest : List String) : EndsAt k (";" :: rest) :=
  endsAt_cons (by decide) (by decide) (by decide) k rest

/-! ## Single steps of the readers -/

theorem readParts_of_detached (fuel : Nat) (e : Expr) {rest : List String} (h : Detached rest) :
    readParts (fuel + 1) e rest = some (e, rest) := by
  apply readParts.eq_3
  rintro sel more rfl
  exact (h "." rfl).2 rfl

theorem readParts_dot (fuel : Nat) (e : Expr) (sel : Swizzle) (rest : List String) :
    readParts (fuel + 1) e ("." :: sel.text :: rest) = readParts fuel (.part e sel) rest := by
  have hsel : Swizzle.read? sel.text = some sel := by cases sel <;> decide
  rw [readParts.eq_2, hsel]
  rfl

theorem readChain_of_endsAt (fuel : Nat) {least : Nat} (e : Expr) {rest : List String}
    (h : EndsAt least rest) : readChain (fuel + 1) least e rest = some (e, rest) := by
  cases rest with
  | nil => rfl
  | cons w ws =>
      rw [readChain.eq_3]
      cases hop : Operator.read? w with
      | none => rfl
      | some op =>
          have hlt : ¬least ≤ op.level := Nat.not_le.mpr (h.2 w rfl op hop)
          simp [hlt]

theorem readChain_operator {fuel least : Nat} {op : Operator} {lhs rhs : Expr}
    {ws rest : List String} (hleast : least ≤ op.level)
    (hrhs : readExpr fuel (op.level + 1) ws = some (rhs, rest)) :
    readChain (fuel + 1) least lhs (op.text :: ws)
      = readChain fuel least (op.apply lhs rhs) rest := by
  rw [readChain.eq_3, op.read?_text]
  simp [hleast, hrhs]

/-! ## Taking the spelling of an expression -/

/-- The lexemes `ws` are read as the operand `e`, unless `e` is gone on with. -/
def TakesOperand (ws : List String) (e : Expr) : Prop :=
  ∀ (fuel : Nat) (rest : List String), 3 * ws.length ≤ fuel + 1 → Detached rest →
    readOperand fuel (ws ++ rest) = some (e, rest)

/-- The lexemes `ws` are read as `e`, whose components may then be selected. -/
def TakesParts (ws : List String) (e : Expr) : Prop :=
  ∀ (fuel : Nat) (rest : List String), 3 * ws.length ≤ fuel + 1 → rest.head? ≠ some "(" →
    ∃ fuel', fuel ≤ fuel' + ws.length ∧ readOperand fuel (ws ++ rest) = readParts fuel' e rest

/-- The lexemes `ws` are read as `e`, which operators of strength at most `k` may then follow. -/
def TakesChain (k : Nat) (ws : List String) (e : Expr) : Prop :=
  ∀ (fuel least : Nat) (rest : List String), least ≤ k → 3 * ws.length ≤ fuel →
    EndsAt (k + 1) rest →
    ∃ fuel', fuel ≤ fuel' + ws.length
      ∧ readExpr fuel least (ws ++ rest) = readChain fuel' least e rest

/-- The lexemes `ws` are read as `e`, whole. -/
def TakesExpr (k : Nat) (ws : List String) (e : Expr) : Prop :=
  ∀ (fuel : Nat) (rest : List String), 3 * ws.length ≤ fuel → EndsAt k rest →
    readExpr fuel k (ws ++ rest) = some (e, rest)

variable {ws : List String} {e : Expr}

theorem TakesParts.operand (h : TakesParts ws e) (hws : ws ≠ []) : TakesOperand ws e := by
  intro fuel rest hfuel hrest
  have hopen : rest.head? ≠ some "(" := fun hhead => (hrest "(" hhead).1 rfl
  have hlen : 0 < ws.length := List.length_pos_of_ne_nil hws
  obtain ⟨fuel', hle, hread⟩ := h fuel rest hfuel hopen
  obtain ⟨m, rfl⟩ : ∃ m, fuel' = m + 1 := ⟨fuel' - 1, by omega⟩
  rw [hread, readParts_of_detached m e hrest]

theorem TakesOperand.chain (h : TakesOperand ws e) (hws : ws ≠ []) (k : Nat) :
    TakesChain k ws e := by
  intro fuel least rest _ hfuel hrest
  have hlen : 0 < ws.length := List.length_pos_of_ne_nil hws
  obtain ⟨m, rfl⟩ : ∃ m, fuel = m + 1 := ⟨fuel - 1, by omega⟩
  refine ⟨m, by omega, ?_⟩
  rw [readExpr, h m rest (by omega) hrest.1]
  rfl

theorem TakesChain.mono {k l : Nat} (h : TakesChain l ws e) (hkl : k ≤ l) : TakesChain k ws e :=
  fun fuel least rest hleast hfuel hrest =>
    h fuel least rest (Nat.le_trans hleast hkl) hfuel (hrest.mono (by omega))

theorem TakesChain.expr {k : Nat} (h : TakesChain k ws e) (hws : ws ≠ []) : TakesExpr k ws e := by
  intro fuel rest hfuel hrest
  have hlen : 0 < ws.length := List.length_pos_of_ne_nil hws
  obtain ⟨fuel', hle, hread⟩ := h fuel k rest (le_refl k) hfuel (hrest.mono (Nat.le_succ k))
  obtain ⟨m, rfl⟩ : ∃ m, fuel' = m + 1 := ⟨fuel' - 1, by omega⟩
  rw [hread, readChain_of_endsAt m e hrest]

/-- Brackets make an operand of every expression. -/
theorem TakesExpr.bracket (h : TakesExpr 0 ws e) : TakesParts ("(" :: (ws ++ [")"])) e := by
  intro fuel rest hfuel _
  simp only [List.length_cons, List.length_append, List.length_nil] at hfuel
  obtain ⟨m, rfl⟩ : ∃ m, fuel = m + 1 := ⟨fuel - 1, by omega⟩
  refine ⟨m, by simp, ?_⟩
  have hread := h m (")" :: rest) (by omega) (endsAt_close 0 rest)
  rw [List.cons_append, List.append_assoc, List.singleton_append, readOperand.eq_3, hread]
  rfl

/-! ## Operands -/

theorem name_ne_bang {name : String} (h : IsWord name) : name ≠ "!" := by
  rintro rfl
  exact absurd h (by decide)

theorem name_ne_open {name : String} (h : IsWord name) : name ≠ "(" := by
  rintro rfl
  exact absurd h (by decide)

theorem takesOperand_lit (whole : Nat) (tenths : Fin 10) :
    TakesOperand (Expr.lit whole tenths).spelling (.lit whole tenths) := by
  intro fuel rest hfuel _
  obtain ⟨m, rfl⟩ : ∃ m, fuel = m + 1 := ⟨fuel - 1, by simp [Expr.spelling] at hfuel; omega⟩
  have hwhole := isWord_decimal whole
  have hdigits : (Decimal.text whole).toList.all Char.isDigit = true := by
    rw [Decimal.toList_text]
    exact Decimal.all_isDigit_digits whole
  have hread : readLiteral (Decimal.text whole) (Decimal.text tenths)
      = some (.lit whole tenths) := by
    rw [readLiteral, Decimal.toList_text, Decimal.toList_text, Decimal.read?_digits,
      Decimal.read?_digits]
    simp
  rw [Expr.spelling, List.cons_append, List.cons_append, List.cons_append, List.nil_append,
    readOperand.eq_5 _ _ _ _ (name_ne_bang hwhole) (name_ne_open hwhole) (by simp),
    if_pos hdigits, hread]
  rfl

theorem takesParts_var {name : String} (h : IsName name) : TakesParts [name] (.var name) := by
  intro fuel rest hfuel hopen
  simp only [List.length_singleton] at hfuel
  obtain ⟨m, rfl⟩ : ∃ m, fuel = m + 1 := ⟨fuel - 1, by omega⟩
  refine ⟨m, by simp, ?_⟩
  have hcall : ∀ rest', rest = "(" :: rest' → False := by
    rintro rest' rfl
    exact hopen rfl
  -- A number would go on with a point and digits, so the reader looks for a point first.
  by_cases hdot : ∃ tenths rest', rest = "." :: tenths :: rest'
  · obtain ⟨tenths, rest', rfl⟩ := hdot
    rw [List.singleton_append,
      readOperand.eq_5 _ _ _ _ (name_ne_bang h.1) (name_ne_open h.1) hcall, if_neg h.2.1]
  · rw [List.singleton_append, readOperand.eq_6 _ _ _ (name_ne_bang h.1) (name_ne_open h.1) hcall
      (fun tenths rest' heq => hdot ⟨tenths, rest', heq⟩), if_neg h.2.1]

theorem TakesParts.part (h : TakesParts ws e) (sel : Swizzle) :
    TakesParts (ws ++ [".", sel.text]) (.part e sel) := by
  intro fuel rest hfuel _
  simp only [List.length_append, List.length_cons, List.length_nil] at hfuel
  obtain ⟨fuel', hle, hread⟩ := h fuel (".":: sel.text :: rest) (by omega) (by simp)
  obtain ⟨m, rfl⟩ : ∃ m, fuel' = m + 1 := ⟨fuel' - 1, by omega⟩
  refine ⟨m, by simp; omega, ?_⟩
  rw [List.append_assoc, List.cons_append, List.cons_append, List.nil_append, hread,
    readParts_dot]

theorem TakesOperand.not (h : TakesOperand ws e) : TakesOperand ("!" :: ws) (.not e) := by
  intro fuel rest hfuel hrest
  simp only [List.length_cons] at hfuel
  obtain ⟨m, rfl⟩ : ∃ m, fuel = m + 1 := ⟨fuel - 1, by omega⟩
  rw [List.cons_append, readOperand.eq_2, h m rest (by omega) hrest]
  rfl

/-! ## Calls -/

/-- A name is none of the words with a meaning of their own. -/
theorem readWord_of_isName {α : Type} {all : List α} {text : α → String} {name : String}
    (hname : IsName name) (hall : ∀ a ∈ all, text a ∈ reserved) :
    readWord all text name = none := by
  rw [readWord, List.find?_eq_none]
  intro a ha
  rw [decide_eq_true_eq]
  rintro rfl
  exact hname.2.2 (hall a ha)

theorem Func.read_text {f : Func} (hf : f.WellNamed) : Func.read f.text = f := by
  cases f with
  | vec4 | mix | clamp | floor | fract | texture2D | texture2DProj => decide
  | helper name =>
      show (readWord _ text name).getD (helper name) = helper name
      rw [readWord_of_isName hf (by decide)]
      rfl

/-- Arguments are read one after another up to the closing bracket. -/
theorem readArgs_argsSpelling {wss : List (List String)} {es : List Expr}
    (h : List.Forall₂ (TakesExpr 0) wss es) (hne : wss ≠ []) :
    ∀ (fuel : Nat) (rest : List String), 3 * (Expr.argsSpelling wss).length + 1 ≤ fuel →
      readArgs fuel (Expr.argsSpelling wss ++ ")" :: rest) = some (es, rest) := by
  -- The induction is on the arguments; a comma follows all but the last.
  induction h with
  | nil => exact absurd rfl hne
  | @cons ws e wss es hread hmore ih =>
      intro fuel rest hfuel
      obtain ⟨m, rfl⟩ : ∃ m, fuel = m + 1 := ⟨fuel - 1, by omega⟩
      cases hmore with
      | nil =>
          simp only [Expr.argsSpelling] at hfuel ⊢
          rw [readArgs.eq_2, hread m (")" :: rest) (by omega) (endsAt_close 0 rest)]
          rfl
      | @cons ws' e' wss' es' hread' hmore' =>
          simp only [Expr.argsSpelling, List.length_append, List.length_cons] at hfuel ih ⊢
          have hrest := ih (by simp) m rest (by omega)
          rw [readArgs.eq_2, List.append_assoc, List.cons_append,
            hread m _ (by omega) (endsAt_comma 0 _)]
          simp [hrest]

/-- A call is an operand once its arguments are read. -/
theorem takesParts_call {f : Func} {wss : List (List String)} {es : List Expr} {call : Expr}
    (hf : f.WellNamed) (h : List.Forall₂ (TakesExpr 0) wss es) (hne : wss ≠ [])
    (hcall : readCall f.text es = some call) : TakesParts (Expr.callSpelling f wss) call := by
  intro fuel rest hfuel _
  simp only [Expr.callSpelling, List.length_cons, List.length_append, List.length_nil] at hfuel ⊢
  obtain ⟨m, rfl⟩ : ∃ m, fuel = m + 1 := ⟨fuel - 1, by omega⟩
  have hword := Func.isWord_text hf
  have hargs := readArgs_argsSpelling h hne m rest (by omega)
  refine ⟨m, by omega, ?_⟩
  rw [List.cons_append, List.cons_append, List.append_assoc, List.singleton_append,
    readOperand.eq_4 _ _ _ (name_ne_bang hword) (name_ne_open hword), hargs]
  simp [hcall]

/-! ## Operators -/

theorem Arith.level_lt (op : Arith) : op.level < 5 := by cases op <;> decide

theorem Relation.level_lt (rel : Relation) : rel.level < 5 := by cases rel <;> decide

/-- The left operand is read as a chain, then the operator and the right operand go on with it. -/
theorem takesChain_operator {op : Operator} {ls rs : List String} {l r : Expr}
    (hl : TakesChain op.level ls l) (hr : TakesExpr (op.level + 1) rs r) :
    TakesChain op.level (ls ++ op.text :: rs) (op.apply l r) := by
  intro fuel least rest hleast hfuel hrest
  simp only [List.length_append, List.length_cons] at hfuel
  -- The operator itself ends the left operand, which binds at least as strongly.
  obtain ⟨fuel', hle, hread⟩ := hl fuel least (op.text :: (rs ++ rest)) hleast (by omega)
    (endsAt_operator (Nat.lt_succ_self _) _)
  obtain ⟨m, rfl⟩ : ∃ m, fuel' = m + 1 := ⟨fuel' - 1, by omega⟩
  refine ⟨m, by simp; omega, ?_⟩
  rw [List.append_assoc, List.cons_append, hread,
    readChain_operator hleast (hr m rest (by omega) hrest)]

namespace Expr

theorem spelling_ne_nil (e : Expr) : e.spelling ≠ [] := by
  cases e <;> simp [spelling, callSpelling]

/-- The spelling of an expression is read as the expression, as far as its outermost operator lets
it be gone on with. -/
structure Reads (e : Expr) : Prop where
  chain : TakesChain e.level e.spelling e
  operand : 5 ≤ e.level → TakesOperand e.spelling e
  parts : 6 ≤ e.level → e.isLit = false → TakesParts e.spelling e

variable {e : Expr}

theorem Reads.of_operand (h : TakesOperand e.spelling e) (hlit : 6 ≤ e.level → e.isLit = true) :
    e.Reads where
  chain := h.chain e.spelling_ne_nil e.level
  operand _ := h
  parts hlevel hnot := absurd (hlit hlevel) (by rw [hnot]; decide)

theorem Reads.of_parts (h : TakesParts e.spelling e) : e.Reads where
  chain := (h.operand e.spelling_ne_nil).chain e.spelling_ne_nil e.level
  operand _ := h.operand e.spelling_ne_nil
  parts _ _ := h

theorem Reads.of_chain (h : TakesChain e.level e.spelling e) (hlevel : e.level < 5) :
    e.Reads where
  chain := h
  operand h5 := absurd h5 (by omega)
  parts h6 _ := absurd h6 (by omega)

theorem Reads.whole (h : e.Reads) : TakesExpr 0 e.spelling e :=
  (h.chain.mono (Nat.zero_le _)).expr e.spelling_ne_nil

theorem bracketedSpelling_ne_nil (least : Nat) : e.bracketedSpelling least e.spelling ≠ [] := by
  unfold bracketedSpelling
  split
  · simp
  · exact e.spelling_ne_nil

theorem bracketed_ne_nil : "(" :: (e.spelling ++ [")"]) ≠ [] := List.cons_ne_nil _ _

theorem Reads.bracketed_chain (h : e.Reads) (k : Nat) :
    TakesChain k (e.bracketedSpelling k e.spelling) e := by
  unfold bracketedSpelling
  split
  · exact (h.whole.bracket.operand bracketed_ne_nil).chain bracketed_ne_nil k
  · next hbare =>
      have hlevel : k ≤ e.level := by
        simp only [Bool.or_eq_true, decide_eq_true_eq, not_or] at hbare
        omega
      exact h.chain.mono hlevel

theorem Reads.bracketed_operand (h : e.Reads) :
    TakesOperand (e.bracketedSpelling 5 e.spelling) e := by
  unfold bracketedSpelling
  split
  · exact h.whole.bracket.operand bracketed_ne_nil
  · next hbare =>
      have hlevel : 5 ≤ e.level := by
        simp only [Bool.or_eq_true, decide_eq_true_eq, not_or] at hbare
        omega
      exact h.operand hlevel

theorem Reads.bracketed_parts (h : e.Reads) (hlit : e.isLit = false) :
    TakesParts (e.bracketedSpelling 6 e.spelling) e := by
  unfold bracketedSpelling
  split
  · exact h.whole.bracket
  · next hbare =>
      have hlevel : 6 ≤ e.level := by
        simp only [Bool.or_eq_true, decide_eq_true_eq, not_or] at hbare
        omega
      exact h.parts hlevel hlit

theorem Reads.binary {l r : Expr} (op : Operator) (hl : l.Reads) (hr : r.Reads) :
    TakesChain op.level (l.bracketedSpelling op.level l.spelling
      ++ op.text :: r.bracketedSpelling (op.level + 1) r.spelling) (op.apply l r) :=
  takesChain_operator (hl.bracketed_chain op.level)
    ((hr.bracketed_chain (op.level + 1)).expr (bracketedSpelling_ne_nil _))

theorem reads {e : Expr} (he : e.WellNamed) : e.Reads := by
  induction e with
  | lit whole tenths => exact .of_operand (takesOperand_lit whole tenths) fun _ => rfl
  | var name => exact .of_parts (takesParts_var he)
  | part e sel ih => exact .of_parts (((ih he.1).bracketed_parts he.2).part sel)
  | not e ih =>
      -- A negation binds weaker than the selection of components.
      exact .of_operand (ih he).bracketed_operand.not fun h =>
        absurd (show 6 ≤ 5 from h) (by decide)
  | arith op lhs rhs ihl ihr =>
      exact .of_chain ((ihl he.1).binary (.arith op) (ihr he.2)) op.level_lt
  | compare rel lhs rhs ihl ihr =>
      exact .of_chain ((ihl he.1).binary (.compare rel) (ihr he.2)) rel.level_lt
  | call1 f a iha =>
      have hargs : List.Forall₂ (TakesExpr 0) [a.spelling] [a] :=
        .cons (iha he.2).whole .nil
      exact .of_parts (takesParts_call he.1 hargs (List.cons_ne_nil _ _)
        (by rw [readCall, Func.read_text he.1]))
  | call2 f a b iha ihb =>
      have hargs : List.Forall₂ (TakesExpr 0) [a.spelling, b.spelling] [a, b] :=
        .cons (iha he.2.1).whole (.cons (ihb he.2.2).whole .nil)
      exact .of_parts (takesParts_call he.1 hargs (List.cons_ne_nil _ _)
        (by rw [readCall, Func.read_text he.1]))
  | call3 f a b c iha ihb ihc =>
      have hargs : List.Forall₂ (TakesExpr 0) [a.spelling, b.spelling, c.spelling] [a, b, c] :=
        .cons (iha he.2.1).whole (.cons (ihb he.2.2.1).whole (.cons (ihc he.2.2.2).whole .nil))
      exact .of_parts (takesParts_call he.1 hargs (List.cons_ne_nil _ _)
        (by rw [readCall, Func.read_text he.1]))
  | call4 f a b c d iha ihb ihc ihd =>
      have hargs : List.Forall₂ (TakesExpr 0)
          [a.spelling, b.spelling, c.spelling, d.spelling] [a, b, c, d] :=
        .cons (iha he.2.1).whole (.cons (ihb he.2.2.1).whole
          (.cons (ihc he.2.2.2.1).whole (.cons (ihd he.2.2.2.2).whole .nil)))
      exact .of_parts (takesParts_call he.1 hargs (List.cons_ne_nil _ _)
        (by rw [readCall, Func.read_text he.1]))

/-- An expression is read back from its spelling, up to lexemes that do not go on with it. -/
theorem read_spelling (he : e.WellNamed) {rest : List String} (hrest : EndsAt 0 rest) :
    Expr.read (e.spelling ++ rest) = some (e, rest) :=
  (reads he).whole _ rest (by simp; omega) hrest

theorem readBefore_spelling (he : e.WellNamed) {last : List String} (hlast : EndsAt 0 last) :
    Expr.readBefore last (e.spelling ++ last) = some e := by
  rw [readBefore, read_spelling he hlast]
  simp

end Expr

end FixedFragment.Glsl
