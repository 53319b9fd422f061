import FixedFragment.Text.JsonNumbers

set_option autoImplicit false

/-!
# JSON

The grammar of JSON texts, as relations between characters, what they denote and the characters
that are left behind. A text can have blanks around every value, name, colon and comma.
-/

namespace FixedFragment.Json

/-- A JSON value. A number is kept as it is written, with its sign, fraction and exponent, and a
string as what stands between its quotes. -/
inductive Value where
  | null
  | bool (b : Bool)
  | number (written : String)
  | string (written : String)
  | array (items : List Value)
  | object (members : List (String × Value))

/-! ## Blanks, numbers and strings -/

/-- The blanks between the parts of a text. -/
def isBlank (c : Char) : Bool := c = ' ' || c = '\t' || c = '\n' || c = '\r'

/-- Blanks stand in front of the rest. -/
inductive Blanks : List Char → List Char → Prop where
  | none (cs : List Char) : Blanks cs cs
  | blank {c : Char} {cs rest : List Char} (hc : isBlank c = true) (h : Blanks cs rest) :
      Blanks (c :: cs) rest

/-- A nonempty run of digits. -/
def IsDigits (cs : List Char) : Prop := cs ≠ [] ∧ cs.all Char.isDigit = true

/-- No fraction, or a point and digits. -/
inductive IsFraction : List Char → Prop where
  | none : IsFraction []
  | digits {ds : List Char} (hds : IsDigits ds) : IsFraction ('.' :: ds)

/-- No exponent, or a mark, perhaps a sign, and digits. -/
inductive IsExponent : List Char → Prop where
  | none : IsExponent []
  | digits {mark : Char} {sign ds : List Char} (hmark : mark = 'e' ∨ mark = 'E')
      (hsign : sign ∈ [[], ['+'], ['-']]) (hds : IsDigits ds) : IsExponent (mark :: (sign ++ ds))

/-- A number: perhaps a minus sign, a numeral, a fraction and an exponent. -/
inductive IsNumber : List Char → Prop where
  | parts {sign whole fraction exponent : List Char} (hsign : sign ∈ [[], ['-']])
      (hwhole : Decimal.IsNumeral whole) (hfraction : IsFraction fraction)
      (hexponent : IsExponent exponent) : IsNumber (sign ++ (whole ++ (fraction ++ exponent)))

def isHexDigit (c : Char) : Bool :=
  c.isDigit || 'a' ≤ c && c ≤ 'f' || 'A' ≤ c && c ≤ 'F'

/-- What can stand between the quotes of a string. -/
inductive IsStringBody : List Char → Prop where
  | nil : IsStringBody []
  | plain {c : Char} {cs : List Char} (hc : JsonNumbers.isPlain c = true) (h : IsStringBody cs) :
      IsStringBody (c :: cs)
  | escape {c : Char} {cs : List Char} (hc : c ∈ ['"', '\\', '/', 'b', 'f', 'n', 'r', 't'])
      (h : IsStringBody cs) : IsStringBody ('\\' :: c :: cs)
  | codePoint {code cs : List Char} (hlength : code.length = 4)
      (hcode : code.all isHexDigit = true) (h : IsStringBody cs) :
      IsStringBody ('\\' :: 'u' :: (code ++ cs))

/-- A quoted string stands in front of the rest. -/
def QuotedAt (cs : List Char) (body : String) (rest : List Char) : Prop :=
  IsStringBody body.toList ∧ cs = '"' :: (body.toList ++ '"' :: rest)

/-! ## Values -/

mutual

/-- A value stands in front of the rest. -/
inductive ValueAt : List Char → Value → List Char → Prop where
  | null (rest : List Char) : ValueAt ('n' :: 'u' :: 'l' :: 'l' :: rest) .null rest
  | boolTrue (rest : List Char) : ValueAt ('t' :: 'r' :: 'u' :: 'e' :: rest) (.bool true) rest
  | boolFalse (rest : List Char) :
      ValueAt ('f' :: 'a' :: 'l' :: 's' :: 'e' :: rest) (.bool false) rest
  | number {cs rest : List Char} {written : String} (hnumber : IsNumber written.toList)
      (hcs : cs = written.toList ++ rest) : ValueAt cs (.number written) rest
  | string {cs rest : List Char} {written : String} (h : QuotedAt cs written rest) :
      ValueAt cs (.string written) rest
  | emptyArray {cs rest : List Char} (h : Blanks cs (']' :: rest)) :
      ValueAt ('[' :: cs) (.array []) rest
  | array {cs rest : List Char} {items : List Value} (h : ItemsAt cs items rest) :
      ValueAt ('[' :: cs) (.array items) rest
  | emptyObject {cs rest : List Char} (h : Blanks cs ('\x7d' :: rest)) :
      ValueAt ('\x7b' :: cs) (.object []) rest
  | object {cs rest : List Char} {members : List (String × Value)} (h : MembersAt cs members rest) :
      ValueAt ('\x7b' :: cs) (.object members) rest

/-- A value with blanks around it stands in front of the rest. -/
inductive ItemAt : List Char → Value → List Char → Prop where
  | item {cs value behind rest : List Char} {v : Value} (hbefore : Blanks cs value)
      (hvalue : ValueAt value v behind) (hbehind : Blanks behind rest) : ItemAt cs v rest

/-- A name, a colon and a value stand in front of the rest, with blanks around each. -/
inductive MemberAt : List Char → String × Value → List Char → Prop where
  | member {cs quoted behind item rest : List Char} {name : String} {v : Value}
      (hbefore : Blanks cs quoted) (hname : QuotedAt quoted name behind)
      (hcolon : Blanks behind (':' :: item)) (hitem : ItemAt item v rest) :
      MemberAt cs (name, v) rest

/-- Values with commas between them and the end of an array stand in front of the rest. -/
inductive ItemsAt : List Char → List Value → List Char → Prop where
  | last {cs rest : List Char} {v : Value} (h : ItemAt cs v (']' :: rest)) : ItemsAt cs [v] rest
  | more {cs next rest : List Char} {v : Value} {vs : List Value} (h : ItemAt cs v (',' :: next))
      (hnext : ItemsAt next vs rest) : ItemsAt cs (v :: vs) rest

/-- Members with commas between them and the end of an object stand in front of the rest. -/
inductive MembersAt : List Char → List (String × Value) → List Char → Prop where
  | last {cs rest : List Char} {m : String × Value} (h : MemberAt cs m ('\x7d' :: rest)) :
      MembersAt cs [m] rest
  | more {cs next rest : List Char} {m : String × Value} {ms : List (String × Value)}
      (h : MemberAt cs m (',' :: next)) (hnext : MembersAt next ms rest) :
      MembersAt cs (m :: ms) rest

end

/-- The text is a JSON text of the value. -/
def IsText (text : String) (v : Value) : Prop := ItemAt text.toList v []

end FixedFragment.Json
