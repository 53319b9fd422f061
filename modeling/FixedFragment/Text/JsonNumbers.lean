import FixedFragment.Text.Decimal

set_option autoImplicit false

/-!
# JSON objects of natural numbers

JSON objects whose members are natural numbers, written without blanks, and their reader. Names
hold neither quotes nor backslashes nor control characters; numbers have no sign and no leading
zeros.
-/

namespace FixedFragment.JsonNumbers

/-- A character that stands for itself in a name. -/
def isPlain (c : Char) : Bool := c ≠ '"' && c ≠ '\\' && 0x20 ≤ c.toNat

/-- Reads a quoted name. -/
def readName : List Char → Option (List Char × List Char)
  | '"' :: cs =>
      match cs.dropWhile isPlain with
      | '"' :: rest => some (cs.takeWhile isPlain, rest)
      | _ => none
  | _ => none

/-- Reads a number. -/
def readNumber (cs : List Char) : Option (Nat × List Char) :=
  (Decimal.read? (cs.takeWhile Char.isDigit)).map fun n => (n, cs.dropWhile Char.isDigit)

/-- Reads a name, a colon and a number. -/
def readMember (cs : List Char) : Option ((String × Nat) × List Char) := do
  let (name, rest) ← readName cs
  match rest with
  | ':' :: rest => do
      let (n, rest) ← readNumber rest
      some ((String.ofList name, n), rest)
  | _ => none

/-- Reads members up to the end of the object, at most as many as the first argument says. -/
def readMembers : Nat → List Char → Option (List (String × Nat))
  | 0, _ => none
  | fuel + 1, cs => do
      let (m, rest) ← readMember cs
      match rest with
      | ['\x7d'] => some [m]
      | ',' :: rest => (readMembers fuel rest).map (m :: ·)
      | _ => none

/-- The members of an object, in order. -/
def read? (text : String) : Option (List (String × Nat)) :=
  match text.toList with
  | ['\x7b', '\x7d'] => some []
  | '\x7b' :: rest => readMembers rest.length rest
  | _ => none

/-! ## Written form -/

/-- A quoted name, a colon and a number. -/
def writeMember (m : String × Nat) : List Char :=
  '"' :: (m.1.toList ++ '"' :: ':' :: Decimal.digits m.2)

/-- More members, each with a comma in front of it, and the end of the object. -/
def writeRest : List (String × Nat) → List Char
  | [] => ['\x7d']
  | m :: ms => ',' :: (writeMember m ++ writeRest ms)

/-- The object with these members. -/
def write : List (String × Nat) → String
  | [] => "\x7b\x7d"
  | m :: ms => String.ofList ('\x7b' :: (writeMember m ++ writeRest ms))

end FixedFragment.JsonNumbers
