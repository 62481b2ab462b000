import DocumentSession.Json.Basic
import DocumentSession.Decimal.Format

set_option autoImplicit false

/-! # Written JSON

Values are written without spaces, members in the order of their keys. In strings only the quote,
the backslash and the control characters are escaped. -/

namespace DocumentSession

/-- JSON numbers have an exponent below `0.00001` and from `10^16` on, and a floating-point number
keeps a fraction, so that it reads back as one. A tie goes to the even decimal. -/
def Number.format : Decimal.Format := ⟨some (-5), some 16, true, .toEven⟩

/-- A number in JSON; what is not finite has no written form there and is null. -/
def Number.write : Number → String
  | .int n => toString n
  | .float x => if x.isFinite then x.write format else "null"

namespace Json

/-- One hexadecimal digit in lower case. -/
def hexDigit (n : Nat) : Char :=
  Nat.digitChar (n % 16)

/-- A character inside a JSON string. -/
def escape (c : Char) : List Char :=
  match c with
  | '"' => ['\\', '"']
  | '\\' => ['\\', '\\']
  | '\n' => ['\\', 'n']
  | '\r' => ['\\', 'r']
  | '\t' => ['\\', 't']
  | '\x08' => ['\\', 'b']
  | '\x0c' => ['\\', 'f']
  | c =>
    if c.toNat < 32 then ['\\', 'u', '0', '0', hexDigit (c.toNat / 16), hexDigit c.toNat] else [c]

/-- A text as a JSON string. -/
def quote (s : String) : List Char :=
  '"' :: (s.toList.flatMap escape ++ ['"'])

mutual

/-- The characters of a value, in front of the characters that follow it. -/
def writeThen : Json → List Char → List Char
  | .null, rest => 'n' :: 'u' :: 'l' :: 'l' :: rest
  | .bool true, rest => 't' :: 'r' :: 'u' :: 'e' :: rest
  | .bool false, rest => 'f' :: 'a' :: 'l' :: 's' :: 'e' :: rest
  | .num n, rest => n.write.toList ++ rest
  | .str s, rest => quote s ++ rest
  | .arr items, rest => '[' :: writeItems items true (']' :: rest)
  | .obj members, rest => '\x7b' :: writeMembers members true ('\x7d' :: rest)

/-- Items, with a comma in front of all but the first. -/
def writeItems : List Json → Bool → List Char → List Char
  | [], _, rest => rest
  | v :: vs, first, rest =>
    let tail := writeThen v (writeItems vs false rest)
    if first then tail else ',' :: tail

/-- Members, with a comma in front of all but the first. -/
def writeMembers : List (String × Json) → Bool → List Char → List Char
  | [], _, rest => rest
  | (k, v) :: members, first, rest =>
    let tail := quote k ++ ':' :: writeThen v (writeMembers members false rest)
    if first then tail else ',' :: tail

end

/-- The text of a value. -/
def write (v : Json) : String :=
  String.ofList (v.writeThen [])

end Json

end DocumentSession
