set_option autoImplicit false

/-! # Percent encoding

In a query string every byte of a text is written as `%` and two hexadecimal digits, except for
the letters and digits of ASCII and the four marks `-`, `.`, `_` and `~`. -/

namespace DocumentSession.Text

/-- The characters that stand for themselves in a query string. -/
def isUnreserved (c : Char) : Bool :=
  c.isAlphanum || c = '-' || c = '.' || c = '_' || c = '~'

/-- A hexadecimal digit in upper case. -/
def upperHexDigit (n : Nat) : Char :=
  (Nat.digitChar (n % 16)).toUpper

/-- A byte as `%` and two digits. -/
def percentByte (b : UInt8) : List Char :=
  ['%', upperHexDigit (b.toNat / 16), upperHexDigit b.toNat]

/-- A character of a query string. -/
def percentChar (c : Char) : List Char :=
  if isUnreserved c then [c] else (String.utf8EncodeChar c).flatMap percentByte

/-- A text in a query string. -/
def percentEncode (s : String) : String :=
  String.ofList (s.toList.flatMap percentChar)

end DocumentSession.Text
