import DocumentSession.Text.HiddenTable

set_option autoImplicit false

/-! # Texts as they are shown

A text is shown to an operator between quotes, with every character visible: the quote and the
backslash stand behind a backslash, some control characters have a letter, and all other hidden
characters are shown by their number. -/

namespace DocumentSession.Text

/-- A character by its number in hexadecimal digits. -/
def showNumber (c : Char) : List Char :=
  ['\\', 'u', '\x7b'] ++ Nat.toDigits 16 c.toNat ++ ['\x7d']

/-- A character between quotes of a kind. -/
def showInside (quote c : Char) : List Char :=
  match c with
  | '\x00' => ['\\', '0']
  | '\t' => ['\\', 't']
  | '\r' => ['\\', 'r']
  | '\n' => ['\\', 'n']
  | '\\' => ['\\', '\\']
  | c =>
    if c = quote then ['\\', c]
    else if isHidden c then showNumber c
    else [c]

/-- A text between double quotes. -/
def showText (s : String) : String :=
  String.ofList ('"' :: (s.toList.flatMap (showInside '"') ++ ['"']))

/-- A character between single quotes. -/
def showChar (c : Char) : String :=
  String.ofList ('\'' :: (showInside '\'' c ++ ['\'']))

end DocumentSession.Text
