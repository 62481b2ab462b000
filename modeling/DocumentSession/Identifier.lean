import DocumentSession.Text.LowerCase

set_option autoImplicit false

/-! # Document identifiers

Identifiers name documents without regard to case. One that ends with the separator of identity
parts is incomplete: the server completes it when the document is first saved. -/

namespace DocumentSession.Identifier

/-- The form under which identifiers are compared. -/
def normalize (id : String) : String :=
  Text.lower id

/-- Whether a text ends with a character. -/
def endsWith (s : String) (c : Char) : Bool :=
  s.toList.getLast? = some c

/-- Whether the server has to complete an identifier. -/
def isIncomplete (id : String) (separator : Char) : Bool :=
  endsWith id separator

/-- The last character of identifiers that the server numbers. -/
def numberedSuffix : Char := '|'

end DocumentSession.Identifier
