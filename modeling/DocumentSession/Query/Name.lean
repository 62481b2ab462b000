import DocumentSession.Text.Quoted

set_option autoImplicit false

/-! # Names in a query

Field names, include paths and parameter names. A field name or path is written as it is where it
is plain and between quotes otherwise; a parameter name is refused where it is not plain. -/

namespace DocumentSession.Query

/-- A letter or digit of ASCII, or one of some marks. -/
def isPlain (marks : List Char) (c : Char) : Bool :=
  c.isAlphanum || marks.contains c

/-- Fields that are functions of the whole document; they are never quoted. -/
def pseudoFields : List String :=
  ["id()", "key()", "count()", "score()", "random()"]

/-- The first character of a plain field name. -/
def isFieldStart (c : Char) : Bool :=
  c.isAlpha || c = '_' || c = '@'

/-- The later characters of a plain field name. -/
def isFieldPart (c : Char) : Bool :=
  isPlain ['_', '-', '@', '.', '[', ']'] c

/-- Whether a field name is plain from here on. Each quote, single or double, begins or ends a
section in which every character is allowed, and a name does not end within one. -/
def isPlainField (first quoted : Bool) : List Char → Bool
  | [] => !quoted
  | c :: cs =>
    if c = '\'' ∨ c = '"' then isPlainField false (!quoted) cs
    else if quoted then isPlainField false quoted cs
    else (if first then isFieldStart c else isFieldPart c) && isPlainField false false cs

/-- A field name in a query. -/
def fieldName (name : String) : String :=
  if name = "" ∨ pseudoFields.contains name then name
  else if isPlainField true false name.toList then name
  else Text.quoteName name

/-- Whether an include path has to be quoted. -/
def pathNeedsQuotes (path : String) : Bool :=
  path.toList.any (fun c => !isPlain ['_', '.', '[', ']', '@'] c)

/-- An include path in a query. -/
def includePath (path : String) : String :=
  if pathNeedsQuotes path then Text.quoteName path else path

/-- Whether a name can be bound to a value: a letter or `_`, then letters, digits or `_`. -/
def isParameterName (name : String) : Bool :=
  match name.toList with
  | [] => false
  | c :: cs => (c.isAlpha || c = '_') && cs.all (isPlain ['_'])

end DocumentSession.Query
