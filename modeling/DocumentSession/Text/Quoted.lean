set_option autoImplicit false

/-! # Quoted names

A name that is not plain stands between single quotes, with a backslash in front of every single
quote inside. -/

namespace DocumentSession.Text

/-- Put a backslash in front of every single quote. -/
def escapeQuotes (cs : List Char) : List Char :=
  cs.flatMap (fun c => if c = '\'' then ['\\', '\''] else [c])

/-- A name between single quotes. -/
def quoteName (s : String) : String :=
  String.ofList ('\'' :: (escapeQuotes s.toList ++ ['\'']))

end DocumentSession.Text
