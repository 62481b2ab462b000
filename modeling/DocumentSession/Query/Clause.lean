import DocumentSession.Query.Name
import DocumentSession.Text.Blank

set_option autoImplicit false

/-! # The other clauses of a query

Where a query reads from, how it groups, orders and projects its results, and what it loads beside
them. -/

namespace DocumentSession.Query

/-! ## Source -/

/-- What a query reads. -/
inductive Source where
  | collection (name : String)
  | index (name : String)
  deriving DecidableEq, Repr

/-- The collection of a source. -/
def Source.collection? : Source → Option String
  | .collection name => some name
  | .index _ => none

/-- The index of a source. -/
def Source.index? : Source → Option String
  | .index name => some name
  | .collection _ => none

/-- Whether the name of a collection has to be quoted. -/
def collectionNeedsQuotes (name : String) : Bool :=
  name.toList.any (fun c => Text.isBlank c || c = '\'' || c = '"')

/-- A source and the name it goes by in the query. -/
structure From where
  source : Source
  name : Option String := none
  deriving DecidableEq, Repr

/-- The text of a from clause. -/
def From.write (f : From) : String :=
  let source := match f.source with
    | .collection name => if collectionNeedsQuotes name then Text.quoteName name else name
    | .index name => "index " ++ Text.quoteName name
  "from " ++ source ++ f.name.elim "" (" as " ++ ·)

/-! ## Order -/

/-- As what the values of a field are sorted. -/
inductive SortType where
  | string
  | long
  | double
  | alphaNumeric
  deriving DecidableEq, Repr

/-- The mark of a sort type; strings need none. -/
def SortType.write : SortType → String
  | .string => ""
  | .long => " as long"
  | .double => " as double"
  | .alphaNumeric => " as alphaNumeric"

/-- By what results are ordered. -/
inductive SortKey where
  | field (name : String) (descending : Bool) (sortType : SortType)
  | score (descending : Bool)
  | random (seed : Option String)
  deriving DecidableEq, Repr

/-- The mark of a descending order. -/
def writeDescending (descending : Bool) : String :=
  if descending then " desc" else ""

/-- The text of a sort key. -/
def SortKey.write : SortKey → String
  | .field name descending sortType =>
    fieldName name ++ sortType.write ++ writeDescending descending
  | .score descending => "score()" ++ writeDescending descending
  | .random none => "random()"
  | .random (some seed) => "random(" ++ Text.quoteName seed ++ ")"

/-! ## Projection -/

/-- A part of a select clause. -/
inductive Projection where
  | distinct
  | field (name : String) (rename : Option String)
  | groupKey (name : Option String) (rename : Option String)
  | groupSum (name : String) (rename : Option String)
  | groupCount (rename : Option String)
  deriving DecidableEq, Repr

/-- The name a projection goes by, unless that is the name of its field. -/
def writeRename (field : Option String) : Option String → String
  | none => ""
  | some name => if field = some name then "" else " as " ++ fieldName name

/-- The text of one part of a select clause. -/
def Projection.write : Projection → String
  | .distinct => "distinct"
  | .field name rename => fieldName name ++ writeRename (some name) rename
  | .groupKey name rename =>
    let name := name.getD "key()"
    fieldName name ++ writeRename (some name) rename
  | .groupSum name rename => "sum(" ++ fieldName name ++ ")" ++ writeRename none rename
  | .groupCount rename => "count()" ++ writeRename none rename

/-- The parts of a select clause, with a comma in front of all projections but the first. -/
def Projection.writeParts (first : Bool) : List Projection → String
  | [] => ""
  | .distinct :: rest => "distinct " ++ writeParts first rest
  | p :: rest => (if first then "" else ", ") ++ p.write ++ writeParts false rest

/-- The text of a select clause. A lone `distinct` selects everything. -/
def Projection.writeAll : List Projection → String
  | [.distinct] => "distinct *"
  | parts => writeParts true parts

/-! ## Functions and related documents -/

/-- A related document under a name of its own. -/
structure Load where
  path : String
  name : String
  deriving DecidableEq, Repr

/-- The text of a loaded document. -/
def Load.write (l : Load) : String :=
  l.path ++ " as " ++ l.name

/-- A function that projections may use. -/
structure Declaration where
  name : String
  parameters : String
  body : String
  deriving DecidableEq, Repr

/-- The text of a declaration. -/
def Declaration.write (d : Declaration) : String :=
  "declare function " ++ d.name ++ "(" ++ d.parameters ++ ") \x7b\n" ++ d.body ++ "\n\x7d"

end DocumentSession.Query
