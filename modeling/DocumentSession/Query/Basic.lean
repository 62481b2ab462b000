import DocumentSession.Error
import DocumentSession.Query.Where
import DocumentSession.Query.Clause
import DocumentSession.Query.Frozen

set_option autoImplicit false

/-! # Queries

A query under construction: the parts of every clause, the values bound to parameters, and the
flags for sending it. `Query.text` writes it, clauses in a fixed order, or says why it is not
complete; a raw query is its own text. `Query.freeze` adds the parameters and the paging. -/

namespace DocumentSession

open Query in
/-- A query under construction. -/
structure Query where
  source : From
  declarations : List Declaration := []
  groups : List String := []
  tokens : List Token := []
  orderings : List SortKey := []
  loads : List Load := []
  projections : List Projection := []
  includes : List String := []
  parameters : Fields := []
  /-- The whole text, if it was given as such. -/
  raw : Option String := none
  /-- What joins two conditions that are given one after the other. -/
  connective : Connective
  /-- The field that stands for the identifier of a document. -/
  identityProperty : String
  /-- Whether the next operand is to be negated. -/
  negated : Bool := false
  /-- How many groups are open. -/
  depth : Nat := 0
  start : Option Nat := none
  pageSize : Option Nat := none
  waitForNonStaleResults : Bool := false
  noTracking : Bool := false
  noCaching : Bool := false
  skipDuplicateChecking : Bool := false

namespace Query

/-- A query on a source, under the conventions of a store. -/
def new (conventions : Conventions) (source : Source) : Query :=
  { source := { source }
    connective := conventions.connective
    identityProperty := conventions.identityProperty }

/-- A query on a collection. -/
def ofCollection (conventions : Conventions) (name : String) : Query :=
  new conventions (.collection name)

/-- A query on an index. -/
def ofIndex (conventions : Conventions) (name : String) : Query :=
  new conventions (.index name)

/-! ## What is asked of a query -/

/-- The collection that is read. -/
def collection? (q : Query) : Option String :=
  q.source.source.collection?

/-- The index that is read. -/
def index? (q : Query) : Option String :=
  q.source.source.index?

/-- Whether the text was given as a whole. -/
def isRaw (q : Query) : Bool :=
  q.raw.isSome

/-- Whether the results are parts of documents or groups of them. -/
def isProjection (q : Query) : Bool :=
  q.projections.any (· ≠ .distinct) || !q.groups.isEmpty

/-! ## The text -/

/-- A clause behind its keyword, or nothing where it has no parts. -/
def clause (keyword separator : String) (parts : List String) : String :=
  if parts = [] then "" else keyword ++ separator.intercalate parts

/-- The text of a query without raw text, complete or not. -/
def written (q : Query) : String :=
  String.join (q.declarations.map (fun d => d.write ++ "\n"))
    ++ q.source.write
    ++ clause " group by " ", " (q.groups.map fieldName)
    ++ (if q.tokens = [] then "" else " where " ++ Token.writeAll q.tokens)
    ++ clause " order by " ", " (q.orderings.map SortKey.write)
    ++ clause " load " ", " (q.loads.map Load.write)
    ++ (if q.projections = [] then "" else " select " ++ Projection.writeAll q.projections)
    ++ clause " include " "," (q.includes.map includePath)

/-- A query with open groups is not complete. -/
def openGroups (depth : Nat) : Error :=
  .query .unbalancedClause
    ("A clause was not closed correctly within this query, current clause depth = "
      ++ toString depth)

/-- Nor is one whose last negation has no operand. -/
def danglingNegation : Error :=
  .query .invalidUsage "negate_next() was called without a following predicate or subclause"

/-- The text of a query, if it is complete. -/
def text (q : Query) : Except Error String :=
  match q.raw with
  | some raw => .ok raw
  | none =>
    if q.depth ≠ 0 then .error (openGroups q.depth)
    else if q.negated then .error danglingNegation
    else .ok q.written

/-- The query as it is sent, if it is complete. -/
def freeze (q : Query) : Except Error Frozen := do
  let text ← q.text
  return {
    text
    parameters := q.parameters
    start := q.start
    pageSize := q.pageSize
    waitForNonStaleResults := q.waitForNonStaleResults
    skipDuplicateChecking := q.skipDuplicateChecking
    disableCaching := q.noCaching }

/-- The hash of the complete query. -/
def hash (q : Query) : Except Error String :=
  q.freeze.map Frozen.hash

end Query

end DocumentSession
