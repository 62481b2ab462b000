import DocumentSession.Script.Input
import DocumentSession.Query.Call

set_option autoImplicit false

/-! # Query calls of a script

The calls that build a query, by name and with their arguments in order, and the tokens of a query
by themselves. -/

namespace DocumentSession.Script

/-- Units of distance, if there are any. -/
def readUnits (v : Json) : Option Query.Units :=
  match v with
  | .str "Kilometers" => some .kilometers
  | .str "Miles" => some .miles
  | _ => none

/-- A relation to a shape. -/
def readRelation : String → Query.Relation
  | "Contains" => .contains
  | "Disjoint" => .disjoint
  | "Intersects" => .intersects
  | _ => .within

/-- A sort type. -/
def readSortType : String → Query.SortType
  | "Long" => .long
  | "Double" => .double
  | "AlphaNumeric" => .alphaNumeric
  | _ => .string

/-! ## Calls -/

/-- A value; an object with the key `$fail` stands for one without JSON form. -/
def readLiteral (v : Json) : Query.Literal :=
  if (v.get? "$fail").isSome then .unwritable else .json v

/-- The values of an array. -/
def readLiterals (v : Json) : List Query.Literal :=
  (v.items?.getD []).map readLiteral

/-- The comparison that a call makes. -/
def comparisonOf : String → Option Query.Comparison
  | "where_equals" | "where_equals_with" => some .equal
  | "where_not_equals" => some .notEqual
  | "where_greater_than" => some .greater
  | "where_greater_than_or_equal" => some .greaterOrEqual
  | "where_less_than" => some .less
  | "where_less_than_or_equal" => some .lessOrEqual
  | _ => none

/-- The match that a call makes. -/
def textMatchOf : String → Option Query.TextMatch
  | "where_starts_with" => some .startsWith
  | "where_ends_with" => some .endsWith
  | "where_regex" => some .regex
  | "where_lucene" => some .lucene
  | _ => none

/-- A call that is neither a comparison nor a match. -/
def readOtherCall (name : String) (args : List Json) : Option Query.Call :=
  let s := argText args
  let v := fun i => readLiteral (arg args i)
  let x := fun i => number (arg args i)
  match name with
  | "alias" => some (.nameSource (s 0))
  | "raw_query" => some (.raw (s 0))
  | "add_parameter" => some (.parameter (s 0) (v 1))
  | "where_in" => some (.oneOf (s 0) (readLiterals (arg args 1)))
  | "contains_all" => some (.allOf (s 0) (readLiterals (arg args 1)))
  | "where_between" => some (.between (s 0) (v 1) (v 2))
  | "search" => some (.search (s 0) (s 1) .or)
  | "search_with_operator" => some (.search (s 0) (s 1) (readConnective (s 2)))
  | "where_exists" => some (.present (s 0))
  | "where_true" => some .always
  | "within_radius_of" => some (.withinRadius (s 0) (x 1) (x 2) (x 3) (readUnits (arg args 4)))
  | "relates_to_shape" =>
    some (.relatesTo (s 0) (s 1) (readRelation (s 2)) (readUnits (arg args 3)))
  | "boost" => some (.boost (x 0))
  | "fuzzy" => some (.fuzzy (x 0))
  | "proximity" => some (.proximity (argNat args 0))
  | "open_subclause" => some .openGroup
  | "close_subclause" => some .closeGroup
  | "and_also" => some (.connective .and)
  | "or_else" => some (.connective .or)
  | "negate_next" => some .negateNext
  | "using_default_operator" => some (.usualConnective (readConnective (s 0)))
  | "order_by" => some (.orderBy (s 0) false .string)
  | "order_by_descending" => some (.orderBy (s 0) true .string)
  | "order_by_with" => some (.orderBy (s 0) false (readSortType (s 1)))
  | "order_by_descending_with" => some (.orderBy (s 0) true (readSortType (s 1)))
  | "order_by_score" => some (.orderByScore false)
  | "order_by_score_descending" => some (.orderByScore true)
  | "random_ordering" => some (.orderRandomly (arg args 0).str?)
  | "select_fields" => some (.select (stringsOf (arg args 0)))
  | "select_fields_as" => some (.selectAs (s 0) (s 1))
  | "distinct" => some .distinct
  | "declare_function" => some (.declare (s 0) (s 1) (s 2))
  | "load" => some (.load (s 0) (s 1))
  | "include" => some (.includePath (s 0))
  | "group_by" => some (.groupBy (stringsOf (arg args 0)))
  | "group_by_key" => some (.groupKey (arg args 0).str? (arg args 1).str?)
  | "group_by_sum" => some (.groupSum (s 0) (arg args 1).str?)
  | "group_by_count" => some (.groupCount (arg args 0).str?)
  | "skip" => some (.skip (argNat args 0))
  | "take" => some (.take (argNat args 0))
  | "wait_for_non_stale_results" => some .waitForNonStaleResults
  | "no_tracking" => some .noTracking
  | "no_caching" => some .noCaching
  | "skip_duplicate_checking" => some .skipDuplicateChecking
  | _ => none

/-- A call; an unknown name is none. -/
def readCall (v : Json) : Option Query.Call :=
  let (name, args) := callParts v
  let value := readLiteral (arg args 1)
  match comparisonOf name, textMatchOf name with
  | some c, _ => some (.compare c (argText args 0) value ((arg args 2).bool?.getD false))
  | none, some m => some (.textMatch m (argText args 0) value)
  | none, none => readOtherCall name args

/-- The calls of a list, without those of unknown names. -/
def readCalls (ops : List Json) : List Query.Call :=
  ops.filterMap readCall

/-! ## Tokens -/

/-- A shape, if there is one. -/
def readShape (v : Json) : Option Query.Shape :=
  let units := readUnits (memberOrNull v "units")
  match v.getStr? "wkt", v.getStr? "radius" with
  | some shape, _ => some (.wellKnownText shape units)
  | none, some radius => some (.circle radius (text v "latitude") (text v "longitude") units)
  | none, none => none

/-- What a condition demands. -/
def readDemand (v : Json) : Query.Demand :=
  let p := text v "parameter"
  match v.getStr? "operator" with
  | some "Equals" => .compare .equal p
  | some "NotEquals" => .compare .notEqual p
  | some "GreaterThan" => .compare .greater p
  | some "GreaterThanOrEqual" => .compare .greaterOrEqual p
  | some "LessThan" => .compare .less p
  | some "LessThanOrEqual" => .compare .lessOrEqual p
  | some "In" => .oneOf p
  | some "AllIn" => .allOf p
  | some "Between" => .between p (text v "to")
  | some "Search" => .search (((v.getStr? "search_operator").map readConnective).getD .or) p
  | some "Lucene" => .textMatch .lucene p
  | some "StartsWith" => .textMatch .startsWith p
  | some "EndsWith" => .textMatch .endsWith p
  | some "Exists" => .present
  | some "Regex" => .textMatch .regex p
  | _ => .spatial (readRelation (text v "relation")) ((member v "shape").bind readShape)

/-- A token of a where clause. -/
def readToken (v : Json) : Query.Token :=
  match v with
  | .str "and" => .connective .and
  | .str "or" => .connective .or
  | .str "not" => .negation
  | .str "(" => .openGroup
  | .str ")" => .closeGroup
  | .str _ => .always
  | v =>
    .condition
      { field := text v "field"
        demand := readDemand v
        exact := flag v "exact"
        boost := (member v "boost").map number
        fuzzy := (member v "fuzzy").map number
        proximity := (member v "proximity").bind Json.nat? }

/-- A part of a select clause. -/
def readProjection (v : Json) : Query.Projection :=
  let field := v.getStr? "field"
  let rename := v.getStr? "alias"
  match v.getStr? "kind" with
  | some "distinct" => .distinct
  | some "key" => .groupKey field rename
  | some "sum" => .groupSum (field.getD "") rename
  | some "count" => .groupCount rename
  | _ => .field (field.getD "") rename

/-- A sort key. -/
def readSortKey (v : Json) : Query.SortKey :=
  match v.getStr? "kind" with
  | some "score" => .score (flag v "descending")
  | some "random" => .random (v.getStr? "seed")
  | _ => .field (text v "field") (flag v "descending") (readSortType (text v "ordering"))

/-- A from clause; of several names the last one counts. -/
def readFrom (v : Json) : Query.From :=
  let name := text v "name"
  { source := if flag v "index" then .index name else .collection name
    name := (strings v "aliases").getLast? }

end DocumentSession.Script
