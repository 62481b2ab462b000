import DocumentSession.Query.Basic

set_option autoImplicit false

/-! # Building a query

A query is built by calls. Each call adds to one clause and is refused where it would spoil the
query: most calls are refused once the text was given raw, parentheses have to match, connectives
stand between operands only, and modifiers follow a condition. Between two operands without a
connective the usual one is put in.

`Query.call` makes one call. It gives the error of a refused call together with the query after it,
for a call may have bound a parameter before it was refused. -/

namespace DocumentSession.Query

/-- A value given to a call: JSON, or a value that has no JSON form. -/
inductive Literal where
  | json (value : Json)
  | unwritable
  deriving DecidableEq

/-- The JSON form of a value. -/
def Literal.toJson : Literal → Except Error Json
  | .json v => .ok v
  | .unwritable => .error (.serialization "the value has no JSON form")

/-- The calls that build a query. -/
inductive Call where
  | nameSource (name : String)
  | raw (text : String)
  | parameter (name : String) (value : Literal)
  | compare (comparison : Comparison) (field : String) (value : Literal) (exact : Bool)
  | oneOf (field : String) (values : List Literal)
  | allOf (field : String) (values : List Literal)
  | between (field : String) (low high : Literal)
  | textMatch (kind : TextMatch) (field : String) (value : Literal)
  | search (field terms : String) (connective : Connective)
  | present (field : String)
  | always
  | withinRadius (field : String) (radius latitude longitude : Binary64) (units : Option Units)
  | relatesTo (field shape : String) (relation : Relation) (units : Option Units)
  | boost (factor : Binary64)
  | fuzzy (distance : Binary64)
  | proximity (distance : Nat)
  | openGroup
  | closeGroup
  | connective (c : Connective)
  | negateNext
  | usualConnective (c : Connective)
  | orderBy (field : String) (descending : Bool) (sortType : SortType)
  | orderByScore (descending : Bool)
  | orderRandomly (seed : Option String)
  | select (fields : List String)
  | selectAs (field name : String)
  | distinct
  | declare (name parameters body : String)
  | load (path name : String)
  | includePath (path : String)
  | groupBy (fields : List String)
  | groupKey (field name : Option String)
  | groupSum (field : String) (name : Option String)
  | groupCount (name : Option String)
  | skip (n : Nat)
  | take (n : Nat)
  | waitForNonStaleResults
  | noTracking
  | noCaching
  | skipDuplicateChecking
  deriving DecidableEq

/-! ## Refusals -/

/-- Refuse what does not go together with a raw text. -/
def refuseRaw (q : Query) : Except Error Unit :=
  if q.isRaw then
    .error (.query .rawQuery
      "Raw query was already set; builder methods cannot be used with a raw query")
  else .ok ()

/-- Refuse a name of a document that is no plain name. -/
def refuseName (name : String) : Except Error Unit :=
  if isParameterName name then .ok ()
  else .error (.query .invalidUsage ("Alias '" ++ name ++ "' is not a valid identifier"))

/-! ## Parameters and fields -/

/-- The field as it stands in the text: the identifier of a document is a function of it. -/
def field (q : Query) (name : String) : String :=
  if name = q.identityProperty then "id()" else name

/-- Names for a new parameter, one more than there are parameters. -/
def candidates (parameters : Fields) : List String :=
  (List.range (parameters.length + 1)).map (fun i => "p" ++ toString (parameters.length + i))

/-- A name that no parameter has. -/
def freshName (parameters : Fields) : String :=
  ((candidates parameters).find? (fun name => !Keyed.contains parameters name)).getD ""

/-- Bind a value to a new parameter. -/
def bind (q : Query) (value : Json) : String × Query :=
  let name := freshName q.parameters
  (name, { q with parameters := q.parameters.insert name value })

/-- Bind a value to a parameter of a given name. -/
def bindAs (q : Query) (name : String) (value : Literal) : Except Error Query := do
  let name := match name.toList with
    | '$' :: rest => String.ofList rest
    | _ => name
  if !isParameterName name then
    .error (.query .invalidParameter ("'" ++ name ++ "' is not a valid parameter name"))
  else if q.parameters.contains name then
    .error (.query .invalidParameter ("The parameter '" ++ name ++ "' was already added"))
  else
    let value ← value.toJson
    return { q with parameters := q.parameters.insert name value }

/-! ## Operands -/

/-- The last condition of a clause. -/
def lastCondition? (tokens : List Token) : Option Condition :=
  tokens.reverse.findSome? (fun t => match t with
    | .condition c => some c
    | _ => none)

/-- The connective to put between the last operand and a new one: after a search it is `or`. -/
def joining (q : Query) : Connective :=
  match (lastCondition? q.tokens).map Condition.demand with
  | some (.search ..) => .or
  | _ => q.connective

/-- The tokens in front of a new operand: after an operand, also a connective. -/
def joined (q : Query) : List Token :=
  if q.tokens.getLast?.any Token.endsOperand then q.tokens ++ [.connective q.joining] else q.tokens

/-- What makes a negation possible where no operand stands in front of it. -/
def negationGuard (field : Option String) : Token :=
  match field with
  | some field => .condition { field, demand := .present }
  | none => .always

/-- The tokens in front of a new operand, with a negation if one is pending. A clause or group does
not begin with a negation: an operand that always holds of what the negation is about goes first. -/
def prepared (q : Query) (field : Option String) : List Token :=
  let tokens := q.joined
  if !q.negated then tokens
  else
    let atStart := tokens.getLast?.all (· = .openGroup)
    let guarded :=
      if atStart then tokens ++ [negationGuard field, .connective .and] else tokens
    guarded ++ [.negation]

/-- Add an operand, or the beginning of one. -/
def pushOperand (q : Query) (field : Option String) (t : Token) : Query :=
  { q with tokens := q.prepared field ++ [t], negated := false }

/-- Add a condition on a field. -/
def pushCondition (q : Query) (field : String) (demand : Demand) (exact : Bool) : Query :=
  let name := q.field field
  q.pushOperand (some name) (.condition { field := name, demand, exact })

/-- Add a condition that compares a field with one value. -/
def pushValue (q : Query) (field : String) (value : Literal) (exact : Bool)
    (demand : String → Demand) : Except Error Query := do
  q.refuseRaw
  let value ← value.toJson
  let (name, q) := q.bind value
  return q.pushCondition field (demand name) exact

/-- Values as one JSON array. -/
def arrayOf (values : List Literal) : Except Error Literal := do
  let items ← values.mapM Literal.toJson
  return .json (.arr items)

/-- Add a condition between two values. The lower one is bound before the higher one is known to
have a JSON form. -/
def pushBetween (q : Query) (field : String) (low high : Literal) : Option Error × Query :=
  match (do q.refuseRaw; low.toJson : Except Error Json) with
  | .error e => (some e, q)
  | .ok lowValue =>
    let (lowName, q) := q.bind lowValue
    match high.toJson with
    | .error e => (some e, q)
    | .ok highValue =>
      let (highName, q) := q.bind highValue
      (none, q.pushCondition field (.between lowName highName) false)

/-- A number as a value; one that is not finite is null. -/
def ofFloat (x : Binary64) : Json :=
  if x.isFinite then .num (.float x) else .null

/-- Add a condition on the distance from a point. -/
def pushWithin (q : Query) (field : String) (radius latitude longitude : Binary64)
    (units : Option Units) : Query :=
  let (radius, q) := q.bind (ofFloat radius)
  let (latitude, q) := q.bind (ofFloat latitude)
  let (longitude, q) := q.bind (ofFloat longitude)
  q.pushCondition field (.spatial .within (some (.circle radius latitude longitude units))) false

/-- Add a condition on the relation to a shape in well-known text. -/
def pushRelation (q : Query) (field shape : String) (relation : Relation) (units : Option Units) :
    Query :=
  let (shape, q) := q.bind (.str shape)
  q.pushCondition field (.spatial relation (some (.wellKnownText shape units))) false

/-! ## Modifiers -/

/-- The tokens in front of the last condition, and that condition, which must be the last token. -/
def lastCondition (q : Query) (modifier : String) : Except Error (List Token × Condition) := do
  q.refuseRaw
  match q.tokens.getLast? with
  | some (.condition c) => .ok (q.tokens.dropLast, c)
  | none => .error (.query .misplacedModifier ("Missing where clause before " ++ modifier))
  | some _ =>
    .error (.query .misplacedModifier
      ("Cannot apply " ++ modifier ++ " to a token that is not a predicate"))

/-- The number one. -/
def one : Binary64 := Binary64.ofNat 1

/-- Whether two finite numbers differ by more than the least step above one, `2^(-52)`. -/
def differs (x y : Binary64) : Bool :=
  let (xn, xd) := x.magnitude
  let (yn, yd) := y.magnitude
  let a : Int := (if x.isNegative then -(xn : Int) else xn) * yd
  let b : Int := (if y.isNegative then -(yn : Int) else yn) * xd
  (a - b).natAbs * Binary64.fractionCount > xd * yd

/-- Weigh the last condition. A factor of one changes nothing. -/
def boostLast (q : Query) (factor : Binary64) : Except Error Query := do
  if !factor.isFinite || !Binary64.atMost (Binary64.zero false) factor then
    .error (.query .invalidModifierValue "Boost factor must be a non-negative number")
  else
    let (before, c) ← q.lastCondition "boost"
    if differs factor one then
      return { q with tokens := before ++ [.condition { c with boost := some factor }] }
    else return q

/-- Let the last condition match similar terms. -/
def fuzzyLast (q : Query) (distance : Binary64) : Except Error Query := do
  if !distance.isFinite || !Binary64.atMost (Binary64.zero false) distance
      || !Binary64.atMost distance one then
    .error (.query .invalidModifierValue "Fuzzy distance must be between 0.0 and 1.0")
  else
    let (before, c) ← q.lastCondition "fuzzy"
    return { q with tokens := before ++ [.condition { c with fuzzy := some distance }] }

/-- Let the terms of the last search stand apart by some words at most. -/
def proximityLast (q : Query) (distance : Nat) : Except Error Query := do
  if distance < 1 then
    .error (.query .invalidModifierValue
      "Proximity distance must be a number greater than or equal to 1")
  else
    let (before, c) ← q.lastCondition "proximity"
    match c.demand with
    | .search .. =>
      return { q with tokens := before ++ [.condition { c with proximity := some distance }] }
    | _ =>
      .error (.query .misplacedModifier "Proximity can only be used right after a search clause")

/-! ## Structure -/

/-- Close the group opened last. -/
def close (q : Query) : Except Error Query := do
  q.refuseRaw
  if q.depth = 0 then
    .error (.query .unbalancedClause "Cannot close a subclause that was never opened")
  else return { q with depth := q.depth - 1, tokens := q.tokens ++ [.closeGroup] }

/-- Join the next operand; in front of the first one there is nothing to join. -/
def join (q : Query) (c : Connective) : Except Error Query := do
  q.refuseRaw
  match q.tokens.getLast? with
  | none => return q
  | some (.connective _) =>
    .error (.query .misplacedOperator
      "Cannot add an operator, previous token was already an operator token")
  | some .openGroup | some .negation =>
    .error (.query .misplacedOperator
      "Cannot add an operator directly after an opening parenthesis or a negation")
  | some _ => return { q with tokens := q.tokens ++ [.connective c] }

/-- Change what joins operands, before there are any. -/
def setConnective (q : Query) (c : Connective) : Except Error Query := do
  q.refuseRaw
  if q.tokens ≠ [] then
    .error (.query .invalidUsage
      "Default operator can only be set before any where clause is added")
  else return { q with connective := c }

/-! ## The other clauses -/

/-- Give the whole text, while no clause has a part. -/
def setRaw (q : Query) (text : String) : Except Error Query := do
  q.refuseRaw
  if q.tokens ≠ [] ∨ q.declarations ≠ [] ∨ q.groups ≠ [] ∨ q.orderings ≠ [] ∨ q.loads ≠ []
      ∨ q.projections ≠ [] ∨ q.includes ≠ [] then
    .error (.query .rawQuery "A raw query can only be set on a builder without clauses")
  else return { q with raw := some text }

/-- Name the source. -/
def setName (q : Query) (name : String) : Except Error Query := do
  q.refuseRaw
  refuseName name
  return { q with source := { q.source with name := some name } }

/-- Order the results. -/
def pushOrdering (q : Query) (o : SortKey) : Except Error Query := do
  q.refuseRaw
  return { q with orderings := q.orderings ++ [o] }

/-- Project the results. -/
def pushProjections (q : Query) (ps : List Projection) : Except Error Query := do
  q.refuseRaw
  return { q with projections := q.projections ++ ps }

/-- Leave out repeated results. -/
def setDistinct (q : Query) : Except Error Query := do
  q.refuseRaw
  if q.projections.head? = some .distinct then
    .error (.query .invalidUsage "The query is already distinct")
  else return { q with projections := .distinct :: q.projections }

/-- Declare a function. -/
def pushDeclaration (q : Query) (d : Declaration) : Except Error Query := do
  q.refuseRaw
  return { q with declarations := q.declarations ++ [d] }

/-- Load a related document. -/
def pushLoad (q : Query) (l : Load) : Except Error Query := do
  q.refuseRaw
  refuseName l.name
  return { q with loads := q.loads ++ [l] }

/-- Include the documents that a path refers to, each path once. -/
def pushInclude (q : Query) (path : String) : Except Error Query := do
  q.refuseRaw
  if q.includes.contains path then return q
  else return { q with includes := q.includes ++ [path] }

/-- Group the results. -/
def pushGroups (q : Query) (fields : List String) : Except Error Query := do
  q.refuseRaw
  if fields = [] then
    .error (.query .invalidUsage "Group by requires at least one field")
  else return { q with groups := q.groups ++ fields.map q.field }

/-! ## Calls -/

/-- The outcome of a call that is refused without a trace. -/
def attempt (q : Query) : Except Error Query → Option Error × Query
  | .ok q' => (none, q')
  | .error e => (some e, q)

/-- The outcome of a call that is refused only if the text is raw. -/
def unlessRaw (q : Query) (q' : Query) : Option Error × Query :=
  q.attempt (q.refuseRaw.map (fun _ => q'))

/-- Make a call: the error, if it was refused, and the query after it. -/
def call (q : Query) : Call → Option Error × Query
  | .nameSource name => q.attempt (q.setName name)
  | .raw text => q.attempt (q.setRaw text)
  | .parameter name value => q.attempt (q.bindAs name value)
  | .compare comparison field value exact =>
    q.attempt (q.pushValue field value exact (.compare comparison))
  | .oneOf field values => q.attempt do q.pushValue field (← arrayOf values) false .oneOf
  | .allOf field values => q.attempt do q.pushValue field (← arrayOf values) false .allOf
  | .between field low high => q.pushBetween field low high
  | .textMatch kind field value => q.attempt (q.pushValue field value false (.textMatch kind))
  | .search field terms connective =>
    q.attempt (q.pushValue field (.json (.str terms)) false (.search connective))
  | .present field => q.unlessRaw (q.pushCondition field .present false)
  | .always => q.unlessRaw (q.pushOperand none .always)
  | .withinRadius field radius latitude longitude units =>
    q.unlessRaw (q.pushWithin field radius latitude longitude units)
  | .relatesTo field shape relation units => q.unlessRaw (q.pushRelation field shape relation units)
  | .boost factor => q.attempt (q.boostLast factor)
  | .fuzzy distance => q.attempt (q.fuzzyLast distance)
  | .proximity distance => q.attempt (q.proximityLast distance)
  | .openGroup =>
    let opened := q.pushOperand none .openGroup
    q.unlessRaw { opened with depth := opened.depth + 1 }
  | .closeGroup => q.attempt q.close
  | .connective c => q.attempt (q.join c)
  | .negateNext => q.unlessRaw { q with negated := !q.negated }
  | .usualConnective c => q.attempt (q.setConnective c)
  | .orderBy field descending sortType =>
    q.attempt (q.pushOrdering (.field (q.field field) descending sortType))
  | .orderByScore descending => q.attempt (q.pushOrdering (.score descending))
  | .orderRandomly seed => q.attempt (q.pushOrdering (.random seed))
  | .select fields => q.attempt (q.pushProjections (fields.map (fun f => .field (q.field f) none)))
  | .selectAs field name => q.attempt (q.pushProjections [.field (q.field field) (some name)])
  | .distinct => q.attempt q.setDistinct
  | .declare name parameters body => q.attempt (q.pushDeclaration { name, parameters, body })
  | .load path name => q.attempt (q.pushLoad { path, name })
  | .includePath path => q.attempt (q.pushInclude path)
  | .groupBy fields => q.attempt (q.pushGroups fields)
  | .groupKey field name => q.attempt (q.pushProjections [.groupKey (field.map q.field) name])
  | .groupSum field name => q.attempt (q.pushProjections [.groupSum (q.field field) name])
  | .groupCount name => q.attempt (q.pushProjections [.groupCount name])
  | .skip n => (none, { q with start := some n })
  | .take n => (none, { q with pageSize := some n })
  | .waitForNonStaleResults => (none, { q with waitForNonStaleResults := true })
  | .noTracking => (none, { q with noTracking := true })
  | .noCaching => (none, { q with noCaching := true })
  | .skipDuplicateChecking => (none, { q with skipDuplicateChecking := true })

/-- Make calls until one is refused. -/
def callAll (q : Query) : List Call → Option Error × Query
  | [] => (none, q)
  | c :: rest =>
    match q.call c with
    | (none, q) => callAll q rest
    | refused => refused

/-- Make calls whether or not some are refused. -/
def build (q : Query) (calls : List Call) : Query :=
  calls.foldl (fun q c => (q.call c).2) q

end DocumentSession.Query
