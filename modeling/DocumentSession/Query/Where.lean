import DocumentSession.Query.Name
import DocumentSession.Conventions
import DocumentSession.Decimal.Format

set_option autoImplicit false

/-! # The where clause

A where clause is a list of tokens: conditions, connectives, negations and parentheses. A condition
compares a field and names the parameters that hold the values; the values themselves never stand
in the text. `Token.writeAll` is the text of a clause. -/

namespace DocumentSession.Query

/-- Comparisons written with a sign between field and parameter. -/
inductive Comparison where
  | equal
  | notEqual
  | greater
  | greaterOrEqual
  | less
  | lessOrEqual
  deriving DecidableEq, Repr

/-- The sign of a comparison. -/
def Comparison.sign : Comparison → String
  | .equal => "="
  | .notEqual => "!="
  | .greater => ">"
  | .greaterOrEqual => ">="
  | .less => "<"
  | .lessOrEqual => "<="

/-- Comparisons written as a function of field and parameter. -/
inductive TextMatch where
  | lucene
  | startsWith
  | endsWith
  | regex
  deriving DecidableEq, Repr

/-- The function of a match. -/
def TextMatch.function : TextMatch → String
  | .lucene => "lucene"
  | .startsWith => "startsWith"
  | .endsWith => "endsWith"
  | .regex => "regex"

/-- How the place in a field relates to a shape. -/
inductive Relation where
  | within
  | contains
  | disjoint
  | intersects
  deriving DecidableEq, Repr

/-- The function of a relation. -/
def Relation.function : Relation → String
  | .within => "spatial.within"
  | .contains => "spatial.contains"
  | .disjoint => "spatial.disjoint"
  | .intersects => "spatial.intersects"

/-- Units of distance. -/
inductive Units where
  | kilometers
  | miles
  deriving DecidableEq, Repr

/-- The name of a unit. -/
def Units.name : Units → String
  | .kilometers => "Kilometers"
  | .miles => "Miles"

/-- A shape; its numbers and texts are parameters. -/
inductive Shape where
  | circle (radius latitude longitude : String) (units : Option Units)
  | wellKnownText (shape : String) (units : Option Units)
  deriving DecidableEq, Repr

/-- A unit as the last argument of a shape. -/
def writeUnits : Option Units → String
  | some units => ", '" ++ units.name ++ "'"
  | none => ""

/-- The text of a shape. -/
def Shape.write : Shape → String
  | .circle radius latitude longitude units =>
    "spatial.circle($" ++ radius ++ ", $" ++ latitude ++ ", $" ++ longitude ++ writeUnits units
      ++ ")"
  | .wellKnownText shape units => "spatial.wkt($" ++ shape ++ writeUnits units ++ ")"

/-- What a condition demands of its field; names are names of parameters. -/
inductive Demand where
  | compare (comparison : Comparison) (parameter : String)
  | oneOf (parameter : String)
  | allOf (parameter : String)
  | between (low high : String)
  | textMatch (kind : TextMatch) (parameter : String)
  | search (connective : Connective) (parameter : String)
  | present
  | spatial (relation : Relation) (shape : Option Shape)
  deriving DecidableEq, Repr

/-- A condition on a field, with its modifiers. -/
structure Condition where
  field : String
  demand : Demand
  exact : Bool := false
  boost : Option Binary64 := none
  fuzzy : Option Binary64 := none
  proximity : Option Nat := none
  deriving DecidableEq, Repr

/-- In a query numbers have no exponent, whole ones have no fraction, and a tie goes up. -/
def numberFormat : Decimal.Format := ⟨none, none, false, .up⟩

/-- A demand on a written field. Between search terms `or` goes without saying. -/
def Demand.write (field : String) : Demand → String
  | .compare comparison p => field ++ " " ++ comparison.sign ++ " $" ++ p
  | .oneOf p => field ++ " in ($" ++ p ++ ")"
  | .allOf p => field ++ " all in ($" ++ p ++ ")"
  | .between low high => field ++ " between $" ++ low ++ " and $" ++ high
  | .textMatch kind p => kind.function ++ "(" ++ field ++ ", $" ++ p ++ ")"
  | .search .and p => "search(" ++ field ++ ", $" ++ p ++ ", and)"
  | .search .or p => "search(" ++ field ++ ", $" ++ p ++ ")"
  | .present => "exists(" ++ field ++ ")"
  | .spatial relation shape =>
    relation.function ++ "(" ++ field ++ ", " ++ shape.elim "" Shape.write ++ ")"

/-- A text as the first argument of a modifier, whose value, if it has one, is the second. -/
def modified (name : String) (value : Option String) (inner : String) : String :=
  name ++ "(" ++ inner ++ value.elim "" (", " ++ ·) ++ ")"

/-- The text of a condition. Modifiers wrap it in a fixed order, `exact` innermost. -/
def Condition.write (c : Condition) : String :=
  let bare := c.demand.write (fieldName c.field)
  let exact := if c.exact then modified "exact" none bare else bare
  let near := c.proximity.elim exact (fun n => modified "proximity" (toString n) exact)
  let fuzzy := c.fuzzy.elim near (fun x => modified "fuzzy" (x.write numberFormat) near)
  c.boost.elim fuzzy (fun x => modified "boost" (x.write numberFormat) fuzzy)

/-- A token of a where clause. -/
inductive Token where
  | condition (c : Condition)
  | connective (c : Connective)
  | negation
  | openGroup
  | closeGroup
  | always
  deriving DecidableEq, Repr

namespace Token

/-- Whether a token joins two operands. -/
def isConnective : Token → Bool
  | .connective _ => true
  | _ => false

/-- Whether an operand ends with a token. -/
def endsOperand : Token → Bool
  | .condition _ | .closeGroup | .always => true
  | _ => false

/-- The text of a token. -/
def write : Token → String
  | .condition c => c.write
  | .connective c => c.keyword
  | .negation => "not"
  | .openGroup => "("
  | .closeGroup => ")"
  | .always => "true"

/-- What stands between two tokens: a space, except directly inside parentheses. -/
def gap (left right : Token) : String :=
  if left = .openGroup ∨ right = .closeGroup then "" else " "

/-- The tokens after a token. -/
def writeAfter (left : Token) : List Token → String
  | [] => ""
  | t :: rest => gap left t ++ t.write ++ writeAfter t rest

/-- The text of a where clause. -/
def writeAll : List Token → String
  | [] => ""
  | t :: rest => t.write ++ writeAfter t rest

end Token

end DocumentSession.Query
