import DocumentSession.Identifier

set_option autoImplicit false

/-! # Conventions

What all sessions of a store agree on: the limit of requests, whether writes check versions, how
identifiers are built, and which collection the documents of a type belong to. -/

namespace DocumentSession

/-- How consecutive conditions of a query are joined. -/
inductive Connective where
  | and
  | or
  deriving DecidableEq, Repr

/-- The keyword of a connective. -/
def Connective.keyword : Connective → String
  | .and => "and"
  | .or => "or"

/-- The conventions of a store. -/
structure Conventions where
  /-- How many requests one session may send. -/
  maxRequests : Nat := 30
  /-- Whether writes carry the version they are based on. -/
  optimistic : Bool := false
  /-- The character between the parts of an identifier. -/
  separator : Char := '/'
  /-- The member of an entity that holds its identifier. -/
  identityProperty : String := "id"
  /-- The connective between conditions that none is given for. -/
  connective : Connective := .and
  /-- The metadata key under which a document notes the type of its entity. -/
  typeKey : String := "Raven-Rust-Type"
  /-- The collection of a type, where it is not the plural of the type's name. -/
  collectionOf : Option (String → String) := none

namespace Conventions

/-- What follows the last `::`. -/
def lastSegment (cs : List Char) : List Char :=
  go cs cs
where
  /-- The last segment of `cs`, in a text whose last segment so far is `best`. -/
  go (best : List Char) : List Char → List Char
    | ':' :: ':' :: rest => go rest (':' :: rest)
    | _ :: rest => go best rest
    | [] => best

/-- Whether a text ends with another one. -/
def endsIn (cs : List Char) (ending : String) : Bool :=
  ending.toList.isSuffixOf cs

/-- The plural of an English word: `y` after a consonant becomes `ies`, a hissing sound takes `es`,
all else takes `s`. -/
def pluralize (word : List Char) : List Char :=
  if word = [] then []
  else
    let lowered := Text.lowerAfter [] word
    if endsIn lowered "y" && !(["ay", "ey", "oy", "uy"].any (endsIn lowered)) then
      word.dropLast ++ ['i', 'e', 's']
    else if ["s", "x", "z", "ch", "sh"].any (endsIn lowered) then word ++ ['e', 's']
    else word ++ ['s']

/-- The plural of a type's name without its path and parameters. -/
def pluralOfType (typeName : String) : String :=
  String.ofList (pluralize (lastSegment (typeName.toList.takeWhile (· ≠ '<'))))

/-- The collection of a type. -/
def collectionName (c : Conventions) (typeName : String) : String :=
  match c.collectionOf with
  | some f => f typeName
  | none => pluralOfType typeName

/-- The incomplete identifier of a new document in a collection. -/
def incompleteId (c : Conventions) (collection : String) : String :=
  (Text.lower collection).push c.separator

end Conventions

end DocumentSession
