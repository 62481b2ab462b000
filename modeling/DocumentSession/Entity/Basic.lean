import DocumentSession.Error
import DocumentSession.Metadata.Keys

set_option autoImplicit false

/-! # Entities

An entity is a value of the caller that is stored as a document. Its state is held in written form:
the JSON value that it is written as and read back from. An `EntityType` says which documents are
entities of the type, where they hold their identifier, and to which collection they belong.

A document has the identifier beside its body, an entity has it inside; `EntityType.materialize`
and `Entity.toBody` go from one to the other. -/

namespace DocumentSession

/-- A type of entities. -/
structure EntityType where
  /-- The full name, under which documents note their type and which tells types apart. -/
  name : String
  /-- The collection, where it does not follow from the name. -/
  collection : Option String := none
  /-- The state of the entity that a value is read as. -/
  read : Json → Except Error Json
  /-- The identifier in a state, if there is one. -/
  id? : Json → Option String := fun _ => none
  /-- The state with an identifier put in. -/
  setId : Json → String → Json := fun state _ => state

/-- Documents of any shape, whose identifier is not kept. -/
instance : Inhabited EntityType :=
  ⟨{ name := "", read := .ok }⟩

/-- An entity: its type and its state. -/
structure Entity where
  type : EntityType
  state : Json
  deriving Inhabited

/-- A body with the identifier as one of its members. -/
def withIdentity (body : Fields) (id identityProperty : String) : Json :=
  .obj (Keyed.insert (Keyed.erase body Metadata.key) identityProperty (.str id))

/-- The entity that a body is read as, under an identifier. -/
def EntityType.materialize (type : EntityType) (body : Fields) (id identityProperty : String) :
    Except Error Entity := do
  let state ← type.read (withIdentity body id identityProperty)
  return { type, state := type.setId state id }

namespace Entity

/-- Entities that are no objects cannot be documents. -/
def notAnObject (e : Entity) : Error :=
  .serialization
    ("Entity of type " ++ e.type.name ++ " must serialize to a JSON object, got " ++ e.state.kind)

/-- The body of the document that an entity is stored as. -/
def toBody (e : Entity) (identityProperty : String) : Except Error Fields :=
  match e.state with
  | .obj fields => .ok (Keyed.erase (Keyed.erase fields identityProperty) Metadata.key)
  | _ => .error e.notAnObject

/-- The identifier of an entity, if it has one. -/
def id? (e : Entity) : Option String :=
  e.type.id? e.state

/-- An entity with an identifier put in. -/
def setId (e : Entity) (id : String) : Entity :=
  { e with state := e.type.setId e.state id }

/-- An entity with some members set and others removed, read again as its type. -/
def edit (e : Entity) (set : Fields) (unset : List String) : Except Error Entity := do
  let edited := match e.state with
    | .obj fields => .obj (unset.foldl Keyed.erase (Dict.overlay fields set))
    | state => state
  let state ← e.type.read edited
  return { e with state }

end Entity

end DocumentSession
