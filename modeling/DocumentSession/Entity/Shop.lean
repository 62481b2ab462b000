import DocumentSession.Entity.Basic

set_option autoImplicit false

/-! # The entities of a shop

Four types of entities: users that may have an identifier, companies that do not hold theirs, staff
whose identifier has a name of its own, and any value at all.

The first three are records of named fields. They are read from an object, where keys without a
field are passed over, or from the list of their fields in order; a field that is missing has its
default value, and without one nothing is read. -/

namespace DocumentSession.Shop

/-- What the values of a field are. -/
inductive FieldType where
  | text
  | optionalText
  | textList
  /-- A natural number of at most 32 bits. -/
  | count

/-- Whether a value is one of a field. -/
def FieldType.admits (type : FieldType) (v : Json) : Bool :=
  match type, v with
  | .text, .str _ => true
  | .optionalText, .str _ => true
  | .optionalText, .null => true
  | .textList, .arr items => items.all (fun v => v.str?.isSome)
  | .count, .num (.int n) => 0 ≤ n ∧ n < UInt32.size
  | _, _ => false

/-- A field of a record. -/
structure Field where
  name : String
  type : FieldType
  default : Option Json := none
  /-- Whether the field is written only where it is not null. -/
  omitNull : Bool := false

/-- Why a value is not read as an entity. -/
def unreadable (typeName : String) : Error :=
  .serialization ("the value is no " ++ typeName)

/-- The value of a field among some members, as it is written. -/
def Field.read (f : Field) (typeName : String) (members : Fields) :
    Except Error (List (String × Json)) :=
  match (Keyed.find? members f.name).or f.default with
  | none => .error (unreadable typeName)
  | some v =>
    if !f.type.admits v then .error (unreadable typeName)
    else if f.omitNull ∧ v = .null then .ok []
    else .ok [(f.name, v)]

/-- The members of a value: those of an object, or the items of an array under the names of the
fields. -/
def membersOf (fields : List Field) : Json → Option Fields
  | .obj members => some members
  | .arr items =>
    if items.length ≤ fields.length then some ((fields.map Field.name).zip items) else none
  | _ => none

/-- The state of the record that a value is read as. -/
def readRecord (typeName : String) (fields : List Field) (v : Json) : Except Error Json := do
  match membersOf fields v with
  | none => throw (unreadable typeName)
  | some members =>
    let parts ← fields.mapM (fun f => f.read typeName members)
    return Json.object parts.flatten

/-- The string under a key of a state. -/
def idUnder (key : String) (state : Json) : Option String :=
  state.getStr? key

/-- A state with a string under a key, if it is an object. -/
def setUnder (key : String) (state : Json) (id : String) : Json :=
  match state with
  | .obj fields => .obj (Keyed.insert fields key (.str id))
  | state => state

/-- A user, who may have an identifier. -/
def user : EntityType :=
  { name := "shop::model::User"
    read := readRecord "user"
      [{ name := "id", type := .optionalText, default := some .null },
       { name := "name", type := .text },
       { name := "age", type := .count, default := some (.nat 0) },
       { name := "company", type := .optionalText, default := some .null, omitNull := true }]
    id? := idUnder "id"
    setId := setUnder "id" }

/-- A company, which does not hold its identifier. -/
def company : EntityType :=
  { name := "shop::model::Company"
    read := readRecord "company"
      [{ name := "name", type := .text },
       { name := "tags", type := .textList, default := some (.arr []) }] }

/-- A member of the staff, whose identifier is never missing but may be empty. -/
def staff : EntityType :=
  { name := "shop::hr::StaffMember"
    collection := some "Personnel"
    read := readRecord "member of the staff"
      [{ name := "staffId", type := .text, default := some (.str "") },
       { name := "name", type := .text }]
    id? := idUnder "staffId"
    setId := setUnder "staffId" }

/-- Any value; one that is an object may hold an identifier. -/
def anything : EntityType :=
  { name := "shop::model::AnyDoc<serde_json::Value>"
    read := .ok
    id? := idUnder "id"
    setId := setUnder "id" }

end DocumentSession.Shop
