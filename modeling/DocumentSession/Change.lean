import DocumentSession.Metadata.Keys

set_option autoImplicit false

/-! # Changes of a document

The last known body of a document is compared with its current one: objects key by key, arrays
position by position, so that moved items count as changed. The keys that the server adds to a
document are left out, at every depth.

`Change.list` gives every difference with the place where it is; `Change.any` only tells whether
there is one. -/

namespace DocumentSession

namespace Change

/-- What kind of difference a change is. -/
inductive Kind where
  | documentAdded
  | documentDeleted
  | fieldChanged
  | newField
  | removedField
  | arrayValueChanged
  | arrayValueAdded
  | arrayValueRemoved
  deriving DecidableEq, Repr

/-- Whether the place of a change is an item of an array. -/
def Kind.isOfArray : Kind → Bool
  | .arrayValueChanged | .arrayValueAdded | .arrayValueRemoved => true
  | _ => false

end Change

/-- A difference between two bodies. -/
structure Change where
  kind : Change.Kind
  /-- The field that changed, or the field that holds the array of the item. -/
  name : String := ""
  /-- Where the object of the field is, or where the item is; empty for the fields of the body. -/
  path : String := ""
  old : Option Json := none
  new : Option Json := none
  deriving DecidableEq

namespace Change

/-- The place of a change, for instance `Address.City` or `Tags[2]`. -/
def fullPath (c : Change) : String :=
  if c.path = "" then c.name
  else if c.kind.isOfArray then c.path
  else c.path ++ "." ++ c.name

/-- Keys that take no part in a comparison. -/
def ignoredKeys : List String :=
  [Metadata.lastModifiedKey, Metadata.collectionKey, Metadata.changeVectorKey, Metadata.idKey,
   Metadata.key]

/-- Whether a key takes no part in a comparison. -/
def isIgnored (key : String) : Bool :=
  ignoredKeys.contains key

/-! ## Whether anything changed -/

/-- Whether `others` has a key, not an ignored one, that `fields` lacks. -/
def hasForeignKey (fields others : Fields) : Bool :=
  others.any (fun m => !isIgnored m.1 && !Keyed.contains fields m.1)

mutual

/-- Whether two values differ. -/
def differs (old : Json) : Json → Bool
  | .obj new =>
    match old with
    | .obj fields =>
      hasForeignKey fields new || hasForeignKey new fields || membersDiffer fields new
    | _ => true
  | .arr new =>
    match old with
    | .arr items => items.length ≠ new.length || itemsDiffer items new
    | _ => true
  | new => !old.equal new

/-- Whether one of some members differs from what `old` has under its key. -/
def membersDiffer (old : Fields) : List (String × Json) → Bool
  | [] => false
  | (key, new) :: rest =>
    (if isIgnored key then false
      else match Keyed.find? old key with
        | some before => differs before new
        | none => false)
    || membersDiffer old rest

/-- Whether two lists differ at a position that both have. -/
def itemsDiffer : List Json → List Json → Bool
  | before :: old, after :: new => differs before after || itemsDiffer old new
  | _, _ => false

end

/-- Whether two bodies differ. -/
def any (old new : Fields) : Bool :=
  differs (.obj old) (.obj new)

/-! ## Every change -/

/-- A field or item below a path. -/
def join (path name : String) : String :=
  if path = "" then name else path ++ "." ++ name

/-- The position of an item, as it is written in a path. -/
def positionText (position : Nat) : String :=
  "[" ++ toString position ++ "]"

/-- A place where two values are compared. -/
inductive Site where
  /-- The field `name` of the object at `path`. -/
  | field (path name : String)
  /-- The item at `position` of the array that the field `name` of the object at `path` holds. -/
  | item (path name : String) (position : Nat)

/-- The path of the objects at a site. -/
def Site.path : Site → String
  | .field path name => join path name
  | .item path name position => join path name ++ positionText position

/-- The site of an item of the arrays at a site. -/
def Site.itemAt (position : Nat) : Site → Site
  | .field path name => .item path name position
  | .item path name outer => .item path (name ++ positionText outer) position

/-- The change that two values at a site are. -/
def Site.changed (old new : Json) : Site → Change
  | .field path name => { kind := .fieldChanged, name, path, old := some old, new := some new }
  | site@(.item _ name _) =>
    { kind := .arrayValueChanged, name, path := site.path, old := some old, new := some new }

/-- The name of the field of a site. -/
def Site.name : Site → String
  | .field _ name => name
  | .item _ name _ => name

/-- The members of `others`, ignored ones apart, whose keys `fields` lacks. -/
def foreign (fields others : Fields) : Fields :=
  others.filter (fun m => !isIgnored m.1 && !Keyed.contains fields m.1)

/-- The fields that only one of two objects has: first the new ones, then the removed ones. -/
def oneSided (path : String) (old new : Fields) : List Change :=
  (foreign old new).map (fun m => { kind := .newField, name := m.1, path, new := some m.2 })
    ++ (foreign new old).map
        (fun m => { kind := .removedField, name := m.1, path, old := some m.2 })

/-- The items, from a position on, that only one of two arrays has. -/
def surplus (kind : Kind) (site : Site) (position : Nat) : List Json → List Change
  | [] => []
  | v :: rest =>
    let item := site.itemAt position
    { kind, name := item.name, path := item.path
      old := if kind = .arrayValueRemoved then some v else none
      new := if kind = .arrayValueRemoved then none else some v }
    :: surplus kind site (position + 1) rest

mutual

/-- The changes between two values at a site. -/
def between (site : Site) (old : Json) : Json → List Change
  | .obj new =>
    match old with
    | .obj fields => oneSided site.path fields new ++ inMembers site.path fields new
    | _ => [site.changed old (.obj new)]
  | .arr new =>
    match old with
    | .arr items => inItems site 0 items new
    | _ => [site.changed old (.arr new)]
  | new => if old.equal new then [] else [site.changed old new]

/-- The changes of some members against what `old` has under their keys. -/
def inMembers (path : String) (old : Fields) : List (String × Json) → List Change
  | [] => []
  | (key, new) :: rest =>
    (if isIgnored key then []
      else match Keyed.find? old key with
        | some before => between (.field path key) before new
        | none => [])
    ++ inMembers path old rest

/-- The changes between two lists of items of the arrays at a site, from a position on: first those
at common positions, then the items that only one list has. -/
def inItems (site : Site) (position : Nat) (old : List Json) : List Json → List Change
  | [] => surplus .arrayValueRemoved site position old
  | after :: new =>
    match old with
    | [] => surplus .arrayValueAdded site position (after :: new)
    | before :: old =>
      between (site.itemAt position) before after ++ inItems site (position + 1) old new

end

/-- Every change between two bodies: the new fields, the removed fields, then the changes inside
common fields, each in the order of the keys. -/
def list (old new : Fields) : List Change :=
  oneSided "" old new ++ inMembers "" old new

end Change

end DocumentSession
