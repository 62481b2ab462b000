import DocumentSession.Script.Dictionary
import DocumentSession.Entity.Shop
import DocumentSession.Read.Lazy

set_option autoImplicit false

/-! # Instances of a script

A script numbers the instances it gets to see in the order in which answers show them, and speaks of
them by these numbers. -/

namespace DocumentSession.Script

/-- The entity type of a label; any other label is that of any value. -/
def readType (label : Option String) : EntityType :=
  match label with
  | some "user" => Shop.user
  | some "company" => Shop.company
  | some "staff" => Shop.staff
  | _ => Shop.anything

/-- The label of an entity type. -/
def typeLabel (t : EntityType) : String :=
  ((["user", "company", "staff"].find? (fun label => (readType (some label)).name = t.name))).getD
    "any"

/-- The names that a script has given. -/
structure Names where
  /-- The instances in the order in which answers showed them. -/
  entities : List EntityRef := []
  dictionaries : Dict Metadata.NodeId := []
  handles : Dict Handle := []

namespace Names

/-- The instance of a number. -/
def entity (names : Names) (n : Nat) : EntityRef :=
  (names.entities[n]?).getD 0

/-- Show an instance; one that was not shown before gets the next number. -/
def showEntity (names : Names) (shared : Shared) (ref : EntityRef) : Json × Names :=
  let entities :=
    if names.entities.contains ref then names.entities else names.entities ++ [ref]
  let e := shared.entity ref
  (Json.object
    [("ref", .nat (entities.idxOf ref)), ("type", .str (typeLabel e.type)), ("value", e.state)],
   { names with entities })

/-- Show an instance, or null. -/
def showEntity? (names : Names) (shared : Shared) : Option EntityRef → Json × Names
  | some ref => names.showEntity shared ref
  | none => (.null, names)

/-- Show instances in order. -/
def showList (names : Names) (shared : Shared) : List EntityRef → List Json × Names
  | [] => ([], names)
  | ref :: rest =>
    let (shown, names) := names.showEntity shared ref
    let (others, names) := showList names shared rest
    (shown :: others, names)

/-- Show the instances of identifiers. -/
def showDict (names : Names) (shared : Shared) : Dict (Option EntityRef) → Fields × Names
  | [] => ([], names)
  | (id, ref) :: rest =>
    let (shown, names) := names.showEntity? shared ref
    let (others, names) := showDict names shared rest
    ((id, shown) :: others, names)

/-- Show what a load found. -/
def showFound (names : Names) (shared : Shared) (found : Dict (Option EntityRef)) : Json × Names :=
  let (entries, names) := names.showDict shared found
  (.obj entries, names)

/-- Show what a query found. -/
def showResult (names : Names) (shared : Shared) (r : QueryResult) : Json × Names :=
  let (results, names) := names.showList shared r.results
  (Json.object
    [("results", .arr results), ("len", .nat results.length), ("empty", .bool results.isEmpty),
     ("total", .nat r.total), ("stale", .bool r.stale), ("index", .ofStr? r.index)],
   names)

/-- Show the value of a lazy read. -/
def showLazy (names : Names) (shared : Shared) : LazyValue → Json × Names
  | .documents found => names.showFound shared found
  | .results found => names.showResult shared found
  | .count n => (.nat n, names)

/-- Show a value, or the error in its place. -/
def showOr {α : Type} (names : Names) (value : Except Error α) (shown : α → Json × Names) :
    Json × Names :=
  match value with
  | .ok a => shown a
  | .error e => (showError e, names)

/-- Show an answer, or how the operation ended without one. -/
def showOrHalt {α : Type} (names : Names) (value : Except Halt α) (shown : α → Json × Names) :
    Json × Names :=
  match value with
  | .ok a => shown a
  | .error h => (showHalt h, names)

/-- Show a value that was taken from under a handle. -/
def showTaken (names : Names) (shared : Shared) :
    Option (Except Error LazyValue) → Json × Names
  | none => (.null, names)
  | some value =>
    let (shown, names) := names.showOr value (names.showLazy shared)
    (Json.object [("taken", shown)], names)

/-- Show the identifier and state of a stored instance. -/
def showStored (names : Names) (shared : Shared) (entity : EntityRef) (id : Except Error String) :
    Json × Names :=
  names.showOr id fun id =>
    let (shown, names) := names.showEntity shared entity
    (Json.object [("id", .str id), ("entity", shown)], names)

/-! ## Dictionaries -/

/-- The dictionaries of the script, for calls of their methods. -/
def held (names : Names) (shared : Shared) : Held :=
  { forest := shared.dictionaries, names := names.dictionaries }

/-- The dictionaries after calls of their methods. -/
def withHeld (names : Names) (shared : Shared) (h : Held) : Names × Shared :=
  ({ names with dictionaries := h.names }, { shared with dictionaries := h.forest })

/-- Show the metadata of an instance, and hold its dictionary under a name, if there is one. -/
def showMetadata (names : Names) (shared : Shared) (name : Option String) :
    Except Error Metadata.NodeId → Json × Names × Shared
  | .error e => (showError e, names, shared)
  | .ok n =>
    (.obj (shared.dictionaries.content n),
      names.withHeld shared ((names.held shared).bind name n))

end Names

end DocumentSession.Script
