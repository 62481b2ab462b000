import DocumentSession.Workspace.Changes

set_option autoImplicit false

/-! # Storing and deleting

An instance is stored under an identifier: the one given, else its own, else an incomplete one that
the server completes. No identifier has two instances and no instance two identifiers. Deleting
marks a tracked document for the next save; a document that is not tracked is deleted by a command
that waits for the save. -/

namespace DocumentSession.Workspace

/-! ## Refusals -/

/-- There are no documents without identifier. -/
def emptyId : Error :=
  .invalidOperation "Document id must not be empty"

/-- Nothing can be stored where nothing is tracked. -/
def storeWithoutTracking : Error :=
  .invalidOperation "Cannot store entities in a session opened without tracking"

/-- A deleted instance cannot be stored again. -/
def storedAfterDelete (id : String) : Error :=
  .identityConflict .storeAfterDelete id
    "Can't store object, it was already deleted in this session"

/-- A tracked instance keeps its identifier. -/
def trackedUnderOtherId (requested id : String) : Error :=
  .identityConflict .alreadyTrackedUnderOtherId requested
    ("Entity is already tracked under id '" ++ id ++ "'")

/-- Another instance has the identifier. -/
def otherInstance (id : String) : Error :=
  .identityConflict .nonUniqueInstance id
    "Attempted to associate a different object with an id already tracked by the session"

/-- Identifiers that the server numbers are not given by callers. -/
def reservedId (id : String) : Error :=
  .invalidOperation
    ("Document id '" ++ id ++ "' ends with '" ++ Identifier.numberedSuffix.toString
      ++ "', which is reserved for server generated ids")

/-- A command waits for the document. -/
def commandWaits (id : String) : Error :=
  .invalidOperation
    ("Can't store document, there is a deferred command registered for this document in the "
      ++ "session. Document id: " ++ id)

/-- A changed entity is deleted by instance, so that the change is not lost unseen. -/
def changedEntity (id : String) : Error :=
  .invalidOperation
    ("Can't delete changed entity using identifier. Use delete(entity) instead. Document id: "
      ++ id)

/-- A document has at most one waiting command of each kind. -/
def alreadyDeferred (c : Command) : Error :=
  .invalidOperation
    ("A " ++ c.kind.name ++ " command for document '" ++ c.id
      ++ "' is already deferred in this session")

/-! ## Store -/

/-- Store a tracked instance again: only its version and its check can change. -/
def storeAgain (w : Workspace) (key : RecordKey) (r : Record) (id changeVector : Option String)
    (check : VersionCheck) : Except Error String × Workspace :=
  if w.work.isToDelete key then (.error (storedAfterDelete r.id), w)
  else
    match id.filter (fun id => Identifier.normalize id ≠ Identifier.normalize r.id) with
    | some requested => (.error (trackedUnderOtherId requested r.id), w)
    | none =>
      let update := fun r : Record =>
        { r with changeVector := changeVector.or r.changeVector, check }
      (.ok r.id, { w with work := w.work.modifyRecord key update })

/-- The identifier to store an instance under: the one given, its own, or an incomplete one. -/
def idToStore (w : Workspace) (entity : EntityRef) (id : Option String) : String :=
  match id with
  | some id => id
  | none =>
    let e := w.shared.entity entity
    match e.id?.filter (· ≠ "") with
    | some own => own
    | none => w.work.conventions.incompleteId (w.work.collectionOf e.type)

/-- Why nothing can be stored under an identifier, whatever is tracked under it. -/
def refuseId (w : Workspace) (id : String) : Except Error Unit :=
  if id = "" then .error emptyId
  else if Identifier.endsWith id Identifier.numberedSuffix then .error (reservedId id)
  else if w.work.hasDeferred id then .error (commandWaits id)
  else .ok ()

/-- The metadata of a new document. -/
def newMetadata (w : Workspace) (type : EntityType) : Fields :=
  Dict.ofList
    [(Metadata.collectionKey, .str (w.work.collectionOf type)),
     (w.work.conventions.typeKey, .str type.name)]

/-- Give a record that has no instance one, as its entity. -/
def attach (w : Workspace) (key : RecordKey) (entity : EntityRef) (id : String)
    (changeVector : Option String) (check : VersionCheck) : Workspace :=
  let update := fun r : Record =>
    { r with entity := some entity, check, changeVector := changeVector.or r.changeVector }
  let work := w.work.modifyRecord key update
  { work :=
      { work with
        registry := work.registry.insert entity key
        missing := work.missing.remove id }
    shared := w.shared.setId entity id }

/-- Track an instance as a new document. One with an incomplete identifier is found by instance
only. -/
def track (w : Workspace) (entity : EntityRef) (id : String) (incomplete : Bool)
    (changeVector : Option String) (check : VersionCheck) : Workspace :=
  let metadata := w.newMetadata (w.shared.entity entity).type
  let (key, work) := w.work.addRecord (.ofEntity id entity metadata changeVector check)
  { work :=
      { work with
        registry := work.registry.insert entity key
        identities := if incomplete then work.identities else work.identities.insert id key
        missing := work.missing.remove id }
    shared := if incomplete then w.shared else w.shared.setId entity id }

/-- Store an instance and give the identifier it is tracked under. -/
def store (w : Workspace) (entity : EntityRef) (id changeVector : Option String)
    (check : VersionCheck) : Except Error String × Workspace :=
  if w.work.noTracking then (.error storeWithoutTracking, w)
  else
    match w.work.recordForEntity? entity with
    | some (key, r) => w.storeAgain key r id changeVector check
    | none =>
      let id := w.idToStore entity id
      match w.refuseId id with
      | .error e => (.error e, w)
      | .ok () =>
        let incomplete := Identifier.isIncomplete id w.work.conventions.separator
        match (if incomplete then none else w.work.recordForId? id) with
        | none => (.ok id, w.track entity id incomplete changeVector check)
        | some (key, r) =>
          if r.entity.isSome then (.error (otherInstance id), w)
          else (.ok id, w.attach key entity id changeVector check)

/-! ## Delete and defer -/

/-- Delete the document of an instance; one that was never saved is only forgotten. -/
def delete (w : Workspace) (entity : EntityRef) : Except Error Unit × Workspace :=
  match w.work.recordForEntity? entity with
  | none =>
    (.error (unknownEntity (w.shared.entity entity).type
      ", cannot delete unknown entity instance"), w)
  | some (key, r) =>
    if r.isNew then (.ok (), (w.removeRecord key).2)
    else
      (.ok (),
        { w with
          work :=
            { w.work with
              deleted := w.work.deleted.insert key ()
              missing := w.work.missing.insert r.id } })

/-- The first command that has its kind and document in common with one of `taken`. -/
def firstClash (taken : List (CommandKind × String)) : List Command → Option Command
  | [] => none
  | c :: rest => if c.dedupKey ∈ taken then some c else firstClash (c.dedupKey :: taken) rest

/-- Let commands wait for the next save, all of them or none. -/
def defer (w : Workspace) (commands : List Command) : Except Error Unit × Workspace :=
  match firstClash (w.work.deferred.map Command.dedupKey) commands with
  | some c => (.error (alreadyDeferred c), w)
  | none => (.ok (), { w with work := { w.work with deferred := w.work.deferred ++ commands } })

/-- Let a deletion wait for the next save. Without a version given, the one that was tracked counts
where the conventions say so. -/
def deferDelete (w : Workspace) (id : String) (given tracked : Option String) :
    Except Error Unit × Workspace :=
  let known := if w.work.conventions.optimistic then tracked else none
  (w.markMissing id).defer [{ id, action := .delete, changeVector := given.or known }]

/-- Delete the document of an identifier, if it is at a version where one is given. -/
def deleteId (w : Workspace) (id : String) (changeVector : Option String) :
    Except Error Unit × Workspace :=
  if id = "" then (.error emptyId, w)
  else
    match w.work.recordForId? id with
    | none => w.deferDelete id changeVector none
    | some (key, r) =>
      match w.entityChanged r with
      | .error e => (.error e, w)
      | .ok true => (.error (changedEntity id), w)
      | .ok false => (w.removeRecord key).2.deferDelete id changeVector r.changeVector

end DocumentSession.Workspace
