import DocumentSession.Workspace.Basic

set_option autoImplicit false

/-! # What a session says of its entities

The identifier, version and metadata of a tracked instance, and what about it the next save would
write. -/

namespace DocumentSession.Workspace

/-- The instance is tracked by no record. -/
def unknownEntity (type : EntityType) (consequence : String) : Error :=
  .invalidOperation (type.name ++ " is not associated with the session" ++ consequence)

/-- The record of an instance, which has to be tracked. -/
def recordOf (w : Workspace) (entity : EntityRef) : Except Error (RecordKey × Record) :=
  match w.work.recordForEntity? entity with
  | some found => .ok found
  | none => .error (unknownEntity (w.shared.entity entity).type "")

/-- The identifier of an instance. -/
def idOf (w : Workspace) (entity : EntityRef) : Except Error String :=
  (w.recordOf entity).map (fun (_, r) => r.id)

/-- The version of an instance; one that was never saved has none. -/
def changeVectorOf (w : Workspace) (entity : EntityRef) : Except Error (Option String) :=
  (w.recordOf entity).map (fun (_, r) => r.changeVector)

/-- The dictionary of a record, which the record holds. -/
def openDictionary (w : Workspace) (key : RecordKey) (r : Record) : Metadata.NodeId × Workspace :=
  let (n, r, forest) := r.openDictionary w.shared.dictionaries
  (n,
    { work := w.work.modifyRecord key (fun _ => r)
      shared := { w.shared with dictionaries := forest } })

/-- The metadata of an instance as a dictionary, which the caller holds from now on. -/
def metadataOf (w : Workspace) (entity : EntityRef) : Except Error Metadata.NodeId × Workspace :=
  match w.recordOf entity with
  | .error e => (.error e, w)
  | .ok (key, r) =>
    let (n, w) := w.openDictionary key r
    (.ok n,
      { w with
        shared := { w.shared with dictionaries := w.shared.dictionaries.retain n } })

/-- Leave the changes of an instance alone. -/
def ignoreChanges (w : Workspace) (entity : EntityRef) : Except Error Unit × Workspace :=
  match w.recordOf entity with
  | .error e => (.error e, w)
  | .ok (key, _) =>
    (.ok (), { w with work := w.work.modifyRecord key (fun r => { r with ignoreChanges := true }) })

/-- Track an instance no longer. -/
def evict (w : Workspace) (entity : EntityRef) : Workspace :=
  match w.work.registry.get? entity with
  | some key => (w.removeRecord key).2
  | none => w

/-! ## Changes -/

/-- The body of an instance. -/
def bodyOf (w : Workspace) (entity : EntityRef) : Except Error Fields :=
  (w.shared.entity entity).toBody w.work.conventions.identityProperty

/-- Whether the entity of a record would have to be written, other than for being deleted. -/
def entityChanged (w : Workspace) (r : Record) : Except Error Bool :=
  match r.entity with
  | none => .ok false
  | some entity =>
    if r.isNew || r.isMetadataDirty w.shared.dictionaries then .ok true
    else (w.bodyOf entity).map r.bodyDiffers

/-- Whether the next save would write an instance. -/
def hasChanged (w : Workspace) (entity : EntityRef) : Except Error Bool := do
  let (key, r) ← w.recordOf entity
  if w.work.isToDelete key then return true else w.entityChanged r

/-- Whether one of some records has to be written. -/
def anyChanged (w : Workspace) : List RecordKey → Except Error Bool
  | [] => .ok false
  | key :: rest =>
    match w.work.records.find? key with
    | none => anyChanged w rest
    | some r =>
      if r.ignoreChanges then anyChanged w rest
      else
        match w.entityChanged r with
        | .error e => .error e
        | .ok true => .ok true
        | .ok false => anyChanged w rest

/-- Whether the next save would send anything. -/
def hasChanges (w : Workspace) : Except Error Bool :=
  if !w.work.deleted.isEmpty || !w.work.deferred.isEmpty then .ok true
  else w.anyChanged w.work.registry.records

/-- A change of a document as a whole. -/
def wholeDocument (kind : Change.Kind) : List Change :=
  [{ kind }]

/-- What the next save would write of a record. -/
def changesOf (w : Workspace) (r : Record) (entity : EntityRef) : Except Error (List Change) :=
  if r.isNew then .ok (wholeDocument .documentAdded)
  else do
    let current ← w.bodyOf entity
    match r.body with
    | some old => return Change.list old current
    | none => return wholeDocument .documentAdded

/-- Add what the next save would write of some records. -/
def collectChanges (w : Workspace) (found : Dict (List Change)) :
    List RecordKey → Except Error (Dict (List Change))
  | [] => .ok found
  | key :: rest =>
    match w.work.isToDelete key, w.work.records.find? key with
    | false, some r =>
      match r.entity, r.ignoreChanges with
      | some entity, false =>
        match w.changesOf r entity with
        | .error e => .error e
        | .ok [] => collectChanges w found rest
        | .ok changes => collectChanges w (found.insert r.id changes) rest
      | _, _ => collectChanges w found rest
    | _, _ => collectChanges w found rest

/-- The documents to delete. -/
def deletions (w : Workspace) : Dict (List Change) :=
  w.work.deleted.keys.foldl
    (fun found key =>
      match w.work.records.find? key with
      | some r => found.insert r.id (wholeDocument .documentDeleted)
      | none => found)
    []

/-- Every change that waits for the next save, by the identifier of its document. -/
def whatChanged (w : Workspace) : Except Error (Dict (List Change)) :=
  w.collectChanges w.deletions w.work.registry.records

end DocumentSession.Workspace
