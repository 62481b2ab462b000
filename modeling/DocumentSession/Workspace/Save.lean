import DocumentSession.Workspace.Changes
import DocumentSession.Callbacks

set_option autoImplicit false

/-! # Planning a save

A save is planned in full before anything is sent: first the deletions, then the entities that
changed, then the commands that waited. Each command is planned with its origin, which tells what to
do with its result. A document for which a command waits is left to that command. Callbacks are
called while the plan is made, and a refusal ends it. -/

namespace DocumentSession

/-- Where a planned command comes from. -/
inductive Origin where
  /-- An entity that changed, with the body and metadata that are sent. -/
  | put (record : RecordKey) (body metadata : Fields)
  /-- A record to delete. -/
  | delete (record : RecordKey)
  /-- A command that waited. -/
  | deferred
  deriving DecidableEq

/-- A command of a batch with its `origin`. The two are planned together, so a result that is
settled at the position of the command finds its `origin` there. -/
structure Planned where
  command : Command
  origin : Origin
  deriving DecidableEq

/-- A planned save: the commands of its batch in order, each with its `origin`. -/
abbrev Plan := List Planned

namespace Plan

/-- The commands of a plan. -/
def commands (p : Plan) : List Command :=
  p.map Planned.command

/-- The body of the request for a plan. -/
def body (p : Plan) : Json :=
  Command.batchBody p.commands

end Plan

namespace Workspace

/-- The version a deletion depends on. -/
def versionToDelete (conventions : Conventions) (r : Record) : Option String :=
  if conventions.optimistic || r.check = .forced then r.changeVector else none

/-- The version a write depends on. The empty one stands for a document that must not exist yet. -/
def versionToPut (conventions : Conventions) (r : Record) : Option String :=
  if conventions.optimistic then
    if r.check = .disabled then none else some (r.changeVector.getD "")
  else if r.check = .forced then r.changeVector
  else none

/-- Plan the deletion of some records. -/
def planDeletes (w : Workspace) (callbacks : Callbacks) :
    List RecordKey → Except Error Plan × Workspace
  | [] => (.ok [], w)
  | key :: rest =>
    match w.work.records.find? key with
    | none => planDeletes w callbacks rest
    | some r =>
      if w.work.hasDeferred r.id then planDeletes w callbacks rest
      else
        match Callbacks.callEach r.id callbacks.beforeDelete w.shared with
        | (.error e, shared) => (.error e, { w with shared })
        | (.ok (), shared) =>
          let command :=
            { id := r.id, action := .delete
              changeVector := versionToDelete w.work.conventions r }
          match planDeletes { w with shared } callbacks rest with
          | (.ok plan, w) => (.ok ({ command, origin := .delete key } :: plan), w)
          | failed => failed

/-- Whether an entity with a given body has to be written. -/
def mustWrite (w : Workspace) (r : Record) (body : Fields) : Bool :=
  r.isNew || r.isMetadataDirty w.shared.dictionaries || r.bodyDiffers body

/-- Plan the write of an entity that has to be written. Callbacks may edit it and its metadata
before. -/
def planPut (w : Workspace) (callbacks : Callbacks) (key : RecordKey) (r : Record)
    (entity : EntityRef) : Except Error Planned × Workspace :=
  let (n, w) := w.openDictionary key r
  let event := { id := r.id, metadata := n, entity }
  match Callbacks.callEach event callbacks.beforeStore w.shared with
  | (.error e, shared) => (.error e, { w with shared })
  | (.ok (), shared) =>
    let w := { w with shared }
    match w.bodyOf entity with
    | .error e => (.error e, w)
    | .ok body =>
      let metadata := { r with dictionary := some n }.mergedMetadata w.shared.dictionaries
      let command :=
        { id := r.id, action := .put (Keyed.insert body Metadata.key (.obj metadata))
          changeVector := versionToPut w.work.conventions r }
      (.ok { command, origin := .put key body metadata }, w)

/-- Plan the write of an entity, if it has to be written. -/
def planEntity (w : Workspace) (callbacks : Callbacks) (key : RecordKey) :
    Except Error (Option Planned) × Workspace :=
  match w.work.isToDelete key, w.work.records.find? key with
  | false, some r =>
    match r.entity with
    | none => (.ok none, w)
    | some entity =>
      if r.ignoreChanges || w.work.hasDeferred r.id then (.ok none, w)
      else
        match w.bodyOf entity with
        | .error e => (.error e, w)
        | .ok body =>
          if !w.mustWrite r body then (.ok none, w)
          else
            match w.planPut callbacks key r entity with
            | (.error e, w) => (.error e, w)
            | (.ok planned, w) => (.ok (some planned), w)
  | _, _ => (.ok none, w)

/-- Plan the writes of some entities. -/
def planPuts (w : Workspace) (callbacks : Callbacks) :
    List RecordKey → Except Error Plan × Workspace
  | [] => (.ok [], w)
  | key :: rest =>
    match w.planEntity callbacks key with
    | (.error e, w) => (.error e, w)
    | (.ok planned, w) =>
      match planPuts w callbacks rest with
      | (.ok plan, w) => (.ok (planned.toList ++ plan), w)
      | failed => failed

/-- Plan the commands that waited. -/
def planDeferred (w : Workspace) (callbacks : Callbacks) :
    List Command → Except Error Plan × Workspace
  | [] => (.ok [], w)
  | command :: rest =>
    let asked :=
      if command.kind = .delete then
        Callbacks.callEach command.id callbacks.beforeDelete w.shared
      else (.ok (), w.shared)
    match asked with
    | (.error e, shared) => (.error e, { w with shared })
    | (.ok (), shared) =>
      match planDeferred { w with shared } callbacks rest with
      | (.ok plan, w) => (.ok ({ command, origin := .deferred } :: plan), w)
      | failed => failed

/-- Plan the next save. -/
def planSave (w : Workspace) (callbacks : Callbacks) : Except Error Plan × Workspace :=
  match w.planDeletes callbacks w.work.deleted.keys with
  | (.error e, w) => (.error e, w)
  | (.ok deletes, w) =>
    match w.planPuts callbacks w.work.registry.records with
    | (.error e, w) => (.error e, w)
    | (.ok puts, w) =>
      match w.planDeferred callbacks w.work.deferred with
      | (.error e, w) => (.error e, w)
      | (.ok deferred, w) => (.ok (deletes ++ puts ++ deferred), w)

end Workspace

end DocumentSession
