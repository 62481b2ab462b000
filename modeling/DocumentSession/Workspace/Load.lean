import DocumentSession.Workspace.Basic

set_option autoImplicit false

/-! # Documents of the server

A document that the server sent is registered under its identifier. The instance of a record is made
when it is first asked for, and from then on the record keeps it: what the server sends later
refreshes only records without an instance. -/

namespace DocumentSession

/-- What a session knows of an identifier without asking the server. -/
inductive Lookup where
  /-- The instance of its document, or that it has no document. -/
  | known (entity : Option EntityRef)
  /-- Nothing: the server has to be asked. -/
  | unknown
  deriving DecidableEq, Repr

namespace Workspace

/-- The instance of a document is of one type only. -/
def otherType (id : String) (tracked asked : EntityType) : Error :=
  .invalidOperation
    ("Document '" ++ id ++ "' is tracked as " ++ tracked.name ++ ", not " ++ asked.name)

/-- Every document says in its metadata which one it is. -/
def missingId (metadata : Fields) : Error :=
  .protocol "Document is missing '@metadata.@id'" (some (.obj metadata))

/-- A registered document has a body, from which an instance can be made. -/
def emptyRecord : Error :=
  .protocol "Registered document has neither an entity nor a body" none

/-- The instance of a record, made from the body last known if there is none yet. -/
def entityFor (w : Workspace) (type : EntityType) (key : RecordKey) :
    Except Error (Option EntityRef) × Workspace :=
  match w.work.records.find? key with
  | none => (.ok none, w)
  | some r =>
    match r.entity, r.body with
    | some entity, _ =>
      let tracked := (w.shared.entity entity).type
      if tracked.name = type.name then (.ok (some entity), w)
      else (.error (otherType r.id tracked type), w)
    | none, none => (.ok none, w)
    | none, some body =>
      match type.materialize body r.id w.work.conventions.identityProperty with
      | .error e => (.error e, w)
      | .ok e =>
        let (entity, shared) := w.shared.addEntity e
        let work := w.work.modifyRecord key (fun r => { r with entity := some entity })
        (.ok (some entity),
          { work := { work with registry := work.registry.insert entity key }, shared })

/-- What is known of an identifier. -/
def lookup (w : Workspace) (type : EntityType) (id : String) : Except Error Lookup × Workspace :=
  if w.work.missing.contains id then (.ok (.known none), w)
  else
    match w.work.identities.get? id with
    | none => (.ok .unknown, w)
    | some key =>
      if w.work.isToDelete key then (.ok (.known none), w)
      else
        match w.entityFor type key with
        | (.error e, w) => (.error e, w)
        | (.ok none, w) => (.ok .unknown, w)
        | (.ok (some entity), w) => (.ok (.known (some entity)), w)

/-- Renew a record without an instance by what the server sent. -/
def refreshRecord (w : Workspace) (key : RecordKey) (body metadata : Fields) : Workspace :=
  match w.work.records.find? key with
  | some r =>
    if r.entity.isSome then w
    else
      { work := w.work.modifyRecord key (·.refreshed body metadata), shared := w.shared.release r }
  | none => w

/-- Add a record of a document that the server sent. -/
def addLoaded (w : Workspace) (id : String) (body metadata : Fields) : RecordKey × Workspace :=
  let (key, work) := w.work.addRecord (.loaded id body metadata)
  (key,
    { w with
      work :=
        { work with
          identities := work.identities.insert id key
          missing := work.missing.remove id } })

/-- Register a document that the server sent, and give its record. -/
def register (w : Workspace) (document : Fields) : Except Error RecordKey × Workspace :=
  let (body, metadata) := Metadata.split document
  match (Keyed.find? metadata Metadata.idKey).bind Json.str? with
  | none => (.error (missingId metadata), w)
  | some id =>
    match w.work.identities.get? id with
    | some key => (.ok key, w.refreshRecord key body metadata)
    | none =>
      let (key, w) := w.addLoaded id body metadata
      (.ok key, w)

/-- Register a document and give its instance. -/
def trackDocument (w : Workspace) (type : EntityType) (document : Fields) :
    Except Error EntityRef × Workspace :=
  match w.register document with
  | (.error e, w) => (.error e, w)
  | (.ok key, w) =>
    match w.entityFor type key with
    | (.error e, w) => (.error e, w)
    | (.ok none, w) => (.error emptyRecord, w)
    | (.ok (some entity), w) => (.ok entity, w)

/-- Register documents in turn, up to the first that says not which one it is. -/
def registerAll (w : Workspace) : List Fields → Except Error Unit × Workspace
  | [] => (.ok (), w)
  | document :: rest =>
    match w.register document with
    | (.error e, w) => (.error e, w)
    | (.ok _, w) => registerAll w rest

/-- A new instance made from a document, which is not tracked. A document without identifier is read
as it is. -/
def detached (w : Workspace) (type : EntityType) (document : Fields) :
    Except Error EntityRef × Workspace :=
  let (body, metadata) := Metadata.split document
  let made := match (Keyed.find? metadata Metadata.idKey).bind Json.str? with
    | some id => type.materialize body id w.work.conventions.identityProperty
    | none => do
      let state ← type.read (.obj body)
      return { type, state }
  match made with
  | .error e => (.error e, w)
  | .ok e =>
    let (entity, shared) := w.shared.addEntity e
    (.ok entity, { w with shared })

end Workspace

end DocumentSession
