import DocumentSession.Shared
import DocumentSession.Command
import DocumentSession.Conventions

set_option autoImplicit false

/-! # The workspace of a session

A unit of work is what one session tracks: its records with their indexes, the records to delete,
and the commands that wait for the next save. Together with what the session shares with its caller
it is a `Workspace`, on which all operations without a request work. An operation that may be
refused gives its answer and the workspace after it; the workspace is there in either case, for a
refusal need not come first. -/

namespace DocumentSession

/-- What one session tracks. -/
structure UnitOfWork where
  conventions : Conventions
  records : Table Record := []
  /-- The number of the next record. -/
  nextKey : RecordKey := 0
  identities : IdentityMap := {}
  registry : Registry := {}
  missing : KnownMissing := {}
  /-- The records to delete with the next save, in order. -/
  deleted : Table Unit := []
  /-- The commands that wait for the next save, in the order in which they came. -/
  deferred : List Command := []
  /-- Whether nothing is tracked at all. -/
  noTracking : Bool := false

/-- How much of a session waits for the next save. -/
structure PendingCounts where
  tracked : Nat
  deleted : Nat
  deferred : Nat
  deriving DecidableEq, Repr

namespace UnitOfWork

/-- The record of an identifier. -/
def recordForId? (u : UnitOfWork) (id : String) : Option (RecordKey × Record) := do
  let key ← u.identities.get? id
  let record ← u.records.find? key
  return (key, record)

/-- The record of an instance. -/
def recordForEntity? (u : UnitOfWork) (entity : EntityRef) : Option (RecordKey × Record) := do
  let key ← u.registry.get? entity
  let record ← u.records.find? key
  return (key, record)

/-- Add a record under the next number. -/
def addRecord (u : UnitOfWork) (r : Record) : RecordKey × UnitOfWork :=
  (u.nextKey, { u with records := u.records.insert u.nextKey r, nextKey := u.nextKey + 1 })

/-- Change a record. -/
def modifyRecord (u : UnitOfWork) (key : RecordKey) (change : Record → Record) : UnitOfWork :=
  { u with records := u.records.modify key change }

/-- Forget a record and everything that leads to it. -/
def withoutRecord (u : UnitOfWork) (key : RecordKey) (r : Record) : UnitOfWork :=
  { u with
    records := u.records.erase key
    identities := u.identities.removeRecord key
    registry := r.entity.elim u.registry u.registry.remove
    deleted := u.deleted.erase key }

/-- Whether a command waits for the document of an identifier. -/
def hasDeferred (u : UnitOfWork) (id : String) : Bool :=
  u.deferred.any (fun c => Identifier.normalize c.id = Identifier.normalize id)

/-- Whether the document of a record is to be deleted. -/
def isToDelete (u : UnitOfWork) (key : RecordKey) : Bool :=
  u.deleted.contains key

/-- Whether an identifier has a record with something in it, or is known to have no document. -/
def isLoaded (u : UnitOfWork) (id : String) : Bool :=
  u.missing.contains id
    || (u.recordForId? id).any (fun (_, r) => r.body.isSome || r.entity.isSome)

/-- Whether an identifier is known to have no document. -/
def isDeleted (u : UnitOfWork) (id : String) : Bool :=
  u.missing.contains id

/-- How much waits for the next save. -/
def pendingCounts (u : UnitOfWork) : PendingCounts :=
  { tracked := u.registry.entries.length
    deleted := u.deleted.length
    deferred := u.deferred.length }

/-- The collection of a type. -/
def collectionOf (u : UnitOfWork) (type : EntityType) : String :=
  type.collection.getD (u.conventions.collectionName type.name)

end UnitOfWork

/-- What the operations of a session work on. -/
structure Workspace where
  work : UnitOfWork
  shared : Shared := {}

namespace Workspace

/-- A workspace in which nothing is tracked. -/
def new (conventions : Conventions) : Workspace :=
  { work := { conventions } }

/-- Forget a record, if there is one. -/
def removeRecord (w : Workspace) (key : RecordKey) : Option Record × Workspace :=
  match w.work.records.find? key with
  | none => (none, w)
  | some r => (some r, { work := w.work.withoutRecord key r, shared := w.shared.release r })

/-- Note that the server has no document of an identifier. -/
def markMissing (w : Workspace) (id : String) : Workspace :=
  { w with work := { w.work with missing := w.work.missing.insert id } }

/-- Forget every record, every waiting command and every missing document. -/
def clear (w : Workspace) : Workspace :=
  { work :=
      { w.work with
        records := []
        identities := {}
        registry := {}
        missing := {}
        deleted := []
        deferred := [] }
    shared := w.work.records.foldl (fun s entry => s.release entry.2) w.shared }

end Workspace

end DocumentSession
