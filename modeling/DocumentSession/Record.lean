import DocumentSession.Index
import DocumentSession.Entity.Basic
import DocumentSession.Change
import DocumentSession.Metadata.Forest

set_option autoImplicit false

/-! # Records

A record is what a session knows of one document: its identifier and version, the metadata and body
it last had on the server, and the instance that was made from it or will be stored as it. Edits of
metadata go through a dictionary, which a record makes when it is first asked for it. -/

namespace DocumentSession

/-- When a write carries the version it is based on. -/
inductive VersionCheck where
  /-- As the conventions say. -/
  | auto
  /-- Always, for a version was given when the entity was stored. -/
  | forced
  /-- Never. -/
  | disabled
  deriving DecidableEq, Repr

/-- A record of a document. -/
structure Record where
  /-- The identifier, as it was first written. -/
  id : String
  changeVector : Option String := none
  /-- The metadata last known. -/
  metadata : Fields
  /-- The dictionary through which the metadata is edited, once it was asked for. -/
  dictionary : Option Metadata.NodeId := none
  /-- The body last known, without metadata. -/
  body : Option Fields := none
  entity : Option EntityRef := none
  /-- Whether the document was never saved. -/
  isNew : Bool := false
  /-- Whether changes of the entity are left alone. -/
  ignoreChanges : Bool := false
  check : VersionCheck := .auto
  deriving DecidableEq

namespace Record

/-- The change vector in some metadata. -/
def changeVectorOf (metadata : Fields) : Option String :=
  (Keyed.find? metadata Metadata.changeVectorKey).bind Json.str?

/-- The record of a document that the server sent. -/
def loaded (id : String) (body metadata : Fields) : Record :=
  { id, changeVector := changeVectorOf metadata, metadata, body := some body }

/-- The record of an entity that was not saved yet. -/
def ofEntity (id : String) (entity : EntityRef) (metadata : Fields) (changeVector : Option String)
    (check : VersionCheck) : Record :=
  { id, changeVector, metadata, entity := some entity, isNew := true, check }

/-- Let a record go: it no longer holds its dictionary. -/
def releaseDictionary (r : Record) (forest : Metadata.Forest) : Metadata.Forest :=
  r.dictionary.elim forest forest.release

/-- The dictionary of a record, made from the metadata last known when it is first asked for. -/
def openDictionary (r : Record) (forest : Metadata.Forest) :
    Metadata.NodeId × Record × Metadata.Forest :=
  match r.dictionary with
  | some n => (n, r, forest)
  | none =>
    let (n, forest) := forest.create r.metadata
    (n, { r with dictionary := some n }, forest)

/-- Whether the metadata was edited. -/
def isMetadataDirty (r : Record) (forest : Metadata.Forest) : Bool :=
  r.dictionary.any forest.isDirty

/-- The metadata to send: what was last known, and over it what the dictionary holds. -/
def mergedMetadata (r : Record) (forest : Metadata.Forest) : Fields :=
  r.dictionary.elim r.metadata (fun n => Dict.overlay r.metadata (forest.content n))

/-- A record with the metadata that the server has now; its dictionary is given up. -/
def withMetadata (r : Record) (metadata : Fields) : Record :=
  { r with
    changeVector := (changeVectorOf metadata).or r.changeVector
    metadata
    dictionary := none }

/-- A record whose document the server sent again. -/
def refreshed (r : Record) (body metadata : Fields) : Record :=
  { r.withMetadata metadata with body := some body }

/-- A record whose entity was saved under an identifier. -/
def saved (r : Record) (id : String) (body metadata : Fields) : Record :=
  { r.withMetadata metadata with id, body := some body, isNew := false }

/-- A record whose document was written by a command. -/
def overwritten (r : Record) (metadata : Fields) : Record :=
  { r.withMetadata metadata with isNew := false }

/-- A record of a document that is at a version now, if that is known. -/
def atVersion (r : Record) (version : Option String) : Record :=
  { r with changeVector := version.or r.changeVector }

/-- A record of the document that a script made; without metadata what was known of them stays. -/
def scripted (r : Record) (body metadata : Fields) : Record :=
  { (if metadata = [] then r else r.withMetadata metadata) with body := some body }

/-- Whether a body differs from the one last known. -/
def bodyDiffers (r : Record) (current : Fields) : Bool :=
  r.body.all (fun old => Change.any old current)

end Record

end DocumentSession
