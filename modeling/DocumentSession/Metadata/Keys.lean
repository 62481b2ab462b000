import DocumentSession.Json.Basic

set_option autoImplicit false

/-! # Metadata keys

A stored document is a body with a member `@metadata`, an object of its own. The keys that begin
with `@` belong to the server. -/

namespace DocumentSession.Metadata

/-- The member of a document that holds its metadata. -/
def key : String := "@metadata"

/-- The collection of a document. -/
def collectionKey : String := "@collection"

/-- The identifier of a document. -/
def idKey : String := "@id"

/-- The version of a document. -/
def changeVectorKey : String := "@change-vector"

/-- The time of the last write of a document. -/
def lastModifiedKey : String := "@last-modified"

/-- The mark of a result that is no whole document. -/
def projectionKey : String := "@projection"

/-- All keys that belong to the server. -/
def reservedKeys : List String :=
  [collectionKey, idKey, changeVectorKey, lastModifiedKey, "@flags", "@expires",
   "@nested-object-types", key, projectionKey, "@counters", "@attachments"]

/-- Whether a key belongs to the server. -/
def isReserved (k : String) : Bool :=
  reservedKeys.contains k

/-- A document as its body and its metadata; metadata that is no object counts as empty. -/
def split (document : Fields) : Fields × Fields :=
  (Keyed.erase document key, ((Keyed.find? document key).bind Json.fields?).getD [])

end DocumentSession.Metadata
