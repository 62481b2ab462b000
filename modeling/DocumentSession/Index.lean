import DocumentSession.Dict
import DocumentSession.Identifier

set_option autoImplicit false

/-! # Indexes of a session

Three indexes tell what a session knows of a document: which record an identifier belongs to, which
record an instance belongs to, and which identifiers have no document. Identifiers are compared
without regard to case. -/

namespace DocumentSession

/-- The number of a record. -/
abbrev RecordKey := Nat

/-- The number of an entity instance. -/
abbrev EntityRef := Nat

/-! ## Records by identifier -/

/-- The record of each identifier, under the normal form of the identifier. -/
structure IdentityMap where
  entries : Dict RecordKey := []
  deriving DecidableEq

namespace IdentityMap

/-- The record of an identifier. -/
def get? (m : IdentityMap) (id : String) : Option RecordKey :=
  m.entries.find? (Identifier.normalize id)

/-- Whether an identifier has a record. -/
def contains (m : IdentityMap) (id : String) : Bool :=
  m.entries.contains (Identifier.normalize id)

/-- Give an identifier a record. -/
def insert (m : IdentityMap) (id : String) (key : RecordKey) : IdentityMap :=
  ⟨m.entries.insert (Identifier.normalize id) key⟩

/-- Forget an identifier. -/
def remove (m : IdentityMap) (id : String) : IdentityMap :=
  ⟨m.entries.erase (Identifier.normalize id)⟩

/-- Forget every identifier of a record. -/
def removeRecord (m : IdentityMap) (key : RecordKey) : IdentityMap :=
  ⟨m.entries.filter (fun entry => entry.2 ≠ key)⟩

end IdentityMap

/-! ## Records by instance -/

/-- The record of each tracked instance. -/
structure Registry where
  entries : Table RecordKey := []
  deriving DecidableEq

namespace Registry

/-- Put a number into a list of numbers in order, before those that are not smaller. -/
def insertInOrder (key : RecordKey) : List RecordKey → List RecordKey
  | [] => [key]
  | k :: rest => if key ≤ k then key :: k :: rest else k :: insertInOrder key rest

/-- The record of an instance. -/
def get? (r : Registry) (entity : EntityRef) : Option RecordKey :=
  r.entries.find? entity

/-- Whether an instance is tracked. -/
def contains (r : Registry) (entity : EntityRef) : Bool :=
  r.entries.contains entity

/-- Give an instance a record. -/
def insert (r : Registry) (entity : EntityRef) (key : RecordKey) : Registry :=
  ⟨r.entries.insert entity key⟩

/-- Forget an instance. -/
def remove (r : Registry) (entity : EntityRef) : Registry :=
  ⟨r.entries.erase entity⟩

/-- The records of all instances, in order. -/
def records (r : Registry) : List RecordKey :=
  (r.entries.map (·.2)).foldr insertInOrder []

end Registry

/-! ## Identifiers without document -/

/-- Identifiers, in normal form, that are known to have no document. -/
structure KnownMissing where
  ids : Dict Unit := []
  deriving DecidableEq

namespace KnownMissing

/-- Whether an identifier is known to have no document. -/
def contains (m : KnownMissing) (id : String) : Bool :=
  m.ids.contains (Identifier.normalize id)

/-- Note that an identifier has no document. -/
def insert (m : KnownMissing) (id : String) : KnownMissing :=
  ⟨m.ids.insert (Identifier.normalize id) ()⟩

/-- Note that an identifier may have a document. -/
def remove (m : KnownMissing) (id : String) : KnownMissing :=
  ⟨m.ids.erase (Identifier.normalize id)⟩

end KnownMissing

end DocumentSession
