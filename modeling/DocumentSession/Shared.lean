import DocumentSession.Record
import DocumentSession.Warning

set_option autoImplicit false

/-! # What sessions share with their callers

The entity instances and metadata dictionaries that a caller holds are the very ones that its
sessions work with, so both stand in one place, `Shared`, beside what sessions and callbacks report.
An instance is known by its number. -/

namespace DocumentSession

/-- What a callback reports: what it saw, and the text that goes with it. -/
structure Note where
  label : String
  subject : Except Error String

/-- What sessions share with their callers. -/
structure Shared where
  entities : List Entity := []
  dictionaries : Metadata.Forest := {}
  notes : List Note := []
  warnings : List Warning := []

namespace Shared

/-! ## Instances -/

/-- A new instance. -/
def addEntity (s : Shared) (e : Entity) : EntityRef × Shared :=
  (s.entities.length, { s with entities := s.entities ++ [e] })

/-- The state of an instance; one that was never made has none. -/
def entity (s : Shared) (ref : EntityRef) : Entity :=
  (s.entities[ref]?).getD default

/-- Put another state into an instance. -/
def setEntity (s : Shared) (ref : EntityRef) (e : Entity) : Shared :=
  { s with entities := s.entities.set ref e }

/-- Put an identifier into an instance. -/
def setId (s : Shared) (ref : EntityRef) (id : String) : Shared :=
  s.setEntity ref ((s.entity ref).setId id)

/-! ## Reports -/

/-- Give a warning. -/
def warn (s : Shared) (w : Warning) : Shared :=
  { s with warnings := s.warnings ++ [w] }

/-- Leave a note. -/
def note (s : Shared) (n : Note) : Shared :=
  { s with notes := s.notes ++ [n] }

/-! ## Dictionaries -/

/-- Let a record go. -/
def release (s : Shared) (r : Record) : Shared :=
  { s with dictionaries := r.releaseDictionary s.dictionaries }

end Shared

end DocumentSession
