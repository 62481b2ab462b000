import DocumentSession.Workspace.Store
import DocumentSession.Session.Basic

set_option autoImplicit false

/-! # Storing and deleting in a session

These operations send nothing: they only say what the next save does. -/

namespace DocumentSession.OpenSession

/-- Store an instance under its own identifier or, if it has none, under one that the server
gives. -/
def store (s : OpenSession) (entity : EntityRef) : Except Error String × OpenSession :=
  s.locally (·.store entity none none .auto)

/-- Store an instance under an identifier. -/
def storeUnder (s : OpenSession) (entity : EntityRef) (id : String) :
    Except Error String × OpenSession :=
  s.locally (·.store entity (some id) none .auto)

/-- Store an instance over a certain version of its document, or over any version. -/
def storeOver (s : OpenSession) (entity : EntityRef) (id : String) (version : Option String) :
    Except Error String × OpenSession :=
  s.locally (·.store entity (some id) version (if version.isSome then .forced else .disabled))

/-- Delete the document of an instance. -/
def delete (s : OpenSession) (entity : EntityRef) : Except Error Unit × OpenSession :=
  s.locally (·.delete entity)

/-- Delete the document of an identifier, if it is at a version where one is given. -/
def deleteId (s : OpenSession) (id : String) (version : Option String) :
    Except Error Unit × OpenSession :=
  s.locally (·.deleteId id version)

/-- Let commands wait for the next save. -/
def defer (s : OpenSession) (commands : List Command) : Except Error Unit × OpenSession :=
  s.locally (·.defer commands)

/-- Leave the changes of an instance alone. -/
def ignoreChanges (s : OpenSession) (entity : EntityRef) : Except Error Unit × OpenSession :=
  s.locally (·.ignoreChanges entity)

/-- Track an instance no longer. -/
def evict (s : OpenSession) (entity : EntityRef) : OpenSession :=
  s.withWorkspace (s.workspace.evict entity)

/-- The metadata of an instance as a dictionary, which the caller holds from now on. -/
def metadataOf (s : OpenSession) (entity : EntityRef) :
    Except Error Metadata.NodeId × OpenSession :=
  s.locally (·.metadataOf entity)

/-- Change how many requests the session may send. -/
def setMaxRequests (s : OpenSession) (max : Nat) : OpenSession :=
  { s with session := { s.session with budget := s.session.budget.setMax max } }

end DocumentSession.OpenSession
