import DocumentSession.Callbacks
import DocumentSession.Session.Basic

set_option autoImplicit false

/-! # Rules

A rule is a callback in the form of data: which documents it is for, what it puts into their
metadata and entities, and whether it refuses them. It leaves a note each time it is called. -/

namespace DocumentSession

/-- An edit of entities of one type. -/
structure EntityEdit where
  type : EntityType
  set : Fields := []
  unset : List String := []

/-- A rule. -/
structure Rule where
  /-- The identifier of the only document it is for, if it is not for all of them. -/
  only : Option String := none
  /-- What it sets in the metadata of a document about to be written. -/
  metadata : Fields := []
  /-- How it edits an entity; entities of other types are noted. -/
  edit : Option EntityEdit := none
  /-- The calls that it makes on a query. -/
  calls : List Query.Call := []
  /-- The error with which it refuses, if it does. -/
  refusal : Option Error := none

namespace Rule

/-- Whether a rule is for a document. -/
def concerns (r : Rule) (id : String) : Bool :=
  r.only.all (· = id)

/-- Refuse or agree. -/
def verdict (r : Rule) : Except Error Unit :=
  r.refusal.elim (.ok ()) .error

/-- Edit an entity, if it is of the type that the rule edits. -/
def editEntity (r : Rule) (id : String) (entity : Option EntityRef) (s : Shared) : Verdict :=
  match r.edit with
  | none => (.ok (), s)
  | some edit =>
    match entity.filter (fun e => (s.entity e).type.name = edit.type.name) with
    | none => (.ok (), s.note { label := "other type", subject := .ok id })
    | some e =>
      match (s.entity e).edit edit.set edit.unset with
      | .error error => (.error error, s)
      | .ok edited => (.ok (), s.setEntity e edited)

/-- Edit an entity, then refuse or agree. -/
def settle (r : Rule) (id : String) (entity : Option EntityRef) (s : Shared) : Verdict :=
  match r.editEntity id entity s with
  | (.ok (), s) => (r.verdict, s)
  | refused => refused

/-- The rule as a callback before an entity is written. -/
def beforeStore (r : Rule) (event : StoreEvent) (s : Shared) : Verdict :=
  let s := s.note { label := "before_store", subject := .ok event.id }
  if r.concerns event.id then
    let dictionaries :=
      r.metadata.foldl (fun f entry => f.set event.metadata entry.1 entry.2) s.dictionaries
    r.settle event.id (some event.entity) { s with dictionaries }
  else (.ok (), s)

/-- The rule as a callback after an entity was saved. -/
def afterSave (r : Rule) (event : SaveEvent) (s : Shared) : Verdict :=
  let s := s.note { label := "after_save", subject := .ok event.id }
  if r.concerns event.id then r.settle event.id event.entity s else (.ok (), s)

/-- The rule as a callback before a document is deleted. -/
def beforeDelete (r : Rule) (id : String) (s : Shared) : Verdict :=
  let s := s.note { label := "before_delete", subject := .ok id }
  (if r.concerns id then r.verdict else .ok (), s)

/-- The rule as a callback before a query is sent. -/
def beforeQuery (r : Rule) (q : Query) (s : Shared) : Option Error × Query × Shared :=
  let s := s.note { label := "before_query", subject := q.text }
  let (refused, q) := q.callAll r.calls
  (refused.or r.refusal, q, s)

end Rule

/-! ## Registering -/

namespace Callbacks

/-- Call a rule before each entity is written. -/
def onStore (c : Callbacks) (r : Rule) : Callbacks :=
  { c with beforeStore := c.beforeStore ++ [r.beforeStore] }

/-- Call a rule after each entity was saved. -/
def onSave (c : Callbacks) (r : Rule) : Callbacks :=
  { c with afterSave := c.afterSave ++ [r.afterSave] }

/-- Call a rule before each document is deleted. -/
def onDelete (c : Callbacks) (r : Rule) : Callbacks :=
  { c with beforeDelete := c.beforeDelete ++ [r.beforeDelete] }

/-- Call a rule before each query is sent. -/
def onQuery (c : Callbacks) (r : Rule) : Callbacks :=
  { c with beforeQuery := c.beforeQuery ++ [r.beforeQuery] }

end Callbacks

end DocumentSession
