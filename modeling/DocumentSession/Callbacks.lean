import DocumentSession.Shared
import DocumentSession.Query.Call

set_option autoImplicit false

/-! # Callbacks

A caller can have functions called before an entity is written, after it was saved, before a
document is deleted, and before a query is sent. A callback may work on what the session shares with
its caller, and may refuse; the first refusal ends the round. -/

namespace DocumentSession

/-- An entity that is about to be written. -/
structure StoreEvent where
  id : String
  /-- The metadata that is sent with it, open for edits. -/
  metadata : Metadata.NodeId
  entity : EntityRef

/-- An entity that was saved. -/
structure SaveEvent where
  id : String
  entity : Option EntityRef

/-- What a callback gives back: whether it agrees, and what it made of the shared state. -/
abbrev Verdict := Except Error Unit × Shared

/-- The callbacks of a session, in the order in which they were registered. -/
structure Callbacks where
  beforeStore : List (StoreEvent → Shared → Verdict) := []
  afterSave : List (SaveEvent → Shared → Verdict) := []
  beforeDelete : List (String → Shared → Verdict) := []
  beforeQuery : List (Query → Shared → Option Error × Query × Shared) := []

namespace Callbacks

/-- Call each in turn until one refuses. -/
def callEach {Event : Type} (event : Event) : List (Event → Shared → Verdict) → Shared → Verdict
  | [], s => (.ok (), s)
  | callback :: rest, s =>
    match callback event s with
    | (.ok (), s) => callEach event rest s
    | refused => refused

/-- Let each work on a query in turn until one refuses. -/
def callEachOnQuery : List (Query → Shared → Option Error × Query × Shared) → Query → Shared →
    Option Error × Query × Shared
  | [], q, s => (none, q, s)
  | callback :: rest, q, s =>
    match callback q s with
    | (none, q, s) => callEachOnQuery rest q s
    | refused => refused

end Callbacks

end DocumentSession
