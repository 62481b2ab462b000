import DocumentSession.Session.Store
import DocumentSession.Text.Shown

set_option autoImplicit false

/-! # Descriptions

One-line descriptions of conventions, sessions and stores for those who look after a program. A
description names the fields of what it describes; where not all of them are shown, it ends in two
dots. -/

namespace DocumentSession.Describe

/-- A named thing with its fields. -/
def record (name : String) (fields : List (String × String)) (complete : Bool := true) : String :=
  let parts := fields.map (fun field => field.1 ++ ": " ++ field.2)
  let parts := if complete then parts else parts ++ [".."]
  name ++ " \x7b " ++ ", ".intercalate parts ++ " \x7d"

/-- A truth value. -/
def bool (b : Bool) : String :=
  if b then "true" else "false"

/-- A text, if there is one. -/
def optionalText : Option String → String
  | some s => "Some(" ++ Text.showText s ++ ")"
  | none => "None"

/-- The name of a connective. -/
def connective : Connective → String
  | .and => "And"
  | .or => "Or"

/-- Conventions. -/
def conventions (c : Conventions) : String :=
  record "DocumentConventions"
    [("max_requests_per_session", toString c.maxRequests),
     ("optimistic_concurrency", bool c.optimistic),
     ("identity_parts_separator", Text.showChar c.separator),
     ("identity_property", Text.showText c.identityProperty),
     ("default_query_operator", connective c.connective),
     ("rust_type_metadata_key", Text.showText c.typeKey),
     ("custom_collection_name", bool c.collectionOf.isSome)]

/-- Options of a session. -/
def options (o : SessionOptions) : String :=
  record "SessionOptions"
    [("database", optionalText o.database),
     ("no_tracking", bool o.noTracking),
     ("no_caching", bool o.noCaching)]

/-- How much waits for a save. -/
def pendingCounts (p : PendingCounts) : String :=
  record "PendingCounts"
    [("tracked", toString p.tracked),
     ("deleted", toString p.deleted),
     ("deferred", toString p.deferred)]

/-- How many callbacks there are. -/
def callbacks (c : Callbacks) : String :=
  record "SessionEventCallbacks"
    [("before_store", toString c.beforeStore.length),
     ("after_save_changes", toString c.afterSave.length),
     ("before_delete", toString c.beforeDelete.length),
     ("before_query", toString c.beforeQuery.length)]

/-- A session. -/
def session (s : Session) : String :=
  record "Session"
    [("id", toString s.id),
     ("options", options s.options),
     ("pending", pendingCounts s.work.pendingCounts),
     ("requests", toString s.budget.count),
     ("pending_lazy", toString s.pending.length),
     ("event_callbacks", callbacks s.callbacks)]
    false

/-- A store. -/
def store (d : DocumentStore) : String :=
  record "DocumentStore"
    [("database", optionalText d.database),
     ("conventions", conventions d.conventions),
     ("sessions_opened", toString d.opened)]
    false

end DocumentSession.Describe
