import DocumentSession.Session.Connection
import DocumentSession.Change
import DocumentSession.Budget
import DocumentSession.Read.Query
import DocumentSession.Read.MultiGet
import DocumentSession.Workspace.Save

set_option autoImplicit false

/-! # Answers of a script

Values in the JSON form in which a script reports them. -/

namespace DocumentSession.Script

/-- The answer of a call that gives nothing. -/
def done : Json := .str "ok"

/-- An array of natural numbers. -/
def showNats (ns : List Nat) : Json :=
  .arr (ns.map Json.nat)

/-- A natural number, or null. -/
def showNat? (n : Option Nat) : Json :=
  n.elim .null Json.nat

/-- A member that stands only where there is a value. -/
def memberIf (key : String) (v : Option Json) : List (String × Json) :=
  v.elim [] (fun v => [(key, v)])

/-- A member that stands only where there are items. -/
def itemsIf (key : String) (vs : List Json) : List (String × Json) :=
  if vs.isEmpty then [] else [(key, .arr vs)]

/-! ## Errors -/

/-- The name of a kind of collision. -/
def conflictName : ConflictKind → String
  | .nonUniqueInstance => "NonUniqueInstance"
  | .alreadyTrackedUnderOtherId => "AlreadyTrackedUnderOtherId"
  | .storeAfterDelete => "StoreAfterDelete"

/-- The name of a kind of error in a query. -/
def queryErrorName : QueryErrorKind → String
  | .unbalancedClause => "UnbalancedClause"
  | .misplacedOperator => "MisplacedOperator"
  | .misplacedModifier => "MisplacedModifier"
  | .invalidModifierValue => "InvalidModifierValue"
  | .rawQuery => "RawQuery"
  | .invalidParameter => "InvalidParameter"
  | .invalidUsage => "InvalidUsage"

/-- The name of the family of an error. -/
def errorName : Error → String
  | .identityConflict .. => "IdentityConflict"
  | .protocol .. => "Protocol"
  | .concurrency .. => "Concurrency"
  | .query .. => "QueryBuilder"
  | .budgetExceeded _ => "RequestBudgetExceeded"
  | .invalidOperation _ => "InvalidOperation"
  | .server .. => "Server"
  | .serialization _ => "Serde"
  | .cancelled => "Cancelled"
  | .custom _ => "Custom"

/-- What an error tells beside its text. -/
def errorMembers : Error → List (String × Json)
  | .identityConflict kind id _ => [("kind", .str (conflictName kind)), ("id", .str id)]
  | .protocol _ raw => [("raw", raw.getD .null)]
  | .concurrency id expected actual _ =>
    [("id", .ofStr? id), ("expected", .ofStr? expected), ("actual", .ofStr? actual)]
  | .query kind _ => [("kind", .str (queryErrorName kind))]
  | .budgetExceeded max => [("max", .nat max)]
  | .server status _ _ => [("status", .nat status)]
  | _ => []

/-- Whether the text of an error is reported. What is wrong with a value that cannot be read or
written is told only of entities as a whole. -/
def tellsText : Error → Bool
  | .serialization text => text.startsWith "Entity of type"
  | _ => true

/-- An error. -/
def showError (e : Error) : Json :=
  Json.object (
    [("error", .str (errorName e))]
    ++ (if tellsText e then [("message", .str e.message)] else [])
    ++ errorMembers e)

/-- How an operation ended without an answer. -/
def showHalt : Halt → Json
  | .failed e => showError e
  | .cancelled reason => Json.object [("error", .str "OutcomeCancelled"), ("message", .str reason)]
  | .panicked text => Json.object [("error", .str "OutcomePanicked"), ("message", .str text)]

/-- A value, or the error in its place. -/
def showOr {α : Type} (shown : α → Json) : Except Error α → Json
  | .ok a => shown a
  | .error e => showError e

/-- The outcome of a call that gives nothing. -/
def showDone {α : Type} (outcome : Except Error α) : Json :=
  showOr (fun _ => done) outcome

/-! ## Requests -/

/-- Headers. -/
def showHeaders (headers : Dict String) : Json :=
  .obj (headers.mapValues .str)

/-- A request. -/
def showRequest (r : Request) : Json :=
  Json.object (
    [("method", .str r.method.name), ("url", .str r.url)]
    ++ memberIf "headers" (if r.headers = [] then none else some (showHeaders r.headers))
    ++ memberIf "body" r.body)

/-- A response that is part of a multi-get. -/
def showSubResponse (r : SubResponse) : Json :=
  Json.object
    [("result", r.result.getD .null), ("status", .nat r.status),
     ("headers", showHeaders r.headers), ("force_retry", .bool r.forceRetry),
     ("success", .bool r.isSuccess), ("not_modified", .bool r.isNotModified),
     ("etag", .ofStr? (r.header "etag")), ("error_of", showError r.toError)]

/-- What is cached of a URL. -/
def showCached (c : Option Cached) : Json :=
  c.elim .null fun c => Json.object [("cv", .str c.changeVector), ("body", c.body)]

/-- A summary of requests. -/
def showStats (s : RequestStats) : Json :=
  Json.object
    [("total", .nat s.total), ("operations", .nat s.operations), ("busiest", .ofStr? s.busiest)]

/-! ## Documents -/

/-- Some documents. -/
def showDocuments (ds : List Fields) : Json :=
  .arr (ds.map .obj)

/-- An answer to a load. -/
def showLoadReply (r : LoadReply) : Json :=
  Json.object
    [("results", .arr (r.results.map (fun d => d.elim .null .obj))),
     ("includes", showDocuments r.includes)]

/-- An answer to a query. -/
def showQueryReply (r : QueryReply) : Json :=
  Json.object
    [("results", .arr r.results), ("includes", showDocuments r.includes), ("total", .nat r.total),
     ("stale", .bool r.stale), ("index", .ofStr? r.index)]

/-- The name of a kind of change. -/
def changeName : Change.Kind → String
  | .documentAdded => "DocumentAdded"
  | .documentDeleted => "DocumentDeleted"
  | .fieldChanged => "FieldChanged"
  | .newField => "NewField"
  | .removedField => "RemovedField"
  | .arrayValueChanged => "ArrayValueChanged"
  | .arrayValueAdded => "ArrayValueAdded"
  | .arrayValueRemoved => "ArrayValueRemoved"

/-- A change. -/
def showChange (c : Change) : Json :=
  Json.object (
    [("change", .str (changeName c.kind)), ("name", .str c.name), ("path", .str c.path),
     ("full", .str c.fullPath)]
    ++ memberIf "old" c.old ++ memberIf "new" c.new)

/-- Some changes. -/
def showChanges (changes : List Change) : Json :=
  .arr (changes.map showChange)

/-! ## Saves -/

/-- How many commands of each kind there are. -/
def showCounts (commands : List Command) : Json :=
  showNats ([.put, .delete, .patch].map (Command.countOf · commands))

/-- Where a planned command comes from. -/
def showOrigin : Origin → Json
  | .put key body metadata =>
    Json.object [("put", .nat key), ("body", .obj body), ("metadata", .obj metadata)]
  | .delete key => Json.object [("delete", .nat key)]
  | .deferred => .str "deferred"

/-- A planned save. -/
def showPlan (p : Plan) : Json :=
  Json.object
    [("body", p.body), ("origins", .arr (p.map (fun planned => showOrigin planned.origin))),
     ("counts", showCounts p.commands), ("len", .nat p.length), ("empty", .bool p.isEmpty)]

end DocumentSession.Script
