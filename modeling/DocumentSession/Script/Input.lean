import DocumentSession.Script.Argument
import DocumentSession.Conventions
import DocumentSession.Command
import DocumentSession.Read.MultiGet
import DocumentSession.Query.Frozen

set_option autoImplicit false

/-! # Inputs of a script

The values that a script works on, read from their JSON form. -/

namespace DocumentSession.Script

/-- A method of requests. -/
def readMethod : String → Method
  | "POST" => .post
  | "PUT" => .put
  | "PATCH" => .patch
  | "DELETE" => .delete
  | _ => .get

/-- A connective. -/
def readConnective : String → Connective
  | "Or" => .or
  | _ => .and

/-- Conventions; what is not given stays as usual. -/
def readConventions (v : Json) : Conventions :=
  let usual : Conventions := {}
  { maxRequests := natOr v "max_requests" usual.maxRequests
    optimistic := flag v "optimistic"
    separator := (char? v "separator").getD usual.separator
    identityProperty := (v.getStr? "identity_property").getD usual.identityProperty
    connective := ((v.getStr? "operator").map readConnective).getD usual.connective
    typeKey := (v.getStr? "type_key").getD usual.typeKey
    collectionOf := (v.getStr? "collection_prefix").map (fun start name => start ++ name) }

/-- A request. -/
def readRequest (v : Json) : Request :=
  { method := readMethod (text v "method")
    path := text v "path"
    query := (items v "query").map fun pair =>
      let parts := pair.items?.getD []
      (argText parts 0, argText parts 1)
    headers := texts v "headers"
    body := v.get? "body" }

/-- A response, given as the body of a success or with all its parts. -/
def readResponse (v : Json) : Response :=
  match v.get? "ok" with
  | some body => .ok body
  | none => { status := natOr v "status" 0, headers := texts v "headers", body := v.get? "body" }

/-- A response that is part of a multi-get. -/
def readSubResponse (v : Json) : SubResponse :=
  { result := v.get? "result"
    status := natOr v "status" 200
    headers := texts v "headers"
    forceRetry := flag v "force_retry" }

/-- A command. -/
def readCommand (v : Json) : Command :=
  { id := text v "id"
    changeVector := v.getStr? "cv"
    action := match v.getStr? "type" with
      | some "PUT" => .put (fields v "document")
      | some "PATCH" => .patch (text v "script") (fields v "values")
      | _ => .delete }

/-- A frozen query. -/
def readFrozen (v : Json) : Query.Frozen :=
  { text := text v "query"
    parameters := fields v "parameters"
    start := (v.get? "start").bind Json.nat?
    pageSize := (v.get? "page_size").bind Json.nat?
    waitForNonStaleResults := flag v "wait"
    skipDuplicateChecking := flag v "skip_duplicates"
    disableCaching := flag v "disable_caching" }

/-- How an entity collides. -/
def readConflictKind : String → ConflictKind
  | "AlreadyTrackedUnderOtherId" => .alreadyTrackedUnderOtherId
  | "StoreAfterDelete" => .storeAfterDelete
  | _ => .nonUniqueInstance

/-- How a query goes wrong. -/
def readQueryErrorKind : String → QueryErrorKind
  | "UnbalancedClause" => .unbalancedClause
  | "MisplacedOperator" => .misplacedOperator
  | "MisplacedModifier" => .misplacedModifier
  | "InvalidModifierValue" => .invalidModifierValue
  | "RawQuery" => .rawQuery
  | "InvalidParameter" => .invalidParameter
  | _ => .invalidUsage

/-- An error. -/
def readError (v : Json) : Error :=
  let message := text v "message"
  match text v "variant" with
  | "IdentityConflict" => .identityConflict (readConflictKind (text v "kind")) (text v "id") message
  | "Protocol" => .protocol message (member v "raw")
  | "Concurrency" =>
    .concurrency (v.getStr? "id") (v.getStr? "expected") (v.getStr? "actual") message
  | "QueryBuilder" => .query (readQueryErrorKind (text v "kind")) message
  | "RequestBudgetExceeded" => .budgetExceeded (natOr v "max" 0)
  | "InvalidOperation" => .invalidOperation message
  | "Server" => .server (natOr v "status" 0) message (v.getStr? "source")
  | "Serde" => .serialization message
  | "Cancelled" => .cancelled
  | _ => .custom message

end DocumentSession.Script
