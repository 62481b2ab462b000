import DocumentSession.Read.Load
import DocumentSession.Query.Frozen

set_option autoImplicit false

/-! # Running queries

A query is sent with its hash in the URL. The answer holds the documents that were found, or parts
of documents, which are never tracked. -/

namespace DocumentSession

/-- The request for a query. -/
def queryRequest (q : Query.Frozen) : Request :=
  { method := .post
    path := "/queries"
    query := [("queryHash", q.hash)]
    body := some q.toJson }

/-- What a query found. -/
structure QueryResult where
  results : List EntityRef
  /-- How many documents there are, whether or not all of them were asked for. -/
  total : Nat
  /-- Whether the index was not up to date. -/
  stale : Bool
  index : Option String
  deriving DecidableEq, Repr

/-- An answer to a query. -/
structure QueryReply where
  results : List Json
  includes : List Fields
  total : Nat
  stale : Bool
  index : Option String
  deriving DecidableEq

namespace QueryReply

/-- Read the answer to a query. -/
def ofBody (body : Option Json) : Except Error QueryReply :=
  match bodyOrNone body with
  | none => .error (.protocol "Got null response to a query" none)
  | some body =>
    match (body.get? "Results").bind Json.items? with
    | none => .error (.protocol "Query response is missing 'Results'" (some body))
    | some results =>
      .ok {
        results
        includes := includedDocuments (body.get? "Includes")
        total := ((body.get? "TotalResults").bind Json.nat?).getD results.length
        stale := ((body.get? "IsStale").bind Json.bool?).getD false
        index := body.getStr? "IndexName" }

/-- A member of the metadata of a result. -/
def metadataMember (document : Fields) (key : String) : Option Json :=
  (Keyed.find? document Metadata.key).bind (·.get? key)

/-- Whether a result is a whole document that says which one it is. -/
def isDocument (document : Fields) : Bool :=
  !((metadataMember document Metadata.projectionKey).bind Json.bool?).getD false
    && ((metadataMember document Metadata.idKey).bind Json.str?).isSome

end QueryReply

namespace Workspace

/-- The instances of results: tracked ones for documents, if results are tracked, and detached ones
for all else. What is no object is passed over. -/
def takeResults (w : Workspace) (type : EntityType) (tracking : Bool) :
    List Json → Except Error (List EntityRef) × Workspace
  | [] => (.ok [], w)
  | .obj document :: rest =>
    let made :=
      if tracking && QueryReply.isDocument document then w.trackDocument type document
      else w.detached type document
    match made with
    | (.error e, w) => (.error e, w)
    | (.ok entity, w) =>
      match takeResults w type tracking rest with
      | (.ok entities, w) => (.ok (entity :: entities), w)
      | failed => failed
  | _ :: rest => takeResults w type tracking rest

/-- Take in the answer to a query. -/
def takeQuery (w : Workspace) (type : EntityType) (tracking : Bool) (reply : QueryReply) :
    Except Error QueryResult × Workspace :=
  match w.registerAll (if tracking then reply.includes else []) with
  | (.error e, w) => (.error e, w)
  | (.ok (), w) =>
    match w.takeResults type tracking reply.results with
    | (.error e, w) => (.error e, w)
    | (.ok results, w) =>
      (.ok { results, total := reply.total, stale := reply.stale, index := reply.index }, w)

end Workspace

end DocumentSession
