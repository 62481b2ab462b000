import DocumentSession.Http
import DocumentSession.Workspace.Load

set_option autoImplicit false

/-! # Loading documents

Documents are asked for by their identifiers, in one request for several of them, and the documents
that they refer to can be asked for along with them. The answer has one place for each identifier,
with the document or without one. -/

namespace DocumentSession

/-- The request for documents, and for the documents they refer to under some paths. -/
def loadRequest (ids includes : List String) : Request :=
  { method := .get
    path := "/docs"
    query := ids.map (fun id => ("id", id)) ++ includes.map (fun path => ("include", path)) }

/-- The documents among included values, in the order of their keys. -/
def includedDocuments (included : Option Json) : List Fields :=
  ((included.bind Json.fields?).elim [] Dict.values).filterMap Json.fields?

/-- The body of an answer that has one; null is none. -/
def bodyOrNone (body : Option Json) : Option Json :=
  body.filter (· ≠ .null)

/-- An answer to a load. -/
structure LoadReply where
  /-- The document of each identifier that was asked for, if there is one. -/
  results : List (Option Fields)
  includes : List Fields
  deriving DecidableEq

namespace LoadReply

/-- Read the answer to a load of some number of documents. -/
def ofBody (body : Option Json) (expected : Nat) : Except Error LoadReply :=
  match bodyOrNone body with
  | none => .error (.protocol "Got null response to a load request" none)
  | some body =>
    match (body.get? "Results").bind Json.items? with
    | none => .error (.protocol "Load response is missing 'Results'" (some body))
    | some results =>
      if results.length ≠ expected then
        .error (.protocol
          ("Requested " ++ toString expected ++ " documents but the server returned "
            ++ toString results.length ++ " results") none)
      else
        .ok {
          results := results.map Json.fields?
          includes := includedDocuments (body.get? "Includes") }

end LoadReply

namespace Workspace

/-- Register the documents of identifiers, and note which identifiers have none. -/
def takeDocuments (w : Workspace) :
    List String → List (Option Fields) → Except Error Unit × Workspace
  | id :: ids, result :: results =>
    match result with
    | none => takeDocuments (w.markMissing id) ids results
    | some document =>
      match w.register document with
      | (.error e, w) => (.error e, w)
      | (.ok _, w) => takeDocuments w ids results
  | _, _ => (.ok (), w)

/-- Take in the answer to a load: first the included documents, then those asked for. -/
def takeLoad (w : Workspace) (ids : List String) (reply : LoadReply) :
    Except Error Unit × Workspace :=
  match w.registerAll reply.includes with
  | (.error e, w) => (.error e, w)
  | (.ok (), w) => w.takeDocuments ids reply.results

/-- Note that some identifiers have no document. -/
def markAllMissing (w : Workspace) (ids : List String) : Workspace :=
  ids.foldl markMissing w

/-- The identifiers that the server has to be asked for. -/
def unknownIds (w : Workspace) (type : EntityType) :
    List String → Except Error (List String) × Workspace
  | [] => (.ok [], w)
  | id :: rest =>
    match w.lookup type id with
    | (.error e, w) => (.error e, w)
    | (.ok known, w) =>
      match unknownIds w type rest with
      | (.ok ids, w) => (.ok (if known = .unknown then id :: ids else ids), w)
      | failed => failed

/-- Add what is known of some identifiers; nothing known counts as no document. -/
def collect (w : Workspace) (type : EntityType) (found : Dict (Option EntityRef)) :
    List String → Except Error (Dict (Option EntityRef)) × Workspace
  | [] => (.ok found, w)
  | id :: rest =>
    match w.lookup type id with
    | (.error e, w) => (.error e, w)
    | (.ok (.known entity), w) => collect w type (found.insert id entity) rest
    | (.ok .unknown, w) => collect w type (found.insert id none) rest

end Workspace

end DocumentSession
