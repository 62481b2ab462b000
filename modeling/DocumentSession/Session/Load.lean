import DocumentSession.Workspace.Store
import DocumentSession.Session.Basic

set_option autoImplicit false

/-! # Loading in a session

A load asks the server only for identifiers of which the session knows nothing, for all of them in
one request. A session without tracking knows nothing at all, and forgets the instances it gives. -/

namespace DocumentSession.OpenSession

/-- The operation that loads are counted under. -/
def loadOperation : String := "load"

/-- Ask the server for documents and take them in. -/
def fetch (s : OpenSession) (ids includes : List String) : Except Halt Unit × OpenSession :=
  match s.send loadOperation (loadRequest ids includes) with
  | (.error h, s) => (.error h, s)
  | (.ok response, s) =>
    if response.isNotFound then (.ok (), s.withWorkspace (s.workspace.markAllMissing ids))
    else if !response.isSuccess then (.error (.failed response.toError), s)
    else
      match LoadReply.ofBody response.body ids.length with
      | .error e => (.error (.failed e), s)
      | .ok reply => s.attempt (·.takeLoad ids reply)

/-- Load documents into a session that tracks them. -/
def loadTracked (s : OpenSession) (type : EntityType) (ids includes : List String) :
    Except Halt (Dict (Option EntityRef)) × OpenSession :=
  match s.attempt (·.unknownIds type ids) with
  | (.error h, s) => (.error h, s)
  | (.ok unknown, s) =>
    let (fetched, s) := if unknown = [] then (.ok (), s) else s.fetch unknown.eraseDups includes
    match fetched with
    | .error h => (.error h, s)
    | .ok () => s.attempt (·.collect type [] ids)

/-- Instances of the documents of identifiers, which are not tracked. -/
def makeDetached (w : Workspace) (type : EntityType) (found : Dict (Option EntityRef)) :
    List String → List (Option Fields) → Except Error (Dict (Option EntityRef)) × Workspace
  | id :: ids, none :: results => makeDetached w type (found.insert id none) ids results
  | id :: ids, some document :: results =>
    match w.detached type document with
    | (.error e, w) => (.error e, w)
    | (.ok entity, w) => makeDetached w type (found.insert id (some entity)) ids results
  | _, _ => (.ok found, w)

/-- Load documents into a session that tracks nothing. -/
def loadDetached (s : OpenSession) (type : EntityType) (ids includes : List String) :
    Except Halt (Dict (Option EntityRef)) × OpenSession :=
  match s.send loadOperation (loadRequest ids includes) with
  | (.error h, s) => (.error h, s)
  | (.ok response, s) =>
    if response.isNotFound then (.ok (Dict.ofList (ids.map (·, none))), s)
    else if !response.isSuccess then (.error (.failed response.toError), s)
    else
      match LoadReply.ofBody response.body ids.length with
      | .error e => (.error (.failed e), s)
      | .ok reply => s.attempt (makeDetached · type [] ids reply.results)

/-- Load documents, and with them those that they refer to under some paths. -/
def loadMany (s : OpenSession) (type : EntityType) (ids includes : List String) :
    Except Halt (Dict (Option EntityRef)) × OpenSession :=
  if ids.contains "" then (.error (.failed Workspace.emptyId), s)
  else if s.session.work.noTracking then s.loadDetached type ids includes
  else s.loadTracked type ids includes

/-- Load one document. -/
def load (s : OpenSession) (type : EntityType) (id : String) (includes : List String) :
    Except Halt (Option EntityRef) × OpenSession :=
  let (found, s) := s.loadMany type [id] includes
  (found.map (fun found => (found.find? id).join), s)

end DocumentSession.OpenSession
