import DocumentSession.Workspace.Save

set_option autoImplicit false

/-! # Settling a save

The answer to a save holds one result for each command. It is checked as a whole before anything is
settled, so that a malformed answer changes nothing. Then the results are settled in turn, each
whatever became of the others; the commands that waited are done; and last the callbacks are told of
every entity that was saved. The first thing that goes wrong is what the save reports. -/

namespace DocumentSession.Workspace

/-! ## Checking the answer -/

/-- Keys that the result of a write must have. -/
def requiredKeys : List String :=
  [Metadata.idKey, Metadata.changeVectorKey]

/-- The result of one command. -/
def checkResult (command : Command) (result : Json) : Except Error Fields :=
  match result with
  | .obj fields =>
    let lacking := requiredKeys.find? (fun key => ((Keyed.find? fields key).bind Json.str?).isNone)
    match command.kind, lacking with
    | .put, some key =>
      .error (.protocol ("PUT result for '" ++ command.id ++ "' is missing '" ++ key ++ "'")
        (some result))
    | _, _ => .ok fields
  | other =>
    .error (.protocol ("Result for '" ++ command.id ++ "' is not an object") (some other))

/-- The results of some commands. -/
def checkResults : List Command → List Json → Except Error (List Fields)
  | command :: commands, result :: results => do
    let fields ← checkResult command result
    let rest ← checkResults commands results
    return fields :: rest
  | _, _ => .ok []

/-- The results in an answer, one for each command of a plan. -/
def resultsFor (plan : Plan) (answer : Option Json) : Except Error (List Fields) :=
  match answer.filter (· ≠ .null) with
  | none => .error (.protocol "Got null response from the server after a batch request" none)
  | some body =>
    match (body.get? "Results").bind Json.items? with
    | none => .error (.protocol "Batch response is missing 'Results'" (some body))
    | some results =>
      if results.length ≠ plan.length then
        .error (.protocol
          ("Batch sent " ++ toString plan.length ++ " commands but the server returned "
            ++ toString results.length ++ " results") none)
      else checkResults plan.commands results

/-! ## Settling results -/

/-- Metadata with what a result says of it; the kind of the command is no part of that. -/
def overlayResult (metadata result : Fields) : Fields :=
  Dict.overlay metadata (Keyed.erase result "Type")

/-- The server stored a document under an identifier of another tracked one. -/
def replacedDocument (id : String) : Error :=
  .identityConflict .nonUniqueInstance id
    ("The server stored a new document under an id the session already tracked; "
      ++ "the previously tracked document is no longer tracked")

/-- Give a record the identifier under which the server stored it. Another record of that identifier
is forgotten, for its document was overwritten. -/
def settleId (w : Workspace) (key : RecordKey) (oldId id : String) :
    Except Error Unit × Workspace :=
  let w : Workspace :=
    if Identifier.normalize oldId = Identifier.normalize id then w
    else
      { w with work := { w.work with identities := w.work.identities.removeRecord key } }
  let (replaced, w) :=
    match (w.work.identities.get? id).filter (· ≠ key) with
    | some other => w.removeRecord other
    | none => (none, w)
  let w : Workspace :=
    { w with
      work :=
        { w.work with
          identities := w.work.identities.insert id key
          missing := w.work.missing.remove id } }
  match replaced with
  | some _ =>
    (.error (replacedDocument id), { w with shared := w.shared.warn .serverReplacedDocument })
  | none => (.ok (), w)

/-- Settle the write of an entity. -/
def settlePut (w : Workspace) (key : RecordKey) (body sent result : Fields) :
    Except Error Unit × Workspace :=
  match (Keyed.find? result Metadata.idKey).bind Json.str? with
  | none => (.error (.protocol "PUT result is missing '@id'" none), w)
  | some id =>
    match w.work.records.find? key with
    | none => (.ok (), w)
    | some r =>
      let shared := w.shared.release r
      let w : Workspace :=
        { work := w.work.modifyRecord key (·.saved id body (overlayResult sent result))
          shared := r.entity.elim shared (fun entity => shared.setId entity id) }
      w.settleId key r.id id

/-- Settle the deletion of a record. -/
def settleDelete (w : Workspace) (key : RecordKey) : Workspace :=
  match w.removeRecord key with
  | (some r, w) => w.markMissing r.id
  | (none, w) => w

/-- Settle a write that waited. -/
def settleDeferredPut (w : Workspace) (id : String) (result : Fields) : Workspace :=
  let w : Workspace :=
    match w.work.recordForId? id with
    | none => w
    | some (key, r) =>
      { work := w.work.modifyRecord key (fun r => r.overwritten (overlayResult r.metadata result))
        shared := w.shared.release r }
  { w with work := { w.work with missing := w.work.missing.remove id } }

/-- Settle a deletion that waited. -/
def settleDeferredDelete (w : Workspace) (id : String) : Workspace :=
  let w : Workspace :=
    match w.work.identities.get? id with
    | some key => (w.removeRecord key).2
    | none => w
  w.markMissing id

/-- Put the document that a script made into a record and its instance. -/
def settleModified (w : Workspace) (key : RecordKey) (r : Record) (document : Fields) :
    Except Error Unit × Workspace :=
  let (body, metadata) := Metadata.split document
  let renewed : Except Error Shared :=
    match r.entity with
    | none => .ok w.shared
    | some entity => do
      let e ← (w.shared.entity entity).type.materialize body r.id
        w.work.conventions.identityProperty
      return w.shared.setEntity entity e
  match renewed with
  | .error e => (.error e, w)
  | .ok shared =>
    (.ok (),
      { work := w.work.modifyRecord key (·.scripted body metadata)
        shared := if metadata = [] then shared else shared.release r })

/-- Settle a script that waited: the version is known first, then the document that it made. -/
def settleDeferredPatch (w : Workspace) (id : String) (result : Fields) :
    Except Error Unit × Workspace :=
  match w.work.recordForId? id with
  | none => (.ok (), w)
  | some (key, r) =>
    let version := (Keyed.find? result "ChangeVector").bind Json.str?
    let w := { w with work := w.work.modifyRecord key (·.atVersion version) }
    match (Keyed.find? result "ModifiedDocument").bind Json.fields? with
    | none => (.ok (), w)
    | some document => w.settleModified key r document

/-- Settle one result. -/
def settleResult (w : Workspace) (planned : Planned) (result : Fields) :
    Except Error Unit × Workspace :=
  match planned.origin with
  | .put key body metadata => w.settlePut key body metadata result
  | .delete key => (.ok (), w.settleDelete key)
  | .deferred =>
    match planned.command.kind with
    | .put => (.ok (), w.settleDeferredPut planned.command.id result)
    | .delete => (.ok (), w.settleDeferredDelete planned.command.id)
    | .patch => w.settleDeferredPatch planned.command.id result

/-- Of two errors the first. -/
def firstError (e : Option Error) : Except Error Unit → Option Error
  | .error e' => e.or (some e')
  | .ok () => e

/-- Settle results in turn, and give the first error. -/
def settleAll (w : Workspace) (failure : Option Error) :
    Plan → List Fields → Option Error × Workspace
  | planned :: plan, result :: results =>
    let (settled, w) := w.settleResult planned result
    settleAll w (firstError failure settled) plan results
  | _, _ => (failure, w)

/-- The records of the entities that a plan writes. -/
def savedRecords (plan : Plan) : List RecordKey :=
  plan.filterMap (fun planned =>
    match planned.origin with
    | .put key _ _ => some key
    | _ => none)

/-- Tell the callbacks of the entities that were saved and are still tracked. -/
def announce (w : Workspace) (callbacks : Callbacks) (failure : Option Error) :
    List RecordKey → Option Error × Workspace
  | [] => (failure, w)
  | key :: rest =>
    match w.work.records.find? key with
    | none => announce w callbacks failure rest
    | some r =>
      let event := { id := r.id, entity := r.entity }
      let (told, shared) := Callbacks.callEach event callbacks.afterSave w.shared
      announce { w with shared } callbacks (firstError failure told) rest

/-- Settle the answer to a save. -/
def settle (w : Workspace) (callbacks : Callbacks) (plan : Plan) (answer : Option Json) :
    Except Error Unit × Workspace :=
  match resultsFor plan answer with
  | .error e => (.error e, w)
  | .ok results =>
    let (failure, w) := w.settleAll none plan results
    let w := { w with work := { w.work with deferred := [] } }
    let (failure, w) := w.announce callbacks failure (savedRecords plan)
    (failure.elim (.ok ()) .error, w)

end DocumentSession.Workspace
