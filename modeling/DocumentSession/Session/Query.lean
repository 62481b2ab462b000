import DocumentSession.Session.Basic

set_option autoImplicit false

/-! # Queries in a session

Before a query is sent, callbacks may work on it; then it is frozen. Its results are tracked unless
the query or the session says otherwise. -/

namespace DocumentSession

/-- A query as the options of a session want it. -/
def SessionOptions.applyTo (o : SessionOptions) (q : Query) : Query :=
  { q with
    noTracking := q.noTracking || o.noTracking
    noCaching := q.noCaching || o.noCaching }

namespace Session

/-- A query on the collection of a type. -/
def queryCollection (s : Session) (type : EntityType) : Query :=
  s.options.applyTo (.ofCollection s.work.conventions (s.work.collectionOf type))

/-- A query on an index. -/
def queryIndex (s : Session) (index : String) : Query :=
  s.options.applyTo (.ofIndex s.work.conventions index)

end Session

namespace OpenSession

/-- The operation that queries are counted under. -/
def queryOperation : String := "query"

/-- A query after the callbacks, and its frozen form. -/
def freeze (s : OpenSession) (q : Query) : Except Error (Query × Query.Frozen) × OpenSession :=
  let (refused, q, shared) := Callbacks.callEachOnQuery s.session.callbacks.beforeQuery q s.shared
  let s := { s with shared }
  match refused with
  | some e => (.error e, s)
  | none => (q.freeze.map (q, ·), s)

/-- Whether the results of a query are tracked. -/
def isTracking (s : OpenSession) (q : Query) : Bool :=
  !q.noTracking && !s.session.work.noTracking

/-- Send a frozen query and read the answer. -/
def ask (s : OpenSession) (q : Query.Frozen) : Except Halt QueryReply × OpenSession :=
  let (body, s) := s.sendForBody queryOperation (queryRequest q)
  (body.bind (fun body => (QueryReply.ofBody body).mapError .failed), s)

/-- Run a query. -/
def runQuery (s : OpenSession) (type : EntityType) (q : Query) :
    Except Halt QueryResult × OpenSession :=
  match s.freeze q with
  | (.error e, s) => (.error (.failed e), s)
  | (.ok (q, frozen), s) =>
    match s.ask frozen with
    | (.error h, s) => (.error h, s)
    | (.ok reply, s) => s.attempt (·.takeQuery type (s.isTracking q) reply)

/-- How many documents a query finds; none of them is asked for. -/
def countQuery (s : OpenSession) (q : Query) : Except Halt Nat × OpenSession :=
  match s.freeze { q with pageSize := some 0 } with
  | (.error e, s) => (.error (.failed e), s)
  | (.ok (_, frozen), s) =>
    let (reply, s) := s.ask frozen
    (reply.map QueryReply.total, s)

end OpenSession

end DocumentSession
