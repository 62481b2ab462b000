import DocumentSession.Budget
import DocumentSession.Read.Lazy
import DocumentSession.Session.Connection
import DocumentSession.Callbacks

set_option autoImplicit false

/-! # Sessions

A session is a unit of work with a budget of requests, callbacks, and lazy reads that wait. It works
together with what it shares with its callers and with other sessions; all of that is an
`OpenSession`. Operations without a request are those of its workspace. One with requests counts
each of them before it is sent, and ends at the first that has no answer. -/

namespace DocumentSession

/-- What is settled when a session is opened. -/
structure SessionOptions where
  /-- The database of the session; without one, paths stay as they are. -/
  database : Option String := none
  /-- Whether nothing is tracked. -/
  noTracking : Bool := false
  /-- Whether the response cache is left aside. -/
  noCaching : Bool := false
  deriving DecidableEq, Repr

/-- A request for the database of a session. -/
def SessionOptions.scope (o : SessionOptions) (r : Request) : Request :=
  match o.database with
  | some name => { r with path := "/databases/" ++ name ++ r.path }
  | none => r

/-- A session. -/
structure Session where
  id : Nat
  options : SessionOptions
  work : UnitOfWork
  budget : Budget
  callbacks : Callbacks := {}
  /-- The lazy reads that wait, in order. -/
  pending : List Pending := []

/-- A session in which nothing was done. -/
def Session.new (id : Nat) (conventions : Conventions) (options : SessionOptions) : Session :=
  { id, options
    work := { conventions, noTracking := options.noTracking }
    budget := { max := conventions.maxRequests } }

/-- A session and all that its operations work on. -/
structure OpenSession where
  session : Session
  shared : Shared
  connection : Connection
  deliveries : Deliveries

namespace OpenSession

/-! ## Work without requests -/

/-- What the session tracks, together with what it shares. -/
def workspace (s : OpenSession) : Workspace :=
  { work := s.session.work, shared := s.shared }

/-- The session after its workspace changed. -/
def withWorkspace (s : OpenSession) (w : Workspace) : OpenSession :=
  { s with session := { s.session with work := w.work }, shared := w.shared }

/-- Work on the workspace. -/
def locally {α : Type} (s : OpenSession) (f : Workspace → α × Workspace) : α × OpenSession :=
  let (answer, w) := f s.workspace
  (answer, s.withWorkspace w)

/-- Work on the workspace as a part of an operation that sends requests. -/
def attempt {α : Type} (s : OpenSession) (f : Workspace → Except Error α × Workspace) :
    Except Halt α × OpenSession :=
  let (answer, s) := s.locally f
  (answer.mapError .failed, s)

/-- Give a warning. -/
def warn (s : OpenSession) (w : Warning) : OpenSession :=
  { s with shared := s.shared.warn w }

/-- Forget everything that is tracked or waits. -/
def clear (s : OpenSession) : OpenSession :=
  let s := s.withWorkspace s.workspace.clear
  { s with session := { s.session with pending := [] } }

/-! ## Requests -/

/-- Count a request for an operation. -/
def count (s : OpenSession) (operation : String) : Except Error Unit × OpenSession :=
  let (counted, warning, budget) := s.session.budget.record operation
  (counted,
    { s with
      session := { s.session with budget }
      shared := warning.elim s.shared s.shared.warn })

/-- Count a request and send it, unless the caller wants no more. -/
def send (s : OpenSession) (operation : String) (r : Request) :
    Except Halt Response × OpenSession :=
  match s.connection.cancelled with
  | some reason => (.error (.cancelled reason), s)
  | none =>
    match s.count operation with
    | (.error e, s) => (.error (.failed e), s)
    | (.ok (), s) =>
      let (answer, connection) := s.connection.execute (s.session.options.scope r)
      (answer, { s with connection })

/-- Send a request that has to succeed, and give the body of the response. -/
def sendForBody (s : OpenSession) (operation : String) (r : Request) :
    Except Halt (Option Json) × OpenSession :=
  match s.send operation r with
  | (.error h, s) => (.error h, s)
  | (.ok response, s) =>
    if response.isSuccess then (.ok response.body, s)
    else (.error (.failed response.toError), s)

end OpenSession

end DocumentSession
