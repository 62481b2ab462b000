import DocumentSession.Session.Query

set_option autoImplicit false

/-! # Lazy reads in a session

A lazy read waits in the session under a handle. A flush sends all reads that wait as one
multi-get. Where the cache has a response, the server is asked whether that is still valid; if the
server says so and the cache has lost the response in the meantime, the read is sent again in a next
round. After a fixed number of rounds the flush gives such reads up.

A response that is of no use fails its own read only. When the multi-get itself has no answer, it
fails every read in it. -/

namespace DocumentSession

/-- A lazy read and the request that was made for it. -/
structure Asked where
  pending : Pending
  request : SubRequest

namespace OpenSession

/-! ## Queueing -/

/-- Let a read wait, and give the handle for its value. -/
def queue (s : OpenSession) (read : LazyRead) : Handle × OpenSession :=
  let (handle, deliveries) := s.deliveries.issue
  (handle,
    { s with
      session := { s.session with pending := s.session.pending ++ [{ handle, read }] }
      deliveries })

/-- Load documents lazily. -/
def lazyLoad (s : OpenSession) (type : EntityType) (ids includes : List String) :
    Handle × OpenSession :=
  s.queue (.ofIds type ids includes)

/-- Run a query lazily. -/
def lazyQuery (s : OpenSession) (type : EntityType) (q : Query) :
    Except Error Handle × OpenSession :=
  match s.freeze q with
  | (.error e, s) => (.error e, s)
  | (.ok (q, frozen), s) =>
    let (handle, s) := s.queue (.query type frozen (s.isTracking q))
    (.ok handle, s)

/-- Count the results of a query lazily. -/
def lazyCount (s : OpenSession) (q : Query) : Except Error Handle × OpenSession :=
  match s.freeze q with
  | (.error e, s) => (.error e, s)
  | (.ok (_, frozen), s) =>
    let (handle, s) := s.queue (.ofCount frozen)
    (.ok handle, s)

/-! ## The cache -/

/-- Read a URL of the response cache, unless it is left aside. -/
def cached (s : OpenSession) (url : String) : Option Cached × OpenSession :=
  if s.session.options.noCaching then (none, s)
  else
    let (found, connection) := s.connection.cached url
    (found, { s with connection })

/-- Write a URL of the response cache, unless it is left aside. -/
def remember (s : OpenSession) (url : String) (cached : Cached) : OpenSession :=
  if s.session.options.noCaching then s
  else { s with connection := s.connection.remember url cached }

/-- A request that asks for the response only if it is another one than the cached. -/
def conditional (r : SubRequest) (cached : Cached) : SubRequest :=
  { r with headers := r.headers.insert "If-None-Match" ("\"" ++ cached.changeVector ++ "\"") }

/-- A text without the double quotes at its ends. -/
def unquoted (s : String) : String :=
  let trimmed := s.toList.dropWhile (· = '"')
  String.ofList (trimmed.reverse.dropWhile (· = '"')).reverse

/-- What to cache of a response: its result, if it has one and the server gave it a version. -/
def cacheable (r : SubResponse) : Option Cached := do
  let tag ← r.header "ETag"
  let body ← r.result
  return { changeVector := unquoted tag, body }

/-- Take the result of a response from the cache if the server says that it is still valid; put it
there if it is new. -/
def throughCache (s : OpenSession) (url : String) (r : SubResponse) : SubResponse × OpenSession :=
  if r.isNotModified then
    match s.cached url with
    | (some found, s) => ({ r with result := some found.body, status := 200 }, s)
    | (none, s) => ({ r with forceRetry := true }, s)
  else if r.isSuccess then
    match cacheable r with
    | some new => (r, s.remember url new)
    | none => (r, s)
  else (r, s)

/-! ## One round -/

/-- Deliver the value of a read. -/
def deliver (s : OpenSession) (handle : Handle) (value : Except Error LazyValue) : OpenSession :=
  { s with deliveries := s.deliveries.deliver handle value }

/-- Make the request for a read, or deliver its value if the session knows it. -/
def prepare (s : OpenSession) (p : Pending) : Option Asked × OpenSession :=
  match s.locally p.read.prepare with
  | (.answered value, s) => (none, s.deliver p.handle value)
  | (.asks request read, s) =>
    let (found, s) := s.cached request.cacheKey
    (some { pending := { p with read }, request := found.elim request (conditional request) }, s)

/-- Make the requests for some reads. -/
def prepareAll (s : OpenSession) : List Pending → List Asked × OpenSession
  | [] => ([], s)
  | p :: rest =>
    let (asked, s) := s.prepare p
    let (others, s) := prepareAll s rest
    (asked.toList ++ others, s)

/-- Fail every read of a round. -/
def failAll (s : OpenSession) (e : Error) (batch : List Asked) : OpenSession :=
  batch.foldl (fun s asked => s.deliver asked.pending.handle (.error e)) s

/-- The error of a read whose multi-get had no answer. -/
def errorOf : Halt → Error
  | .failed e => e
  | .cancelled _ => .cancelled
  | .panicked _ => .custom "Multi-get request panicked"

/-- Send a round, and give a response for each of its reads. -/
def sendRound (s : OpenSession) (batch : List Asked) :
    Except Halt (List SubResponse) × OpenSession :=
  let request : Request :=
    { method := .post, path := "/multi_get", body := some (multiGetBody (batch.map Asked.request)) }
  let (body, s) := s.sendForBody "lazy" request
  (body.bind (fun body => (multiGetResponses body batch.length).mapError .failed), s)

/-- Take in the response to one read. A read that has to be sent again is given back. -/
def receive (s : OpenSession) (asked : Asked) (r : SubResponse) : Option Pending × OpenSession :=
  let handle := asked.pending.handle
  let (r, s) := s.throughCache asked.request.cacheKey r
  if r.forceRetry then (some asked.pending, s.warn .lazyRetry)
  else if !r.isSuccess && r.status ≠ 404 then (none, s.deliver handle (.error r.toError))
  else
    let (value, s) := s.locally (asked.pending.read.receive · r)
    (none, s.deliver handle value)

/-- Take in the responses to a round, and give the reads that have to be sent again. -/
def receiveAll (s : OpenSession) : List Asked → List SubResponse → List Pending × OpenSession
  | asked :: batch, r :: responses =>
    let (again, s) := s.receive asked r
    let (others, s) := receiveAll s batch responses
    (again.toList ++ others, s)
  | _, _ => ([], s)

/-! ## Flush -/

/-- How often a flush sends a multi-get. -/
def maxRounds : Nat := 3

/-- The error of a read that has to be sent again too often. -/
def gaveUp (read : LazyRead) : Error :=
  .custom
    ("Lazy " ++ read.name ++ " operation still required a retry after " ++ toString maxRounds
      ++ " rounds")

/-- Give up reads that have to be sent again too often. -/
def giveUp (s : OpenSession) (batch : List Asked) : OpenSession :=
  batch.foldl
    (fun s asked =>
      (s.warn .lazyGaveUp).deliver asked.pending.handle (.error (gaveUp asked.pending.read)))
    s

/-- Send reads in at most `rounds` rounds. -/
def flushRounds (rounds : Nat) (s : OpenSession) (pending : List Pending) :
    Except Halt Unit × OpenSession :=
  match s.prepareAll pending with
  | ([], s) => (.ok (), s)
  | (batch, s) =>
    match rounds with
    | 0 => (.ok (), s.giveUp batch)
    | rounds + 1 =>
      match s.sendRound batch with
      | (.error h, s) => (.error h, s.failAll (errorOf h) batch)
      | (.ok responses, s) =>
        let (again, s) := s.receiveAll batch responses
        flushRounds rounds s again

/-- Send every read that waits. -/
def flush (s : OpenSession) : Except Halt Unit × OpenSession :=
  flushRounds maxRounds { s with session := { s.session with pending := [] } } s.session.pending

/-- Nothing lies under the handle, nor will it. -/
def nothingDelivered : Error :=
  .invalidOperation "Lazy value was already taken or its operation was never queued"

/-- Take the value under a handle; if there is none yet, after a flush. -/
def resolve (s : OpenSession) (handle : Handle) : Except Halt LazyValue × OpenSession :=
  let (flushed, s) := if s.deliveries.isResolved handle then (.ok (), s) else s.flush
  match flushed with
  | .error h => (.error h, s)
  | .ok () =>
    let (value, deliveries) := s.deliveries.take handle
    let s := { s with deliveries }
    match value with
    | some value => (value.mapError .failed, s)
    | none => (.error (.failed nothingDelivered), s)

end OpenSession

end DocumentSession
