import DocumentSession.Read.Query
import DocumentSession.Read.MultiGet

set_option autoImplicit false

/-! # Lazy reads

A lazy read waits until several of them are sent as one multi-get. It says what to ask the server
for, unless the session knows the answer by then, and makes its value of its own part of the answer.
The value is delivered under a handle, from where the caller takes it once. -/

namespace DocumentSession

/-- The value of a lazy read. -/
inductive LazyValue where
  | documents (found : Dict (Option EntityRef))
  | results (found : QueryResult)
  | count (n : Nat)
  deriving DecidableEq, Repr

/-- A read that can wait. -/
inductive LazyRead where
  /-- A load of documents; `requested` are the identifiers the server was last asked for. -/
  | load (type : EntityType) (ids includes requested : List String)
  | query (type : EntityType) (q : Query.Frozen) (tracking : Bool)
  | count (q : Query.Frozen)

namespace LazyRead

/-- A lazy load. -/
def ofIds (type : EntityType) (ids includes : List String) : LazyRead :=
  .load type ids includes []

/-- A lazy count, which asks for no results. -/
def ofCount (q : Query.Frozen) : LazyRead :=
  .count { q with pageSize := some 0 }

/-- The name of a read, for those who look after the session. -/
def name : LazyRead → String
  | .load .. => "load"
  | .query .. => "query"
  | .count _ => "count"

/-- What becomes of a read before it is sent. -/
inductive Prepared where
  /-- The session knew the value, or that there is none. -/
  | answered (value : Except Error LazyValue)
  /-- The server has to be asked, and the read to keep in mind. -/
  | asks (request : SubRequest) (read : LazyRead)

/-- Say what to ask the server for. -/
def prepare (read : LazyRead) (w : Workspace) : Prepared × Workspace :=
  match read with
  | .load type ids includes _ =>
    match w.unknownIds type ids with
    | (.error e, w) => (.answered (.error e), w)
    | (.ok [], w) =>
      let (found, w) := w.collect type [] ids
      (.answered (found.map .documents), w)
    | (.ok unknown, w) =>
      (.asks (.ofRequest (loadRequest unknown includes)) (.load type ids includes unknown), w)
  | .query _ q _ => (.asks (.ofRequest (queryRequest q)) read, w)
  | .count q => (.asks (.ofRequest (queryRequest q)) read, w)

/-- Take in the response to a load. -/
def takeLoaded (w : Workspace) (requested : List String) (response : SubResponse) :
    Except Error Unit × Workspace :=
  if response.status = 404 then (.ok (), w.markAllMissing requested)
  else
    match LoadReply.ofBody response.result requested.length with
    | .error e => (.error e, w)
    | .ok reply => w.takeLoad requested reply

/-- Make the value of a read of the response to its request. -/
def receive (read : LazyRead) (w : Workspace) (response : SubResponse) :
    Except Error LazyValue × Workspace :=
  match read with
  | .load type ids _ requested =>
    match takeLoaded w requested response with
    | (.error e, w) => (.error e, w)
    | (.ok (), w) =>
      let (found, w) := w.collect type [] ids
      (found.map .documents, w)
  | .query type _ tracking =>
    match QueryReply.ofBody response.result with
    | .error e => (.error e, w)
    | .ok reply =>
      let (found, w) := w.takeQuery type tracking reply
      (found.map .results, w)
  | .count _ => ((QueryReply.ofBody response.result).map (fun reply => .count reply.total), w)

end LazyRead

/-! ## Handles -/

/-- The number of a handle. -/
abbrev Handle := Nat

/-- The values delivered under handles and not taken yet. -/
structure Deliveries where
  /-- The number of the next handle. -/
  next : Handle := 0
  values : Table (Except Error LazyValue) := []

namespace Deliveries

/-- A new handle. -/
def issue (d : Deliveries) : Handle × Deliveries :=
  (d.next, { d with next := d.next + 1 })

/-- Whether a value lies under a handle. -/
def isResolved (d : Deliveries) (h : Handle) : Bool :=
  d.values.contains h

/-- Deliver a value, in place of an earlier one. -/
def deliver (d : Deliveries) (h : Handle) (value : Except Error LazyValue) : Deliveries :=
  { d with values := d.values.insert h value }

/-- Take the value under a handle. -/
def take (d : Deliveries) (h : Handle) : Option (Except Error LazyValue) × Deliveries :=
  (d.values.find? h, { d with values := d.values.erase h })

end Deliveries

/-- A lazy read that waits, and the handle for its value. -/
structure Pending where
  handle : Handle
  read : LazyRead

end DocumentSession
