import DocumentSession.Http

set_option autoImplicit false

/-! # Several reads in one request

A multi-get carries several requests for reading, and its answer one response for each, in the same
order. -/

namespace DocumentSession

/-- One of the requests of a multi-get. -/
structure SubRequest where
  path : String
  /-- The query string with its question mark, or nothing. -/
  query : String
  method : Method
  headers : Dict String
  body : Option Json
  deriving DecidableEq

namespace SubRequest

/-- A request as one of a multi-get. -/
def ofRequest (r : Request) : SubRequest :=
  { path := r.path
    query := queryString r.query
    method := r.method
    headers := r.headers
    body := r.body }

/-- The URL under which the response is cached. -/
def cacheKey (r : SubRequest) : String :=
  r.path ++ r.query

/-- A request in the body of a multi-get. -/
def toJson (r : SubRequest) : Json :=
  Json.object
    [("Url", .str r.path), ("Query", .str r.query), ("Method", .str r.method.name),
     ("Headers", .obj (r.headers.mapValues Json.str)), ("Content", r.body.getD .null)]

end SubRequest

/-- The body of a multi-get. -/
def multiGetBody (requests : List SubRequest) : Json :=
  Json.object [("Requests", .arr (requests.map SubRequest.toJson))]

/-- One of the responses to a multi-get. -/
structure SubResponse where
  result : Option Json
  status : Nat
  headers : Dict String := []
  /-- Whether the response is of no use and the request has to be sent again. -/
  forceRetry : Bool := false
  deriving DecidableEq

namespace SubResponse

/-- Read one response. -/
def ofJson (v : Json) : Except Error SubResponse :=
  match ((v.get? "StatusCode").bind Json.nat?).filter (· < UInt16.size) with
  | none => .error (.protocol "Multi-get result is missing 'StatusCode'" (some v))
  | some status =>
    let headers := ((v.get? "Headers").bind Json.fields?).getD []
    .ok {
      result := (v.get? "Result").filter (· ≠ .null)
      status
      headers := headers.filterMap (fun (name, value) => value.str?.map (name, ·)) }

/-- Whether the request succeeded. -/
def isSuccess (r : SubResponse) : Bool :=
  isSuccessStatus r.status

/-- Whether what was cached is still valid. -/
def isNotModified (r : SubResponse) : Bool :=
  r.status = 304

/-- A header, without regard to case. -/
def header (r : SubResponse) (name : String) : Option String :=
  headerOf r.headers name

/-- The error of a response without success. -/
def toError (r : SubResponse) : Error :=
  .server r.status
    ((r.result.bind (·.getStr? "Message")).getD
      ("Lazy request failed with status " ++ toString r.status))
    none

end SubResponse

/-- Read the answer to a multi-get of some number of requests. -/
def multiGetResponses (body : Option Json) (expected : Nat) : Except Error (List SubResponse) :=
  match body.filter (· ≠ .null) with
  | none => .error (.protocol "Got null response to a multi-get request" none)
  | some body =>
    match (body.get? "Results").bind Json.items? with
    | none => .error (.protocol "Multi-get response is missing 'Results'" (some body))
    | some results =>
      if results.length ≠ expected then
        .error (.protocol
          ("Multi-get sent " ++ toString expected ++ " requests but the server returned "
            ++ toString results.length ++ " results") none)
      else results.mapM SubResponse.ofJson

end DocumentSession
