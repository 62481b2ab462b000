import DocumentSession.Error
import DocumentSession.Text.Percent

set_option autoImplicit false

/-! # Requests and responses

The messages a session exchanges with a server. A request has a path and a list of named values
that are percent-encoded into its query string; a response has a status, headers that are looked
up without regard to case, and a JSON body. -/

namespace DocumentSession

/-- The method of a request. -/
inductive Method where
  | get
  | post
  | put
  | patch
  | delete
  deriving DecidableEq, Repr

/-- The name of a method. -/
def Method.name : Method → String
  | .get => "GET"
  | .post => "POST"
  | .put => "PUT"
  | .patch => "PATCH"
  | .delete => "DELETE"

/-- A request to a server. -/
structure Request where
  method : Method
  path : String
  /-- The named values of the query string, in order. -/
  query : List (String × String) := []
  headers : Dict String := []
  body : Option Json := none
  deriving DecidableEq

/-- A name and a value of a query string. -/
def queryPiece (piece : String × String) : String :=
  Text.percentEncode piece.1 ++ "=" ++ Text.percentEncode piece.2

/-- Named values as a query string with its question mark; no values give no query string. -/
def queryString (query : List (String × String)) : String :=
  if query = [] then "" else "?" ++ "&".intercalate (query.map queryPiece)

/-- The path of a request with its query string. -/
def Request.url (r : Request) : String :=
  r.path ++ queryString r.query

/-- Whether two texts differ at most in the case of ASCII letters. -/
def sameIgnoringCase (a b : String) : Bool :=
  a.toList.map Char.toLower = b.toList.map Char.toLower

/-- The header of a name, without regard to the case of ASCII letters. Of several headers the one
whose own name comes first wins. -/
def headerOf (headers : Dict String) (name : String) : Option String :=
  (List.find? (fun h => sameIgnoringCase h.1 name) headers).map (·.2)

/-- A response of a server. -/
structure Response where
  status : Nat
  headers : Dict String := []
  body : Option Json := none
  deriving DecidableEq

/-- Whether a status reports success. -/
def isSuccessStatus (status : Nat) : Bool :=
  200 ≤ status ∧ status < 300

namespace Response

/-- A response of success with a body. -/
def ok (body : Json) : Response :=
  { status := 200, body := some body }

/-- Whether the request succeeded. -/
def isSuccess (r : Response) : Bool :=
  isSuccessStatus r.status

/-- Whether there is no such document. -/
def isNotFound (r : Response) : Bool :=
  r.status = 404

/-- A header, without regard to case. -/
def header (r : Response) (name : String) : Option String :=
  headerOf r.headers name

/-- A string under a key of the body. -/
def bodyStr? (r : Response) (key : String) : Option String :=
  r.body.bind (·.getStr? key)

/-- What the body says went wrong: the text under `Message`, or under `Error` if there is no
`Message` at all. -/
def failureText (r : Response) : String :=
  let told := r.body.bind (fun b => (b.get? "Message").or (b.get? "Error"))
  (told.bind Json.str?).getD ("Request failed with status " ++ toString r.status)

/-- The error of a response without success: a failed version check, or any other failure. -/
def toError (r : Response) : Error :=
  if r.status = 409 then
    .concurrency (r.bodyStr? "Id") (r.bodyStr? "ExpectedChangeVector")
      (r.bodyStr? "ActualChangeVector") r.failureText
  else .server r.status r.failureText none

end Response

end DocumentSession
