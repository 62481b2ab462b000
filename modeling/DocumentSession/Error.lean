import DocumentSession.Json.Basic

set_option autoImplicit false

/-! # Errors

Why an operation of a session was refused or failed, with the text shown for each cause. -/

namespace DocumentSession

/-- How an entity collides with what the session tracks. -/
inductive ConflictKind where
  /-- Another instance is tracked under the identifier. -/
  | nonUniqueInstance
  /-- The instance is tracked under another identifier. -/
  | alreadyTrackedUnderOtherId
  /-- The document was deleted earlier in the session. -/
  | storeAfterDelete
  deriving DecidableEq, Repr

/-- How the construction of a query goes wrong. -/
inductive QueryErrorKind where
  /-- The calls that open and close subclauses do not balance. -/
  | unbalancedClause
  /-- A connective or negation stands where none may. -/
  | misplacedOperator
  /-- A modifier has no condition to modify. -/
  | misplacedModifier
  /-- The value of a modifier is out of its range. -/
  | invalidModifierValue
  /-- The call does not go together with a raw query text. -/
  | rawQuery
  /-- A parameter name is not plain, or is bound already. -/
  | invalidParameter
  /-- A field, collection or index is used in a way it does not allow. -/
  | invalidUsage
  deriving DecidableEq, Repr

/-- Why an operation failed. -/
inductive Error where
  /-- A second instance, or a second identifier, for something tracked. -/
  | identityConflict (kind : ConflictKind) (id message : String)
  /-- An answer of the server that is not as agreed, with the part that is kept. -/
  | protocol (message : String) (raw : Option Json)
  /-- A write that was based on another version than the server has. -/
  | concurrency (id expected actual : Option String) (message : String)
  /-- A call that the construction of a query does not allow. -/
  | query (kind : QueryErrorKind) (message : String)
  /-- The session has sent as many requests as it may. -/
  | budgetExceeded (max : Nat)
  /-- An operation that the state of the session does not allow. -/
  | invalidOperation (message : String)
  /-- A failure reported by the server, with the failure behind it if one is known. -/
  | server (status : Nat) (message : String) (cause : Option String)
  /-- A value that cannot be written as a document, or a document that does not fit its type. -/
  | serialization (message : String)
  /-- The operation was cancelled. -/
  | cancelled
  /-- Any other failure. -/
  | custom (message : String)
  deriving DecidableEq

namespace Error

/-- A failed version check, with all it knows of the versions. -/
def concurrencyText (id expected actual : Option String) (message : String) : String :=
  match id, expected, actual with
  | some id, some expected, some actual =>
    message ++ " (document '" ++ id ++ "', expected change vector '" ++ expected ++ "', actual '"
      ++ actual ++ "')"
  | some id, _, _ => message ++ " (document '" ++ id ++ "')"
  | none, _, _ => message

/-- The advice given when no further request may be sent. -/
def budgetText (max : Nat) : String :=
  "The maximum number of requests (" ++ toString max ++ ") allowed for this session has been "
    ++ "reached. Reduce the number of remote calls: batch loads, use includes or lazy operations, "
    ++ "or raise max_number_of_requests_per_session"

/-- The text of an error. -/
def message : Error → String
  | .identityConflict _ id message => "Identity conflict on '" ++ id ++ "': " ++ message
  | .protocol message _ => "Protocol error: " ++ message
  | .concurrency id expected actual message =>
    "Concurrency conflict: " ++ concurrencyText id expected actual message
  | .query _ message => "Query builder error: " ++ message
  | .budgetExceeded max => budgetText max
  | .invalidOperation message => "Invalid operation: " ++ message
  | .server status message _ =>
    "Server error (status " ++ toString status ++ "): " ++ message
  | .serialization message => "Serialization error: " ++ message
  | .cancelled => "Operation cancelled"
  | .custom message => message

/-- The text of an error without the name of its family; errors that have no details of their own
have none. -/
def detail : Error → String
  | .identityConflict _ _ message => message
  | .protocol message _ => message
  | .concurrency id expected actual message => concurrencyText id expected actual message
  | .query _ message => message
  | .budgetExceeded max => budgetText max
  | .server status message _ => message ++ " (status " ++ toString status ++ ")"
  | .serialization _ | .invalidOperation _ | .cancelled | .custom _ => ""

/-- Whether the same request may succeed later: the server or a gateway is down for now. -/
def isRetryable : Error → Bool
  | .server status _ _ => 502 ≤ status ∧ status ≤ 504
  | _ => false

/-- Whether a version check failed. -/
def isConcurrencyConflict : Error → Bool
  | .concurrency .. => true
  | _ => false

/-- Whether an answer of the server was malformed. -/
def isProtocolViolation : Error → Bool
  | .protocol .. => true
  | _ => false

/-- Whether something tracked is in the way. -/
def isIdentityConflict : Error → Bool
  | .identityConflict .. => true
  | _ => false

/-- How the construction of a query went wrong, if that is the error. -/
def queryKind? : Error → Option QueryErrorKind
  | .query kind _ => some kind
  | _ => none

/-- How an entity collides, if that is the error. -/
def conflictKind? : Error → Option ConflictKind
  | .identityConflict kind _ _ => some kind
  | _ => none

/-- The failure behind an error, where one is known. -/
def cause? : Error → Option String
  | .server _ _ cause => cause
  | _ => none

end Error

end DocumentSession
