import DocumentSession.Identifier
import DocumentSession.Json.Basic

set_option autoImplicit false

/-! # Batch commands

What a session writes goes to the server as one list of commands, and the answer holds one result
for each, in the same order. -/

namespace DocumentSession

/-- What a command does to its document. -/
inductive CommandKind where
  | put
  | delete
  | patch
  deriving DecidableEq, Repr

/-- The name of a kind in a request. -/
def CommandKind.name : CommandKind → String
  | .put => "PUT"
  | .delete => "DELETE"
  | .patch => "PATCH"

/-- What a command does to its document, with all it needs for that. -/
inductive Action where
  /-- Write a whole document, metadata included. -/
  | put (document : Fields)
  | delete
  /-- Run a script on the document, with named arguments. -/
  | patch (script : String) (values : Fields)
  deriving DecidableEq

/-- A command. -/
structure Command where
  id : String
  action : Action
  /-- The version the document must have, if the command depends on one. -/
  changeVector : Option String := none
  deriving DecidableEq

namespace Command

/-- The kind of a command. -/
def kind (c : Command) : CommandKind :=
  match c.action with
  | .put _ => .put
  | .delete => .delete
  | .patch .. => .patch

/-- What two commands of one batch must not have in common: kind and document. -/
def dedupKey (c : Command) : CommandKind × String :=
  (c.kind, Identifier.normalize c.id)

/-- The members that only commands of its kind have. -/
def ownMembers (c : Command) : List (String × Json) :=
  match c.action with
  | .put document => [("Document", .obj document)]
  | .delete => []
  | .patch script values =>
    [("Patch", Json.object [("Script", .str script), ("Values", .obj values)])]

/-- A command in a request. -/
def toJson (c : Command) : Json :=
  Json.object (
    [("Type", .str c.kind.name), ("Id", .str c.id)]
    ++ c.changeVector.elim [] (fun cv => [("ChangeVector", .str cv)])
    ++ c.ownMembers)

/-- How many commands of a kind there are. -/
def countOf (kind : CommandKind) (commands : List Command) : Nat :=
  commands.countP (fun c => c.kind = kind)

/-- The body of a request for a batch. -/
def batchBody (commands : List Command) : Json :=
  Json.object [("Commands", .arr (commands.map toJson))]

end Command

end DocumentSession
