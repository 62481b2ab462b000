import DocumentSession.Script.Argument
import DocumentSession.Script.Report
import DocumentSession.Metadata.Forest

set_option autoImplicit false

/-! # Metadata dictionaries of a script

A script holds dictionaries under names. Giving a name away again lets go of the dictionary that had
it before. -/

namespace DocumentSession.Script

/-- Dictionaries under the names of a script. -/
structure Held where
  forest : Metadata.Forest := {}
  names : Dict Metadata.NodeId := []

namespace Held

/-- Give a name up. -/
def drop (h : Held) (name : String) : Held :=
  { forest := (h.names.find? name).elim h.forest h.forest.release
    names := h.names.erase name }

/-- Give a name to a dictionary that is held for it; without a name it is let go. -/
def bind (h : Held) (name : Option String) (n : Metadata.NodeId) : Held :=
  match name with
  | some name =>
    let h := h.drop name
    { h with names := h.names.insert name n }
  | none => { h with forest := h.forest.release n }

/-- A value in a box, or null. -/
def boxed (v : Option Json) : Json :=
  v.elim .null (fun v => .arr [v])

/-- Call a method of a dictionary that has a name. -/
def callOn (h : Held) (name : String) (n : Metadata.NodeId) (method : String) (args : List Json) :
    Json × Held :=
  let key := argText args 0
  match method with
  | "get" => (boxed (h.forest.get? n key), h)
  | "get_str" => (.ofStr? (h.forest.getStr? n key), h)
  | "get_object" =>
    match h.forest.child n key with
    | (none, forest) => (.null, { h with forest })
    | (some c, forest) => (.obj (forest.content c), { h with forest }.bind (arg args 1).str? c)
  | "set" => (done, { h with forest := h.forest.set n key (arg args 1) })
  | "remove" =>
    let (removed, forest) := h.forest.remove n key
    (boxed removed, { h with forest })
  | "contains" => (.bool (h.forest.contains n key), h)
  | "is_dirty" => (.bool (h.forest.isDirty n), h)
  | "mark_clean" => (done, { h with forest := h.forest.markClean n })
  | "len" => (.nat (h.forest.size n), h)
  | "is_empty" => (.bool (h.forest.isEmpty n), h)
  | "to_map" => (.obj (h.forest.content n), h)
  | "clone" => (done, { h with forest := h.forest.retain n }.bind (some key) n)
  | "drop" => (done, h.drop name)
  | _ => (.str "no such method", h)

/-- Call a method of the dictionary of a name. -/
def call (h : Held) (name method : String) (args : List Json) : Json × Held :=
  match h.names.find? name with
  | none => (.str "no such handle", h)
  | some n => h.callOn name n method args

/-- Call methods in turn. -/
def callAll (h : Held) (name : String) : List Json → List Json × Held
  | [] => ([], h)
  | op :: rest =>
    let (method, args) := callParts op
    let (answer, h) := h.call name method args
    let (answers, h) := callAll h name rest
    (answer :: answers, h)

/-- The names of dictionaries that were edited. -/
def dirtyNames (h : Held) : List String :=
  (h.names.filter (fun entry => h.forest.isDirty entry.2)).map (·.1)

end Held

end DocumentSession.Script
