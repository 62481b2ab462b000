import DocumentSession.Metadata.Keys

set_option autoImplicit false

/-! # Metadata dictionaries

A metadata dictionary is a view of a metadata object that remembers whether it was edited. Whoever
works with it holds it by its number, so that the session and its callers see one and the same
dictionary. An object inside it is given out as a child dictionary, whose edits show in the parent
and mark it, and in turn its parents, as edited.

A child knows its parent but does not hold it. A dictionary lives while somebody holds it or while
it hangs below one that lives; an edit of a child whose parent is gone marks the child alone. All
dictionaries stand in one `Forest`, where a parent always has a smaller number than its children;
this bounds every walk through it. -/

namespace DocumentSession.Metadata

/-- The number of a dictionary. -/
abbrev NodeId := Nat

/-- A dictionary: plain values, and child dictionaries for the objects that were given out. -/
structure Node where
  values : Fields
  children : Dict NodeId := []
  dirty : Bool := false
  parent : Option NodeId := none
  /-- How many outside holders it has. -/
  holders : Nat := 1
  deriving DecidableEq

/-- All dictionaries, by their numbers. -/
structure Forest where
  nodes : List Node := []
  deriving DecidableEq

namespace Forest

/-- The dictionary of a number. -/
def node? (f : Forest) (n : NodeId) : Option Node :=
  f.nodes[n]?

/-- Change one dictionary. -/
def modify (f : Forest) (n : NodeId) (change : Node → Node) : Forest :=
  ⟨f.nodes.modify n change⟩

/-! ## Holding -/

/-- A new dictionary, clean and held once. -/
def create (f : Forest) (values : Fields) (parent : Option NodeId := none) : NodeId × Forest :=
  (f.nodes.length, ⟨f.nodes ++ [{ values := values, parent := parent }]⟩)

/-- One more holder. -/
def retain (f : Forest) (n : NodeId) : Forest :=
  f.modify n (fun node => { node with holders := node.holders + 1 })

/-- One holder less. -/
def release (f : Forest) (n : NodeId) : Forest :=
  f.modify n (fun node => { node with holders := node.holders - 1 })

/-- Whether `child` hangs below `parent`. -/
def attaches (f : Forest) (parent child : NodeId) : Bool :=
  (f.node? parent).any (fun node => node.children.any (fun c => c.2 = child))

/-- Whether a dictionary lives: it has a holder, or hangs below one that lives. -/
def isAlive (f : Forest) (n : NodeId) : Bool :=
  go (n + 1) n
where
  /-- A parent has a smaller number, so `n + 1` steps reach the end of the line. -/
  go : Nat → NodeId → Bool
    | 0, _ => false
    | steps + 1, n =>
      match f.node? n with
      | none => false
      | some node =>
        node.holders > 0 || node.parent.any (fun p => f.attaches p n && go steps p)

/-! ## Reading -/

/-- The whole content of a dictionary, children included. -/
def content (f : Forest) (n : NodeId) : Fields :=
  go f.nodes.length n
where
  /-- A child has a larger number, so as many steps as there are dictionaries reach every leaf. -/
  go : Nat → NodeId → Fields
    | 0, _ => []
    | steps + 1, n =>
      match f.node? n with
      | none => []
      | some node =>
        Dict.overlay node.values (node.children.mapValues (fun c => Json.obj (go steps c)))

/-- The value under a key. -/
def get? (f : Forest) (n : NodeId) (key : String) : Option Json :=
  match f.node? n with
  | none => none
  | some node =>
    match Keyed.find? node.children key with
    | some child => some (.obj (f.content child))
    | none => Keyed.find? node.values key

/-- The string under a key. -/
def getStr? (f : Forest) (n : NodeId) (key : String) : Option String :=
  (f.get? n key).bind Json.str?

/-- Whether a key has a value. -/
def contains (f : Forest) (n : NodeId) (key : String) : Bool :=
  (f.node? n).any (fun node => Keyed.contains node.children key || Keyed.contains node.values key)

/-- The number of keys. -/
def size (f : Forest) (n : NodeId) : Nat :=
  (f.node? n).elim 0 (fun node => node.values.length + node.children.length)

/-- Whether the dictionary has no keys. -/
def isEmpty (f : Forest) (n : NodeId) : Bool :=
  f.size n = 0

/-- Whether the dictionary, or one that hung below it at the time, was edited since it was last
marked clean. -/
def isDirty (f : Forest) (n : NodeId) : Bool :=
  (f.node? n).any Node.dirty

/-! ## Editing -/

/-- Mark a dictionary as edited, and all that lives above it. -/
def markDirty (f : Forest) (n : NodeId) : Forest :=
  go (n + 1) n f
where
  /-- Mark `n`, then its parent if that lives. -/
  go : Nat → NodeId → Forest → Forest
    | 0, _, f => f
    | steps + 1, n, f =>
      let marked := f.modify n (fun node => { node with dirty := true })
      match (f.node? n).bind Node.parent with
      | some p => if f.isAlive p then go steps p marked else marked
      | none => marked

/-- Mark a dictionary and all below it as not edited. -/
def markClean (f : Forest) (n : NodeId) : Forest :=
  go f.nodes.length n f
where
  /-- Clean the children of `n`, then `n` itself. -/
  go : Nat → NodeId → Forest → Forest
    | 0, _, f => f
    | steps + 1, n, f =>
      match f.node? n with
      | none => f
      | some node =>
        (node.children.foldl (fun f c => go steps c.2 f) f).modify n
          (fun node => { node with dirty := false })

/-- Set a value. A child under the key is detached. -/
def set (f : Forest) (n : NodeId) (key : String) (value : Json) : Forest :=
  (f.modify n (fun node =>
    { node with
      values := node.values.insert key value
      children := node.children.erase key })).markDirty n

/-- Remove the child under `key`, or else the value there, and give what was removed. The
dictionary is edited only if something was. -/
def remove (f : Forest) (n : NodeId) (key : String) : Option Json × Forest :=
  match f.node? n with
  | none => (none, f)
  | some node =>
    match Keyed.find? node.children key with
    | some child =>
      let rest := f.modify n (fun node => { node with children := node.children.erase key })
      (some (.obj (rest.content child)), rest.markDirty n)
    | none =>
      match Keyed.find? node.values key with
      | some value =>
        let rest := f.modify n (fun node => { node with values := node.values.erase key })
        (some value, rest.markDirty n)
      | none => (none, f)

/-- The object under a key as a dictionary of its own, which the caller holds from now on. A value
under the key that is no object is dropped. -/
def child (f : Forest) (n : NodeId) (key : String) : Option NodeId × Forest :=
  match f.node? n with
  | none => (none, f)
  | some node =>
    match Keyed.find? node.children key with
    | some c => (some c, f.retain c)
    | none =>
      let rest := f.modify n (fun node => { node with values := node.values.erase key })
      match (Keyed.find? node.values key).bind Json.fields? with
      | none => (none, rest)
      | some values =>
        let (c, grown) := rest.create values (some n)
        (some c, grown.modify n (fun node => { node with children := node.children.insert key c }))

end Forest

end DocumentSession.Metadata
