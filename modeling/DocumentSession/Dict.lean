import DocumentSession.Keyed

set_option autoImplicit false

/-! # Dictionaries

A dictionary has its entries under texts, in the order of the texts: code point by code point, which
is also the order of their bytes. The members of a JSON object, the parameters of a query and the
headers of a request are dictionaries. -/

namespace DocumentSession

/-- Entries under text keys. -/
abbrev Dict (α : Type) := Keyed String α

namespace Dict

variable {α β : Type}

/-- The entries without their keys, in the order of the keys. -/
def values (d : Dict α) : List α :=
  d.map (·.2)

/-- The same keys over changed entries. -/
def mapValues (f : α → β) (d : Dict α) : Dict β :=
  d.map (fun entry => (entry.1, f entry.2))

/-- Put every entry of `overlay` into `base`: where both have a key, `overlay` wins. -/
def overlay (base : Dict α) (overlay : Dict α) : Dict α :=
  overlay.foldl (fun d entry => d.insert entry.1 entry.2) base

/-- The dictionary of a list of entries; of two entries under one key the later one stays. -/
def ofList (entries : List (String × α)) : Dict α :=
  overlay [] entries

/-- Change the entry of a key with `f`, which sees what the key has now. -/
def alter (d : Dict α) (key : String) (f : Option α → α) : Dict α :=
  d.insert key (f (d.find? key))

end Dict

end DocumentSession
