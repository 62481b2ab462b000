import DocumentSession.Json.Basic

set_option autoImplicit false

/-! # The response cache

Bodies of responses under their URLs, each with the change vector the server gave for it. The cache
holds a limited number of entries and forgets the one that was not used for the longest time when a
new URL needs its place. Reading and writing an entry are uses; each use has its own time, counted
by the cache itself. -/

namespace DocumentSession

/-- A body and the change vector that came with it. -/
structure Cached where
  changeVector : String
  body : Json
  deriving DecidableEq

namespace Cache

/-- What the cache knows of a URL. -/
structure Entry where
  cached : Cached
  /-- When the entry was last read or written. -/
  lastUse : Nat
  /-- How often the entry was read since it was written. -/
  hits : Nat
  deriving DecidableEq

end Cache

/-- A cache of limited size. -/
structure Cache where
  capacity : Nat := 1024
  /-- The time of the next use. -/
  clock : Nat := 0
  entries : Dict Cache.Entry := []

namespace Cache

/-- How many URLs are cached. -/
def size (c : Cache) : Nat :=
  c.entries.length

/-- Whether nothing is cached. -/
def isEmpty (c : Cache) : Bool :=
  c.entries.isEmpty

/-- Whether a URL is cached. Asking is no use of the entry. -/
def contains (c : Cache) (url : String) : Bool :=
  c.entries.contains url

/-- How often a URL was read since it was written. -/
def hits (c : Cache) (url : String) : Nat :=
  (c.entries.find? url).elim 0 Entry.hits

/-- Read a URL. -/
def get (c : Cache) (url : String) : Option Cached × Cache :=
  match Keyed.find? c.entries url with
  | none => (none, c)
  | some e =>
    let used := { e with lastUse := c.clock, hits := e.hits + 1 }
    (some e.cached, { c with clock := c.clock + 1, entries := c.entries.insert url used })

/-- The entry that was not used for the longest time. -/
def oldest? (entries : Dict Entry) : Option String :=
  (entries.foldl older none).map (·.1)
where
  /-- Of the oldest entry so far and another one, the older. -/
  older (best : Option (String × Entry)) (entry : String × Entry) : Option (String × Entry) :=
    match best with
    | none => some entry
    | some b => if entry.2.lastUse < b.2.lastUse then some entry else some b

/-- The entries without the oldest one. -/
def evictOldest (entries : Dict Entry) : Dict Entry :=
  match oldest? entries with
  | some url => Keyed.erase entries url
  | none => entries

/-- Write a URL. A cache without room stores nothing; in a full one a new URL takes the place of the
oldest. -/
def set (c : Cache) (url : String) (cached : Cached) : Cache :=
  if c.capacity = 0 then c
  else
    let entries :=
      if !c.contains url && c.size ≥ c.capacity then evictOldest c.entries else c.entries
    { c with
      clock := c.clock + 1
      entries := entries.insert url { cached, lastUse := c.clock, hits := 0 } }

/-- Forget a URL. -/
def remove (c : Cache) (url : String) : Cache :=
  { c with entries := c.entries.erase url }

/-- Forget everything. -/
def clear (c : Cache) : Cache :=
  { c with entries := [] }

end Cache

end DocumentSession
