import DocumentSession.Http
import DocumentSession.Cache

set_option autoImplicit false

/-! # Connections

The sessions of a store share a connection to the server. What the server answers may depend on
everything it was asked before, so a server is a function of the requests sent so far. -/

namespace DocumentSession

/-- How an operation that sends requests ends without an answer. -/
inductive Halt where
  | failed (error : Error)
  /-- The caller wanted it to end, for a reason. -/
  | cancelled (reason : String)
  | panicked (text : String)
  deriving DecidableEq

/-- What a server answers to the last one of all requests it got. -/
abbrev Server := List Request → Except Halt Response

/-- The response cache of a connection. -/
structure SharedCache where
  cache : Cache
  /-- Whether an entry is gone once it was read. -/
  forgetful : Bool := false

namespace SharedCache

/-- Read a URL. -/
def get (c : SharedCache) (url : String) : Option Cached × SharedCache :=
  let (found, cache) := c.cache.get url
  (found, { c with cache := if c.forgetful && found.isSome then cache.remove url else cache })

/-- Write a URL. -/
def set (c : SharedCache) (url : String) (cached : Cached) : SharedCache :=
  { c with cache := c.cache.set url cached }

end SharedCache

/-- A connection to a server. -/
structure Connection where
  server : Server
  /-- The requests sent so far, in order. -/
  sent : List Request := []
  cache : Option SharedCache := none
  /-- Why the caller wants no more requests to be sent, if that is so. -/
  cancelled : Option String := none

namespace Connection

/-- Send a request. -/
def execute (c : Connection) (r : Request) : Except Halt Response × Connection :=
  let sent := c.sent ++ [r]
  (c.server sent, { c with sent })

/-- Read a URL of the cache, if there is one. -/
def cached (c : Connection) (url : String) : Option Cached × Connection :=
  match c.cache with
  | none => (none, c)
  | some cache =>
    let (found, cache) := cache.get url
    (found, { c with cache := some cache })

/-- Write a URL of the cache, if there is one. -/
def remember (c : Connection) (url : String) (cached : Cached) : Connection :=
  { c with cache := c.cache.map (·.set url cached) }

end Connection

end DocumentSession
