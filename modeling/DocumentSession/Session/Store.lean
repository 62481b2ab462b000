import DocumentSession.Session.Basic

set_option autoImplicit false

/-! # Document stores

A store opens sessions, numbered from one, which have its conventions and its connection in common.
Each of them works for itself on what it tracks; all of them see the same instances and cache. -/

namespace DocumentSession

/-- A document store with the sessions opened so far. -/
structure DocumentStore where
  conventions : Conventions
  /-- The database of sessions that name none. -/
  database : Option String := none
  sessions : List Session := []
  shared : Shared := {}
  connection : Connection
  deliveries : Deliveries := {}

namespace DocumentStore

/-- How many sessions were opened. -/
def opened (d : DocumentStore) : Nat :=
  d.sessions.length

/-- Open a session. -/
def openSession (d : DocumentStore) (options : SessionOptions) : Session × DocumentStore :=
  let options := { options with database := options.database.or d.database }
  let session := Session.new (d.opened + 1) d.conventions options
  (session, { d with sessions := d.sessions ++ [session] })

/-- A session of the store, with all that it works on. -/
def session? (d : DocumentStore) (index : Nat) : Option OpenSession :=
  d.sessions[index]?.map fun session =>
    { session, shared := d.shared, connection := d.connection, deliveries := d.deliveries }

/-- The store after one of its sessions worked. -/
def withSession (d : DocumentStore) (index : Nat) (s : OpenSession) : DocumentStore :=
  { d with
    sessions := d.sessions.set index s.session
    shared := s.shared
    connection := s.connection
    deliveries := s.deliveries }

end DocumentStore

end DocumentSession
