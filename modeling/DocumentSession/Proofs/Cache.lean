import DocumentSession.Session.Connection

set_option autoImplicit false

/-! # Bodies in the cache

Every body in a cache was put there under its URL by `Cache.set`; `get` and the eviction of entries
bring nothing in. So what holds of each body that is put there holds of all bodies in the cache
(`Cache.Holds`, `Connection.Holds`). -/

namespace DocumentSession

/-- `P` holds of each cached body with its URL. -/
def Cache.Holds (P : String → Json → Prop) (c : Cache) : Prop :=
  ∀ url entry, c.entries.find? url = some entry → P url entry.cached.body

namespace Cache.Holds

variable {P : String → Json → Prop} {c : Cache}

theorem erase (h : c.Holds P) (url : String) :
    Cache.Holds P { c with entries := c.entries.erase url } := by
  intro url' entry hentry
  rw [Keyed.find?_erase] at hentry
  split at hentry
  · cases hentry
  · exact h url' entry hentry

theorem insert (h : c.Holds P) {url : String} {e : Cache.Entry} (he : P url e.cached.body)
    (clock : Nat) :
    Cache.Holds P { c with clock, entries := c.entries.insert url e } := by
  intro url' entry hentry
  rw [Keyed.find?_insert] at hentry
  split at hentry
  · next hurl =>
    subst hurl
    obtain rfl := Option.some.inj hentry
    exact he
  · exact h url' entry hentry

theorem get (h : c.Holds P) (url : String) :
    (c.get url).2.Holds P ∧ ∀ found, (c.get url).1 = some found → P url found.body := by
  unfold Cache.get
  split
  · exact ⟨h, fun found hfound => by cases hfound⟩
  · next e he =>
    have hbody := h url e he
    refine ⟨h.insert (e := { e with lastUse := c.clock, hits := e.hits + 1 }) hbody _, ?_⟩
    intro found hfound
    obtain rfl := Option.some.inj hfound
    exact hbody

theorem set (h : c.Holds P) {url : String} {cached : Cached} (hcached : P url cached.body) :
    (c.set url cached).Holds P := by
  unfold Cache.set
  split
  · exact h
  · dsimp only
    split
    · -- the oldest entry makes room
      unfold evictOldest
      split
      · next oldest _ =>
        exact (h.erase oldest).insert (e := { cached, lastUse := c.clock, hits := 0 }) hcached _
      · exact h.insert (e := { cached, lastUse := c.clock, hits := 0 }) hcached _
    · exact h.insert (e := { cached, lastUse := c.clock, hits := 0 }) hcached _

end Cache.Holds

/-- `P` holds of each body in the cache of the connection, with its URL. -/
def Connection.Holds (P : String → Json → Prop) (c : Connection) : Prop :=
  ∀ cache, c.cache = some cache → cache.cache.Holds P

namespace Connection.Holds

variable {P : String → Json → Prop} {c : Connection}

theorem cached (h : c.Holds P) (url : String) :
    (c.cached url).2.Holds P ∧ ∀ found, (c.cached url).1 = some found → P url found.body := by
  unfold Connection.cached
  split
  · exact ⟨h, fun found hfound => by cases hfound⟩
  · next cache hcache =>
    obtain ⟨hkept, hfound⟩ := (h cache hcache).get url
    unfold SharedCache.get
    dsimp only
    refine ⟨?_, hfound⟩
    intro cache' hcache'
    obtain rfl := Option.some.inj hcache'
    -- a forgetful cache has lost what was read
    dsimp only
    split
    · exact hkept.erase url
    · exact hkept

theorem remember (h : c.Holds P) {url : String} {cached : Cached} (hcached : P url cached.body) :
    (c.remember url cached).Holds P := by
  intro cache' hcache'
  obtain ⟨cache, hcache, rfl⟩ := Option.map_eq_some_iff.mp hcache'
  exact (h cache hcache).set hcached

end Connection.Holds

theorem Connection.server_cached (c : Connection) (url : String) :
    (c.cached url).2.server = c.server := by
  unfold Connection.cached
  split <;> rfl

end DocumentSession
