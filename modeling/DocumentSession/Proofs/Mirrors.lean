import DocumentSession.Proofs.CacheApart
import DocumentSession.Proofs.ConditionalReads

set_option autoImplicit false

/-! # A flush with the cache and without it

A session that uses the response cache is compared with the same session under the option
`noCaching` (`Mirrors`). Both prepare the same reads, of which the first makes some on condition
(`Mirrors.prepareAll`). Both send them or neither does (`Mirrors.send`). And when the server answers
a read with "not modified", the first finds in the cache what the second is given
(`Mirrors.receive`).

For that, the cache has to hold the bodies of their versions (`HoldsBodies`), and the version that a
condition names until the response comes. The first holds of all that is put into the cache. The
second holds since nothing is forgotten as long as there is room, and what is put under the URL of a
read before its turn comes is what the server has for that read too. -/

namespace DocumentSession

open List (Forall₂)

/-- A response to `asked`. The cache has room for it, and neither it nor the response without a
condition has `forceRetry`. -/
structure Site.Exchange {bodies : String → String → Option Json} (site : Site bodies)
    (T : Finset String) (asked : Asked) (r : SubResponse) : Prop where
  responds : site.Responds asked.request r
  usable : r.forceRetry = false
  usable' : (site.current asked.request.plain).forceRetry = false
  room : r.isSuccess = true → (OpenSession.cacheable r).isSome = true → asked.request.cacheKey ∈ T

namespace OpenSession

variable {s s' t t' : OpenSession} {T : Finset String} {found : String → Option Cached}
  {bodies : String → String → Option Json} {site : Site bodies}

/-! ## A session without the cache -/

/-- `s` with the option `noCaching`. -/
def leavingCache (s : OpenSession) : OpenSession :=
  { s with session :=
      { s.session with options := { s.session.options with noCaching := true } } }

/-- `t` is `s.leavingCache` over some cache, after as many requests. -/
def Mirrors (s t : OpenSession) : Prop :=
  ∃ cache sent, sent.length = s.connection.sent.length
    ∧ t = { s.leavingCache with connection := { s.connection with cache, sent } }

namespace Mirrors

theorem leavingCache (s : OpenSession) : s.Mirrors s.leavingCache :=
  ⟨s.connection.cache, s.connection.sent, rfl, rfl⟩

theorem uncached (h : Mirrors s t) : t.Uncached := by
  obtain ⟨cache, sent, -, rfl⟩ := h
  exact Or.inl rfl

theorem workspace (h : Mirrors s t) : t.workspace = s.workspace := by
  obtain ⟨cache, sent, -, rfl⟩ := h
  rfl

theorem withCache (h : Mirrors s t) (cache : Option SharedCache) :
    Mirrors (s.withCache cache) t := by
  obtain ⟨cache', sent, hsent, rfl⟩ := h
  exact ⟨cache', sent, hsent, rfl⟩

theorem withWorkspace (h : Mirrors s t) (w : Workspace) :
    Mirrors (s.withWorkspace w) (t.withWorkspace w) := by
  obtain ⟨cache, sent, hsent, rfl⟩ := h
  exact ⟨cache, sent, hsent, rfl⟩

theorem deliver (h : Mirrors s t) (handle : Handle) (value : Except Error LazyValue) :
    Mirrors (s.deliver handle value) (t.deliver handle value) := by
  obtain ⟨cache, sent, hsent, rfl⟩ := h
  exact ⟨cache, sent, hsent, rfl⟩

theorem failAll (h : Mirrors s t) (e : Error) (batch : List Asked) :
    Mirrors (s.failAll e batch) (t.failAll e (batch.map Asked.plain)) := by
  induction batch generalizing s t with
  | nil => exact h
  | cons asked rest ih => exact ih (h.deliver asked.pending.handle (.error e))

theorem count (h : Mirrors s t) (operation : String) :
    (t.count operation).1 = (s.count operation).1
      ∧ Mirrors (s.count operation).2 (t.count operation).2 := by
  obtain ⟨cache, sent, hsent, rfl⟩ := h
  exact ⟨rfl, cache, sent, hsent, rfl⟩

theorem execute (h : Mirrors s t) (r r' : Request) :
    Mirrors { s with connection := (s.connection.execute r).2 }
      { t with connection := (t.connection.execute r').2 } := by
  obtain ⟨cache, sent, hsent, rfl⟩ := h
  refine ⟨cache, sent ++ [r'], ?_, rfl⟩
  show (sent ++ [r']).length = (s.connection.sent ++ [r]).length
  rw [List.length_append, List.length_append, hsent]
  rfl

end Mirrors

/-! ## A session that uses the cache -/

/-- `s` uses a cache in memory, which has room for the URLs in `T` and in which `found` is what is
found. -/
structure Caches (s : OpenSession) (T : Finset String) (found : String → Option Cached) : Prop where
  caching : s.session.options.noCaching = false
  cache : ∃ c, s.connection.cache = some c ∧ c.forgetful = false ∧ c.cache.HasRoom T
    ∧ c.cache.found = found

namespace Caches

theorem of_same (h : s.Caches T found)
    (hcaching : s'.session.options.noCaching = s.session.options.noCaching)
    (hcache : s'.connection.cache = s.connection.cache) : s'.Caches T found :=
  ⟨hcaching.trans h.caching, by rw [hcache]; exact h.cache⟩

/-- `s.cached` answers what is `found`, and keeps it. -/
theorem cached (h : s.Caches T found) (url : String) :
    ∃ cache, s.cached url = (found url, s.withCache cache)
      ∧ (s.withCache cache).Caches T found := by
  obtain ⟨c, hcache, hkept, hroom, rfl⟩ := h.cache
  refine ⟨some (c.get url).2, ?_, h.caching, (c.get url).2, rfl, hkept,
    SharedCache.hasRoom_get hroom url, ?_⟩
  · unfold OpenSession.cached Connection.cached
    rw [h.caching, if_neg Bool.false_ne_true, hcache]
    dsimp only
    rw [SharedCache.get_fst]
    rfl
  · funext url'
    rw [SharedCache.found_get, hkept, if_neg (fun h => Bool.false_ne_true h.1)]

/-- After `s.remember` the entry is found under `url`, unless the capacity is 0, and every other URL
has what it had. -/
theorem remember (h : s.Caches T found) {url : String} (hurl : url ∈ T) (new : Cached) :
    ∃ cache found', s.remember url new = s.withCache cache ∧ (s.withCache cache).Caches T found'
      ∧ ∀ url', found' url' = found url' ∨ (url = url' ∧ found' url' = some new) := by
  obtain ⟨c, hcache, hkept, hroom, rfl⟩ := h.cache
  refine ⟨some (c.set url new), (c.set url new).cache.found, ?_,
    ⟨h.caching, c.set url new, rfl, hkept, hroom.set hurl new, rfl⟩, ?_⟩
  · unfold OpenSession.remember Connection.remember
    rw [h.caching, if_neg Bool.false_ne_true, hcache]
    rfl
  · intro url'
    show (c.cache.set url new).found url' = _ ∨ _ ∧ (c.cache.set url new).found url' = _
    rw [hroom.found_set hurl]
    split
    · next hwritten => exact Or.inr ⟨hwritten.2, rfl⟩
    · exact Or.inl rfl

theorem failAll (h : s.Caches T found) (e : Error) (batch : List Asked) :
    (s.failAll e batch).Caches T found := by
  induction batch generalizing s with
  | nil => exact h
  | cons asked rest ih => exact ih (s := s.deliver asked.pending.handle _) (h.of_same rfl rfl)

end Caches

/-! ## Asking -/

/-- `asked` is the request of `p`, on the condition of the version that is cached if there is
one. -/
structure Asks (found : String → Option Cached) (p : Pending) (asked : Asked) : Prop where
  plain : p.read.Requests asked.request.plain
  condition : asked.request.headers.find? "If-None-Match"
    = (found asked.request.cacheKey).map (quoted ·.changeVector)

theorem Asks.backs {p : Pending} {asked : Asked} (h : Asks found p asked) (site : Site bodies) :
    site.Backs found asked.request := by
  rintro ⟨-, tag, -, hknown⟩
  have hcondition := h.condition
  rw [hknown] at hcondition
  obtain ⟨cached, hfound, htag⟩ := Option.map_eq_some_iff.mp hcondition.symm
  exact ⟨cached, hfound, by rw [hknown, htag]⟩

/-- Two reads with one URL have the same request, up to the condition. -/
theorem plain_eq_of_url {pending : List Pending} (hqueries : HashesApart pending)
    {asked asked' : Asked} (hasked : ∃ p ∈ pending, Asks found p asked)
    (hasked' : ∃ p ∈ pending, Asks found p asked')
    (hurl : asked.request.cacheKey = asked'.request.cacheKey) :
    asked.request.plain = asked'.request.plain := by
  obtain ⟨p, hp, hasks⟩ := hasked
  obtain ⟨p', hp', hasks'⟩ := hasked'
  exact hasks.plain.eq_of_url hasks'.plain (hqueries p hp p' hp') hurl

theorem Mirrors.prepare (h : Mirrors s t) (hcaches : s.Caches T found) (p : Pending) :
    ∃ asked s' t', s.prepare p = (asked, s') ∧ t.prepare p = (asked.map Asked.plain, t')
      ∧ Mirrors s' t' ∧ s'.Caches T found ∧ ∀ a ∈ asked, Asks found p a := by
  have hworkspace := h.workspace
  rcases hprepare : p.read.prepare s.workspace with ⟨value | ⟨request, read⟩, w⟩
  · exact ⟨none, _, _, prepare_of_answered hprepare,
      prepare_of_answered (by rw [hworkspace, hprepare]), (h.withWorkspace w).deliver _ _,
      hcaches.of_same rfl rfl, by simp⟩
  · have hrequests := LazyRead.requests_of_asks hprepare
    have hafter : (s.withWorkspace w).Caches T found := hcaches.of_same rfl rfl
    obtain ⟨cache, hcached, hread⟩ := hafter.cached request.cacheKey
    have hasked : s.prepare p
        = (some ⟨{ p with read }, (found request.cacheKey).elim request (conditional request)⟩,
          (s.withWorkspace w).withCache cache) := by
      unfold OpenSession.prepare locally
      rw [hprepare]
      dsimp only
      rw [hcached]
    have hplain := plain_conditional hrequests.headers (found request.cacheKey)
    refine ⟨_, _, _, hasked, ?_, (h.withWorkspace w).withCache cache, hread, ?_⟩
    · rw [prepare_of_asks h.uncached (by rw [hworkspace, hprepare]), Option.map_some]
      unfold Asked.plain
      dsimp only
      rw [hplain]
    · intro asked hasked
      obtain rfl := Option.some.inj hasked
      constructor
      · rw [hplain]
        exact hrequests
      · rw [find?_conditional hrequests.headers, Alike.cacheKey_conditional]

theorem Mirrors.prepareAll (h : Mirrors s t) (hcaches : s.Caches T found)
    (pending : List Pending) :
    ∃ batch s' t', s.prepareAll pending = (batch, s')
      ∧ t.prepareAll pending = (batch.map Asked.plain, t') ∧ Mirrors s' t' ∧ s'.Caches T found
      ∧ ∀ asked ∈ batch, ∃ p ∈ pending, Asks found p asked := by
  induction pending generalizing s t with
  | nil => exact ⟨[], s, t, rfl, rfl, h, hcaches, by simp⟩
  | cons p rest ih =>
    obtain ⟨asked, s₁, t₁, hs, ht, hfirst, hcaches₁, hasks⟩ := h.prepare hcaches p
    obtain ⟨batch, s₂, t₂, hs', ht', hrest, hcaches₂, hasks'⟩ := ih hfirst hcaches₁
    refine ⟨asked.toList ++ batch, s₂, t₂, ?_, ?_, hrest, hcaches₂, ?_⟩
    · unfold OpenSession.prepareAll
      rw [hs]
      dsimp only
      rw [hs']
    · unfold OpenSession.prepareAll
      rw [ht]
      dsimp only
      rw [ht', List.map_append]
      cases asked <;> rfl
    · intro a hmem
      rcases List.mem_append.mp hmem with hmem | hmem
      · exact ⟨p, List.mem_cons_self, hasks a (Option.mem_toList.mp hmem)⟩
      · obtain ⟨p', hp', hasked⟩ := hasks' a hmem
        exact ⟨p', List.mem_cons_of_mem _ hp', hasked⟩

/-! ## Through the cache -/

theorem eq_of_cacheable {r : SubResponse} {new : Cached} (h : cacheable r = some new) :
    ∃ tag, r.header "ETag" = some tag ∧ new.changeVector = unquoted tag
      ∧ r.result = some new.body := by
  unfold cacheable at h
  obtain ⟨tag, htag, h⟩ := Option.bind_eq_some_iff.mp h
  obtain ⟨body, hbody, h⟩ := Option.bind_eq_some_iff.mp h
  obtain rfl := Option.some.inj h
  exact ⟨tag, htag, rfl, hbody⟩

/-- The responses are the same, or both succeed with the same result. -/
def ReadsAs (r' r : SubResponse) : Prop :=
  r' = r ∨ (r'.isSuccess = true ∧ r.isSuccess = true ∧ r'.result = r.result)

/-- The result of a response "not modified" is taken from the cache. -/
theorem Caches.throughCache_of_unchanged (hcaches : s.Caches T found)
    (hbodies : HoldsBodies bodies found) {r : SubRequest} {response : SubResponse}
    (hunchanged : site.Unchanged r) (hnotModified : response.isNotModified = true)
    (hbacked : site.Backs found r) :
    ∃ response' cache, s.throughCache r.cacheKey response = (response', s.withCache cache)
      ∧ (s.withCache cache).Caches T found ∧ response'.forceRetry = response.forceRetry
      ∧ ReadsAs response' (site.current r.plain) := by
  obtain ⟨cached, hfound, hbody⟩ := hbacked.result_eq hbodies hunchanged
  obtain ⟨cache, hcached, hafter⟩ := hcaches.cached r.cacheKey
  refine ⟨{ response with result := some cached.body, status := 200 }, cache, ?_, hafter, rfl,
    Or.inr ⟨rfl, hunchanged.1, hbody.symm⟩⟩
  unfold OpenSession.throughCache
  rw [if_pos hnotModified, hcached, hfound]

/-- What the server has for a read is put into the cache if it has a version. Reads under the same
URL may still rely on the cache. -/
theorem Caches.throughCache_of_current (hcaches : s.Caches T found)
    (hbodies : HoldsBodies bodies found) {r : SubRequest}
    (hroom : (site.current r.plain).isSuccess = true →
      (cacheable (site.current r.plain)).isSome = true → r.cacheKey ∈ T) :
    ∃ cache found', s.throughCache r.cacheKey (site.current r.plain)
        = (site.current r.plain, s.withCache cache)
      ∧ (s.withCache cache).Caches T found' ∧ HoldsBodies bodies found'
      ∧ ∀ r', (r.cacheKey = r'.cacheKey → r.plain = r'.plain) → site.Backs found r' →
        site.Backs found' r' := by
  have hkept : s.withCache s.connection.cache = s := rfl
  unfold OpenSession.throughCache
  rw [site.isNew, if_neg Bool.false_ne_true]
  split
  · next hsuccess =>
    split
    · next new hnew =>
      obtain ⟨tag, htag, hversion, hresult⟩ := eq_of_cacheable hnew
      obtain ⟨version, hquotes, rfl, hbody⟩ := site.tagged r.plain tag hsuccess htag
      rw [unquoted_quoted hquotes] at hversion
      obtain ⟨cache, found', hremember, hafter, hwritten⟩ :=
        hcaches.remember (hroom hsuccess (by rw [hnew]; rfl)) new
      refine ⟨cache, found', by rw [hremember], hafter, ?_, ?_⟩
      · intro url cached hcached
        rcases hwritten url with hbefore | ⟨rfl, hnow⟩
        · exact hbodies url cached (hbefore.symm.trans hcached)
        · obtain rfl := Option.some.inj (hnow.symm.trans hcached)
          rw [hversion]
          exact hbody.symm.trans hresult
      · intro r' hsame hbacked hunchanged
        rcases hwritten r'.cacheKey with hbefore | ⟨hurl, hnow⟩
        · rw [hbefore]
          exact hbacked hunchanged
        · -- the server has the same for both, so this is the version that the condition names
          obtain ⟨-, tag, htag', hknown⟩ := hunchanged
          rw [← hsame hurl] at htag'
          refine ⟨new, hnow, ?_⟩
          rw [hversion, hknown]
          exact htag'.symm.trans htag
    · exact ⟨s.connection.cache, found, by rw [hkept], hcaches, hbodies, fun _ _ h => h⟩
  · exact ⟨s.connection.cache, found, by rw [hkept], hcaches, hbodies, fun _ _ h => h⟩

/-! ## Receiving -/

theorem ReadsAs.receive {r r' : SubResponse} (h : ReadsAs r' r) (read : LazyRead) (w : Workspace) :
    read.receive w r' = read.receive w r := by
  rcases h with rfl | ⟨hsuccess', hsuccess, hresult⟩
  · rfl
  · have hfound : ∀ r : SubResponse, r.isSuccess = true → r.status ≠ 404 := by
      intro r hr h404
      unfold SubResponse.isSuccess at hr
      rw [h404] at hr
      cases hr
    cases read with
    | load type ids includes requested =>
      unfold LazyRead.receive LazyRead.takeLoaded
      dsimp only
      rw [if_neg (hfound r hsuccess), if_neg (hfound r' hsuccess'), hresult]
    | query type q tracking =>
      unfold LazyRead.receive
      rw [hresult]
    | count q =>
      unfold LazyRead.receive
      rw [hresult]

theorem ReadsAs.handOver {r r' : SubResponse} (h : ReadsAs r' r) (s : OpenSession)
    (asked : Asked) : s.handOver asked r' = s.handOver asked r := by
  unfold OpenSession.handOver
  rw [h.receive]
  rcases h with rfl | ⟨hsuccess', hsuccess, -⟩
  · rfl
  · rw [hsuccess, hsuccess']
    rfl

theorem Mirrors.handOver (h : Mirrors s t) (asked : Asked) (r : SubResponse) :
    Mirrors (s.handOver asked r) (t.handOver asked.plain r) := by
  unfold OpenSession.handOver
  rw [h.workspace]
  split
  · exact h.deliver _ _
  · exact (h.withWorkspace _).deliver _ _

theorem Caches.handOver (h : s.Caches T found) (asked : Asked) (r : SubResponse) :
    (s.handOver asked r).Caches T found := by
  unfold OpenSession.handOver
  split <;> exact h.of_same rfl rfl

/-- `receive` gives a read the same value with the cache and without it. -/
theorem Mirrors.receive (h : Mirrors s t) (hcaches : s.Caches T found)
    (hbodies : HoldsBodies bodies found) {asked : Asked} {r : SubResponse}
    (hexchange : site.Exchange T asked r) (hbacked : site.Backs found asked.request) :
    ∃ s' t' found', s.receive asked r = (none, s')
      ∧ t.receive asked.plain (site.current asked.request.plain) = (none, t')
      ∧ Mirrors s' t' ∧ s'.Caches T found' ∧ HoldsBodies bodies found'
      ∧ ∀ r', (asked.request.cacheKey = r'.cacheKey → asked.request.plain = r'.plain) →
        site.Backs found r' → site.Backs found' r' := by
  have hplain : t.receive asked.plain (site.current asked.request.plain)
      = (none, t.handOver asked.plain (site.current asked.request.plain)) :=
    receive_of_throughCache (t.throughCache_of_uncached h.uncached _ (site.isNew _))
      hexchange.usable'
  rcases hexchange.responds with ⟨hunchanged, hnotModified⟩ | ⟨-, rfl⟩
  · obtain ⟨r', cache, hthrough, hafter, hretry, hreads⟩ :=
      hcaches.throughCache_of_unchanged hbodies hunchanged hnotModified hbacked
    have hreceive := receive_of_throughCache hthrough (hretry.trans hexchange.usable)
    rw [hreads.handOver] at hreceive
    exact ⟨_, _, found, hreceive, hplain, (h.withCache cache).handOver asked _,
      hafter.handOver asked _, hbodies, fun _ _ h => h⟩
  · obtain ⟨cache, found', hthrough, hafter, hbodies', hkeeps⟩ :=
      hcaches.throughCache_of_current hbodies hexchange.room
    exact ⟨_, _, found', receive_of_throughCache hthrough hexchange.usable, hplain,
      (h.withCache cache).handOver asked _, hafter.handOver asked _, hbodies', hkeeps⟩

theorem Mirrors.receiveAll (h : Mirrors s t) (hcaches : s.Caches T found)
    (hbodies : HoldsBodies bodies found) {batch : List Asked} {responses : List SubResponse}
    (hexchanges : Forall₂ (site.Exchange T) batch responses)
    (hbacked : ∀ asked ∈ batch, site.Backs found asked.request)
    (hurls : ∀ asked ∈ batch, ∀ asked' ∈ batch,
      asked.request.cacheKey = asked'.request.cacheKey →
        asked.request.plain = asked'.request.plain) :
    ∃ s' t' found', s.receiveAll batch responses = ([], s')
      ∧ t.receiveAll (batch.map Asked.plain)
          (batch.map (fun asked => site.current asked.request.plain)) = ([], t')
      ∧ Mirrors s' t' ∧ s'.Caches T found' ∧ HoldsBodies bodies found' := by
  induction hexchanges generalizing s t found with
  | nil => exact ⟨s, t, found, rfl, rfl, h, hcaches, hbodies⟩
  | @cons asked r batch responses hexchange _ ih =>
    obtain ⟨hurl, hurls⟩ := List.forall_mem_cons.mp hurls
    obtain ⟨s₁, t₁, found₁, hs, ht, hfirst, hcaches₁, hbodies₁, hkeeps⟩ :=
      h.receive hcaches hbodies hexchange (hbacked asked List.mem_cons_self)
    obtain ⟨s₂, t₂, found₂, hs', ht', hrest, hcaches₂, hbodies₂⟩ :=
      ih hfirst hcaches₁ hbodies₁
        (fun asked' hmem => hkeeps _ (hurl asked' (List.mem_cons_of_mem _ hmem))
          (hbacked asked' (List.mem_cons_of_mem _ hmem)))
        (fun asked' hmem asked'' hmem' => hurls asked' hmem asked'' (List.mem_cons_of_mem _ hmem'))
    refine ⟨s₂, t₂, found₂, ?_, ?_, hrest, hcaches₂, hbodies₂⟩
    · unfold OpenSession.receiveAll
      rw [hs]
      dsimp only
      rw [hs']
      rfl
    · rw [List.map_cons, List.map_cons]
      unfold OpenSession.receiveAll
      rw [ht]
      dsimp only
      rw [ht']
      rfl

/-! ## Sending -/

/-- The responses in an answer to `multi_get` that asked for `expected` reads. -/
def multiGetAnswer (answer : Except Halt Response) (expected : Nat) :
    Except Halt (List SubResponse) :=
  answer.bind fun response =>
    if response.isSuccess then (multiGetResponses response.body expected).mapError .failed
    else .error (.failed response.toError)

theorem sendRound_eq (s : OpenSession) (batch : List Asked) :
    s.sendRound batch = (multiGetAnswer (s.send "lazy" (Round.request batch)).1 batch.length,
      (s.send "lazy" (Round.request batch)).2) := by
  unfold sendRound sendForBody Round.request multiGetAnswer Except.bind
  dsimp only
  rcases s.send "lazy" _ with ⟨halt | response, s'⟩
  · rfl
  · dsimp only
    cases response.isSuccess <;> rfl

/-- The responses of an answer to `multi_get` are usable. -/
theorem usable_of_multiGetAnswer {answer : Except Halt Response} {expected : Nat}
    {responses : List SubResponse} (h : multiGetAnswer answer expected = .ok responses) :
    ∀ r ∈ responses, r.forceRetry = false := by
  unfold multiGetAnswer at h
  cases answer with
  | error halt => cases h
  | ok response =>
    unfold Except.bind at h
    dsimp only at h
    split at h
    · exact forceRetry_of_multiGetResponses (Except.eq_ok_of_mapError h)
    · cases h

/-- What the server answers if `batch` is sent next. -/
def multiGet (s : OpenSession) (batch : List Asked) : Except Halt (List SubResponse) :=
  multiGetAnswer
    (s.connection.server (s.connection.sent ++ [s.session.options.scope (Round.request batch)]))
    batch.length

theorem multiGet_of_prepareAll {pending : List Pending} {batch : List Asked}
    (h : s.prepareAll pending = (batch, s')) : s'.multiGet batch = s.multiGet batch := by
  have hdelivers := (s.prepareAll_delivers pending).1
  rw [h] at hdelivers
  unfold multiGet
  rw [(reads_prepareAll h).server, hdelivers.sent, hdelivers.options, List.append_nil]

/-- Both sessions refuse for one reason to send a request, or both send it. -/
theorem Mirrors.send (h : Mirrors s t) (operation : String) (r r' : Request) :
    Mirrors (s.send operation r).2 (t.send operation r').2
      ∧ ((∃ halt, (s.send operation r).1 = .error halt ∧ (t.send operation r').1 = .error halt)
        ∨ ((s.send operation r).1
            = s.connection.server (s.connection.sent ++ [s.session.options.scope r])
          ∧ (t.send operation r').1
            = t.connection.server (t.connection.sent ++ [t.session.options.scope r']))) := by
  have hcancelled : t.connection.cancelled = s.connection.cancelled := by
    obtain ⟨cache, sent, -, rfl⟩ := h
    rfl
  obtain ⟨hcounted, hafter⟩ := h.count operation
  unfold OpenSession.send
  rw [hcancelled]
  split
  · exact ⟨h, Or.inl ⟨_, rfl, rfl⟩⟩
  · rcases hs : s.count operation with ⟨counted, s₁⟩
    rcases ht : t.count operation with ⟨counted', t₁⟩
    rw [hs, ht] at hcounted hafter
    obtain rfl : counted' = counted := hcounted
    cases counted' with
    | error e => exact ⟨hafter, Or.inl ⟨_, rfl, rfl⟩⟩
    | ok _ =>
      refine ⟨hafter.execute _ _, Or.inr ?_⟩
      obtain ⟨_, _, rfl⟩ := count_eq hs
      obtain ⟨_, _, rfl⟩ := count_eq ht
      exact ⟨rfl, rfl⟩

theorem Mirrors.sendRound (h : Mirrors s t) (batch batch' : List Asked) :
    Mirrors (s.sendRound batch).2 (t.sendRound batch').2
      ∧ ((∃ halt, (s.sendRound batch).1 = .error halt ∧ (t.sendRound batch').1 = .error halt)
        ∨ ((s.sendRound batch).1 = s.multiGet batch
          ∧ (t.sendRound batch').1 = t.multiGet batch')) := by
  obtain ⟨hafter, hanswer⟩ := h.send "lazy" (Round.request batch) (Round.request batch')
  rw [sendRound_eq, sendRound_eq]
  refine ⟨hafter, ?_⟩
  rcases hanswer with ⟨halt, hs, ht⟩ | ⟨hs, ht⟩
  · exact Or.inl ⟨halt, by rw [hs]; rfl, by rw [ht]; rfl⟩
  · exact Or.inr ⟨by rw [hs]; rfl, by rw [ht]; rfl⟩

theorem Caches.sendRound (h : s.Caches T found) (batch : List Asked) :
    (s.sendRound batch).2.Caches T found := by
  rw [sendRound_eq]
  rcases hsend : s.send "lazy" (Round.request batch) with ⟨answer, s'⟩
  obtain ⟨budget, warnings, sent, rfl, -⟩ := send_eq hsend
  exact h.of_same rfl rfl

/-- Both answers hold a response for each read. -/
theorem exchanges_of_answers {batch : List Asked} {responses responses' : List SubResponse}
    {answer answer' : Except Halt Response} {expected expected' : Nat}
    (hanswer : multiGetAnswer answer expected = .ok responses)
    (hanswer' : multiGetAnswer answer' expected' = .ok responses')
    (hresponds : Forall₂ site.Responds (batch.map Asked.request) responses)
    (hresponds' : Forall₂ site.Responds ((batch.map Asked.plain).map Asked.request) responses')
    (hroom : ∀ asked r, (asked, r) ∈ batch.zip responses → r.isSuccess = true →
      (cacheable r).isSome = true → asked.request.cacheKey ∈ T) :
    Forall₂ (site.Exchange T) batch responses
      ∧ responses' = batch.map (fun asked => site.current asked.request.plain) := by
  have hcurrent : responses' = batch.map (fun asked => site.current asked.request.plain) := by
    have hplain : (batch.map Asked.plain).map Asked.request
        = (batch.map Asked.request).map SubRequest.plain := by
      rw [List.map_map, List.map_map]
      rfl
    rw [hplain] at hresponds'
    rw [Site.responds_plain hresponds', List.map_map]
    rfl
  refine ⟨?_, hcurrent⟩
  obtain ⟨hlength, hparts⟩ := List.forall₂_iff_zip.mp (List.forall₂_map_left_iff.mp hresponds)
  refine List.forall₂_iff_zip.mpr ⟨hlength, fun {asked r} hmem => ?_⟩
  obtain ⟨hasked, hr⟩ := List.of_mem_zip hmem
  refine ⟨hparts hmem, usable_of_multiGetAnswer hanswer r hr,
    usable_of_multiGetAnswer hanswer' _ ?_, hroom asked r hmem⟩
  rw [hcurrent]
  exact List.mem_map_of_mem hasked

/-- Two rounds that a server answers end for one reason, or each read has its responses in both. -/
theorem Mirrors.sendRound_served (h : Mirrors s t) {batch : List Asked}
    (hserved : site.Answers (batch.map Asked.request) (s.multiGet batch))
    (hserved' : site.Answers ((batch.map Asked.plain).map Asked.request)
      (t.multiGet (batch.map Asked.plain)))
    (hroom : ∀ responses, (s.sendRound batch).1 = .ok responses →
      ∀ asked r, (asked, r) ∈ batch.zip responses → r.isSuccess = true →
        (cacheable r).isSome = true → asked.request.cacheKey ∈ T) :
    (∃ halt, (s.sendRound batch).1 = .error halt
        ∧ (t.sendRound (batch.map Asked.plain)).1 = .error halt)
      ∨ ∃ responses, (s.sendRound batch).1 = .ok responses
        ∧ (t.sendRound (batch.map Asked.plain)).1
            = .ok (batch.map (fun asked => site.current asked.request.plain))
        ∧ Forall₂ (site.Exchange T) batch responses := by
  rcases (h.sendRound batch (batch.map Asked.plain)).2 with hrefused | ⟨hs, ht⟩
  · exact Or.inl hrefused
  · rw [hs] at hroom
    rw [hs, ht]
    -- the server is out of order for both or for neither
    cases hanswer : s.multiGet batch with
    | error halt =>
      rw [hanswer] at hserved
      cases hanswer' : t.multiGet (batch.map Asked.plain) with
      | error halt' =>
        rw [hanswer'] at hserved'
        obtain rfl := Option.some.inj (hserved.symm.trans hserved')
        exact Or.inl ⟨halt, rfl, rfl⟩
      | ok responses' =>
        rw [hanswer'] at hserved'
        cases hserved.symm.trans hserved'.1
    | ok responses =>
      rw [hanswer] at hserved
      cases hanswer' : t.multiGet (batch.map Asked.plain) with
      | error halt' =>
        rw [hanswer'] at hserved'
        cases hserved.1.symm.trans hserved'
      | ok responses' =>
        rw [hanswer'] at hserved'
        obtain ⟨hexchanges, rfl⟩ := exchanges_of_answers hanswer hanswer' hserved.2 hserved'.2
          (hroom responses hanswer)
        exact Or.inr ⟨responses, rfl, rfl, hexchanges⟩

end OpenSession

end DocumentSession
