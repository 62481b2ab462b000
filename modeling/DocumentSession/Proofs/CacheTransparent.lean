import DocumentSession.Proofs.Mirrors

set_option autoImplicit false

/-! # The cache is transparent

Sessions share a response cache that is empty at first and never full. They flush one after the
other, while the documents of the server change. Whatever was flushed before, a flush delivers the
same values as without the cache, leaves the same session, and sends as many requests
(`flush_transparent`).

A flush needs one round for this: no read is sent again, since nothing is evicted
(`Mirrors.flushRounds`). What a flush puts into the cache is again what the next one relies on
(`Sound.of_history`). -/

namespace DocumentSession

open List (Forall₂)

/-- The URLs whose responses a round puts into the cache. -/
def Round.stored (r : Round) : List String :=
  match r.reply with
  | some (.ok responses) =>
    (r.batch.zip responses).filterMap (fun (asked, response) =>
      if response.isSuccess && (OpenSession.cacheable response).isSome then
        some asked.request.cacheKey
      else none)
  | _ => []

namespace OpenSession

variable {s s' t t' : OpenSession} {T : Finset String} {found : String → Option Cached}
  {bodies : String → String → Option Json} {site : Site bodies}

/-! ## One flush -/

/-- The server answers the multi-get of the first round, if there is one. -/
def ServedBy (s : OpenSession) (pending : List Pending) (site : Site bodies) : Prop :=
  (s.prepareAll pending).1 ≠ [] →
    site.Answers ((s.prepareAll pending).1.map Asked.request)
      (s.multiGet (s.prepareAll pending).1)

theorem mem_stored {n : Nat} {pending : List Pending} {batch : List Asked} {s₁ s₂ : OpenSession}
    {responses : List SubResponse} (hprepare : s.prepareAll pending = (batch, s₁))
    (hasked : batch ≠ []) (hround : s₁.sendRound batch = (.ok responses, s₂)) {asked : Asked}
    {r : SubResponse} (hmem : (asked, r) ∈ batch.zip responses) (hsuccess : r.isSuccess = true)
    (hcacheable : (cacheable r).isSome = true) :
    asked.request.cacheKey ∈ (roundsOf (n + 1) s pending).flatMap Round.stored := by
  have hlength := (sendRound_sends hround).2 responses rfl
  have hbatch := s.batch_answeredRound pending s₂ hlength
  have hfirst : asked.request.cacheKey ∈ (s.answeredRound pending batch responses s₂).stored := by
    unfold Round.stored
    rw [hbatch]
    refine List.mem_filterMap.mpr ⟨(asked, r), hmem, ?_⟩
    dsimp only
    rw [hsuccess, hcacheable]
    rfl
  obtain ⟨first, rest, rfl⟩ := List.exists_cons_of_ne_nil hasked
  rw [roundsOf, hprepare]
  dsimp only
  rw [hround]
  exact List.mem_flatMap.mpr ⟨_, List.mem_cons_self, hfirst⟩

theorem Mirrors.flushRounds (h : Mirrors s t) (hcaches : s.Caches T found)
    (hbodies : HoldsBodies bodies found) {pending : List Pending} (hqueries : HashesApart pending)
    (hserved : s.ServedBy pending site) (hserved' : t.ServedBy pending site) {n : Nat}
    (hroom : ∀ url ∈ (roundsOf (n + 1) s pending).flatMap Round.stored, url ∈ T) :
    ∃ answer s' t' found', flushRounds (n + 1) s pending = (answer, s')
      ∧ flushRounds (n + 1) t pending = (answer, t') ∧ Mirrors s' t' ∧ s'.Caches T found'
      ∧ HoldsBodies bodies found' := by
  obtain ⟨batch, s₁, t₁, hs, ht, hprepared, hcaches₁, hasks⟩ := h.prepareAll hcaches pending
  by_cases hasked : batch = []
  · subst hasked
    exact ⟨_, s₁, t₁, found, flushRounds_of_known hs, flushRounds_of_known ht, hprepared, hcaches₁,
      hbodies⟩
  · have hasked' : batch.map Asked.plain ≠ [] := mt List.map_eq_nil_iff.mp hasked
    unfold ServedBy at hserved hserved'
    rw [hs, ← multiGet_of_prepareAll hs] at hserved
    rw [ht, ← multiGet_of_prepareAll ht] at hserved'
    obtain ⟨hsent, -⟩ := hprepared.sendRound batch (batch.map Asked.plain)
    have hcaches₂ := hcaches₁.sendRound batch
    have hanswer := hprepared.sendRound_served (T := T) (hserved hasked) (hserved' hasked')
      (fun responses hanswer asked r hmem hsuccess hcacheable =>
        hroom _ (mem_stored hs hasked (Prod.ext hanswer rfl) hmem hsuccess hcacheable))
    rcases hround : s₁.sendRound batch with ⟨answer, s₂⟩
    rcases hround' : t₁.sendRound (batch.map Asked.plain) with ⟨answer', t₂⟩
    rw [hround] at hcaches₂
    rw [hround, hround'] at hsent hanswer
    rcases hanswer with ⟨halt, rfl, rfl⟩ | ⟨responses, rfl, rfl, hexchanges⟩
    · exact ⟨_, _, _, found, flushRounds_of_halt hs hasked hround,
        flushRounds_of_halt ht hasked' hround', hsent.failAll (errorOf halt) batch,
        hcaches₂.failAll _ _, hbodies⟩
    · have hbacked : ∀ asked ∈ batch, site.Backs found asked.request := by
        intro asked hmem
        obtain ⟨p, -, hasks⟩ := hasks asked hmem
        exact hasks.backs site
      obtain ⟨s₃, t₃, found', hreceive, hreceive', hafter, hcaches₃, hbodies'⟩ :=
        hsent.receiveAll hcaches₂ hbodies hexchanges hbacked (fun asked hmem asked' hmem' =>
          plain_eq_of_url hqueries (hasks asked hmem) (hasks asked' hmem'))
      exact ⟨_, s₃, t₃, found', flushRounds_of_answer hs hasked hround hreceive,
        flushRounds_of_answer ht hasked' hround' hreceive', hafter, hcaches₃, hbodies'⟩

/-- The session with nothing in `pending`. -/
def emptied (s : OpenSession) : OpenSession :=
  { s with session := { s.session with pending := [] } }

/-- The URLs whose responses a flush puts into the cache; none with `noCaching`. -/
def storedUrls (s : OpenSession) : Finset String :=
  if s.session.options.noCaching then ∅ else (s.rounds.flatMap Round.stored).toFinset

/-- The server answers the flush, with the cache and without it, and the cache has room for what the
flush puts there. -/
structure Served (s : OpenSession) (site : Site bodies) (T : Finset String) : Prop where
  /-- Queries with the same hash are the same. -/
  queries : HashesApart s.session.pending
  conditional : s.emptied.ServedBy s.session.pending site
  plain : s.leavingCache.emptied.ServedBy s.session.pending site
  room : s.storedUrls ⊆ T

/-- The flush has the same outcome as with `noCaching`. -/
structure Transparent (s : OpenSession) : Prop where
  answer : s.leavingCache.flush.1 = s.flush.1
  /-- The same values are delivered. -/
  deliveries : s.leavingCache.flush.2.deliveries = s.flush.2.deliveries
  session : s.leavingCache.flush.2.session = s.flush.2.leavingCache.session
  shared : s.leavingCache.flush.2.shared = s.flush.2.shared
  /-- As many requests are sent. -/
  requests : s.leavingCache.flush.2.connection.sent.length = s.flush.2.connection.sent.length

/-- The cache is not forgetful, has room for the URLs in `T`, and holds the bodies of the change
vectors that it stores. -/
structure Sound (bodies : String → String → Option Json) (T : Finset String)
    (c : SharedCache) : Prop where
  kept : c.forgetful = false
  room : c.cache.HasRoom T
  holdsBodies : HoldsBodies bodies c.cache.found

theorem Served.flush {c : SharedCache} (h : s.Served site T)
    (hcaching : s.session.options.noCaching = false) (hcache : s.connection.cache = some c)
    (hsound : Sound bodies T c) :
    s.Transparent ∧ ∃ c', s.flush.2.connection.cache = some c' ∧ Sound bodies T c' := by
  have hcaches : s.emptied.Caches T c.cache.found :=
    ⟨hcaching, c, hcache, hsound.kept, hsound.room, rfl⟩
  have hroom : ∀ url ∈ (roundsOf maxRounds s.emptied s.session.pending).flatMap Round.stored,
      url ∈ T := by
    intro url hmem
    refine h.room ?_
    unfold storedUrls
    rw [hcaching, if_neg Bool.false_ne_true]
    exact List.mem_toFinset.mpr hmem
  obtain ⟨answer, s', t', found', hs, ht, ⟨cache, sent, hsent, rfl⟩, hafter, hbodies⟩ :=
    (Mirrors.leavingCache s.emptied).flushRounds hcaches hsound.holdsBodies h.queries h.conditional
      h.plain hroom
  have hflush : s.flush = (answer, s') := hs
  have hflush' : s.leavingCache.flush
      = (answer, { s'.leavingCache with connection := { s'.connection with cache, sent } }) := ht
  obtain ⟨c', hcache', hkept, hroom', rfl⟩ := hafter.cache
  refine ⟨?_, c', by rw [hflush]; exact hcache', hkept, hroom', hbodies⟩
  constructor
  all_goals rw [hflush, hflush']
  · rfl
  · rfl
  · exact hsent

/-! ## Sessions with `noCaching` -/

/-- They do not change the cache. -/
theorem eq_of_noCaching {c c' : SharedCache} (h : s.session.options.noCaching = true)
    (hbefore : s.connection.cache = some c) (hafter : s.flush.2.connection.cache = some c') :
    c' = c := by
  have halike : AnswersAlike s.flushUrls (fun _ c' => c' = c) := by
    rw [show s.flushUrls = ∅ from if_pos h]
    exact ⟨fun _ hurl => absurd hurl (Finset.notMem_empty _),
      fun _ _ hurl => absurd hurl (Finset.notMem_empty _)⟩
  have hkept : Option.Rel (fun _ c' => c' = c) s.connection.cache s.connection.cache := by
    rw [hbefore]
    exact .some rfl
  obtain ⟨-, cache, hsame, hcaches⟩ := flush_alike halike hkept
  have hcache : s.flush.2.connection.cache = cache := congrArg (·.connection.cache) hsame
  rw [← hcache, hafter] at hcaches
  cases hcaches with
  | some hkept => exact hkept

theorem leavingCache_eq_self (h : s.session.options.noCaching = true) : s.leavingCache = s := by
  obtain ⟨⟨id, ⟨database, noTracking, noCaching⟩, work, budget, callbacks, pending⟩, shared,
    connection, deliveries⟩ := s
  obtain rfl : noCaching = true := h
  rfl

theorem Transparent.of_noCaching (h : s.session.options.noCaching = true) : s.Transparent := by
  have hoptions : s.flush.2.session.options = s.session.options := (reads_flush rfl).options
  have hafter := leavingCache_eq_self (s := s.flush.2) (by rw [hoptions]; exact h)
  constructor
  all_goals rw [leavingCache_eq_self h]
  rw [hafter]

/-! ## Histories -/

/-- The cache before and after a flush that the server answers. -/
def FlushThrough (bodies : String → String → Option Json) (T : Finset String)
    (c c' : SharedCache) : Prop :=
  ∃ (s : OpenSession) (site : Site bodies), s.connection.cache = some c ∧ s.Served site T
    ∧ s.flush.2.connection.cache = some c'

namespace Sound

theorem of_empty {c : SharedCache} (hmemory : c.forgetful = false)
    (hempty : c.cache.entries = []) (hroom : c.cache.capacity = 0 ∨ T.card ≤ c.cache.capacity) :
    Sound bodies T c := by
  refine ⟨hmemory, ⟨by rw [hempty]; exact Keyed.sorted_nil, ?_⟩, ?_⟩
  · rw [hempty]
    simpa [Keyed.keys] using hroom
  · intro url cached hfound
    unfold Cache.found at hfound
    rw [hempty] at hfound
    cases hfound

/-- A sound cache stays sound, whatever is flushed. -/
theorem of_history {c c' : SharedCache} (h : Sound bodies T c)
    (hhistory : Relation.ReflTransGen (FlushThrough bodies T) c c') : Sound bodies T c' := by
  induction hhistory with
  | refl => exact h
  | tail _ hflush ih =>
    obtain ⟨s, site, hbefore, hserved, hafter⟩ := hflush
    cases hcaching : s.session.options.noCaching with
    | true =>
      obtain rfl := eq_of_noCaching hcaching hbefore hafter
      exact ih
    | false =>
      obtain ⟨-, c₁, hafter', hsound⟩ := hserved.flush hcaching hbefore ih
      obtain rfl := Option.some.inj (hafter'.symm.trans hafter)
      exact hsound

end Sound

/-- Over a cache that was empty at first, is not forgetful and has room for all that is put there,
every flush has the same outcome as with `noCaching`, whatever was flushed before. The server may
have other documents each time, but under one URL only one body for each change vector. Queries in
one `pending` have the same hash only if they are the same. -/
theorem flush_transparent {c₀ c : SharedCache} (hmemory : c₀.forgetful = false)
    (hempty : c₀.cache.entries = [])
    (hroom : c₀.cache.capacity = 0 ∨ T.card ≤ c₀.cache.capacity)
    (hhistory : Relation.ReflTransGen (FlushThrough bodies T) c₀ c)
    (hcache : s.connection.cache = some c) (hserved : s.Served site T) : s.Transparent := by
  have hsound := (Sound.of_empty hmemory hempty hroom).of_history hhistory
  cases hcaching : s.session.options.noCaching with
  | true => exact .of_noCaching hcaching
  | false => exact (hserved.flush hcaching hcache hsound).1

/-! ## A document that is not modified -/

/-- The body of a load of `users/1`. -/
def oneVersion.body : Json :=
  .obj [("Results", .arr [.obj
    [("@metadata", .obj [("@id", .str "users/1")]), ("Name", .str "Al")]])]

/-- Its only change vector is `A:1`. -/
def oneVersion.bodyOf (_url version : String) : Option Json :=
  if version = "A:1" then some oneVersion.body else none

/-- A server with this one version of `users/1`. -/
def oneVersion : Site oneVersion.bodyOf where
  current _ := { result := some oneVersion.body, status := 200, headers := [("ETag", "\"A:1\"")] }
  isNew _ := rfl
  tagged r tag _ htag := by
    have hheader : headerOf [("ETag", "\"A:1\"")] "ETag" = some "\"A:1\"" := by decide +kernel
    obtain rfl := Option.some.inj (hheader.symm.trans htag)
    exact ⟨"A:1", by decide, rfl, rfl⟩

/-- Its response to one part of a multi-get. -/
def oneVersion.answer (part : Json) : Json :=
  if (part.get? "Headers").bind (·.getStr? "If-None-Match") = some "\"A:1\"" then
    .obj [("StatusCode", .nat 304)]
  else
    .obj [("Headers", .obj [("ETag", .str "\"A:1\"")]), ("Result", oneVersion.body),
      ("StatusCode", .nat 200)]

/-- The load of `users/1`. -/
def userLoad : SubRequest :=
  .ofRequest (loadRequest ["users/1"] [])

theorem responds_userLoad : oneVersion.Responds userLoad (oneVersion.current userLoad) :=
  Or.inr ⟨oneVersion.not_unchanged_plain userLoad, rfl⟩

/-- A session with this load in `pending` twice. -/
def loadingTwice (cache : SharedCache) : OpenSession where
  session :=
    { Session.new 1 {} {} with
      pending := [⟨0, .ofIds Shop.anything ["users/1"] []⟩,
        ⟨1, .ofIds Shop.anything ["users/1"] []⟩] }
  shared := {}
  connection :=
    { server := fun sent =>
        let parts := ((sent.getLast?.bind Request.body).bind (·.get? "Requests")).bind Json.items?
        .ok (.ok (.obj [("Results", .arr ((parts.getD []).map oneVersion.answer))]))
      cache := some cache }
  deliveries := { next := 2 }

/-- The cache after the first flush. -/
def filledCache : SharedCache :=
  (loadingTwice emptyCache).flush.2.connection.cache.getD emptyCache

theorem ServedBy.of_responds {pending : List Pending} {requests : List SubRequest}
    {responses : List SubResponse} (hup : site.outage = none)
    (hasked : (s.prepareAll pending).1.map Asked.request = requests)
    (hanswer : s.multiGet (s.prepareAll pending).1 = .ok responses)
    (hresponds : Forall₂ site.Responds requests responses) : s.ServedBy pending site := by
  intro _
  rw [hasked, hanswer]
  exact ⟨hup, hresponds⟩

theorem served_loadingTwice {cache : SharedCache} {request : SubRequest} {response : SubResponse}
    (hresponds : oneVersion.Responds request response)
    (hasked : ((loadingTwice cache).emptied.prepareAll (loadingTwice cache).session.pending).1.map
      Asked.request = [request, request])
    (hanswer : (loadingTwice cache).emptied.multiGet
      ((loadingTwice cache).emptied.prepareAll (loadingTwice cache).session.pending).1
        = .ok [response, response])
    (hroom : (loadingTwice cache).storedUrls ⊆ {userLoad.cacheKey}) :
    (loadingTwice cache).Served oneVersion {userLoad.cacheKey} := by
  have hloads : ∀ p ∈ (loadingTwice cache).session.pending, p.read.query? = none := by
    unfold loadingTwice
    simp [LazyRead.ofIds, LazyRead.query?]
  refine ⟨?_, .of_responds rfl hasked hanswer (.cons hresponds (.cons hresponds .nil)),
    .of_responds rfl ?_ ?_ (.cons responds_userLoad (.cons responds_userLoad .nil)), hroom⟩
  · intro p hp p' _ q hq
    rw [hloads p hp] at hq
    cases hq
  · rfl
  · rfl

/-- When the loads are flushed again, both are answered with 304. -/
theorem flush_transparent_unchanged :
    FlushThrough oneVersion.bodyOf {userLoad.cacheKey} emptyCache filledCache
      ∧ (loadingTwice filledCache).rounds.map (·.batch.map (·.request.headers))
        = [[[("If-None-Match", "\"A:1\"")], [("If-None-Match", "\"A:1\"")]], []]
      ∧ (loadingTwice filledCache).Transparent := by
  have hunchanged : oneVersion.Responds (conditional userLoad ⟨"A:1", oneVersion.body⟩)
      { result := none, status := 304 } :=
    Or.inl ⟨⟨rfl, _, rfl, rfl⟩, rfl⟩
  have hfirst : FlushThrough oneVersion.bodyOf {userLoad.cacheKey} emptyCache filledCache := by
    refine ⟨loadingTwice emptyCache, oneVersion, rfl,
      served_loadingTwice responds_userLoad ?_ ?_ ?_, ?_⟩
    · decide +kernel
    · decide +kernel
    · decide +kernel
    · have hsome : (loadingTwice emptyCache).flush.2.connection.cache.isSome = true := by
        decide +kernel
      obtain ⟨c, hc⟩ := Option.isSome_iff_exists.mp hsome
      unfold filledCache
      rw [hc]
      rfl
  have hsecond : (loadingTwice filledCache).Served oneVersion {userLoad.cacheKey} := by
    refine served_loadingTwice hunchanged ?_ ?_ ?_
    · decide +kernel
    · decide +kernel
    · decide +kernel
  exact ⟨hfirst, by decide +kernel,
    flush_transparent rfl rfl (Or.inr (by decide)) (.single hfirst) rfl hsecond⟩

end OpenSession

end DocumentSession
