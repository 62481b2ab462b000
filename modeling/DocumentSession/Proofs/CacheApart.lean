import Mathlib.Logic.Relation
import DocumentSession.Proofs.CacheAlike
import DocumentSession.Proofs.LazyAnswers

set_option autoImplicit false

/-! # Sessions over one cache

The sessions of a store share a response cache, in which `flush` reads and sets the cache keys of
its reads only (`OpenSession.flushUrls`). Over two caches that answer alike under these URLs, a
flush sends the same requests, delivers the same values, and leaves caches that answer alike again
(`flush_alike`).

A cache key has no database in it. So a session is not affected by those of another database as long
as their reads have no cache key in common (`flush_apart`); if they have, it may get the body that
the other one has cached (`flush_gives_body_of_other_database`). -/

namespace DocumentSession.OpenSession

variable {s s' : OpenSession} {U T : Finset String} {R : SharedCache → SharedCache → Prop}

/-- The session with another cache. -/
def withCache (s : OpenSession) (cache : Option SharedCache) : OpenSession :=
  { s with connection := { s.connection with cache } }

/-- Two sessions are the same up to their caches, which are related by `R`. -/
def Alike (R : SharedCache → SharedCache → Prop) (s s' : OpenSession) : Prop :=
  ∃ cache, s' = s.withCache cache ∧ Option.Rel R s.connection.cache cache

/-- Two answers are the same, and so are the sessions after them, up to caches related by `R`. -/
abbrev AlikeAnswers {α : Type} (R : SharedCache → SharedCache → Prop)
    (answered answered' : α × OpenSession) : Prop :=
  answered'.1 = answered.1 ∧ Alike R answered.2 answered'.2

/-! ## Work without the cache -/

namespace Alike

theorem locally {α : Type} (h : Alike R s s') (f : Workspace → α × Workspace) :
    AlikeAnswers R (s.locally f) (s'.locally f) := by
  obtain ⟨cache, rfl, hcache⟩ := h
  exact ⟨rfl, cache, rfl, hcache⟩

theorem deliver (h : Alike R s s') (handle : Handle) (value : Except Error LazyValue) :
    Alike R (s.deliver handle value) (s'.deliver handle value) := by
  obtain ⟨cache, rfl, hcache⟩ := h
  exact ⟨cache, rfl, hcache⟩

theorem warn (h : Alike R s s') (warning : Warning) :
    Alike R (s.warn warning) (s'.warn warning) := by
  obtain ⟨cache, rfl, hcache⟩ := h
  exact ⟨cache, rfl, hcache⟩

theorem send (h : Alike R s s') (operation : String) (r : Request) :
    AlikeAnswers R (s.send operation r) (s'.send operation r) := by
  obtain ⟨cache, rfl, hcache⟩ := h
  have hcancelled : (s.withCache cache).connection.cancelled = s.connection.cancelled := rfl
  have hcount : (s.withCache cache).count operation
      = ((s.count operation).1, (s.count operation).2.withCache cache) := rfl
  have hsame : (s.count operation).2.connection = s.connection := rfl
  unfold OpenSession.send
  rw [hcancelled, hcount]
  split
  · exact ⟨rfl, cache, rfl, hcache⟩
  · rcases hcounted : s.count operation with ⟨_ | _, s₁⟩
    all_goals
      rw [hcounted] at hsame
      replace hcache : Option.Rel R s₁.connection.cache cache := by
        rw [show s₁.connection = s.connection from hsame]
        exact hcache
      exact ⟨rfl, cache, rfl, hcache⟩

theorem sendForBody (h : Alike R s s') (operation : String) (r : Request) :
    AlikeAnswers R (s.sendForBody operation r) (s'.sendForBody operation r) := by
  obtain ⟨hanswer, hafter⟩ := h.send operation r
  unfold OpenSession.sendForBody
  rcases hsend : s.send operation r with ⟨answer, s₁⟩
  rcases hsend' : s'.send operation r with ⟨answer', s₁'⟩
  rw [hsend, hsend'] at hanswer hafter
  obtain rfl : answer' = answer := hanswer
  cases answer' with
  | error _ => exact ⟨rfl, hafter⟩
  | ok response =>
    dsimp only
    split <;> exact ⟨rfl, hafter⟩

theorem sendRound (h : Alike R s s') (batch : List Asked) :
    AlikeAnswers R (s.sendRound batch) (s'.sendRound batch) := by
  obtain ⟨hanswer, hafter⟩ := h.sendForBody "lazy" (Round.request batch)
  unfold Round.request at hanswer hafter
  unfold OpenSession.sendRound
  dsimp only
  rw [hanswer]
  exact ⟨rfl, hafter⟩

theorem failAll (h : Alike R s s') (e : Error) (batch : List Asked) :
    Alike R (s.failAll e batch) (s'.failAll e batch) := by
  induction batch generalizing s s' with
  | nil => exact h
  | cons asked rest ih => exact ih (h.deliver asked.pending.handle (.error e))

theorem giveUp (h : Alike R s s') (batch : List Asked) :
    Alike R (s.giveUp batch) (s'.giveUp batch) := by
  induction batch generalizing s s' with
  | nil => exact h
  | cons asked rest ih =>
    exact ih ((h.warn .lazyGaveUp).deliver asked.pending.handle
      (.error (gaveUp asked.pending.read)))

/-! ## Work with the cache -/

theorem cached (h : Alike R s s') (hR : AnswersAlike U R) {url : String}
    (hurl : s.session.options.noCaching = true ∨ url ∈ U) :
    AlikeAnswers R (s.cached url) (s'.cached url) := by
  obtain ⟨cache, rfl, hcache⟩ := h
  have hoptions : (s.withCache cache).session.options = s.session.options := rfl
  unfold OpenSession.cached
  rw [hoptions]
  split
  · exact ⟨rfl, cache, rfl, hcache⟩
  · next hon =>
    have hmem := hurl.resolve_left hon
    have hother : (s.withCache cache).connection.cache = cache := rfl
    unfold Connection.cached
    rw [hother]
    cases hown : s.connection.cache with
    | none =>
      rw [hown] at hcache
      cases hcache
      exact ⟨rfl, none, rfl, by rw [hown]; exact .none⟩
    | some c =>
      rw [hown] at hcache
      cases hcache with
      | @some c c' hrelated =>
        obtain ⟨hfound, hread⟩ := hR.get hrelated hmem
        exact ⟨hfound, some (c'.get url).2, rfl, .some hread⟩

theorem remember (h : Alike R s s') (hR : AnswersAlike U R) {url : String}
    (hurl : s.session.options.noCaching = true ∨ url ∈ U) (cached : Cached) :
    Alike R (s.remember url cached) (s'.remember url cached) := by
  obtain ⟨cache, rfl, hcache⟩ := h
  have hoptions : (s.withCache cache).session.options = s.session.options := rfl
  unfold OpenSession.remember
  rw [hoptions]
  split
  · exact ⟨cache, rfl, hcache⟩
  · next hon =>
    refine ⟨cache.map (·.set url cached), rfl, ?_⟩
    show Option.Rel R (s.connection.cache.map (·.set url cached)) _
    revert hcache
    generalize s.connection.cache = own
    intro hcache
    cases hcache with
    | none => exact .none
    | some hrelated => exact .some (hR.set cached hrelated (hurl.resolve_left hon))

theorem throughCache (h : Alike R s s') (hR : AnswersAlike U R) {url : String}
    (hurl : s.session.options.noCaching = true ∨ url ∈ U) (r : SubResponse) :
    AlikeAnswers R (s.throughCache url r) (s'.throughCache url r) := by
  unfold OpenSession.throughCache
  split
  · obtain ⟨hfound, hafter⟩ := h.cached hR hurl
    rcases hcached : s.cached url with ⟨found, s₁⟩
    rcases hcached' : s'.cached url with ⟨found', s₁'⟩
    rw [hcached, hcached'] at hfound hafter
    obtain rfl : found' = found := hfound
    cases found' with
    | none => exact ⟨rfl, hafter⟩
    | some _ => exact ⟨rfl, hafter⟩
  · split
    · split
      · exact ⟨rfl, h.remember hR hurl _⟩
      · exact ⟨rfl, h⟩
    · exact ⟨rfl, h⟩

/-! ## Reads one after the other -/

/-- A conditional request has the same cache key. -/
theorem cacheKey_conditional (request : SubRequest) (found : Option Cached) :
    (found.elim request (conditional request)).cacheKey = request.cacheKey := by
  cases found <;> rfl

theorem prepare (h : Alike R s s') (hR : AnswersAlike U R) {p : Pending}
    (hurls : s.session.options.noCaching = true
      ∨ ∀ asked ∈ (s.prepare p).1.toList, asked.request.cacheKey ∈ U) :
    AlikeAnswers R (s.prepare p) (s'.prepare p) := by
  obtain ⟨hprepared, hafter⟩ := h.locally p.read.prepare
  unfold OpenSession.prepare at hurls ⊢
  rcases hlocal : s.locally p.read.prepare with ⟨prepared, s₁⟩
  rcases hlocal' : s'.locally p.read.prepare with ⟨prepared', s₁'⟩
  have hoptions := (Rests.locally hlocal).options
  rw [hlocal, hlocal'] at hprepared hafter
  rw [hlocal] at hurls
  obtain rfl : prepared' = prepared := hprepared
  cases prepared' with
  | answered value => exact ⟨rfl, hafter.deliver p.handle value⟩
  | asks request read =>
    have hurl : s₁.session.options.noCaching = true ∨ request.cacheKey ∈ U := by
      rw [hoptions]
      refine hurls.imp_right fun hall => ?_
      rw [← cacheKey_conditional request (s₁.cached request.cacheKey).1]
      exact hall _ (List.mem_singleton_self _)
    obtain ⟨hfound, hcached⟩ := hafter.cached hR hurl
    exact ⟨by dsimp only; rw [hfound], hcached⟩

theorem prepareAll (h : Alike R s s') (hR : AnswersAlike U R) {pending : List Pending}
    (hurls : s.session.options.noCaching = true
      ∨ ∀ asked ∈ (s.prepareAll pending).1, asked.request.cacheKey ∈ U) :
    AlikeAnswers R (s.prepareAll pending) (s'.prepareAll pending) := by
  induction pending generalizing s s' with
  | nil => exact ⟨rfl, h⟩
  | cons p rest ih =>
    unfold OpenSession.prepareAll at hurls ⊢
    dsimp only at hurls ⊢
    obtain ⟨hfirst, hafter⟩ := h.prepare (p := p) hR
      (hurls.imp_right fun hall asked hmem => hall asked (List.mem_append_left _ hmem))
    have hoptions := (s.prepare_delivers p).1.options
    obtain ⟨hothers, hrest⟩ := ih hafter (by
      rw [hoptions]
      exact hurls.imp_right fun hall asked hmem => hall asked (List.mem_append_right _ hmem))
    exact ⟨by rw [hfirst, hothers], hrest⟩

theorem receive (h : Alike R s s') (hR : AnswersAlike U R) {asked : Asked}
    (hurl : s.session.options.noCaching = true ∨ asked.request.cacheKey ∈ U) (r : SubResponse) :
    AlikeAnswers R (s.receive asked r) (s'.receive asked r) := by
  obtain ⟨hr, hafter⟩ := h.throughCache hR hurl r
  unfold OpenSession.receive
  rcases hthrough : s.throughCache asked.request.cacheKey r with ⟨r₁, s₁⟩
  rcases hthrough' : s'.throughCache asked.request.cacheKey r with ⟨r₁', s₁'⟩
  rw [hthrough, hthrough'] at hr hafter
  obtain rfl : r₁' = r₁ := hr
  dsimp only
  split
  · exact ⟨rfl, hafter.warn .lazyRetry⟩
  · split
    · exact ⟨rfl, hafter.deliver _ _⟩
    · obtain ⟨hvalue, hreceived⟩ := hafter.locally (asked.pending.read.receive · r₁')
      refine ⟨rfl, ?_⟩
      rw [hvalue]
      exact hreceived.deliver _ _

theorem receiveAll (h : Alike R s s') (hR : AnswersAlike U R) {batch : List Asked}
    (hurls : s.session.options.noCaching = true
      ∨ ∀ asked ∈ batch, asked.request.cacheKey ∈ U) (responses : List SubResponse) :
    AlikeAnswers R (s.receiveAll batch responses) (s'.receiveAll batch responses) := by
  induction batch generalizing s s' responses with
  | nil => exact ⟨rfl, h⟩
  | cons asked batch ih =>
    cases responses with
    | nil => exact ⟨rfl, h⟩
    | cons r responses =>
      unfold OpenSession.receiveAll
      dsimp only
      obtain ⟨hfirst, hafter⟩ := h.receive hR
        (hurls.imp_right fun hall => hall asked List.mem_cons_self) r
      have hoptions := (s.receive_delivers asked r).1.options
      obtain ⟨hothers, hrest⟩ := ih hafter (by
        rw [hoptions]
        exact hurls.imp_right fun hall asked hmem => hall asked (List.mem_cons_of_mem _ hmem))
        responses
      exact ⟨by rw [hfirst, hothers], hrest⟩

end Alike

/-! ## Flushes -/

/-- The reads that `prepareAll` sends are those of one of the rounds. -/
theorem Flushes.prepared {n : Nat} {pending : List Pending} {rounds : List Round}
    {answer : Except Halt Unit} (h : Flushes n s pending rounds answer s') :
    ∃ round ∈ rounds, round.batch = (s.prepareAll pending).1 := by
  cases h with
  | ends hprepare =>
    refine ⟨_, List.mem_singleton_self _, ?_⟩
    rw [batch_failedRound, hprepare]
  | halts hprepare hround =>
    refine ⟨_, List.mem_singleton_self _, ?_⟩
    rw [batch_failedRound, hprepare]
  | goesOn hprepare hround hreceive others =>
    refine ⟨_, List.mem_cons_self, ?_⟩
    rw [batch_answeredRound _ _ _ ((sendRound_sends hround).2 _ rfl), hprepare]

/-- What holds of the URLs of all rounds holds of those that `prepareAll` sends. -/
theorem urls_prepareAll {n : Nat} {pending : List Pending}
    (hurls : s.session.options.noCaching = true
      ∨ ∀ round ∈ roundsOf n s pending, ∀ asked ∈ round.batch, asked.request.cacheKey ∈ U) :
    s.session.options.noCaching = true
      ∨ ∀ asked ∈ (s.prepareAll pending).1, asked.request.cacheKey ∈ U := by
  obtain ⟨first, hmem, hfirst⟩ := (flushes_roundsOf n s pending).prepared
  rw [← hfirst]
  exact hurls.imp_right fun hall => hall first hmem

theorem Alike.flushRounds (h : Alike R s s') (hR : AnswersAlike U R) {n : Nat}
    {pending : List Pending}
    (hurls : s.session.options.noCaching = true
      ∨ ∀ round ∈ roundsOf n s pending, ∀ asked ∈ round.batch, asked.request.cacheKey ∈ U) :
    AlikeAnswers R (flushRounds n s pending) (flushRounds n s' pending) := by
  induction n generalizing s s' pending with
  | zero =>
    obtain ⟨hbatch, hprepared⟩ := h.prepareAll hR (urls_prepareAll hurls)
    unfold OpenSession.flushRounds
    rcases hprepare : s.prepareAll pending with ⟨batch, s₁⟩
    rcases hprepare' : s'.prepareAll pending with ⟨batch', s₁'⟩
    rw [hprepare, hprepare'] at hbatch hprepared
    obtain rfl : batch' = batch := hbatch
    cases batch' with
    | nil => exact ⟨rfl, hprepared⟩
    | cons asked batch => exact ⟨rfl, hprepared.giveUp (asked :: batch)⟩
  | succ n ih =>
    have hasked := urls_prepareAll hurls
    obtain ⟨hbatch, hprepared⟩ := h.prepareAll hR hasked
    have hoptions := (s.prepareAll_delivers pending).1.options
    unfold OpenSession.flushRounds
    unfold roundsOf at hurls
    rcases hprepare : s.prepareAll pending with ⟨batch, s₁⟩
    rcases hprepare' : s'.prepareAll pending with ⟨batch', s₁'⟩
    rw [hprepare] at hasked hurls hoptions
    rw [hprepare, hprepare'] at hbatch hprepared
    obtain rfl : batch' = batch := hbatch
    cases batch' with
    | nil => exact ⟨rfl, hprepared⟩
    | cons asked batch =>
      dsimp only at hurls ⊢
      obtain ⟨hanswer, hsent⟩ := hprepared.sendRound (asked :: batch)
      rcases hround : s₁.sendRound (asked :: batch) with ⟨answer, s₂⟩
      rcases hround' : s₁'.sendRound (asked :: batch) with ⟨answer', s₂'⟩
      rw [hround] at hurls
      rw [hround, hround'] at hanswer hsent
      obtain rfl : answer' = answer := hanswer
      cases answer' with
      | error halt => exact ⟨rfl, hsent.failAll (errorOf halt) (asked :: batch)⟩
      | ok responses =>
        obtain ⟨⟨_, hsends, -⟩, -⟩ := sendRound_sends hround
        have hreceives := (s₂.receiveAll_delivers (asked :: batch) responses).1.options
        obtain ⟨hagain, hreceived⟩ := hsent.receiveAll hR (by
          rw [hsends.options, hoptions]
          exact hasked) responses
        dsimp only at hurls ⊢
        rw [hagain]
        refine ih hreceived ?_
        rw [hreceives, hsends.options, hoptions]
        exact hurls.imp_right fun hall round hmem => hall round (List.mem_cons_of_mem _ hmem)

/-- The cache keys of the reads in a flush; none with `noCaching`. -/
def flushUrls (s : OpenSession) : Finset String :=
  if s.session.options.noCaching then ∅
  else (s.rounds.flatMap (fun round => round.batch.map (·.request.cacheKey))).toFinset

theorem flush_alike (hR : AnswersAlike s.flushUrls R) {cache : Option SharedCache}
    (hcache : Option.Rel R s.connection.cache cache) :
    AlikeAnswers R s.flush (s.withCache cache).flush := by
  have hemptied : Alike R { s with session := { s.session with pending := [] } }
      { s.withCache cache with session := { s.session with pending := [] } } :=
    ⟨cache, rfl, hcache⟩
  refine hemptied.flushRounds hR ?_
  show s.session.options.noCaching = true ∨ ∀ round ∈ s.rounds, _
  unfold flushUrls
  cases s.session.options.noCaching with
  | true => exact Or.inl rfl
  | false =>
    refine Or.inr fun round hround asked hasked => ?_
    exact List.mem_toFinset.mpr (List.mem_flatMap.mpr ⟨round, hround, List.mem_map_of_mem hasked⟩)

/-! ## Sessions kept apart -/

/-- The cache before and after the flush of a session whose cache keys are in `T`. -/
def FlushOver (T : Finset String) (c c' : SharedCache) : Prop :=
  ∃ t : OpenSession, t.connection.cache = some c ∧ t.flush.2.connection.cache = some c'
    ∧ t.flushUrls ⊆ T

/-- Flushes with cache keys in `T` change nothing under those in `U`, as long as there is room. -/
theorem agrees_of_flushes {c c' : SharedCache} (hapart : Disjoint U T)
    (hroom : c.cache.HasRoom (U ∪ T)) (hflushes : Relation.ReflTransGen (FlushOver T) c c') :
    c.Agrees U c' ∧ c'.cache.HasRoom (U ∪ T) := by
  induction hflushes with
  | refl => exact ⟨.refl (hroom.mono Finset.subset_union_left), hroom⟩
  | @tail c₁ c₂ _ hflush ih =>
    obtain ⟨t, hbefore, hafter, hurls⟩ := hflush
    have hkept : Option.Rel (fun v v' => v' = v ∧ c.Agrees U v ∧ v.cache.HasRoom (U ∪ T))
        t.connection.cache t.connection.cache := by
      rw [hbefore]
      exact .some ⟨rfl, ih⟩
    obtain ⟨-, cache, -, hcache⟩ := flush_alike ((answersAlike_apart hapart c).mono hurls) hkept
    rw [hafter] at hcache
    cases hcache with
    | some hrelated => exact hrelated.2

/-- Over the cache `c` the flush has the same answer, sends the same requests with the same headers,
and delivers the same values. -/
structure FlushesAlike (s : OpenSession) (c : SharedCache) : Prop where
  answer : (s.withCache (some c)).flush.1 = s.flush.1
  sent : (s.withCache (some c)).flush.2.connection.sent = s.flush.2.connection.sent
  deliveries : (s.withCache (some c)).flush.2.deliveries = s.flush.2.deliveries
  session : (s.withCache (some c)).flush.2.session = s.flush.2.session
  shared : (s.withCache (some c)).flush.2.shared = s.flush.2.shared

theorem FlushesAlike.of_related {c c' : SharedCache} (hcache : s.connection.cache = some c)
    (hR : AnswersAlike s.flushUrls R) (hrelated : R c c') : s.FlushesAlike c' := by
  have hcaches : Option.Rel R s.connection.cache (some c') := by
    rw [hcache]
    exact .some hrelated
  obtain ⟨hanswer, cache, hafter, -⟩ := flush_alike hR hcaches
  exact ⟨hanswer, by rw [hafter]; rfl, by rw [hafter]; rfl, by rw [hafter]; rfl,
    by rw [hafter]; rfl⟩

/-- What a flush sends and delivers does not depend on what is cached under other URLs than its own.
Neither does it depend on earlier flushes of other sessions, as long as their URLs are disjoint from
its own and the cache has room for all of them. With `noCaching` it does not depend on the cache at
all. -/
theorem flush_apart {c : SharedCache} (hcache : s.connection.cache = some c) :
    (∀ c', c.SameUses s.flushUrls c' → s.FlushesAlike c')
      ∧ (∀ T c', Disjoint s.flushUrls T → c.cache.HasRoom (s.flushUrls ∪ T) →
        Relation.ReflTransGen (FlushOver T) c c' → s.FlushesAlike c')
      ∧ (s.session.options.noCaching = true → ∀ c', s.FlushesAlike c') := by
  refine ⟨?_, ?_, ?_⟩
  · intro c' hsame
    exact .of_related hcache (answersAlike_sameUses s.flushUrls) hsame
  · intro T c' hapart hroom hflushes
    exact .of_related hcache (answersAlike_agrees s.flushUrls)
      (agrees_of_flushes hapart hroom hflushes).1
  · intro hoff c'
    have hnone : s.flushUrls = ∅ := if_pos hoff
    refine .of_related (R := fun _ _ => True) hcache ?_ trivial
    rw [hnone]
    exact ⟨fun _ hurl => absurd hurl (Finset.notMem_empty _), fun _ _ _ => trivial⟩

/-! ## Two databases -/

/-- The reply to a multi-get of one document, with a change vector. -/
def userAnswer (name : String) : Json :=
  .obj [("Results", .arr [.obj
    [("Headers", .obj [("ETag", .str "\"A:1\"")]),
      ("Result", .obj [("Results", .arr [.obj
        [("@metadata", .obj [("@id", .str "users/1")]), ("Name", .str name)]])]),
      ("StatusCode", .nat 200)]])]

/-- A server of the databases `shop` and `bank`, each with its own document `users/1`. That of the
bank is not modified when it is asked for first. -/
def bothServers : Server := fun sent =>
  if sent.getLast?.map Request.path = some "/databases/shop/multi_get" then
    .ok (.ok (userAnswer "Al"))
  else if sent.length = 2 then
    .ok (.ok (.obj [("Results", .arr [.obj [("StatusCode", .nat 304)]])]))
  else .ok (.ok (userAnswer "Bob"))

/-- A cache without entries. -/
def emptyCache : SharedCache where
  cache := { capacity := 8 }

/-- A session of `shop` with a lazy load in `pending`. -/
def shopWaiting : OpenSession :=
  let shop : OpenSession :=
    { session := Session.new 1 {} { database := some "shop" }
      shared := {}
      connection := { server := bothServers, cache := some emptyCache }
      deliveries := {} }
  shop.perform (.lazyLoad Shop.anything ["users/1"] [])

/-- A session of `bank` over the same connection, once the shop has flushed, with a lazy load of
`id` in `pending`. -/
def bankWaiting (id : String) : OpenSession :=
  let bank : OpenSession :=
    { session := Session.new 2 {} { database := some "bank" }
      shared := {}
      connection := shopWaiting.flush.2.connection
      deliveries := {} }
  bank.perform (.lazyLoad Shop.anything [id] [])

/-- The names of the users that a session has entities of. -/
def names (s : OpenSession) : List (Option String) :=
  s.shared.entities.map (·.state.getStr? "Name")

/-- The lazy load of `users/2` is flushed as over an empty cache. -/
theorem flush_apart_other_user :
    ∃ c, shopWaiting.flush.2.connection.cache = some c ∧ c.cache.size = 1
      ∧ ((bankWaiting "users/2").withCache (some emptyCache)).FlushesAlike c := by
  have hcached : (shopWaiting.flush.2.connection.cache.map (·.cache.size)) = some 1 := by
    decide +kernel
  obtain ⟨c, hafter, hsize⟩ := Option.map_eq_some_iff.mp hcached
  refine ⟨c, hafter, hsize, ?_⟩
  refine (flush_apart (s := (bankWaiting "users/2").withCache (some emptyCache)) rfl).2.1
    shopWaiting.flushUrls c ?_ ⟨Keyed.sorted_nil, Or.inr ?_⟩
    (.single ⟨shopWaiting, rfl, hafter, Finset.Subset.refl _⟩)
  · decide +kernel
  · decide +kernel

/-- The lazy load of `users/1` is sent with the change vector that the shop has cached, and the bank
gets the body of the shop. -/
theorem flush_gives_body_of_other_database :
    (bankWaiting "users/1").rounds.map (·.batch.map (·.request.headers))
        = [[[("If-None-Match", "\"A:1\"")]], []]
      ∧ names (bankWaiting "users/1").flush.2 = [some "Al"]
      ∧ names ((bankWaiting "users/1").withCache (some emptyCache)).flush.2 = [some "Bob"] := by
  decide +kernel

end DocumentSession.OpenSession
