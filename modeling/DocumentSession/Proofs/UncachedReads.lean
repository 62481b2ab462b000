import DocumentSession.Proofs.CacheApart
import DocumentSession.Proofs.ConditionalReads
import DocumentSession.Entity.Shop

set_option autoImplicit false

/-! # Reads marked `noCaching`

A query may ask that the response cache is not used for it (`Query.noCaching`, `disableCaching` once
it is frozen), and the mark gets as far as the `LazyRead` in `pending`
(`OpenSession.mark_of_lazyQuery`). There it ends: `flush` is what it would be if no read were marked
(`flush_unmarked`). So a marked read goes past the cache only where the cache has nothing for it at
its turn, and stores nothing of its response (`OpenSession.marked_reads_bypass_iff`); for one, in a
session with the option `noCaching`. -/

namespace DocumentSession

namespace LazyRead

/-- The query of the read has `disableCaching`. -/
def Marked (read : LazyRead) : Prop :=
  ∃ q, read.query? = some q ∧ q.disableCaching = true

/-- `read` without `disableCaching`. -/
def unmarked : LazyRead → LazyRead
  | .load type ids includes requested => .load type ids includes requested
  | .query type q tracking => .query type { q with disableCaching := false } tracking
  | .count q => .count { q with disableCaching := false }

theorem name_unmarked (read : LazyRead) : read.unmarked.name = read.name := by
  cases read <;> rfl

theorem receive_unmarked (read : LazyRead) (w : Workspace) (r : SubResponse) :
    read.unmarked.receive w r = read.receive w r := by
  cases read <;> rfl

/-- A prepared read without `disableCaching` in what waits for the response. -/
def Prepared.unmarked : Prepared → Prepared
  | .answered value => .answered value
  | .asks request read => .asks request read.unmarked

theorem prepare_unmarked (read : LazyRead) (w : Workspace) :
    read.unmarked.prepare w = ((read.prepare w).1.unmarked, (read.prepare w).2) := by
  cases read with
  | load type ids includes requested =>
    unfold unmarked prepare
    dsimp only
    rcases w.unknownIds type ids with ⟨_ | _ | _, _⟩ <;> rfl
  | query | count => rfl

end LazyRead

/-- A pending read without `disableCaching`. -/
def Pending.unmarked (p : Pending) : Pending :=
  { p with read := p.read.unmarked }

/-- A read that is asked for, without `disableCaching`. -/
def Asked.unmarked (asked : Asked) : Asked :=
  { asked with pending := asked.pending.unmarked }

namespace OpenSession

variable {s t turn : OpenSession} {url : String} {asked : Asked} {r : SubResponse} {p : Pending}
  {q : Query.Frozen}

/-! ## The mark decides nothing -/

theorem prepare_unmarked (s : OpenSession) (p : Pending) :
    s.prepare p.unmarked = ((s.prepare p).1.map Asked.unmarked, (s.prepare p).2) := by
  unfold prepare locally Pending.unmarked
  dsimp only
  rw [LazyRead.prepare_unmarked]
  rcases p.read.prepare s.workspace with ⟨_ | _, _⟩ <;> rfl

theorem prepareAll_unmarked (s : OpenSession) (pending : List Pending) :
    s.prepareAll (pending.map Pending.unmarked)
      = ((s.prepareAll pending).1.map Asked.unmarked, (s.prepareAll pending).2) := by
  induction pending generalizing s with
  | nil => rfl
  | cons p rest ih =>
    rw [List.map_cons, prepareAll, prepareAll, prepare_unmarked]
    dsimp only
    rw [ih, List.map_append]
    cases (s.prepare p).1 <;> rfl

theorem sendRound_unmarked (s : OpenSession) (batch : List Asked) :
    s.sendRound (batch.map Asked.unmarked) = s.sendRound batch := by
  unfold sendRound
  rw [List.map_map, List.length_map]
  rfl

theorem receive_unmarked (s : OpenSession) (asked : Asked) (r : SubResponse) :
    s.receive asked.unmarked r
      = ((s.receive asked r).1.map Pending.unmarked, (s.receive asked r).2) := by
  unfold receive Asked.unmarked Pending.unmarked
  dsimp only
  rcases s.throughCache asked.request.cacheKey r with ⟨r', s'⟩
  dsimp only
  split
  · rfl
  · split
    · rfl
    · unfold locally
      dsimp only
      rw [LazyRead.receive_unmarked]
      rfl

theorem receiveAll_unmarked (s : OpenSession) (batch : List Asked) (responses : List SubResponse) :
    s.receiveAll (batch.map Asked.unmarked) responses
      = ((s.receiveAll batch responses).1.map Pending.unmarked,
          (s.receiveAll batch responses).2) := by
  induction batch generalizing s responses with
  | nil => rfl
  | cons asked batch ih =>
    cases responses with
    | nil => rfl
    | cons r responses =>
      rw [List.map_cons, receiveAll, receiveAll, receive_unmarked]
      dsimp only
      rw [ih, List.map_append]
      cases (s.receive asked r).1 <;> rfl

theorem failAll_unmarked (s : OpenSession) (e : Error) (batch : List Asked) :
    s.failAll e (batch.map Asked.unmarked) = s.failAll e batch :=
  List.foldl_map

theorem giveUp_unmarked (s : OpenSession) (batch : List Asked) :
    s.giveUp (batch.map Asked.unmarked) = s.giveUp batch := by
  have hgaveUp : ∀ read : LazyRead, gaveUp read.unmarked = gaveUp read := by
    intro read
    unfold gaveUp
    rw [read.name_unmarked]
  unfold giveUp
  rw [List.foldl_map]
  congr 1
  funext s asked
  exact congrArg (fun e => (s.warn .lazyGaveUp).deliver asked.pending.handle (.error e))
    (hgaveUp asked.pending.read)

theorem flushRounds_unmarked (n : Nat) (s : OpenSession) (pending : List Pending) :
    flushRounds n s (pending.map Pending.unmarked) = flushRounds n s pending := by
  induction n generalizing s pending with
  | zero =>
    unfold flushRounds
    rw [prepareAll_unmarked]
    rcases s.prepareAll pending with ⟨_ | ⟨asked, batch⟩, s₁⟩
    · rfl
    · exact congrArg (Prod.mk _) (s₁.giveUp_unmarked (asked :: batch))
  | succ n ih =>
    unfold flushRounds
    rw [prepareAll_unmarked]
    rcases s.prepareAll pending with ⟨_ | ⟨asked, batch⟩, s₁⟩
    · rfl
    · have hround := s₁.sendRound_unmarked (asked :: batch)
      rw [List.map_cons] at hround ⊢
      dsimp only
      rw [hround]
      rcases s₁.sendRound (asked :: batch) with ⟨halt | responses, s₂⟩
      · exact congrArg (Prod.mk _) (s₂.failAll_unmarked (errorOf halt) (asked :: batch))
      · have hreceive := s₂.receiveAll_unmarked (asked :: batch) responses
        rw [List.map_cons] at hreceive
        dsimp only
        rw [hreceive]
        exact ih _ _

/-- A session in which no pending read is `Marked`. -/
def unmarked (s : OpenSession) : OpenSession :=
  { s with
    session := { s.session with pending := s.session.pending.map Pending.unmarked } }

theorem flush_unmarked (s : OpenSession) : s.unmarked.flush = s.flush :=
  flushRounds_unmarked maxRounds { s with session := { s.session with pending := [] } }
    s.session.pending

/-! ## How the mark gets there -/

/-- `q` as the `beforeQuery` callbacks leave it. -/
def calledBack (s : OpenSession) (q : Query) : Query :=
  (Callbacks.callEachOnQuery s.session.callbacks.beforeQuery q s.shared).2.1

theorem freeze_eq_ok {query query' : Query} (h : s.freeze query = (.ok (query', q), t)) :
    q.disableCaching = (s.calledBack query).noCaching ∧ t.session = s.session
      ∧ t.deliveries = s.deliveries := by
  unfold freeze at h
  unfold calledBack
  rcases hcalled : Callbacks.callEachOnQuery s.session.callbacks.beforeQuery query s.shared with
    ⟨_ | e, called, shared⟩
  all_goals
    rw [hcalled] at h
  · dsimp only at h
    obtain ⟨hanswer, rfl⟩ := Prod.mk.inj h
    unfold Query.freeze at hanswer
    cases htext : called.text with
    | error e =>
      rw [htext] at hanswer
      cases hanswer
    | ok text =>
      rw [htext] at hanswer
      obtain ⟨-, rfl⟩ := Prod.mk.inj (Except.ok.inj hanswer)
      exact ⟨rfl, rfl, rfl⟩
  · cases (Prod.mk.inj h).1

/-- `lazyQuery` and `lazyCount` queue a read that is `Marked` if and only if its query is, as the
callbacks leave it. -/
theorem mark_of_lazyQuery {type : EntityType} {query : Query} {handle : Handle}
    (h : s.lazyQuery type query = (.ok handle, t) ∨ s.lazyCount query = (.ok handle, t)) :
    ∃ read : LazyRead, t.session.pending = s.session.pending ++ [⟨handle, read⟩]
      ∧ (read.Marked ↔ (s.calledBack query).noCaching = true) := by
  have hmark : ∀ read : LazyRead, ∀ frozen, read.query? = some frozen →
      frozen.disableCaching = (s.calledBack query).noCaching →
      (read.Marked ↔ (s.calledBack query).noCaching = true) := by
    intro read frozen hquery hfrozen
    unfold LazyRead.Marked
    simp [hquery, hfrozen]
  rcases h with h | h
  · unfold lazyQuery at h
    rcases hfreeze : s.freeze query with ⟨_ | ⟨query', frozen⟩, s₁⟩
    · rw [hfreeze] at h
      cases (Prod.mk.inj h).1
    · obtain ⟨hfrozen, hsession, hdeliveries⟩ := freeze_eq_ok hfreeze
      rw [hfreeze] at h
      obtain ⟨hhandle, rfl⟩ := Prod.mk.inj h
      obtain rfl := Except.ok.inj hhandle
      refine ⟨.query type frozen (s₁.isTracking query'), ?_, hmark _ frozen rfl hfrozen⟩
      show s₁.session.pending ++ _ = _
      rw [hsession]
  · unfold lazyCount at h
    rcases hfreeze : s.freeze query with ⟨_ | ⟨query', frozen⟩, s₁⟩
    · rw [hfreeze] at h
      cases (Prod.mk.inj h).1
    · obtain ⟨hfrozen, hsession, hdeliveries⟩ := freeze_eq_ok hfreeze
      rw [hfreeze] at h
      obtain ⟨hhandle, rfl⟩ := Prod.mk.inj h
      obtain rfl := Except.ok.inj hhandle
      refine ⟨.ofCount frozen, ?_, hmark _ { frozen with pageSize := some 0 } rfl hfrozen⟩
      show s₁.session.pending ++ _ = _
      rw [hsession]

/-! ## What the cache has a part in -/

/-- What `s.cached` finds under `url`. -/
def peek (s : OpenSession) (url : String) : Option Cached :=
  if s.session.options.noCaching then none
  else s.connection.cache.bind (·.cache.found url)

theorem cached_fst (s : OpenSession) (url : String) : (s.cached url).1 = s.peek url := by
  unfold cached peek
  split
  · rfl
  · unfold Connection.cached
    cases s.connection.cache with
    | none => rfl
    | some c => exact c.get_fst url

/-- `s` uses a cache, and the cache may hold something. -/
def Keeps (s : OpenSession) : Prop :=
  s.session.options.noCaching = false ∧ ∃ c, s.connection.cache = some c ∧ c.cache.capacity ≠ 0

/-- The response `r` is "not modified", and the result of the read is the cached one. -/
def FromCache (s : OpenSession) (asked : Asked) (r : SubResponse) : Prop :=
  r.isNotModified = true ∧ ∃ found, s.peek asked.request.cacheKey = some found
    ∧ (s.throughCache asked.request.cacheKey r).1
      = { r with result := some found.body, status := 200 }

/-- `throughCache` puts the response `r` into the cache. -/
def Stores (s : OpenSession) (asked : Asked) (r : SubResponse) : Prop :=
  r.isSuccess = true
    ∧ (s.throughCache asked.request.cacheKey r).2.connection.cache ≠ s.connection.cache
    ∧ ∃ new, cacheable r = some new
      ∧ (s.throughCache asked.request.cacheKey r).2.peek asked.request.cacheKey = some new

theorem fromCache_iff : s.FromCache asked r
    ↔ r.isNotModified = true ∧ s.peek asked.request.cacheKey ≠ none := by
  unfold FromCache
  refine and_congr_right fun hunmodified => ?_
  unfold throughCache
  rw [if_pos hunmodified, ← cached_fst]
  rcases s.cached asked.request.cacheKey with ⟨_ | found, s₁⟩
  · simp
  · simp

theorem found_set_self (c : Cache) (url : String) (cached : Cached) (hcapacity : c.capacity ≠ 0) :
    (c.set url cached).found url = some cached := by
  unfold Cache.set Cache.found
  rw [if_neg hcapacity]
  dsimp only
  rw [Keyed.find?_insert, if_pos rfl]
  rfl

theorem stores_iff : s.Stores asked r
    ↔ s.Keeps ∧ r.isSuccess = true ∧ cacheable r ≠ none := by
  have hmodified : r.isSuccess = true → r.isNotModified = false := by
    unfold SubResponse.isSuccess SubResponse.isNotModified isSuccessStatus
    simp only [decide_eq_true_eq, decide_eq_false_iff_not]
    omega
  unfold Stores Keeps
  cases hsuccess : r.isSuccess with
  | false => simp
  | true =>
    unfold throughCache
    rw [hmodified hsuccess, if_neg Bool.false_ne_true, if_pos hsuccess]
    cases hcacheable : cacheable r with
    | none => simp
    | some new =>
      dsimp only
      unfold remember
      cases hoption : s.session.options.noCaching with
      | true => simp
      | false =>
        rw [if_neg Bool.false_ne_true]
        unfold Connection.remember peek
        cases hcache : s.connection.cache with
        | none => simp
        | some c =>
          by_cases hcapacity : c.cache.capacity = 0
          · have hsame : c.set asked.request.cacheKey new = c := by
              unfold SharedCache.set Cache.set
              rw [if_pos hcapacity]
            simp [hsame, hcapacity]
          · have hclock : (c.set asked.request.cacheKey new).cache.clock = c.cache.clock + 1 := by
              unfold SharedCache.set Cache.set
              rw [if_neg hcapacity]
            have hchanged : c.set asked.request.cacheKey new ≠ c := by
              intro hsame
              rw [hsame] at hclock
              exact absurd hclock (Nat.ne_of_lt (Nat.lt_succ_self _))
            have hfound : (c.set asked.request.cacheKey new).cache.found asked.request.cacheKey
                = some new :=
              found_set_self c.cache asked.request.cacheKey new hcapacity
            simp [hchanged, hcapacity, hfound, hoption]

/-! ## Every read in its turn -/

theorem prepare_marked (hquery : p.read.query? = some q) :
    (s.prepare p).1
      = some
        { pending := p
          request := (s.peek ("/queries?queryHash=" ++ q.hash)).elim
            (.ofRequest (queryRequest q)) (conditional (.ofRequest (queryRequest q))) } := by
  have hasks : p.read.prepare s.workspace
      = (.asks (.ofRequest (queryRequest q)) p.read, s.workspace) := by
    cases hread : p.read with
    | load type ids includes requested =>
      rw [hread] at hquery
      cases hquery
    | query type q' tracking =>
      rw [hread] at hquery
      obtain rfl := Option.some.inj hquery
      rfl
    | count q' =>
      rw [hread] at hquery
      obtain rfl := Option.some.inj hquery
      rfl
  unfold prepare locally
  rw [hasks]
  dsimp only
  rw [cached_fst, q.cacheKey_eq]
  rfl

theorem marked_of_prepare (hasked : (s.prepare p).1 = some asked)
    (hmarked : asked.pending.read.Marked) : asked.pending = p ∧ p.read.Marked := by
  unfold prepare at hasked
  rcases hprepare : s.locally p.read.prepare with ⟨value | ⟨request, read⟩, s₁⟩
  all_goals
    rw [hprepare] at hasked
  · cases hasked
  · obtain rfl := Option.some.inj hasked
    have hprepared : (p.read.prepare s.workspace).1 = .asks request read :=
      congrArg Prod.fst hprepare
    have hread : read = p.read := by
      cases hown : p.read with
      | load type ids includes requested =>
        -- what is kept in mind of a load is a load
        rw [hown] at hprepared
        unfold LazyRead.prepare at hprepared
        dsimp only at hprepared
        obtain ⟨q, hq, -⟩ := hmarked
        split at hprepared
        · cases hprepared
        · cases hprepared
        · obtain ⟨-, rfl⟩ := LazyRead.Prepared.asks.inj hprepared
          cases hq
      | query | count =>
        rw [hown] at hprepared
        exact (LazyRead.Prepared.asks.inj hprepared).2.symm
    subst hread
    exact ⟨rfl, hmarked⟩

theorem mem_prepareAll_iff {pending : List Pending} :
    asked ∈ (s.prepareAll pending).1
      ↔ ∃ i p, pending[i]? = some p
        ∧ ((s.prepareAll (pending.take i)).2.prepare p).1 = some asked := by
  induction pending generalizing s with
  | nil => simp [prepareAll]
  | cons first rest ih =>
    rw [prepareAll]
    dsimp only
    rw [List.mem_append, Option.mem_toList, ih]
    constructor
    · rintro (hfirst | ⟨i, p, hp, hasked⟩)
      · exact ⟨0, first, rfl, hfirst⟩
      · exact ⟨i + 1, p, hp, hasked⟩
    · rintro ⟨_ | i, p, hp, hasked⟩
      · obtain rfl := Option.some.inj hp
        exact Or.inl hasked
      · exact Or.inr ⟨i, p, hp, hasked⟩

end OpenSession

namespace Round

/-- In `round` the read `p` is prepared in the session `turn`. -/
def Asks (round : Round) (turn : OpenSession) (p : Pending) : Prop :=
  round.reply ≠ none ∧ ∃ i, round.pending[i]? = some p
    ∧ turn = (round.start.prepareAll (round.pending.take i)).2

/-- In `round` the read `asked` receives `r` in the session `turn`. -/
def Takes (round : Round) (turn : OpenSession) (asked : Asked) (r : SubResponse) : Prop :=
  ∃ responses i, round.reply = some (.ok responses) ∧ round.batch[i]? = some asked
    ∧ responses[i]? = some r
    ∧ turn = (round.arrived.receiveAll (round.batch.take i) (responses.take i)).2

/-- In `round` the marked reads go past the cache: they are sent without a condition, none has its
result from the cache, and none of their responses is put there. -/
structure Bypasses (round : Round) : Prop where
  unconditional : round.reply ≠ none → ∀ asked ∈ round.batch, asked.pending.read.Marked →
    asked.request.headers.find? "If-None-Match" = none
  fresh : ∀ turn asked r, round.Takes turn asked r → asked.pending.read.Marked →
    ¬ turn.FromCache asked r
  unstored : ∀ turn asked r, round.Takes turn asked r → asked.pending.read.Marked →
    ¬ turn.Stores asked r

/-- In `round` the cache has nothing for marked reads when they are prepared, and no response to one
of them could be put there. -/
structure FindsNothing (round : Round) : Prop where
  sent : ∀ turn p q, round.Asks turn p → p.read.query? = some q → q.disableCaching = true →
    turn.peek ("/queries?queryHash=" ++ q.hash) = none
  unmodified : ∀ turn asked r, round.Takes turn asked r → asked.pending.read.Marked →
    r.isNotModified = true → turn.peek asked.request.cacheKey = none
  uncacheable : ∀ turn asked r, round.Takes turn asked r → asked.pending.read.Marked →
    turn.Keeps → r.isSuccess = true → OpenSession.cacheable r = none

theorem bypasses_iff {round : Round} (h : round.Accounted) :
    round.Bypasses ↔ round.FindsNothing := by
  have hcondition : ∀ (q : Query.Frozen) (found : Option Cached),
      (found.elim (.ofRequest (queryRequest q)) (OpenSession.conditional (.ofRequest
        (queryRequest q)))).headers.find? "If-None-Match" = none ↔ found = none := by
    intro q found
    rw [OpenSession.find?_conditional rfl, Option.map_eq_none_iff]
  constructor
  · intro hbypasses
    refine ⟨?_, ?_, ?_⟩
    · rintro turn p q ⟨hsent, i, hp, rfl⟩ hq hmark
      have hasked := OpenSession.prepare_marked
        (s := (round.start.prepareAll (round.pending.take i)).2) hq
      have hmem := OpenSession.mem_prepareAll_iff.mpr ⟨i, p, hp, hasked⟩
      rw [← h.batch] at hmem
      exact (hcondition q _).mp (hbypasses.unconditional hsent _ hmem ⟨q, hq, hmark⟩)
    · intro turn asked r htakes hmarked hunmodified
      by_contra hfound
      exact hbypasses.fresh turn asked r htakes hmarked
        (OpenSession.fromCache_iff.mpr ⟨hunmodified, hfound⟩)
    · intro turn asked r htakes hmarked hkeeps hsuccess
      by_contra hcacheable
      exact hbypasses.unstored turn asked r htakes hmarked
        (OpenSession.stores_iff.mpr ⟨hkeeps, hsuccess, hcacheable⟩)
  · intro hnothing
    refine ⟨?_, ?_, ?_⟩
    · intro hsent asked hmem hmarked
      rw [h.batch] at hmem
      obtain ⟨i, p, hp, hasked⟩ := OpenSession.mem_prepareAll_iff.mp hmem
      obtain ⟨-, q, hq, hmark⟩ := OpenSession.marked_of_prepare hasked hmarked
      rw [OpenSession.prepare_marked hq] at hasked
      obtain rfl := Option.some.inj hasked
      exact (hcondition q _).mpr (hnothing.sent _ p q ⟨hsent, i, hp, rfl⟩ hq hmark)
    · intro turn asked r htakes hmarked hcached
      obtain ⟨hunmodified, hfound⟩ := OpenSession.fromCache_iff.mp hcached
      exact hfound (hnothing.unmodified turn asked r htakes hmarked hunmodified)
    · intro turn asked r htakes hmarked hstores
      obtain ⟨hkeeps, hsuccess, hcacheable⟩ := OpenSession.stores_iff.mp hstores
      exact hcacheable (hnothing.uncacheable turn asked r htakes hmarked hkeeps hsuccess)

end Round

namespace OpenSession

variable {s s' : OpenSession}

/-- `flush` keeps the options. -/
theorem Flushes.options {n : Nat} {pending : List Pending} {rounds : List Round}
    {answer : Except Halt Unit} (h : Flushes n s pending rounds answer s') :
    ∀ round ∈ rounds, round.start.session.options = s.session.options
      ∧ round.arrived.session.options = s.session.options := by
  induction h with
  | @ends n s s₁ pending batch hprepare =>
    have hoptions := (s.prepareAll_delivers pending).1.options
    rw [hprepare] at hoptions
    exact List.forall_mem_singleton.mpr ⟨rfl, hoptions⟩
  | @halts n s s₁ s₂ pending batch h hprepare hround =>
    have hoptions := (s.prepareAll_delivers pending).1.options
    rw [hprepare] at hoptions
    obtain ⟨⟨_, hsends, -⟩, -⟩ := sendRound_sends hround
    exact List.forall_mem_singleton.mpr ⟨rfl, hsends.options.trans hoptions⟩
  | @goesOn n s s₁ s₂ s₃ s' pending batch responses again rounds answer hprepare hround hreceive
      others ih =>
    have hoptions := (s.prepareAll_delivers pending).1.options
    rw [hprepare] at hoptions
    obtain ⟨⟨_, hsends, -⟩, -⟩ := sendRound_sends hround
    have harrived := hsends.options.trans hoptions
    have hreceived := (s₂.receiveAll_delivers batch responses).1.options
    rw [hreceive] at hreceived
    refine List.forall_mem_cons.mpr ⟨⟨rfl, harrived⟩, fun round hmem => ?_⟩
    obtain ⟨hstart, hend⟩ := ih round hmem
    have hsame := hreceived.trans harrived
    exact ⟨hstart.trans hsame, hend.trans hsame⟩

/-- A read that a session queues is `Marked` if its query was when callbacks had seen it. The mark
makes no difference: every flush is what it is without marks. So in a flush the marked reads go past
the cache if and only if the cache has nothing for any of them at its turn, and none of them is
given anything that could be put there. In a session with the option `noCaching` they all do. -/
theorem marked_reads_bypass_iff (s : OpenSession) :
    (∀ type query handle t,
        s.lazyQuery type query = (.ok handle, t) ∨ s.lazyCount query = (.ok handle, t) →
          ∃ read : LazyRead, t.session.pending = s.session.pending ++ [⟨handle, read⟩]
            ∧ (read.Marked ↔ (s.calledBack query).noCaching = true))
      ∧ s.unmarked.flush = s.flush
      ∧ ((∀ round ∈ s.rounds, round.Bypasses) ↔ ∀ round ∈ s.rounds, round.FindsNothing)
      ∧ (s.session.options.noCaching = true → ∀ round ∈ s.rounds, round.Bypasses) := by
  have hflushes := flushes_roundsOf maxRounds { s with session := { s.session with pending := [] } }
    s.session.pending
  have hiff : ∀ round ∈ s.rounds, (round.Bypasses ↔ round.FindsNothing) :=
    fun round hmem => Round.bypasses_iff (hflushes.accounted round hmem)
  refine ⟨fun type query handle t => mark_of_lazyQuery, s.flush_unmarked,
    forall₂_congr hiff, ?_⟩
  intro haside round hmem
  obtain ⟨hstart, harrived⟩ := hflushes.options round hmem
  have hpeek : ∀ turn : OpenSession, turn.session.options = s.session.options →
      ∀ url, turn.peek url = none := by
    intro turn hoptions url
    unfold peek
    rw [hoptions, haside, if_pos rfl]
  refine (hiff round hmem).mpr ⟨?_, ?_, ?_⟩
  · rintro turn p q ⟨-, i, -, rfl⟩ - -
    exact hpeek _ ((prepareAll_delivers _ _).1.options.trans hstart) _
  · rintro turn asked r ⟨responses, i, -, -, -, rfl⟩ - -
    exact hpeek _ ((receiveAll_delivers _ _ _).1.options.trans harrived) _
  · rintro turn asked r ⟨responses, i, -, -, -, rfl⟩ - ⟨hcaching, -⟩ -
    rw [(receiveAll_delivers _ _ _).1.options.trans harrived] at hcaching
    exact absurd (haside.symm.trans hcaching) Bool.noConfusion

/-- A session over an empty cache. Its server answers every query with one version. -/
def besideOneVersion : OpenSession where
  session := Session.new 1 {} {}
  shared := {}
  connection :=
    { server := fun _ => .ok (.ok (.obj [("Results", .arr
        [.obj
          [("Headers", .obj [("ETag", .str "\"A:1\"")]), ("Result", .obj [("Results", .arr [])]),
           ("StatusCode", .nat 200)]])]))
      cache := some { cache := {} } }
  deliveries := {}

/-- A query that is marked `noCaching`. -/
def markedQuery : Query :=
  { Query.ofCollection {} "Users" with noCaching := true }

/-- `besideOneVersion` with `markedQuery` pending, after it was flushed once. -/
def markedAgain : OpenSession :=
  ((besideOneVersion.perform (.lazyQuery Shop.anything markedQuery)).perform .flush).perform
    (.lazyQuery Shop.anything markedQuery)

/-- The response to `markedQuery` was put into the cache, and the query is sent again on the
condition that there is another version by then. -/
theorem marked_read_sent_on_condition :
    (markedAgain.rounds.map fun round => (round.reply.isSome, round.batch.map fun asked =>
        (asked.pending.read.query?.map Query.Frozen.disableCaching,
          asked.request.headers.find? "If-None-Match")))
      = [(true, [(some true, some "\"A:1\"")]), (false, [])]
      ∧ ¬ ∀ round ∈ markedAgain.rounds, round.Bypasses := by
  have hrounds : (markedAgain.rounds.map fun round => (round.reply.isSome,
        round.batch.map fun asked => (asked.pending.read.query?.map Query.Frozen.disableCaching,
          asked.request.headers.find? "If-None-Match")))
      = [(true, [(some true, some "\"A:1\"")]), (false, [])] := by
    decide +kernel
  refine ⟨hrounds, fun hall => ?_⟩
  obtain ⟨round, rest, hfirst, hround, -⟩ := List.map_eq_cons_iff.mp hrounds
  obtain ⟨hsent, hbatch⟩ := Prod.mk.inj hround
  obtain ⟨asked, others, hasked, hread, -⟩ := List.map_eq_cons_iff.mp hbatch
  obtain ⟨hmarked, hheader⟩ := Prod.mk.inj hread
  have hmem : round ∈ markedAgain.rounds := by
    rw [hfirst]
    exact List.mem_cons_self
  have hunconditional := (hall round hmem).unconditional
    (Option.isSome_iff_ne_none.mp hsent) asked (by rw [hasked]; exact List.mem_cons_self)
    (Option.map_eq_some_iff.mp hmarked)
  rw [hheader] at hunconditional
  cases hunconditional

end OpenSession

end DocumentSession
