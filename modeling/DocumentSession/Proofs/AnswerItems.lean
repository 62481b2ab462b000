import DocumentSession.Proofs.LazyAnswers
import DocumentSession.Proofs.IdIndexes
import DocumentSession.Proofs.PerformCases
import DocumentSession.Proofs.Sends

set_option autoImplicit false

/-! # The items of the replies to an operation

`OpenSession.answerItems` lists the items of all replies to a load, a query or a flush. Such an
operation changes the `IdIndexes` of its session by `takeAll` of the parts of these items, and by
nothing else (`OpenSession.idIndexes_of_reading`). -/

namespace DocumentSession

namespace OpenSession

/-! ## Items of each operation -/

/-- The items of the reply to a load request for `ids`; none if the request fails. -/
def answerTo (s : OpenSession) (ids includes : List String) : List AnswerItem :=
  match (s.send loadOperation (loadRequest ids includes)).1 with
  | .ok response => AnswerItem.ofLoad ids response.status response.body
  | .error _ => []

/-- The items of the replies to a `loadMany`. A session with `noTracking` registers none of them. -/
def loadItems (s : OpenSession) (type : EntityType) (ids includes : List String) :
    List AnswerItem :=
  if ids.contains "" then []
  else if s.session.work.noTracking then AnswerItem.untaken (s.answerTo ids includes)
  else
    match s.attempt (·.unknownIds type ids) with
    | (.ok unknown, s) => if unknown = [] then [] else s.answerTo unknown.eraseDups includes
    | (.error _, _) => []

/-- The items of the reply to a query. -/
def queryItems (s : OpenSession) (type : EntityType) (q : Query) : List AnswerItem :=
  match s.freeze q with
  | (.ok (q, frozen), s) =>
    match s.ask frozen with
    | (.ok reply, s) => AnswerItem.ofQuery s.workspace type (s.isTracking q) reply
    | (.error _, _) => []
  | (.error _, _) => []

/-- The items of the response `r` to one lazy read, after the cache was consulted; none if the read
is retried or fails. -/
def lazyReadItems (s : OpenSession) (asked : Asked) (r : SubResponse) : List AnswerItem :=
  let (r, s) := s.throughCache asked.request.cacheKey r
  if r.forceRetry || (!r.isSuccess && r.status ≠ 404) then []
  else AnswerItem.ofRead s.workspace asked.pending.read r

/-- The items of the responses to a batch of lazy reads, which `receive` takes in one after the
other. -/
def lazyReadsItems (s : OpenSession) : List Asked → List SubResponse → List AnswerItem
  | asked :: batch, r :: responses =>
    s.lazyReadItems asked r ++ lazyReadsItems (s.receive asked r).2 batch responses
  | _, _ => []

end OpenSession

/-- The items of the responses in one round of a flush. -/
def Round.answerItems (r : Round) : List AnswerItem :=
  match r.reply with
  | some (.ok responses) => r.arrived.lazyReadsItems r.batch responses
  | _ => []

namespace OpenSession

variable {s s' : OpenSession}

/-- The items of all rounds of a flush. -/
def flushItems (s : OpenSession) : List AnswerItem :=
  s.rounds.flatMap Round.answerItems

/-- The items of all replies to `operation`. One that does not read has none
(`answerItems_of_not_reading`). -/
def answerItems (s : OpenSession) : Operation → List AnswerItem
  | .load type id includes => s.loadItems type [id] includes
  | .loadMany type ids includes => s.loadItems type ids includes
  | .runQuery type q => s.queryItems type q
  | .flush => s.flushItems
  | .resolve handle => if s.deliveries.isResolved handle then [] else s.flushItems
  | _ => []

theorem answerItems_of_not_reading {operation : Operation} (hlocal : ¬ Reading operation) :
    s.answerItems operation = [] := by
  cases operation with
  | load | loadMany | runQuery | flush | resolve => exact absurd trivial hlocal
  | _ => rfl

/-! ## Indexes after each operation -/

/-- The `IdIndexes` of the session. -/
abbrev idIndexes (s : OpenSession) : IdIndexes :=
  s.session.work.idIndexes

theorem idIndexes_send {operation : String} {r : Request} {answer : Except Halt Response}
    (h : s.send operation r = (answer, s')) : s'.idIndexes = s.idIndexes :=
  congrArg UnitOfWork.idIndexes (sends_of_send h).work

theorem idIndexes_sendForBody {operation : String} {r : Request}
    {answer : Except Halt (Option Json)} (h : s.sendForBody operation r = (answer, s')) :
    s'.idIndexes = s.idIndexes := by
  obtain ⟨_, hsend⟩ := send_of_sendForBody_eq h
  exact idIndexes_send hsend

/-! ### Loads -/

theorem idIndexes_fetch (s : OpenSession) (ids includes : List String) :
    (s.fetch ids includes).2.idIndexes =
      s.idIndexes.takeAll (AnswerItem.parts (s.answerTo ids includes)) := by
  unfold fetch answerTo
  rcases hsend : s.send loadOperation (loadRequest ids includes) with ⟨_ | response, s₁⟩
  · exact idIndexes_send hsend
  · rw [← idIndexes_send hsend]
    dsimp only
    unfold AnswerItem.ofLoad Response.isNotFound Response.isSuccess
    by_cases hmissing : response.status = 404
    · simp only [hmissing, decide_true, if_true]
      exact s₁.workspace.idIndexes_markAllMissing ids
    · simp only [hmissing, decide_false, Bool.false_eq_true, if_false]
      cases isSuccessStatus response.status with
      | false => rfl
      | true =>
        cases LoadReply.ofBody response.body ids.length with
        | error e => rfl
        | ok reply => exact s₁.workspace.idIndexes_takeLoad ids reply

theorem idIndexes_loadTracked (s : OpenSession) (type : EntityType) (ids includes : List String) :
    (s.loadTracked type ids includes).2.idIndexes
      = s.idIndexes.takeAll (AnswerItem.parts
        (match s.attempt (·.unknownIds type ids) with
          | (.ok unknown, s) => if unknown = [] then [] else s.answerTo unknown.eraseDups includes
          | (.error _, _) => [])) := by
  have hunknown : (s.attempt (·.unknownIds type ids)).2.idIndexes = s.idIndexes :=
    s.workspace.idIndexes_unknownIds type ids
  unfold loadTracked
  generalize s.attempt (·.unknownIds type ids) = asked at hunknown ⊢
  rcases asked with ⟨_ | unknown, s₁⟩
  · exact hunknown
  · have hcollect : ∀ s₂ : OpenSession,
        (s₂.attempt (·.collect type [] ids)).2.idIndexes = s₂.idIndexes :=
      fun s₂ => s₂.workspace.idIndexes_collect type [] ids
    rw [← hunknown]
    dsimp only
    by_cases hknown : unknown = []
    · simp only [hknown, if_true]
      exact hcollect s₁
    · simp only [hknown, if_false]
      have hfetch := s₁.idIndexes_fetch unknown.eraseDups includes
      generalize s₁.fetch unknown.eraseDups includes = fetched at hfetch ⊢
      rcases fetched with ⟨_ | _, s₂⟩
      · exact hfetch
      · exact (hcollect s₂).trans hfetch

theorem idIndexes_makeDetached (w : Workspace) (type : EntityType) (found : Dict (Option EntityRef))
    (ids : List String) (results : List (Option Fields)) :
    (makeDetached w type found ids results).2.idIndexes = w.idIndexes := by
  induction ids generalizing w found results with
  | nil => rw [makeDetached] <;> simp
  | cons id ids ih =>
    rcases results with _ | ⟨_ | document, results⟩
    · rw [makeDetached] <;> simp
    · exact ih w _ results
    · have hdetached := w.idIndexes_detached type document
      rw [makeDetached]
      generalize w.detached type document = made at hdetached ⊢
      rcases made with ⟨_ | entity, w₁⟩
      · exact hdetached
      · exact (ih w₁ _ results).trans hdetached

theorem idIndexes_loadDetached (s : OpenSession) (type : EntityType) (ids includes : List String) :
    (s.loadDetached type ids includes).2.idIndexes = s.idIndexes := by
  unfold loadDetached
  rcases hsend : s.send loadOperation (loadRequest ids includes) with ⟨_ | response, s₁⟩
  · exact idIndexes_send hsend
  · rw [← idIndexes_send hsend]
    dsimp only
    split
    · rfl
    · split
      · rfl
      · split
        · rfl
        · exact idIndexes_makeDetached s₁.workspace type [] ids _

theorem idIndexes_loadMany (s : OpenSession) (type : EntityType) (ids includes : List String) :
    (s.loadMany type ids includes).2.idIndexes
      = s.idIndexes.takeAll (AnswerItem.parts (s.loadItems type ids includes)) := by
  unfold loadMany loadItems
  split
  · rfl
  · split
    · rw [AnswerItem.parts_untaken]
      exact s.idIndexes_loadDetached type ids includes
    · exact s.idIndexes_loadTracked type ids includes

/-! ### Queries -/

theorem idIndexes_freeze (s : OpenSession) (q : Query) :
    (s.freeze q).2.idIndexes = s.idIndexes := by
  rw [freeze_eq]

theorem idIndexes_ask (s : OpenSession) (q : Query.Frozen) :
    (s.ask q).2.idIndexes = s.idIndexes := by
  unfold ask
  rcases hsend : s.sendForBody queryOperation (queryRequest q) with ⟨body, s₁⟩
  exact idIndexes_sendForBody hsend

theorem idIndexes_runQuery (s : OpenSession) (type : EntityType) (q : Query) :
    (s.runQuery type q).2.idIndexes =
      s.idIndexes.takeAll (AnswerItem.parts (s.queryItems type q)) := by
  have hfreeze := s.idIndexes_freeze q
  unfold runQuery queryItems
  generalize s.freeze q = frozen at hfreeze ⊢
  rcases frozen with ⟨_ | ⟨q', frozen⟩, s₁⟩
  · exact hfreeze
  · rw [← hfreeze]
    have hask := s₁.idIndexes_ask frozen
    dsimp only
    generalize s₁.ask frozen = asked at hask ⊢
    rcases asked with ⟨_ | reply, s₂⟩
    · exact hask
    · rw [← hask]
      exact s₂.workspace.idIndexes_takeQuery type (s₂.isTracking q') reply

theorem idIndexes_countQuery (s : OpenSession) (q : Query) :
    (s.countQuery q).2.idIndexes = s.idIndexes := by
  have hfreeze := s.idIndexes_freeze { q with pageSize := some 0 }
  unfold countQuery
  generalize s.freeze { q with pageSize := some 0 } = frozen at hfreeze ⊢
  rcases frozen with ⟨_ | ⟨q', frozen⟩, s₁⟩
  · exact hfreeze
  · exact (s₁.idIndexes_ask frozen).trans hfreeze

/-! ### Lazy reads -/

theorem idIndexes_lazyQuery (s : OpenSession) (type : EntityType) (q : Query) :
    (s.lazyQuery type q).2.idIndexes = s.idIndexes := by
  have hfreeze := s.idIndexes_freeze q
  unfold lazyQuery
  generalize s.freeze q = frozen at hfreeze ⊢
  rcases frozen with ⟨_ | _, s₁⟩
  all_goals exact hfreeze

theorem idIndexes_lazyCount (s : OpenSession) (q : Query) :
    (s.lazyCount q).2.idIndexes = s.idIndexes := by
  have hfreeze := s.idIndexes_freeze q
  unfold lazyCount
  generalize s.freeze q = frozen at hfreeze ⊢
  rcases frozen with ⟨_ | _, s₁⟩
  all_goals exact hfreeze

theorem idIndexes_cached (s : OpenSession) (url : String) :
    (s.cached url).2.idIndexes = s.idIndexes := by
  unfold cached
  split <;> rfl

theorem idIndexes_remember (s : OpenSession) (url : String) (found : Cached) :
    (s.remember url found).idIndexes = s.idIndexes := by
  unfold remember
  split <;> rfl

theorem idIndexes_throughCache (s : OpenSession) (url : String) (r : SubResponse) :
    (s.throughCache url r).2.idIndexes = s.idIndexes := by
  have hcached := s.idIndexes_cached url
  unfold throughCache
  split
  · generalize s.cached url = found at hcached ⊢
    rcases found with ⟨_ | _, s₁⟩
    all_goals exact hcached
  · split
    · split
      · exact s.idIndexes_remember url _
      · rfl
    · rfl

theorem idIndexes_prepare (s : OpenSession) (p : Pending) :
    (s.prepare p).2.idIndexes = s.idIndexes := by
  have hprepare : (s.locally p.read.prepare).2.idIndexes = s.idIndexes :=
    s.workspace.idIndexes_prepare p.read
  unfold prepare
  generalize s.locally p.read.prepare = prepared at hprepare ⊢
  rcases prepared with ⟨value | ⟨request, read⟩, s₁⟩
  · exact hprepare
  · exact (s₁.idIndexes_cached request.cacheKey).trans hprepare

theorem idIndexes_prepareAll (s : OpenSession) (pending : List Pending) :
    (s.prepareAll pending).2.idIndexes = s.idIndexes := by
  induction pending generalizing s with
  | nil => rfl
  | cons p rest ih => exact (ih (s.prepare p).2).trans (s.idIndexes_prepare p)

theorem idIndexes_receive (s : OpenSession) (asked : Asked) (r : SubResponse) :
    (s.receive asked r).2.idIndexes =
      s.idIndexes.takeAll (AnswerItem.parts (s.lazyReadItems asked r)) := by
  have hcache := s.idIndexes_throughCache asked.request.cacheKey r
  unfold receive lazyReadItems
  generalize s.throughCache asked.request.cacheKey r = through at hcache ⊢
  obtain ⟨r', s₁⟩ := through
  rw [← hcache]
  dsimp only
  by_cases hretry : r'.forceRetry = true
  · simp only [hretry, if_true, Bool.true_or]
    rfl
  · by_cases hfailed : (!r'.isSuccess && r'.status ≠ 404) = true
    · simp only [hretry, hfailed, Bool.or_true, if_true]
      rfl
    · simp only [hretry, hfailed, Bool.or_false]
      refine s₁.workspace.idIndexes_receive asked.pending.read ?_
      simpa [or_iff_not_imp_left] using hfailed

theorem idIndexes_receiveAll (s : OpenSession) (batch : List Asked) (responses : List SubResponse) :
    (s.receiveAll batch responses).2.idIndexes
      = s.idIndexes.takeAll (AnswerItem.parts (s.lazyReadsItems batch responses)) := by
  induction batch generalizing s responses with
  | nil => rfl
  | cons asked batch ih =>
    cases responses with
    | nil => rfl
    | cons r responses =>
      have hrest := ih (s.receive asked r).2 responses
      rw [idIndexes_receive] at hrest
      rw [lazyReadsItems, AnswerItem.parts_append, IdIndexes.takeAll_append]
      exact hrest

theorem idIndexes_failAll (s : OpenSession) (e : Error) (batch : List Asked) :
    (s.failAll e batch).idIndexes = s.idIndexes :=
  congrArg Workspace.idIndexes (s.workspace_failAll e batch)

theorem idIndexes_giveUp (s : OpenSession) (batch : List Asked) :
    (s.giveUp batch).idIndexes = s.idIndexes := by
  unfold giveUp
  induction batch generalizing s with
  | nil => rfl
  | cons asked rest ih => exact ih _

theorem idIndexes_sendRound {batch : List Asked} {answer : Except Halt (List SubResponse)}
    (h : s.sendRound batch = (answer, s')) : s'.idIndexes = s.idIndexes := by
  rcases hbody : s.sendForBody "lazy" (Round.request batch) with ⟨body, s₁⟩
  obtain rfl : s₁ = s' := (congrArg Prod.snd hbody).symm.trans (congrArg Prod.snd h)
  exact idIndexes_sendForBody hbody

theorem Flushes.idIndexes {n : Nat} {pending : List Pending} {rounds : List Round}
    {answer : Except Halt Unit} (h : Flushes n s pending rounds answer s') :
    s'.idIndexes = s.idIndexes.takeAll (AnswerItem.parts (rounds.flatMap Round.answerItems)) := by
  induction h with
  | @ends n s s₁ pending batch hprepare =>
    have hprepared := s.idIndexes_prepareAll pending
    rw [hprepare] at hprepared
    exact (s₁.idIndexes_giveUp batch).trans hprepared
  | @halts n s s₁ s₂ pending batch halt hprepare hround =>
    have hprepared := s.idIndexes_prepareAll pending
    rw [hprepare] at hprepared
    exact (s₂.idIndexes_failAll (errorOf halt) batch).trans
      ((idIndexes_sendRound hround).trans hprepared)
  | @goesOn n s s₁ s₂ s₃ s' pending batch responses again rounds answer hprepare hround hreceive
      others ih =>
    have hprepared := s.idIndexes_prepareAll pending
    rw [hprepare] at hprepared
    have hreceived := s₂.idIndexes_receiveAll batch responses
    rw [hreceive, idIndexes_sendRound hround, hprepared] at hreceived
    have hitems : (s.answeredRound pending batch responses s₂).answerItems
        = s₂.lazyReadsItems batch responses := by
      unfold Round.answerItems
      rw [batch_answeredRound s pending s₂ ((sendRound_sends hround).2 responses rfl)]
      rfl
    rw [ih, List.flatMap_cons, AnswerItem.parts_append, IdIndexes.takeAll_append, hitems,
      ← hreceived]

theorem idIndexes_flush (s : OpenSession) :
    s.flush.2.idIndexes = s.idIndexes.takeAll (AnswerItem.parts s.flushItems) :=
  (flushes_roundsOf maxRounds { s with session := { s.session with pending := [] } }
    s.session.pending).idIndexes

theorem idIndexes_resolve (s : OpenSession) (handle : Handle) :
    (s.resolve handle).2.idIndexes
      = s.idIndexes.takeAll (AnswerItem.parts
        (if s.deliveries.isResolved handle then [] else s.flushItems)) := by
  obtain ⟨s₁, deliveries, hs₁, hresolve, -⟩ := s.resolve_eq handle
  rw [hresolve]
  show s₁.idIndexes = _
  rw [hs₁]
  split
  · rfl
  · exact s.idIndexes_flush

/-- An operation that reads changes `idIndexes` by the registered parts of its `answerItems`
alone. -/
theorem idIndexes_of_reading (s : OpenSession) {operation : Operation}
    (hreading : Reading operation) :
    (s.perform operation).idIndexes =
      s.idIndexes.takeAll (AnswerItem.parts (s.answerItems operation)) := by
  cases operation with
  | load type id includes => exact s.idIndexes_loadMany type [id] includes
  | loadMany type ids includes => exact s.idIndexes_loadMany type ids includes
  | runQuery type q => exact s.idIndexes_runQuery type q
  | countQuery q => exact s.idIndexes_countQuery q
  | lazyLoad type ids includes => rfl
  | lazyQuery type q => exact s.idIndexes_lazyQuery type q
  | lazyCount q => exact s.idIndexes_lazyCount q
  | flush => exact s.idIndexes_flush
  | resolve handle => exact s.idIndexes_resolve handle
  | _ => cases hreading

end OpenSession

end DocumentSession
