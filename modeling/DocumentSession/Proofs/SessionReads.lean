import Mathlib.Data.List.Forall2
import DocumentSession.Proofs.Cache
import DocumentSession.Proofs.Reads
import DocumentSession.Session.Load
import DocumentSession.Session.Flush

set_option autoImplicit false

/-! # The steps of reading in a session

Loads, queries and flushes change the workspace of a session by a run of `Workspace.ReadStep`s, and
leave its `options` and `callbacks` as they are (`OpenSession.Reads`). The `beforeQuery` callbacks
run before: the steps of a query start from the session that `freeze` leaves.

Documents come from the server or from the cache, and cached bodies came from the server before. So
what holds of all documents that a connection tells (`Connection.Tells`) holds of all that a session
registers. -/

namespace DocumentSession

/-! ## Documents of a connection -/

/-- The request is a load, whose results are whole documents. -/
def Request.IsLoad (r : Request) : Prop :=
  ∃ (options : SessionOptions) (ids includes : List String),
    r = options.scope (loadRequest ids includes)

/-- The cache key `url` is one of a load in a multi-get. -/
def IsLoadUrl (url : String) : Prop :=
  ∃ ids includes : List String, url = (SubRequest.ofRequest (loadRequest ids includes)).cacheKey

/-- A load is sent under the cache key of a load. -/
def Asked.Fits (asked : Asked) : Prop :=
  asked.pending.read.IsLoad → IsLoadUrl asked.request.cacheKey

theorem SessionOptions.body_scope (o : SessionOptions) (r : Request) :
    (o.scope r).body = r.body := by
  unfold scope
  split <;> rfl

theorem Except.eq_ok_of_mapError {ε ε' α : Type} {f : ε → ε'} {e : Except ε α} {a : α}
    (h : e.mapError f = .ok a) : e = .ok a := by
  cases e with
  | error _ => cases h
  | ok _ => rw [Except.ok.inj h]

theorem Except.eq_ok_of_toOption {ε α : Type} {e : Except ε α} {a : α}
    (h : e.toOption = some a) : e = .ok a := by
  cases e with
  | error _ => cases h
  | ok _ => rw [Option.some.inj h]

theorem forall₂_of_mapM {ε α β : Type} {f : α → Except ε β} {items : List α} {results : List β}
    (h : items.mapM f = .ok results) :
    List.Forall₂ (fun item result => f item = .ok result) items results := by
  induction items generalizing results with
  | nil =>
    obtain rfl := Except.ok.inj h
    exact .nil
  | cons item items ih =>
    rw [List.mapM_cons] at h
    cases hfirst : f item with
    | error e =>
      rw [hfirst] at h
      cases h
    | ok result =>
      cases hrest : items.mapM f with
      | error e =>
        rw [hfirst, hrest] at h
        cases h
      | ok rest =>
        rw [hfirst, hrest] at h
        obtain rfl := Except.ok.inj h
        exact .cons hfirst (ih hrest)

/-- The reply to a multi-get lists one `SubResponse` for each request. -/
theorem eq_ok_of_multiGetResponses {answer : Option Json} {expected : Nat}
    {responses : List SubResponse} (h : multiGetResponses answer expected = .ok responses) :
    ∃ items, resultItems answer = some items ∧ items.length = expected
      ∧ List.Forall₂ (fun item r => SubResponse.ofJson item = .ok r) items responses := by
  unfold multiGetResponses at h
  split at h
  · cases h
  · next body hbody =>
    obtain ⟨rfl, -⟩ := Option.filter_eq_some_iff.mp hbody
    split at h
    · cases h
    · next items hitems =>
      split at h
      · cases h
      · next hlength => exact ⟨items, hitems, not_not.mp hlength, forall₂_of_mapM h⟩

/-- Every document in an answer of the server is in `D`. -/
structure ServerTells (D : Fields → Prop) (server : Server) : Prop where
  answers : ∀ (sent : List Request) (r : Request) (response : Response),
    server (sent ++ [r]) = .ok response → Discloses D r.IsLoad response.body
  /-- The reply to a multi-get lists one answer for each of its requests. -/
  parts : ∀ (sent : List Request) (r : Request) (response : Response)
    (requests : List SubRequest) (items : List Json) (i : Nat) (request : SubRequest)
    (item : Json) (part : SubResponse),
    server (sent ++ [r]) = .ok response → r.body = some (multiGetBody requests) →
    resultItems response.body = some items → requests[i]? = some request →
    items[i]? = some item → SubResponse.ofJson item = .ok part →
    Discloses D (IsLoadUrl request.cacheKey) part.result

/-- Every document that the server or the cache has is in `D`. -/
structure Connection.Tells (D : Fields → Prop) (c : Connection) : Prop where
  server : ServerTells D c.server
  cached : c.Holds (fun url body => Discloses D (IsLoadUrl url) (some body))

theorem Connection.Tells.of_always {D : Fields → Prop} (h : ∀ document, D document)
    (c : Connection) : c.Tells D :=
  ⟨⟨fun _ _ _ _ => .of_always h, fun _ _ _ _ _ _ _ _ _ _ _ _ _ _ _ => .of_always h⟩,
    fun _ _ _ _ _ => .of_always h⟩

theorem Connection.Tells.of_cached {D : Fields → Prop} {c : Connection} (h : c.Tells D)
    (url : String) : (c.cached url).2.Tells D := by
  refine ⟨?_, (h.cached.cached url).1⟩
  rw [Connection.server_cached]
  exact h.server

namespace OpenSession

open Workspace (ReadStep)

/-- `s'` comes from `s` by reading. -/
structure Reads (s s' : OpenSession) : Prop where
  server : s'.connection.server = s.connection.server
  /-- Only documents that the connection tells are registered or cached. -/
  tells : ∀ D : Fields → Prop, s.connection.Tells D →
    s'.connection.Tells D ∧ s.workspace.Reads D s'.workspace
  options : s'.session.options = s.session.options
  callbacks : s'.session.callbacks = s.session.callbacks

variable {s s' s'' : OpenSession}

theorem Reads.refl (s : OpenSession) : s.Reads s :=
  ⟨rfl, fun _ htells => ⟨htells, .refl⟩, rfl, rfl⟩

theorem Reads.trans (h : s.Reads s') (h' : s'.Reads s'') : s.Reads s'' := by
  refine ⟨h'.server.trans h.server, ?_, h'.options.trans h.options,
    h'.callbacks.trans h.callbacks⟩
  intro D htells
  obtain ⟨htells', hreads⟩ := h.tells D htells
  obtain ⟨htells'', hreads'⟩ := h'.tells D htells'
  exact ⟨htells'', hreads.trans hreads'⟩

/-- In any case the workspace is changed by steps of reading. -/
theorem Reads.workspace (h : s.Reads s') :
    s.workspace.Reads (fun _ => True) s'.workspace :=
  (h.tells _ (.of_always (fun _ => trivial) _)).2

/-- Reading that leaves the connection as it is. -/
theorem Reads.of_reads (hconnection : s'.connection = s.connection)
    (hreads : ∀ D : Fields → Prop, s.connection.Tells D → s.workspace.Reads D s'.workspace)
    (hoptions : s'.session.options = s.session.options)
    (hcallbacks : s'.session.callbacks = s.session.callbacks) : s.Reads s' := by
  refine ⟨by rw [hconnection], ?_, hoptions, hcallbacks⟩
  intro D htells
  exact ⟨by rw [hconnection]; exact htells, hreads D htells⟩

/-- Reading that leaves the workspace as it is. -/
theorem Reads.of_connection (hserver : s'.connection.server = s.connection.server)
    (htells : ∀ D : Fields → Prop, s.connection.Tells D → s'.connection.Tells D)
    (hwork : s'.session.work = s.session.work) (hshared : s'.shared = s.shared)
    (hoptions : s'.session.options = s.session.options)
    (hcallbacks : s'.session.callbacks = s.session.callbacks) : s.Reads s' := by
  refine ⟨hserver, ?_, hoptions, hcallbacks⟩
  intro D hbefore
  have heq : s'.workspace = s.workspace := by
    unfold OpenSession.workspace
    rw [hwork, hshared]
  rw [heq]
  exact ⟨htells D hbefore, .refl⟩

/-- Reading that leaves the workspace and the connection as they are. -/
theorem Reads.of_workspace_eq (hconnection : s'.connection = s.connection)
    (hwork : s'.session.work = s.session.work) (hshared : s'.shared = s.shared)
    (hoptions : s'.session.options = s.session.options)
    (hcallbacks : s'.session.callbacks = s.session.callbacks) : s.Reads s' :=
  .of_connection (by rw [hconnection]) (fun _ htells => by rw [hconnection]; exact htells) hwork
    hshared hoptions hcallbacks

theorem Reads.warn (s : OpenSession) (warning : Warning) : s.Reads (s.warn warning) :=
  .of_reads rfl (fun _ _ => .single (.warn s.workspace warning)) rfl rfl

theorem Reads.withWorkspace {w : Workspace}
    (h : ∀ D : Fields → Prop, s.connection.Tells D → s.workspace.Reads D w) :
    s.Reads (s.withWorkspace w) :=
  .of_reads rfl h rfl rfl

/-! ## Requests -/

theorem reads_count {operation : String} {answer : Except Error Unit}
    (h : s.count operation = (answer, s')) : s.Reads s' := by
  unfold count at h
  rcases hrecord : s.session.budget.record operation with ⟨counted, warning, budget⟩
  rw [hrecord] at h
  obtain ⟨-, rfl⟩ := Prod.mk.inj h
  refine .of_reads rfl (fun D _ => ?_) rfl rfl
  cases warning with
  | none => exact .refl
  | some warning => exact .single (.warn s.workspace warning)

theorem reads_send {operation : String} {r : Request} {answer : Except Halt Response}
    (h : s.send operation r = (answer, s')) : s.Reads s' := by
  unfold send at h
  split at h
  · obtain ⟨-, rfl⟩ := Prod.mk.inj h
    exact .refl s
  · split at h
    · next hcount =>
      obtain ⟨-, rfl⟩ := Prod.mk.inj h
      exact reads_count hcount
    · next hcount =>
      obtain ⟨-, rfl⟩ := Prod.mk.inj h
      exact (reads_count hcount).trans
        (.of_connection rfl (fun _ htells => ⟨htells.server, htells.cached⟩) rfl rfl rfl rfl)

/-- A response is what the server answers to the requests up to this one. -/
theorem server_of_send {operation : String} {r : Request} {response : Response}
    (h : s.send operation r = (.ok response, s')) :
    s'.connection.server (s.connection.sent ++ [s.session.options.scope r]) = .ok response := by
  have hserver := (reads_send h).server
  unfold send at h
  split at h
  · cases (Prod.mk.inj h).1
  · split at h
    · cases (Prod.mk.inj h).1
    · next s₁ hcount =>
      have hsame : s₁.connection = s.connection ∧ s₁.session.options = s.session.options := by
        unfold count at hcount
        rcases s.session.budget.record operation with ⟨counted, warning, budget⟩
        obtain ⟨-, rfl⟩ := Prod.mk.inj hcount
        exact ⟨rfl, rfl⟩
      obtain ⟨hresponse, rfl⟩ := Prod.mk.inj h
      rw [hsame.1, hsame.2] at hresponse
      rw [hserver]
      exact hresponse

/-- Every result of a load is a whole document. -/
theorem discloses_of_send {operation : String} {ids includes : List String} {response : Response}
    (h : s.send operation (loadRequest ids includes) = (.ok response, s')) {D : Fields → Prop}
    (htells : s'.connection.Tells D) : Discloses D True response.body :=
  (htells.server.answers _ _ _ (server_of_send h)).mono (fun _ => ⟨_, _, _, rfl⟩)

/-- `sendForBody` leaves the session that `send` leaves. -/
theorem send_of_sendForBody_eq {operation : String} {r : Request}
    {answer : Except Halt (Option Json)} (h : s.sendForBody operation r = (answer, s')) :
    ∃ answer', s.send operation r = (answer', s') := by
  unfold sendForBody at h
  split at h
  · next hsend =>
    obtain ⟨-, rfl⟩ := Prod.mk.inj h
    exact ⟨_, hsend⟩
  · next hsend =>
    split at h
    all_goals
      obtain ⟨-, rfl⟩ := Prod.mk.inj h
      exact ⟨_, hsend⟩

theorem reads_sendForBody {operation : String} {r : Request} {answer : Except Halt (Option Json)}
    (h : s.sendForBody operation r = (answer, s')) : s.Reads s' := by
  obtain ⟨_, hsend⟩ := send_of_sendForBody_eq h
  exact reads_send hsend

/-- A body from `sendForBody` is that of a response with success. -/
theorem send_of_sendForBody {operation : String} {r : Request} {body : Option Json}
    (h : s.sendForBody operation r = (.ok body, s')) :
    ∃ response, s.send operation r = (.ok response, s') ∧ response.body = body := by
  unfold sendForBody at h
  split at h
  · cases (Prod.mk.inj h).1
  · next response s₁ hsend =>
    split at h
    · obtain ⟨hbody, rfl⟩ := Prod.mk.inj h
      exact ⟨response, hsend, Except.ok.inj hbody⟩
    · cases (Prod.mk.inj h).1

/-- Work on the workspace by steps of reading, after other reading. -/
theorem Reads.locally (h : s.Reads s') {α : Type} {f : Workspace → α × Workspace} {answer : α}
    (hf : ∀ D : Fields → Prop, s.connection.Tells D →
      ∀ {a w}, f s'.workspace = (a, w) → s'.workspace.Reads D w)
    (hlocal : s'.locally f = (answer, s'')) : s.Reads s'' := by
  unfold OpenSession.locally at hlocal
  obtain ⟨-, rfl⟩ := Prod.mk.inj hlocal
  refine ⟨h.server, ?_, h.options, h.callbacks⟩
  intro D htells
  obtain ⟨htells', hreads⟩ := h.tells D htells
  exact ⟨htells', hreads.trans (hf D htells rfl)⟩

/-- Work on the workspace by steps of reading. -/
theorem reads_locally {α : Type} {f : Workspace → α × Workspace} {answer : α}
    (hf : ∀ D : Fields → Prop, s.connection.Tells D →
      ∀ {a w}, f s.workspace = (a, w) → s.workspace.Reads D w)
    (h : s.locally f = (answer, s')) : s.Reads s' := by
  exact (Reads.refl s).locally hf h

/-! ## Relations that are closed under reading

A session reads by `send` and by steps of reading on its workspace. So what is proved here of loads
and queries is proved of every relation that these two are in. -/

/-- `makeDetached` is a run of steps of reading. -/
theorem relates_makeDetached {D : Fields → Prop} {R : Workspace → Workspace → Prop}
    (hR : Workspace.ReadClosed D R) {w w' : Workspace} {type : EntityType}
    {found : Dict (Option EntityRef)} {ids : List String} {results : List (Option Fields)}
    {answer : Except Error (Dict (Option EntityRef))}
    (h : makeDetached w type found ids results = (answer, w')) : R w w' := by
  induction ids generalizing w found results with
  | nil =>
    rw [makeDetached] at h
    · obtain ⟨-, rfl⟩ := Prod.mk.inj h
      exact hR.refl _
    all_goals simp
  | cons id ids ih =>
    cases results with
    | nil =>
      rw [makeDetached] at h
      · obtain ⟨-, rfl⟩ := Prod.mk.inj h
        exact hR.refl _
      all_goals simp
    | cons result results =>
      cases result with
      | none =>
        simp only [makeDetached] at h
        exact ih h
      | some document =>
        simp only [makeDetached] at h
        split at h
        · next hdetached =>
          obtain ⟨-, rfl⟩ := Prod.mk.inj h
          exact hR.detached hdetached
        · next hdetached => exact hR.trans (hR.detached hdetached) (ih h)

/-- The documents in the reply to a query are those that the connection tells. -/
theorem discloses_of_ask {q : Query.Frozen} {reply : QueryReply} (h : s.ask q = (.ok reply, s'))
    {D : Fields → Prop} (htells : s'.connection.Tells D) :
    (∀ document ∈ reply.includes, D document)
      ∧ ∀ document, .obj document ∈ reply.results → QueryReply.isDocument document = true →
        D document := by
  unfold ask at h
  rcases hsend : s.sendForBody queryOperation (queryRequest q) with ⟨body, s₁⟩
  rw [hsend] at h
  obtain ⟨hreply, rfl⟩ := Prod.mk.inj h
  cases body with
  | error halt => cases hreply
  | ok body =>
    obtain ⟨response, hresponse, rfl⟩ := send_of_sendForBody hsend
    have hdiscloses := htells.server.answers _ _ _ (server_of_send hresponse)
    exact hdiscloses.of_queryReply (Except.eq_ok_of_mapError hreply)

/-- A reflexive and transitive relation that `send` and steps of reading are in. -/
structure ReadClosed (R : OpenSession → OpenSession → Prop) : Prop where
  refl : ∀ s, R s s
  trans : ∀ {s s' s''}, R s s' → R s' s'' → R s s''
  send : ∀ {s s' operation r answer}, s.send operation r = (answer, s') → R s s'
  work : ∀ {s w}, (∀ D Q, s.connection.Tells D → Workspace.ReadClosed D Q → Q s.workspace w) →
    R s (s.withWorkspace w)

namespace ReadClosed

variable {R : OpenSession → OpenSession → Prop}

theorem attempt (hR : ReadClosed R) {α : Type} {f : Workspace → Except Error α × Workspace}
    {answer : Except Halt α}
    (hf : ∀ D Q, s.connection.Tells D → Workspace.ReadClosed D Q →
      ∀ {a w}, f s.workspace = (a, w) → Q s.workspace w)
    (h : s.attempt f = (answer, s')) : R s s' := by
  unfold OpenSession.attempt OpenSession.locally at h
  obtain ⟨-, rfl⟩ := Prod.mk.inj h
  exact hR.work fun D Q htells hQ => hf D Q htells hQ rfl

/-! ### Loads -/

theorem fetch (hR : ReadClosed R) {ids includes : List String} {answer : Except Halt Unit}
    (h : s.fetch ids includes = (answer, s')) : R s s' := by
  unfold OpenSession.fetch at h
  split at h
  · next hsend =>
    obtain ⟨-, rfl⟩ := Prod.mk.inj h
    exact hR.send hsend
  · next s₁ hsend =>
    refine hR.trans (hR.send hsend) ?_
    split at h
    · obtain ⟨-, rfl⟩ := Prod.mk.inj h
      exact hR.work fun _ _ _ hQ => hQ.markAllMissing s₁.workspace ids
    · split at h
      · obtain ⟨-, rfl⟩ := Prod.mk.inj h
        exact hR.refl _
      · split at h
        · obtain ⟨-, rfl⟩ := Prod.mk.inj h
          exact hR.refl _
        · next hreply =>
          refine hR.attempt (fun D Q htells hQ _ _ htaken => ?_) h
          exact hQ.takeLoad ((discloses_of_send hsend htells).of_loadReply hreply) htaken

theorem loadTracked (hR : ReadClosed R) {type : EntityType} {ids includes : List String}
    {answer : Except Halt (Dict (Option EntityRef))}
    (h : s.loadTracked type ids includes = (answer, s')) : R s s' := by
  have hasked : ∀ {answer s₁}, s.attempt (·.unknownIds type ids) = (answer, s₁) → R s s₁ :=
    hR.attempt fun _ _ _ hQ => hQ.unknownIds
  unfold OpenSession.loadTracked at h
  split at h
  · next hunknown =>
    obtain ⟨-, rfl⟩ := Prod.mk.inj h
    exact hasked hunknown
  · next unknown s₁ hunknown =>
    refine hR.trans (hasked hunknown) ?_
    rcases hfetch : (if unknown = [] then (.ok (), s₁) else s₁.fetch unknown.eraseDups includes :
      Except Halt Unit × OpenSession) with ⟨fetched, s₂⟩
    -- nothing is fetched where all is known
    have hfetched : R s₁ s₂ := by
      split at hfetch
      · obtain ⟨-, rfl⟩ := Prod.mk.inj hfetch
        exact hR.refl _
      · exact hR.fetch hfetch
    refine hR.trans hfetched ?_
    rw [hfetch] at h
    dsimp only at h
    split at h
    · obtain ⟨-, rfl⟩ := Prod.mk.inj h
      exact hR.refl _
    · exact hR.attempt (fun _ _ _ hQ => hQ.collect) h

theorem loadDetached (hR : ReadClosed R) {type : EntityType} {ids includes : List String}
    {answer : Except Halt (Dict (Option EntityRef))}
    (h : s.loadDetached type ids includes = (answer, s')) : R s s' := by
  unfold OpenSession.loadDetached at h
  split at h
  · next hsend =>
    obtain ⟨-, rfl⟩ := Prod.mk.inj h
    exact hR.send hsend
  · next hsend =>
    refine hR.trans (hR.send hsend) ?_
    split at h
    · obtain ⟨-, rfl⟩ := Prod.mk.inj h
      exact hR.refl _
    · split at h
      · obtain ⟨-, rfl⟩ := Prod.mk.inj h
        exact hR.refl _
      · split at h
        · obtain ⟨-, rfl⟩ := Prod.mk.inj h
          exact hR.refl _
        · exact hR.attempt (fun _ _ _ hQ => relates_makeDetached hQ) h

theorem loadMany (hR : ReadClosed R) {type : EntityType} {ids includes : List String}
    {answer : Except Halt (Dict (Option EntityRef))}
    (h : s.loadMany type ids includes = (answer, s')) : R s s' := by
  unfold OpenSession.loadMany at h
  split at h
  · obtain ⟨-, rfl⟩ := Prod.mk.inj h
    exact hR.refl _
  · split at h
    · exact hR.loadDetached h
    · exact hR.loadTracked h

/-! ### Queries -/

theorem ask (hR : ReadClosed R) {q : Query.Frozen} {answer : Except Halt QueryReply}
    (h : s.ask q = (answer, s')) : R s s' := by
  unfold OpenSession.ask at h
  obtain ⟨-, rfl⟩ := Prod.mk.inj h
  obtain ⟨_, hsend⟩ := send_of_sendForBody_eq (s := s) rfl
  exact hR.send hsend

/-- `runQuery` reads from the session that `freeze` leaves. -/
theorem runQuery (hR : ReadClosed R) {type : EntityType} {q : Query}
    {answer : Except Halt QueryResult} (h : s.runQuery type q = (answer, s')) :
    R (s.freeze q).2 s' := by
  unfold OpenSession.runQuery at h
  split at h
  · next hfreeze =>
    obtain ⟨-, rfl⟩ := Prod.mk.inj h
    rw [hfreeze]
    exact hR.refl _
  · next hfreeze =>
    rw [hfreeze]
    split at h
    · next hask =>
      obtain ⟨-, rfl⟩ := Prod.mk.inj h
      exact hR.ask hask
    · next hask =>
      refine hR.trans (hR.ask hask) (hR.attempt (fun D Q htells hQ _ _ htaken => ?_) h)
      exact hQ.takeQuery (discloses_of_ask hask htells) htaken

theorem countQuery (hR : ReadClosed R) {q : Query} {answer : Except Halt Nat}
    (h : s.countQuery q = (answer, s')) : R (s.freeze { q with pageSize := some 0 }).2 s' := by
  unfold OpenSession.countQuery at h
  split at h
  · next hfreeze =>
    obtain ⟨-, rfl⟩ := Prod.mk.inj h
    rw [hfreeze]
    exact hR.refl _
  · next hfreeze =>
    obtain ⟨-, rfl⟩ := Prod.mk.inj h
    rw [hfreeze]
    exact hR.ask rfl

end ReadClosed

theorem readClosed_reads : ReadClosed Reads where
  refl := .refl
  trans := .trans
  send := reads_send
  work h := .withWorkspace fun D htells => h D _ htells Workspace.readClosed_reads

theorem reads_load {type : EntityType} {id : String} {includes : List String}
    {answer : Except Halt (Option EntityRef)} (h : s.load type id includes = (answer, s')) :
    s.Reads s' := by
  unfold load at h
  obtain ⟨-, rfl⟩ := Prod.mk.inj h
  exact readClosed_reads.loadMany rfl

/-! ## Lazy reads -/

theorem reads_queue (s : OpenSession) (read : LazyRead) : s.Reads (s.queue read).2 :=
  .of_workspace_eq rfl rfl rfl rfl rfl

theorem reads_lazyQuery {type : EntityType} {q : Query} {answer : Except Error Handle}
    (h : s.lazyQuery type q = (answer, s')) : (s.freeze q).2.Reads s' := by
  unfold lazyQuery at h
  split at h
  all_goals
    rename_i hfreeze
    obtain ⟨-, rfl⟩ := Prod.mk.inj h
    rw [hfreeze]
    exact .of_workspace_eq rfl rfl rfl rfl rfl

theorem reads_lazyCount {q : Query} {answer : Except Error Handle}
    (h : s.lazyCount q = (answer, s')) : (s.freeze q).2.Reads s' := by
  unfold lazyCount at h
  split at h
  all_goals
    rename_i hfreeze
    obtain ⟨-, rfl⟩ := Prod.mk.inj h
    rw [hfreeze]
    exact .of_workspace_eq rfl rfl rfl rfl rfl

/-! ## The cache -/

theorem reads_cached {url : String} {answer : Option Cached}
    (h : s.cached url = (answer, s')) : s.Reads s' := by
  unfold cached at h
  split at h
  · obtain ⟨-, rfl⟩ := Prod.mk.inj h
    exact .refl s
  · obtain ⟨-, rfl⟩ := Prod.mk.inj h
    exact .of_connection (Connection.server_cached s.connection url)
      (fun _ htells => htells.of_cached url) rfl rfl rfl rfl

theorem reads_remember {url : String} {cached : Cached}
    (hcached : ∀ D : Fields → Prop, ServerTells D s.connection.server →
      Discloses D (IsLoadUrl url) (some cached.body)) : s.Reads (s.remember url cached) := by
  unfold remember
  split
  · exact .refl _
  · exact .of_connection rfl
      (fun D htells => ⟨htells.server, htells.cached.remember (hcached D htells.server)⟩) rfl rfl
      rfl rfl

/-- `r` is an answer that the server may give to a multi-get part with the cache key `url`. -/
def AnswersPart (s : OpenSession) (url : String) (r : SubResponse) : Prop :=
  ∀ D : Fields → Prop, ServerTells D s.connection.server → Discloses D (IsLoadUrl url) r.result

theorem AnswersPart.of_reads {url : String} {r : SubResponse} (h : s.AnswersPart url r)
    (hreads : s.Reads s') : s'.AnswersPart url r := by
  intro D htells
  rw [hreads.server] at htells
  exact h D htells

/-- `throughCache` takes the result from the cache, or passes the response on, which it may cache
before. -/
theorem throughCache_cases {url : String} {r answer : SubResponse}
    (h : s.throughCache url r = (answer, s')) :
    (∃ found, s.cached url = (found, s')
        ∧ answer = found.elim { r with forceRetry := true }
            (fun cached => { r with result := some cached.body, status := 200 }))
      ∨ (answer = r ∧ (s' = s ∨ ∃ new, cacheable r = some new ∧ s' = s.remember url new)) := by
  unfold throughCache at h
  split at h
  · split at h
    all_goals
      rename_i hcached
      obtain ⟨rfl, rfl⟩ := Prod.mk.inj h
      exact Or.inl ⟨_, hcached, rfl⟩
  · split at h
    · split at h
      · next new hnew =>
        obtain ⟨rfl, rfl⟩ := Prod.mk.inj h
        exact Or.inr ⟨rfl, Or.inr ⟨new, hnew, rfl⟩⟩
      · obtain ⟨rfl, rfl⟩ := Prod.mk.inj h
        exact Or.inr ⟨rfl, Or.inl rfl⟩
    · obtain ⟨rfl, rfl⟩ := Prod.mk.inj h
      exact Or.inr ⟨rfl, Or.inl rfl⟩

theorem reads_throughCache {url : String} {r : SubResponse} (hanswers : s.AnswersPart url r)
    {answer : SubResponse} (h : s.throughCache url r = (answer, s')) : s.Reads s' := by
  rcases throughCache_cases h with ⟨found, hcached, -⟩ | ⟨-, rfl | ⟨new, hnew, rfl⟩⟩
  · exact reads_cached hcached
  · exact .refl _
  · refine reads_remember ?_
    -- the result itself is what is cached
    unfold cacheable at hnew
    obtain ⟨tag, -, hmade⟩ := Option.bind_eq_some_iff.mp hnew
    obtain ⟨body, hbody, hsame⟩ := Option.bind_eq_some_iff.mp hmade
    obtain rfl := Option.some.inj hsame
    intro D htells
    have hdiscloses := hanswers D htells
    rw [hbody] at hdiscloses
    exact hdiscloses

/-- A response that went through the cache lists documents that the connection tells. -/
theorem discloses_throughCache {url : String} {r : SubResponse} (hanswers : s.AnswersPart url r)
    {answer : SubResponse} (h : s.throughCache url r = (answer, s')) {D : Fields → Prop}
    (htells : s.connection.Tells D) : Discloses D (IsLoadUrl url) answer.result := by
  have hgiven := hanswers D htells.server
  rcases throughCache_cases h with ⟨found, hcached, rfl⟩ | ⟨rfl, -⟩
  · cases found with
    | none => exact hgiven
    | some found =>
      unfold cached at hcached
      split at hcached
      · cases (Prod.mk.inj hcached).1
      · exact (htells.cached.cached url).2 found (Prod.mk.inj hcached).1
  · exact hgiven

/-! ## One round -/

theorem reads_deliver (s : OpenSession) (handle : Handle) (value : Except Error LazyValue) :
    s.Reads (s.deliver handle value) :=
  .of_workspace_eq rfl rfl rfl rfl rfl

theorem reads_prepare {p : Pending} {answer : Option Asked}
    (h : s.prepare p = (answer, s')) : s.Reads s' := by
  unfold prepare at h
  split at h
  · next hprepare =>
    obtain ⟨-, rfl⟩ := Prod.mk.inj h
    exact (reads_locally (fun _ _ => Workspace.readClosed_reads.prepare) hprepare).trans
      (reads_deliver _ _ _)
  · next hprepare =>
    obtain ⟨-, rfl⟩ := Prod.mk.inj h
    exact (reads_locally (fun _ _ => Workspace.readClosed_reads.prepare) hprepare).trans
      (reads_cached rfl)

theorem reads_prepareAll {pending : List Pending} {answer : List Asked}
    (h : s.prepareAll pending = (answer, s')) : s.Reads s' := by
  induction pending generalizing s answer with
  | nil =>
    obtain ⟨-, rfl⟩ := Prod.mk.inj h
    exact .refl _
  | cons p rest ih =>
    rw [prepareAll] at h
    obtain ⟨-, rfl⟩ := Prod.mk.inj h
    exact (reads_prepare rfl).trans (ih rfl)

/-- `prepare` asks for a load under the cache key of a load. -/
theorem fits_prepare {p : Pending} {asked : Asked} (h : (s.prepare p).1 = some asked) :
    asked.Fits := by
  unfold prepare at h
  split at h
  · cases h
  · next request read s₁ hprepare =>
    obtain rfl := Option.some.inj h
    intro hload
    have hprepared : (p.read.prepare s.workspace).1 = .asks request read :=
      (Prod.mk.inj hprepare).1
    -- a condition in the headers leaves the URL as it is
    have hurl : ∀ found : Option Cached,
        (found.elim request (conditional request)).cacheKey = request.cacheKey := by
      intro found
      cases found <;> rfl
    rw [hurl]
    cases hread : p.read with
    | load type ids includes requested =>
      rw [hread] at hprepared
      unfold LazyRead.prepare at hprepared
      dsimp only at hprepared
      split at hprepared
      · cases hprepared
      · cases hprepared
      · next unknown _ _ _ =>
        cases hprepared
        exact ⟨_, _, rfl⟩
    | query type q tracking =>
      rw [hread] at hprepared
      cases hprepared
      cases hload
    | count q =>
      rw [hread] at hprepared
      cases hprepared
      cases hload

theorem fits_prepareAll (s : OpenSession) (pending : List Pending) :
    ∀ asked ∈ (s.prepareAll pending).1, asked.Fits := by
  induction pending generalizing s with
  | nil => simp [prepareAll]
  | cons p rest ih =>
    intro asked hmem
    rw [prepareAll] at hmem
    rcases List.mem_append.mp hmem with hfirst | hrest
    · exact fits_prepare (Option.mem_toList.mp hfirst)
    · exact ih _ asked hrest

theorem reads_failAll (s : OpenSession) (e : Error) (batch : List Asked) :
    s.Reads (s.failAll e batch) := by
  induction batch generalizing s with
  | nil => exact .refl _
  | cons asked rest ih => exact (reads_deliver s asked.pending.handle (.error e)).trans (ih _)

theorem reads_giveUp (s : OpenSession) (batch : List Asked) : s.Reads (s.giveUp batch) := by
  induction batch generalizing s with
  | nil => exact .refl _
  | cons asked rest ih =>
    exact ((Reads.warn s .lazyGaveUp).trans (reads_deliver _ _ _)).trans (ih _)

theorem reads_sendRound {batch : List Asked} {answer : Except Halt (List SubResponse)}
    (h : s.sendRound batch = (answer, s')) : s.Reads s' := by
  unfold sendRound at h
  obtain ⟨-, rfl⟩ := Prod.mk.inj h
  exact reads_sendForBody rfl

/-- Each response of `sendRound` answers the read at its position. -/
theorem answers_sendRound {batch : List Asked} {responses : List SubResponse}
    (h : s.sendRound batch = (.ok responses, s')) :
    List.Forall₂ (fun asked r => s'.AnswersPart asked.request.cacheKey r) batch responses := by
  unfold sendRound at h
  dsimp only at h
  rcases hsend : s.sendForBody "lazy"
      { method := .post, path := "/multi_get"
        body := some (multiGetBody (batch.map Asked.request)) } with ⟨body, s₁⟩
  rw [hsend] at h
  obtain ⟨hresponses, rfl⟩ := Prod.mk.inj h
  cases body with
  | error halt => cases hresponses
  | ok body =>
    obtain ⟨response, hresponse, rfl⟩ := send_of_sendForBody hsend
    obtain ⟨items, hitems, hlength, hparts⟩ :=
      eq_ok_of_multiGetResponses (Except.eq_ok_of_mapError hresponses)
    refine List.forall₂_iff_get.mpr ⟨by rw [← hparts.length_eq, hlength], ?_⟩
    intro i hi hi' D htells
    have hitem : i < items.length := by rw [hlength]; exact hi
    refine htells.parts _ _ _ (batch.map Asked.request) items i batch[i].request items[i] _
      (server_of_send hresponse) ?_ hitems ?_ ?_ (hparts.get hitem hi')
    · exact SessionOptions.body_scope _ _
    · rw [List.getElem?_map, List.getElem?_eq_getElem hi]
      rfl
    · exact List.getElem?_eq_getElem hitem

theorem reads_receive {asked : Asked} {r : SubResponse} (hfits : asked.Fits)
    (hanswers : s.AnswersPart asked.request.cacheKey r) {answer : Option Pending}
    (h : s.receive asked r = (answer, s')) : s.Reads s' := by
  unfold receive at h
  rcases hcache : s.throughCache asked.request.cacheKey r with ⟨r', s₁⟩
  have hthrough := reads_throughCache hanswers hcache
  rw [hcache] at h
  dsimp only at h
  split at h
  · obtain ⟨-, rfl⟩ := Prod.mk.inj h
    exact hthrough.trans (.warn _ _)
  · split at h
    · obtain ⟨-, rfl⟩ := Prod.mk.inj h
      exact hthrough.trans (reads_deliver _ _ _)
    · rcases hlocal : s₁.locally (asked.pending.read.receive · r') with ⟨value, s₂⟩
      rw [hlocal] at h
      obtain ⟨-, rfl⟩ := Prod.mk.inj h
      have hreceived := hthrough.locally (fun D htells =>
        Workspace.readClosed_reads.receive
          ((discloses_throughCache hanswers hcache htells).mono hfits)) hlocal
      exact hreceived.trans (reads_deliver _ _ _)

theorem reads_receiveAll {batch : List Asked} {responses : List SubResponse}
    (hfits : ∀ asked ∈ batch, asked.Fits)
    (hanswers : List.Forall₂ (fun asked r => s.AnswersPart asked.request.cacheKey r) batch
      responses)
    {answer : List Pending} (h : s.receiveAll batch responses = (answer, s')) : s.Reads s' := by
  induction batch generalizing s responses answer with
  | nil =>
    cases hanswers
    rw [receiveAll] at h
    · obtain ⟨-, rfl⟩ := Prod.mk.inj h
      exact .refl _
    · simp
  | cons asked batch ih =>
    cases hanswers with
    | cons hfirst hrest =>
      obtain ⟨hfitsFirst, hfitsRest⟩ := List.forall_mem_cons.mp hfits
      rw [receiveAll] at h
      obtain ⟨-, rfl⟩ := Prod.mk.inj h
      have hreceived := reads_receive hfitsFirst hfirst rfl
      exact hreceived.trans
        (ih hfitsRest (hrest.imp fun _ _ hanswers => hanswers.of_reads hreceived) rfl)

theorem reads_flushRounds {rounds : Nat} {pending : List Pending} {answer : Except Halt Unit}
    (h : s.flushRounds rounds pending = (answer, s')) : s.Reads s' := by
  induction rounds generalizing s pending with
  | zero =>
    rw [flushRounds] at h
    split at h
    · next hprepare =>
      obtain ⟨-, rfl⟩ := Prod.mk.inj h
      exact reads_prepareAll hprepare
    · next hprepare =>
      obtain ⟨-, rfl⟩ := Prod.mk.inj h
      exact (reads_prepareAll hprepare).trans (reads_giveUp _ _)
  | succ rounds ih =>
    rw [flushRounds] at h
    split at h
    · next hprepare =>
      obtain ⟨-, rfl⟩ := Prod.mk.inj h
      exact reads_prepareAll hprepare
    · next hprepare =>
      refine (reads_prepareAll hprepare).trans ?_
      dsimp only at h
      split at h
      · next hround =>
        obtain ⟨-, rfl⟩ := Prod.mk.inj h
        exact (reads_sendRound hround).trans (reads_failAll _ _ _)
      · next hround =>
        have hfits := fits_prepareAll s pending
        rw [hprepare] at hfits
        exact ((reads_sendRound hround).trans
          (reads_receiveAll hfits (answers_sendRound hround) rfl)).trans (ih h)

theorem reads_flush {answer : Except Halt Unit} (h : s.flush = (answer, s')) : s.Reads s' := by
  unfold flush at h
  have hrounds := reads_flushRounds h
  have hemptied : s.Reads { s with session := { s.session with pending := [] } } :=
    .of_workspace_eq rfl rfl rfl rfl rfl
  exact hemptied.trans hrounds

theorem reads_resolve {handle : Handle} {answer : Except Halt LazyValue}
    (h : s.resolve handle = (answer, s')) : s.Reads s' := by
  -- a handle that is resolved needs no flush
  have hflushed : s.Reads
      (if s.deliveries.isResolved handle then (.ok (), s)
        else s.flush : Except Halt Unit × _).2 := by
    split
    · exact .refl _
    · exact reads_flush rfl
  refine hflushed.trans ?_
  unfold resolve at h
  dsimp only at h
  split at h
  · obtain ⟨-, rfl⟩ := Prod.mk.inj h
    exact .refl _
  · split at h
    all_goals
      obtain ⟨-, rfl⟩ := Prod.mk.inj h
      exact .of_workspace_eq rfl rfl rfl rfl rfl

end OpenSession

end DocumentSession
