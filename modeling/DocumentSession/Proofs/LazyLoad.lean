import Mathlib.Data.Finset.Dedup
import Mathlib.Data.List.Sublists
import DocumentSession.Proofs.RepeatedParts
import DocumentSession.Proofs.Sends

set_option autoImplicit false

/-! # Lazy loads and loads

A lazy load that is flushed by itself delivers the answer or error that the same load gives, and
leaves the same workspace (`OpenSession.lazyLoad_agrees`). The requests of the two differ: one asks
for each unknown identifier once, the other as often as it was given. So the server has to answer
both with the documents that it has (`Documents.Answers`). -/

namespace DocumentSession

open Identifier (normalize)

/-! ## A server of documents -/

/-- The documents of a server. The result for an identifier does not depend on its spelling; the
included documents, and whether the server answers 404, may depend on the set of identifiers and on
the paths. -/
structure Documents where
  slot : String → Option Fields
  own : ∀ id, IsOwn id (slot id)
  spelled : ∀ id id', normalize id = normalize id' → slot id = slot id'
  included : Finset String → List String → Option Json
  absent : Finset String → List String → Bool

namespace Documents

variable {d : Documents}

/-- The result for an identifier. -/
def result (d : Documents) (id : String) : Json :=
  (d.slot id).elim .null .obj

/-- `status` and `body` answer a load of `ids` with the includes `paths`. -/
def Answers (d : Documents) (ids paths : List String) (status : Nat) (body : Option Json) : Prop :=
  if d.absent ids.toFinset paths then status = 404
  else status = 200 ∧ resultItems body = some (ids.map d.result)
    ∧ body.bind (·.get? "Includes") = d.included ids.toFinset paths

/-- Register the reply to a load of `ids` with the includes `paths`. -/
def takeInto (d : Documents) (w : Workspace) (ids paths : List String) :
    Except Error Unit × Workspace :=
  if d.absent ids.toFinset paths then (.ok (), w.takeParts (ids.map .nothing))
  else w.takeNamed ((includedDocuments (d.included ids.toFinset paths)).map .document
    ++ ids.map (fun id => .inPlace id (d.slot id)))

theorem ofBody_of_results {ids : List String} {body : Option Json}
    (h : resultItems body = some (ids.map d.result)) :
    LoadReply.ofBody body ids.length = .ok {
      results := ids.map d.slot
      includes := includedDocuments (body.bind (·.get? "Includes")) } := by
  obtain ⟨b, rfl, hitems⟩ := Option.bind_eq_some_iff.mp h
  have hbody : bodyOrNone (some b) = some b := by
    refine Option.filter_eq_some_iff.mpr ⟨rfl, ?_⟩
    rw [decide_eq_true_iff]
    rintro rfl
    cases hitems
  have hslots : (ids.map d.result).map Json.fields? = ids.map d.slot := by
    rw [List.map_map]
    refine List.map_congr_left (fun id _ => ?_)
    show (d.result id).fields? = d.slot id
    unfold result
    cases d.slot id <;> rfl
  unfold LoadReply.ofBody
  rw [hbody]
  dsimp only
  rw [hitems]
  dsimp only
  rw [List.length_map, if_neg (not_not.mpr rfl), hslots]
  rfl

theorem markAllMissing_eq_takeParts (w : Workspace) (ids : List String) :
    w.markAllMissing ids = w.takeParts (ids.map .nothing) := by
  unfold Workspace.markAllMissing Workspace.takeParts
  rw [List.foldl_map]
  rfl

theorem takeLoad_eq_takeInto (w : Workspace) {ids paths : List String}
    (hpresent : d.absent ids.toFinset paths = false) :
    w.takeLoad ids {
      results := ids.map d.slot
      includes := includedDocuments (d.included ids.toFinset paths) } = d.takeInto w ids paths := by
  rw [Workspace.takeLoad_eq_takeNamed, takeInto, hpresent, if_neg Bool.false_ne_true,
    List.zipWith_map_right, List.zipWith_self]

/-- Registering the reply to a load with repeated identifiers is registering that without them. -/
theorem takeInto_eraseDups {w : Workspace} (hw : w.Consistent) (ids paths : List String) :
    d.takeInto w ids.eraseDups paths = d.takeInto w ids paths := by
  have hset : ids.eraseDups.toFinset = ids.toFinset := by
    ext id
    simp
  unfold takeInto
  rw [hset]
  split
  · have hnone : ∀ id : String, IsOwn id none := fun _ _ h => by cases h
    exact congrArg (Prod.mk _) (Workspace.takeParts_eraseDups hnone (fun _ _ _ => rfl) hw ids)
  · have hnamed : ∀ (ids : List String),
        ∀ part ∈ ids.map (fun id => ReplyPart.inPlace id (d.slot id)), part.isNamed = true := by
      intro ids part hmem
      obtain ⟨id, -, rfl⟩ := List.mem_map.mp hmem
      exact ReplyPart.isNamed_inPlace (d.own id)
    rw [Workspace.takeNamed_append, Workspace.takeNamed_append]
    rcases hincludes : w.takeNamed ((includedDocuments (d.included ids.toFinset paths)).map
      .document) with ⟨_ | _, w₁⟩
    · rfl
    · have hw₁ : w₁.Consistent := by
        rw [← (Prod.mk.inj hincludes).2]
        exact Workspace.consistent_takeParts hw _
      dsimp only
      rw [w₁.takeNamed_of_named (hnamed _), w₁.takeNamed_of_named (hnamed _),
        Workspace.takeParts_eraseDups d.own d.spelled hw₁]

/-- `takeLoaded` registers the reply of the server. -/
theorem takeLoaded_eq_takeInto (w : Workspace) {ids paths : List String} {response : SubResponse}
    (h : d.Answers ids paths response.status response.result) :
    LazyRead.takeLoaded w ids response = d.takeInto w ids paths := by
  unfold Answers at h
  unfold LazyRead.takeLoaded
  split at h
  · next habsent =>
    rw [if_pos h, markAllMissing_eq_takeParts]
    unfold takeInto
    rw [if_pos habsent]
  · next hpresent =>
    obtain ⟨hstatus, hresults, hincluded⟩ := h
    rw [hstatus, if_neg (by decide), ofBody_of_results hresults, hincluded]
    exact takeLoad_eq_takeInto w (Bool.eq_false_iff.mpr hpresent)

end Documents

/-- The multi-get of a single request. -/
def Request.asMultiGet (r : Request) : Request :=
  { method := .post, path := "/multi_get", body := some (multiGetBody [.ofRequest r]) }

/-- Whatever request comes next, the server answers a load of `ids` with its documents, sent by
itself or in a multi-get. -/
structure Documents.Serves (d : Documents) (s : OpenSession) (paths ids : List String) : Prop where
  load : ∃ response,
    s.connection.server
        (s.connection.sent ++ [s.session.options.scope (loadRequest ids paths)]) = .ok response
      ∧ d.Answers ids paths response.status response.body
  multiGet : ∃ response part,
    s.connection.server
        (s.connection.sent ++ [s.session.options.scope (loadRequest ids paths).asMultiGet])
          = .ok response
      ∧ response.isSuccess = true ∧ multiGetResponses response.body 1 = .ok [part]
      ∧ d.Answers ids paths part.status part.result

namespace OpenSession

variable {s t : OpenSession} {d : Documents} {type : EntityType} {ids paths : List String}

/-! ## Two sessions side by side -/

/-- Two sessions have the same workspace, budget and connection. -/
structure SameState (s t : OpenSession) : Prop where
  workspace : t.workspace = s.workspace
  budget : t.session.budget = s.session.budget
  options : t.session.options = s.session.options
  connection : t.connection = s.connection

theorem SameState.withWorkspace (h : SameState s t) (w : Workspace) :
    SameState (s.withWorkspace w) (t.withWorkspace w) :=
  ⟨rfl, h.budget, h.options, h.connection⟩

/-- Whether the budget refuses a request does not depend on the name of its operation. -/
theorem record_congr (b : Budget) (operation operation' : String) :
    (b.record operation').1 = (b.record operation).1
      ∧ (b.record operation').2.1 = (b.record operation).2.1 := by
  unfold Budget.record
  split
  · exact ⟨rfl, rfl⟩
  · dsimp only
    split <;> exact ⟨rfl, rfl⟩

/-- Two requests of sessions side by side are both sent, or both refused for the same reason. -/
theorem SameState.send (h : SameState s t) (operation operation' : String) (r r' : Request) :
    (t.send operation' r').2.workspace = (s.send operation r).2.workspace
      ∧ ((∃ halt, (s.send operation r).1 = .error halt ∧ (t.send operation' r').1 = .error halt)
        ∨ ((s.send operation r).1
            = s.connection.server (s.connection.sent ++ [s.session.options.scope r])
          ∧ (t.send operation' r').1
            = s.connection.server (s.connection.sent ++ [s.session.options.scope r']))) := by
  obtain ⟨hcounted, hwarning⟩ := record_congr s.session.budget operation operation'
  have hwork : t.session.work = s.session.work := congrArg Workspace.work h.workspace
  have hshared : t.shared = s.shared := congrArg Workspace.shared h.workspace
  unfold OpenSession.send count
  rw [h.connection, h.budget]
  cases s.connection.cancelled with
  | some reason => exact ⟨h.workspace, Or.inl ⟨_, rfl, rfl⟩⟩
  | none =>
    rcases hrecord : s.session.budget.record operation with ⟨counted, warning, budget⟩
    rcases hrecord' : s.session.budget.record operation' with ⟨counted', warning', budget'⟩
    rw [hrecord, hrecord'] at hcounted hwarning
    obtain rfl : counted' = counted := hcounted
    obtain rfl : warning' = warning := hwarning
    cases counted' with
    | error e =>
      refine ⟨?_, Or.inl ⟨_, rfl, rfl⟩⟩
      unfold OpenSession.workspace
      dsimp only
      rw [hwork, hshared]
    | ok _ =>
      refine ⟨?_, Or.inr ⟨rfl, ?_⟩⟩
      · unfold OpenSession.workspace
        dsimp only
        rw [hwork, hshared]
      · show (s.connection.execute (t.session.options.scope r')).1 = _
        rw [h.options]
        rfl

/-! ## The two loads -/

/-- `fetch` registers the reply of the server. -/
theorem fetch_of_answers {response : Response} {s₁ : OpenSession}
    (hsend : s.send loadOperation (loadRequest ids paths) = (.ok response, s₁))
    (h : d.Answers ids paths response.status response.body) :
    s.fetch ids paths = s₁.attempt (d.takeInto · ids paths) := by
  unfold fetch
  rw [hsend]
  unfold Documents.Answers at h
  dsimp only
  split at h
  · next habsent =>
    have hmissing : response.isNotFound = true := decide_eq_true h
    have htaken : (d.takeInto · ids paths) = fun w => (.ok (), w.markAllMissing ids) := by
      funext w
      unfold Documents.takeInto
      rw [if_pos habsent, Documents.markAllMissing_eq_takeParts]
    rw [if_pos hmissing, htaken]
    rfl
  · next hpresent =>
    obtain ⟨hstatus, hresults, hincluded⟩ := h
    have hfound : response.isNotFound = false := by
      unfold Response.isNotFound
      rw [hstatus]
      rfl
    have hsuccess : response.isSuccess = true := by
      unfold Response.isSuccess
      rw [hstatus]
      rfl
    rw [if_neg (Bool.eq_false_iff.mp hfound), hsuccess, if_neg (by decide),
      Documents.ofBody_of_results hresults, hincluded]
    exact congrArg s₁.attempt
      (funext (Documents.takeLoad_eq_takeInto · (Bool.eq_false_iff.mpr hpresent)))

/-- The answer that a load gives for `ids` once the reply about `unknown` is registered. -/
def takeAnswered (d : Documents) (type : EntityType) (ids unknown paths : List String)
    (w : Workspace) : Except Error (Dict (Option EntityRef)) × Workspace :=
  match d.takeInto w unknown paths with
  | (.error e, w) => (.error e, w)
  | (.ok (), w) => w.collect type [] ids

theorem takeAnswered_eraseDups {w : Workspace} (hw : w.Consistent) (unknown : List String) :
    takeAnswered d type ids unknown.eraseDups paths w
      = takeAnswered d type ids unknown paths w := by
  unfold takeAnswered
  rw [Documents.takeInto_eraseDups hw]

theorem loadTracked_of_unknown {unknown : List String} {s₁ s₂ : OpenSession} {response : Response}
    (hunknown : s.attempt (·.unknownIds type ids) = (.ok unknown, s₁)) (hsome : unknown ≠ [])
    (hsend : s₁.send loadOperation (loadRequest unknown.eraseDups paths) = (.ok response, s₂))
    (h : d.Answers unknown.eraseDups paths response.status response.body) :
    s.loadTracked type ids paths
      = s₂.attempt (takeAnswered d type ids unknown.eraseDups paths) := by
  unfold loadTracked
  rw [hunknown]
  dsimp only
  rw [if_neg hsome, fetch_of_answers hsend h, attempt_eq, attempt_eq s₂]
  unfold takeAnswered
  rcases d.takeInto s₂.workspace unknown.eraseDups paths with ⟨_ | _, w⟩
  · rfl
  · rfl

theorem loadTracked_of_halt {unknown : List String} {s₁ s₂ : OpenSession} {halt : Halt}
    (hunknown : s.attempt (·.unknownIds type ids) = (.ok unknown, s₁)) (hsome : unknown ≠ [])
    (hsend : s₁.send loadOperation (loadRequest unknown.eraseDups paths) = (.error halt, s₂)) :
    s.loadTracked type ids paths = (.error halt, s₂) := by
  unfold loadTracked fetch
  rw [hunknown]
  dsimp only
  rw [if_neg hsome, hsend]

theorem receive_eq_takeAnswered {unknown : List String} {part : SubResponse} (w : Workspace)
    (h : d.Answers unknown paths part.status part.result) :
    (LazyRead.load type ids paths unknown).receive w part
      = ((takeAnswered d type ids unknown paths w).1.map .documents,
        (takeAnswered d type ids unknown paths w).2) := by
  unfold LazyRead.receive takeAnswered
  dsimp only
  rw [Documents.takeLoaded_eq_takeInto w h]
  rcases d.takeInto w unknown paths with ⟨_ | _, w₁⟩
  · rfl
  · rfl

/-- The round of one lazy load delivers `takeAnswered`. -/
theorem receiveAll_load (hcache : t.Uncached) {handle : Handle} {unknown : List String}
    {request : SubRequest} {part : SubResponse} (hretry : part.forceRetry = false)
    (h : d.Answers unknown paths part.status part.result) :
    t.receiveAll [⟨⟨handle, .load type ids paths unknown⟩, request⟩] [part]
      = ([], (t.withWorkspace (takeAnswered d type ids unknown paths t.workspace).2).deliver handle
        ((takeAnswered d type ids unknown paths t.workspace).1.map .documents)) := by
  have hstatus : part.status = 404 ∨ part.status = 200 := by
    unfold Documents.Answers at h
    split at h
    · exact Or.inl h
    · exact Or.inr h.1
  have hmodified : part.isNotModified = false := by
    unfold SubResponse.isNotModified
    rcases hstatus with hstatus | hstatus <;> rw [hstatus] <;> rfl
  have huseful : (!part.isSuccess && part.status ≠ 404) = false := by
    unfold SubResponse.isSuccess
    rcases hstatus with hstatus | hstatus <;> rw [hstatus] <;> rfl
  unfold receiveAll
  rw [receive_of_throughCache (throughCache_of_uncached hcache _ hmodified) hretry]
  unfold handOver
  rw [huseful, if_neg Bool.false_ne_true]
  dsimp only
  rw [receive_eq_takeAnswered t.workspace h]
  rfl

theorem unknownIds_sublist {w w' : Workspace} {unknown : List String}
    (h : w.unknownIds type ids = (.ok unknown, w')) : unknown.Sublist ids := by
  induction ids generalizing w w' unknown with
  | nil =>
    obtain rfl := Except.ok.inj (Prod.mk.inj h).1
    exact .slnil
  | cons id rest ih =>
    rw [Workspace.unknownIds] at h
    split at h
    · cases (Prod.mk.inj h).1
    · next known w₁ _ =>
      rcases hrest : w₁.unknownIds type rest with ⟨_ | unknown', w₂⟩
      · rw [hrest] at h
        cases (Prod.mk.inj h).1
      · rw [hrest] at h
        obtain rfl := Except.ok.inj (Prod.mk.inj h).1
        split
        · exact (ih hrest).cons_cons id
        · exact (ih hrest).cons id

theorem eraseDups_sublist (ids : List String) : ids.eraseDups.Sublist ids := by
  induction hlength : ids.length using Nat.strongRecOn generalizing ids with
  | _ n ih =>
    cases ids with
    | nil => exact .slnil
    | cons first rest =>
      have hshorter : (rest.filter (fun id => !id == first)).length < n := by
        rw [← hlength, List.length_cons]
        exact Nat.lt_succ_of_le (List.length_filter_le ..)
      rw [List.eraseDups_cons]
      exact ((ih _ hshorter _ rfl).trans List.filter_sublist).cons_cons first

/-! ## A flush of one read -/

section Single

variable {p : Pending} {t₁ : OpenSession}

theorem prepareAll_of_known (hprepare : t.prepare p = (none, t₁)) :
    t.prepareAll [p] = ([], t₁) := by
  unfold prepareAll
  rw [hprepare]
  rfl

theorem prepareAll_of_asked {asked : Asked} (hprepare : t.prepare p = (some asked, t₁)) :
    t.prepareAll [p] = ([asked], t₁) := by
  unfold prepareAll
  rw [hprepare]
  rfl

end Single

/-- The flush delivers what the load gives, and leaves the same workspace. -/
structure DeliversLoad (handle : Handle)
    (loaded : Except Halt (Dict (Option EntityRef)) × OpenSession)
    (flushed : Except Halt Unit × OpenSession) : Prop where
  value : flushed.2.deliveries.values.find? handle
    = some ((loaded.1.mapError errorOf).map .documents)
  workspace : flushed.2.workspace = loaded.2.workspace
  /-- The flush fails only if the load does, with the same error. -/
  halted : ∀ halt, flushed.1 = .error halt → loaded.1 = .error halt

/-- Both work on the same workspace, so what one delivers the other gives. -/
theorem deliversLoad_of_work {handle : Handle} {s₁ t₁ : OpenSession}
    {f : Workspace → Except Error (Dict (Option EntityRef)) × Workspace}
    (hworkspace : t₁.workspace = s₁.workspace) :
    DeliversLoad handle (s₁.attempt f)
      (.ok (), (t₁.withWorkspace (f t₁.workspace).2).deliver handle
        ((f t₁.workspace).1.map .documents)) := by
  rw [hworkspace, attempt_eq]
  refine ⟨?_, rfl, fun halt h => by cases h⟩
  refine (Deliveries.find?_deliver ..).trans ((if_pos rfl).trans ?_)
  cases (f s₁.workspace).1 <;> rfl

theorem prepare_ofIds (w : Workspace) (type : EntityType) (ids paths : List String) :
    (LazyRead.ofIds type ids paths).prepare w
      = match w.unknownIds type ids with
        | (.error e, w) => (.answered (.error e), w)
        | (.ok [], w) =>
          (.answered ((w.collect type [] ids).1.map .documents), (w.collect type [] ids).2)
        | (.ok unknown, w) =>
          (.asks (.ofRequest (loadRequest unknown paths)) (.load type ids paths unknown), w) := rfl

/-- If a record cannot be decoded as `type`, both loads fail before anything is sent. -/
theorem deliversLoad_of_refused (hstate : SameState s t) {e : Error} {w₁ : Workspace}
    (hunknown : s.workspace.unknownIds type ids = (.error e, w₁)) (handle : Handle) :
    DeliversLoad handle (s.loadTracked type ids paths)
      (flushRounds maxRounds t [⟨handle, .ofIds type ids paths⟩]) := by
  have hprepared : (LazyRead.ofIds type ids paths).prepare t.workspace
      = (.answered (.error e), w₁) := by
    rw [prepare_ofIds, hstate.workspace, hunknown]
  have hload : s.loadTracked type ids paths = (.error (.failed e), s.withWorkspace w₁) := by
    unfold loadTracked
    rw [attempt_eq, hunknown]
    rfl
  rw [flushRounds_of_known (prepareAll_of_known (prepare_of_answered hprepared)), hload]
  exact ⟨(Deliveries.find?_deliver ..).trans (if_pos rfl), rfl, fun halt h => by cases h⟩

/-- If all identifiers are known, nothing is sent. -/
theorem deliversLoad_of_known (hstate : SameState s t) {w₁ : Workspace}
    (hunknown : s.workspace.unknownIds type ids = (.ok [], w₁)) (handle : Handle) :
    DeliversLoad handle (s.loadTracked type ids paths)
      (flushRounds maxRounds t [⟨handle, .ofIds type ids paths⟩]) := by
  have hprepared : (LazyRead.ofIds type ids paths).prepare t.workspace
      = (.answered ((w₁.collect type [] ids).1.map .documents), (w₁.collect type [] ids).2) := by
    rw [prepare_ofIds, hstate.workspace, hunknown]
  have hload : s.loadTracked type ids paths
      = (s.withWorkspace w₁).attempt (·.collect type [] ids) := by
    unfold loadTracked
    rw [attempt_eq, hunknown]
    rfl
  rw [flushRounds_of_known (prepareAll_of_known (prepare_of_answered hprepared)), hload]
  have hworkspace : (t.withWorkspace w₁).workspace = (s.withWorkspace w₁).workspace := rfl
  exact deliversLoad_of_work hworkspace

/-- Both loads ask for the unknown identifiers. -/
theorem deliversLoad_of_unknown (hs : s.Consistent) (hstate : SameState s t) (hcache : t.Uncached)
    (hserves : ∀ asked, asked.Sublist ids → d.Serves s paths asked) {unknown : List String}
    {w₁ : Workspace} (hunknown : s.workspace.unknownIds type ids = (.ok unknown, w₁))
    (hsome : unknown ≠ []) (handle : Handle) :
    DeliversLoad handle (s.loadTracked type ids paths)
      (flushRounds maxRounds t [⟨handle, .ofIds type ids paths⟩]) := by
  have hattempt : s.attempt (·.unknownIds type ids) = (.ok unknown, s.withWorkspace w₁) := by
    rw [attempt_eq, hunknown]
    rfl
  have hprepared : (LazyRead.ofIds type ids paths).prepare t.workspace
      = (.asks (.ofRequest (loadRequest unknown paths)) (.load type ids paths unknown), w₁) := by
    rw [prepare_ofIds, hstate.workspace, hunknown]
    cases unknown with
    | nil => exact absurd rfl hsome
    | cons => rfl
  have hprepare := prepareAll_of_asked
    (prepare_of_asks (p := ⟨handle, .ofIds type ids paths⟩) hcache hprepared)
  obtain ⟨hworkspace, hsends⟩ := (hstate.withWorkspace w₁).send loadOperation "lazy"
    (loadRequest unknown.eraseDups paths) (loadRequest unknown paths).asMultiGet
  rcases hsend : (s.withWorkspace w₁).send loadOperation (loadRequest unknown.eraseDups paths)
    with ⟨answer, s₂⟩
  rcases hsend' : (t.withWorkspace w₁).send "lazy" (loadRequest unknown paths).asMultiGet
    with ⟨answer', t₂⟩
  rw [hsend, hsend'] at hworkspace hsends
  rcases hsends with ⟨halt, hhalt, hhalt'⟩ | ⟨hanswer, hanswer'⟩
  · -- neither request gets through
    obtain rfl : answer = .error halt := hhalt
    obtain rfl : answer' = .error halt := hhalt'
    rw [maxRounds, flushRounds_of_halt hprepare (List.cons_ne_nil _ _) (sendRound_of_halt hsend'),
      loadTracked_of_halt hattempt hsome hsend]
    refine ⟨(Deliveries.find?_deliver ..).trans (if_pos rfl), hworkspace, ?_⟩
    rintro halt' ⟨⟩
    rfl
  · have hsublist := unknownIds_sublist hunknown
    obtain ⟨response, hresponse, hanswers⟩ :=
      (hserves _ ((eraseDups_sublist unknown).trans hsublist)).load
    obtain ⟨response', part, hresponse', hsuccess, hparts, hanswers'⟩ :=
      (hserves _ hsublist).multiGet
    obtain rfl : answer = .ok response := hanswer.trans hresponse
    obtain rfl : answer' = .ok response' := hanswer'.trans hresponse'
    have hs₂ : s₂.Consistent :=
      (hs.reads (readClosed_reads.attempt (fun _ _ _ hQ => hQ.unknownIds) hattempt)).reads
        (reads_send hsend)
    have hcache₂ : t₂.Uncached := by
      obtain ⟨_, _, _, rfl, -⟩ := send_eq hsend'
      exact hcache
    have hretry := forceRetry_of_multiGetResponses hparts part (List.mem_singleton_self part)
    rw [maxRounds, flushRounds_of_answer hprepare (List.cons_ne_nil _ _)
        (sendRound_of_answer hsend' hsuccess hparts) (receiveAll_load hcache₂ hretry hanswers'),
      loadTracked_of_unknown hattempt hsome hsend hanswers, attempt_eq,
      takeAnswered_eraseDups hs₂.workspace, ← attempt_eq]
    exact deliversLoad_of_work hworkspace

/-- A lazy load that is flushed by itself delivers what the load gives, and leaves the same
workspace. -/
theorem lazyLoad_agrees (hreachable : s.Reachable)
    (htracking : s.session.work.noTracking = false) (hpending : s.session.pending = [])
    (hcache : s.Uncached) (hnamed : "" ∉ ids)
    (hserves : ∀ asked, asked.Sublist ids → d.Serves s paths asked) :
    DeliversLoad (s.lazyLoad type ids paths).1 (s.loadMany type ids paths)
      (s.lazyLoad type ids paths).2.flush := by
  have hloaded : s.loadMany type ids paths = s.loadTracked type ids paths := by
    unfold loadMany
    rw [List.contains_eq_mem, if_neg (by simpa using hnamed), htracking,
      if_neg Bool.false_ne_true]
  have hqueued : (s.lazyLoad type ids paths).2.session.pending
      = [⟨(s.lazyLoad type ids paths).1, .ofIds type ids paths⟩] := by
    show s.session.pending ++ _ = _
    rw [hpending]
    rfl
  rw [hloaded, flush, hqueued]
  generalize hempty : ({ (s.lazyLoad type ids paths).2 with
    session := { (s.lazyLoad type ids paths).2.session with pending := [] } } : OpenSession) = t
  have hstate : SameState s t := by
    subst hempty
    exact ⟨rfl, rfl, rfl, rfl⟩
  have huncached : t.Uncached := by
    subst hempty
    exact hcache
  rcases hunknown : s.workspace.unknownIds type ids with ⟨e | unknown, w₁⟩
  · exact deliversLoad_of_refused hstate hunknown _
  · by_cases hnone : unknown = []
    · subst hnone
      exact deliversLoad_of_known hstate hunknown _
    · exact deliversLoad_of_unknown hreachable.consistent hstate huncached hserves hunknown hnone _

/-- A server with the document `users/1`, which includes a document without identifier for every
path. -/
def soleUser : Documents where
  slot id := if normalize id = "users/1" then
    some [("@metadata", .obj [("@id", .str "users/1")]), ("Name", .str "Al")] else none
  own id document h := by
    split at h
    · next hid =>
      obtain rfl := Option.some.inj h
      rw [hid]
      decide +kernel
    · cases h
  spelled id id' h := by rw [h]
  included _ paths := if paths = [] then none else some (.obj [("users/2", .obj [])])
  absent _ _ := false

/-- The reply to a load. -/
def soleUser.answer (ids paths : List String) : Json :=
  let included := soleUser.included ids.toFinset paths
  Json.object (included.elim [] (fun included => [("Includes", included)])
    ++ [("Results", .arr (ids.map soleUser.result))])

/-- The reply to a multi-get of one load. -/
def soleUser.multiAnswer (ids paths : List String) : Json :=
  .obj [("Results", .arr [Json.object
    [("StatusCode", .nat 200), ("Result", soleUser.answer ids paths)]])]

/-- One identifier three times, in two spellings. -/
def repeatedIds : List String :=
  ["users/1", "USERS/1", "users/1"]

/-- A session beside that server, which answers loads with the includes `paths`. -/
def besideSoleUser (paths : List String) : OpenSession where
  session := Session.new 1 {} {}
  shared := {}
  connection :=
    { server := fun sent =>
        (repeatedIds.sublists.findSome? fun asked =>
          if sent.getLast? = some (loadRequest asked paths) then
            some (.ok (.ok (soleUser.answer asked paths)))
          else if sent.getLast? = some (loadRequest asked paths).asMultiGet then
            some (.ok (.ok (soleUser.multiAnswer asked paths)))
          else none).getD (.error (.panicked "no load")) }
  deliveries := {}

theorem serves_besideSoleUser {paths asked : List String} (hpaths : paths ∈ [[], ["friend"]])
    (hasked : asked.Sublist repeatedIds) : soleUser.Serves (besideSoleUser paths) paths asked := by
  have hmem := List.mem_sublists.mpr hasked
  have hanswers : soleUser.Answers asked paths 200 (some (soleUser.answer asked paths)) := by
    have hbody : ∀ paths ∈ [[], ["friend"]], ∀ asked ∈ repeatedIds.sublists,
        resultItems (some (soleUser.answer asked paths)) = some (asked.map soleUser.result)
          ∧ (soleUser.answer asked paths).get? "Includes"
            = soleUser.included asked.toFinset paths := by
      decide +kernel
    exact ⟨rfl, hbody paths hpaths asked hmem⟩
  have hserver : ∀ paths ∈ [[], ["friend"]], ∀ asked ∈ repeatedIds.sublists,
      (besideSoleUser paths).connection.server [loadRequest asked paths]
          = .ok (.ok (soleUser.answer asked paths))
        ∧ (besideSoleUser paths).connection.server [(loadRequest asked paths).asMultiGet]
          = .ok (.ok (soleUser.multiAnswer asked paths))
        ∧ multiGetResponses (some (soleUser.multiAnswer asked paths)) 1
          = .ok [{ result := some (soleUser.answer asked paths), status := 200 }] := by
    decide +kernel
  obtain ⟨hload, hmulti, hparts⟩ := hserver paths hpaths asked hmem
  exact ⟨⟨_, hload, hanswers⟩, ⟨_, _, hmulti, rfl, hparts, hanswers⟩⟩

/-- The repeated identifiers get the same entity, lazily or not. If a document without identifier is
included, both loads fail for it. -/
theorem lazyLoad_agrees_repeated :
    let plain := besideSoleUser []
    let following := besideSoleUser ["friend"]
    DeliversLoad (plain.lazyLoad Shop.anything repeatedIds []).1
        (plain.loadMany Shop.anything repeatedIds [])
        (plain.lazyLoad Shop.anything repeatedIds []).2.flush
      ∧ (plain.loadMany Shop.anything repeatedIds []).1
        = .ok [("USERS/1", some 0), ("users/1", some 0)]
      ∧ DeliversLoad (following.lazyLoad Shop.anything repeatedIds ["friend"]).1
        (following.loadMany Shop.anything repeatedIds ["friend"])
        (following.lazyLoad Shop.anything repeatedIds ["friend"]).2.flush
      ∧ (following.loadMany Shop.anything repeatedIds ["friend"]).1
        = .error (.failed (Workspace.missingId [])) := by
  intro plain following
  have hreachable : ∀ paths, (besideSoleUser paths).Reachable :=
    fun paths => .opened 1 {} {} _ _ _
  have hserves : ∀ paths ∈ [[], ["friend"]], ∀ asked, asked.Sublist repeatedIds →
      soleUser.Serves (besideSoleUser paths) paths asked :=
    fun paths hpaths asked hasked => serves_besideSoleUser hpaths hasked
  exact ⟨lazyLoad_agrees (hreachable []) rfl rfl (Or.inr rfl) (by decide) (hserves [] (by decide)),
    by decide +kernel,
    lazyLoad_agrees (hreachable _) rfl rfl (Or.inr rfl) (by decide) (hserves _ (by decide)),
    by decide +kernel⟩

end OpenSession

end DocumentSession
