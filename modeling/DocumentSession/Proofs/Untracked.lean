import DocumentSession.Proofs.Detached
import DocumentSession.Proofs.LazyAnswers
import DocumentSession.Proofs.Sends

set_option autoImplicit false

/-! # Sessions with `noTracking`

In a session with `noTracking` storing is refused, and everything that is read becomes entities that
no record holds. So its unit of work holds nothing but `missing` identifiers and deferred commands
(`OpenSession.TracksNothing`), and a save sends the deferred commands alone.

This holds as long as there is no `lazyLoad`. A lazy load registers its documents as in a session
that tracks, and an edit of them is written by the next save
(`lazyLoad_tracks_without_tracking`). -/

namespace DocumentSession

/-! ## Units of work without tracking -/

/-- `noTracking` is on, and there is no record. -/
structure UnitOfWork.TracksNothing (u : UnitOfWork) : Prop where
  off : u.noTracking = true
  records : u.records = []
  identities : u.identities.entries = []
  registry : u.registry.entries = []
  deleted : u.deleted = []

namespace UnitOfWork.TracksNothing

variable {u : UnitOfWork}

/-- `missing` and `deferred` may be anything. -/
theorem commands (h : u.TracksNothing) (missing : KnownMissing) (deferred : List Command) :
    TracksNothing { u with missing, deferred } :=
  ⟨h.off, h.records, h.identities, h.registry, h.deleted⟩

theorem identity (h : u.TracksNothing) (id : String) : u.identities.get? id = none := by
  unfold IdentityMap.get?
  rw [h.identities]
  rfl

theorem instance? (h : u.TracksNothing) (entity : EntityRef) : u.registry.get? entity = none := by
  unfold Registry.get?
  rw [h.registry]
  rfl

theorem recordForId? (h : u.TracksNothing) (id : String) : u.recordForId? id = none := by
  unfold UnitOfWork.recordForId?
  rw [h.identity]
  rfl

theorem recordForEntity? (h : u.TracksNothing) (entity : EntityRef) :
    u.recordForEntity? entity = none := by
  unfold UnitOfWork.recordForEntity?
  rw [h.instance?]
  rfl

end UnitOfWork.TracksNothing

/-! ## Work with `noTracking` -/

namespace Workspace

variable {w w' : Workspace} {callbacks : Callbacks}

theorem store_of_tracksNothing (h : w.work.TracksNothing) (entity : EntityRef)
    (id version : Option String) (check : VersionCheck) :
    w.store entity id version check = (.error storeWithoutTracking, w) := by
  unfold store
  rw [if_pos h.off]

theorem recordOf_of_tracksNothing (h : w.work.TracksNothing) (entity : EntityRef) :
    w.recordOf entity = .error (unknownEntity (w.shared.entity entity).type "") := by
  unfold recordOf
  rw [h.recordForEntity?]

theorem delete_of_tracksNothing (h : w.work.TracksNothing) (entity : EntityRef) :
    (w.delete entity).2 = w := by
  unfold delete
  rw [h.recordForEntity?]

theorem ignoreChanges_of_tracksNothing (h : w.work.TracksNothing) (entity : EntityRef) :
    (w.ignoreChanges entity).2 = w := by
  unfold ignoreChanges
  rw [recordOf_of_tracksNothing h]

theorem metadataOf_of_tracksNothing (h : w.work.TracksNothing) (entity : EntityRef) :
    (w.metadataOf entity).2 = w := by
  unfold metadataOf
  rw [recordOf_of_tracksNothing h]

theorem evict_of_tracksNothing (h : w.work.TracksNothing) (entity : EntityRef) :
    w.evict entity = w := by
  unfold evict
  rw [h.instance?]

theorem tracksNothing_defer (h : w.work.TracksNothing) (commands : List Command) :
    (w.defer commands).2.work.TracksNothing := by
  unfold defer
  split
  · exact h
  · exact h.commands ..

theorem tracksNothing_deleteId (h : w.work.TracksNothing) (id : String)
    (version : Option String) : (w.deleteId id version).2.work.TracksNothing := by
  unfold deleteId
  split
  · exact h
  · rw [h.recordForId?]
    exact tracksNothing_defer (w := w.markMissing id) (h.commands ..) _

theorem tracksNothing_clear (h : w.work.TracksNothing) : w.clear.work.TracksNothing :=
  ⟨h.off, rfl, rfl, rfl, rfl⟩

/-! ## Saving with `noTracking` -/

/-- If there is no record, a plan has the deferred commands alone. -/
theorem planSave_of_tracksNothing (h : w.work.TracksNothing) {answer : Except Error Plan}
    (hplan : w.planSave callbacks = (answer, w')) :
    w'.work = w.work ∧ ∀ plan, answer = .ok plan → plan = w.work.deferred.map plannedDeferred := by
  have hdeletes : w.planDeletes callbacks w.work.deleted.keys = (.ok [], w) := by
    rw [h.deleted]
    rfl
  have hputs : w.planPuts callbacks w.work.registry.records = (.ok [], w) := by
    unfold Registry.records
    rw [h.registry]
    rfl
  unfold planSave at hplan
  rw [hdeletes] at hplan
  dsimp only at hplan
  rw [hputs] at hplan
  dsimp only at hplan
  rcases hdeferred : w.planDeferred callbacks w.work.deferred with ⟨e | deferred, w₁⟩
  all_goals
    rw [hdeferred] at hplan
    obtain ⟨rfl, rfl⟩ := Prod.mk.inj hplan
    exact planDeferred_spec hdeferred

theorem tracksNothing_settleResult (h : w.work.TracksNothing) {planned : Planned}
    (horigin : planned.origin = .deferred) (result : Fields) :
    (w.settleResult planned result).2.work.TracksNothing := by
  unfold settleResult
  rw [horigin]
  dsimp only
  split
  · unfold settleDeferredPut
    rw [h.recordForId?]
    exact h.commands ..
  · unfold settleDeferredDelete
    rw [h.identity]
    exact h.commands ..
  · unfold settleDeferredPatch
    rw [h.recordForId?]
    exact h

theorem tracksNothing_settleAll (h : w.work.TracksNothing) {plan : Plan}
    (hplan : ∀ planned ∈ plan, planned.origin = .deferred) (failure : Option Error)
    (results : List Fields) : (w.settleAll failure plan results).2.work.TracksNothing := by
  induction plan generalizing w failure results with
  | nil => exact h
  | cons planned plan ih =>
    cases results with
    | nil => exact h
    | cons result results =>
      obtain ⟨hfirst, hrest⟩ := List.forall_mem_cons.mp hplan
      exact ih (tracksNothing_settleResult h hfirst result) hrest _ results

theorem savedRecords_of_deferred {plan : Plan}
    (hplan : ∀ planned ∈ plan, planned.origin = .deferred) : savedRecords plan = [] := by
  refine List.filterMap_eq_nil_iff.mpr ?_
  intro planned hmem
  rw [hplan planned hmem]

theorem tracksNothing_settle (h : w.work.TracksNothing) {plan : Plan}
    (hplan : ∀ planned ∈ plan, planned.origin = .deferred) (answer : Option Json) :
    (w.settle callbacks plan answer).2.work.TracksNothing := by
  unfold settle
  split
  · exact h
  · next results _ =>
    rw [savedRecords_of_deferred hplan]
    exact (tracksNothing_settleAll h hplan none results).commands ..

end Workspace

/-! ## Sessions with `noTracking` -/

namespace OpenSession

variable {s s' : OpenSession} {made : List EntityRef}

/-- There is no record, and no read in `pending` tracks its results. -/
structure TracksNothing (s : OpenSession) : Prop where
  work : s.session.work.TracksNothing
  pending : ∀ p ∈ s.session.pending, p.read.IsDetached

namespace TracksNothing

theorem makes (h : s.TracksNothing) (hmakes : s.Makes made s') : s'.TracksNothing := by
  refine ⟨?_, ?_⟩
  · rw [hmakes.work]
    exact h.work
  · rw [hmakes.pending]
    exact h.pending

theorem locally {α : Type} (h : s.TracksNothing) {f : Workspace → α × Workspace}
    (hf : (f s.workspace).2.work.TracksNothing) : (s.locally f).2.TracksNothing :=
  ⟨hf, h.pending⟩

/-- Work that keeps the workspace. -/
theorem locally_of_eq {α : Type} (h : s.TracksNothing) {f : Workspace → α × Workspace}
    (hf : (f s.workspace).2 = s.workspace) : (s.locally f).2.TracksNothing :=
  h.locally (by rw [hf]; exact h.work)

theorem queue (h : s.TracksNothing) {read : LazyRead} (hread : read.IsDetached) :
    (s.queue read).2.TracksNothing := by
  refine ⟨h.work, ?_⟩
  intro p hmem
  rcases List.mem_append.mp hmem with hbefore | hnew
  · exact h.pending p hbefore
  · rw [List.mem_singleton.mp hnew]
    exact hread

/-! ### Reading -/

theorem makes_loadMany (h : s.TracksNothing) (type : EntityType) (ids includes : List String) :
    s.Makes (instancesOf foundInstances (s.loadMany type ids includes).1)
      (s.loadMany type ids includes).2 := by
  unfold loadMany
  split
  · exact .refl s
  · rw [if_pos h.work.off]
    exact makes_loadDetached rfl

theorem makes_load (h : s.TracksNothing) (type : EntityType) (id : String)
    (includes : List String) :
    s.Makes (instancesOf Option.toList (s.load type id includes).1)
      (s.load type id includes).2 := by
  have hmany := h.makes_loadMany type [id] includes
  unfold load
  rcases hfound : s.loadMany type [id] includes with ⟨e | found, s₁⟩
  all_goals rw [hfound] at hmany
  · exact hmany
  · refine ⟨hmany.workspace.of_subperm ?_, hmany.pending⟩
    show ((found.find? id).join.toList).Subperm (foundInstances found)
    rcases hentry : found.find? id with _ | _ | entity
    · exact List.nil_subperm
    · exact List.nil_subperm
    · refine List.singleton_subperm_iff.mpr (List.mem_flatMap.mpr ?_)
      exact ⟨_, Keyed.mem_of_find? hentry, List.mem_singleton_self entity⟩

theorem lazyQuery (h : s.TracksNothing) (hkeep : s.session.callbacks.KeepInstances)
    (type : EntityType) (q : Query) : (s.lazyQuery type q).2.TracksNothing := by
  unfold OpenSession.lazyQuery
  split
  · next hfreeze => exact h.makes (makes_freeze hkeep hfreeze)
  · next q' frozen s₁ hfreeze =>
    have hfrozen := h.makes (makes_freeze hkeep hfreeze)
    exact hfrozen.queue (isTracking_eq_false hfrozen.work.off q')

theorem lazyCount (h : s.TracksNothing) (hkeep : s.session.callbacks.KeepInstances) (q : Query) :
    (s.lazyCount q).2.TracksNothing := by
  unfold OpenSession.lazyCount
  split
  · next hfreeze => exact h.makes (makes_freeze hkeep hfreeze)
  · next hfreeze => exact (h.makes (makes_freeze hkeep hfreeze)).queue trivial

/-- A flush makes the entities that its reads are given. -/
theorem makes_flush (h : s.TracksNothing) :
    s.workspace.Makes (deliveredInstances (s.rounds.flatMap Round.delivered)) s.flush.2.workspace
      ∧ s.flush.2.session.pending = [] := by
  have hmakes := (flushes_roundsOf maxRounds
    { s with session := { s.session with pending := [] } } s.session.pending).makes h.pending
  exact ⟨hmakes.workspace, hmakes.pending⟩

theorem flush (h : s.TracksNothing) : s.flush.2.TracksNothing := by
  obtain ⟨hmakes, hpending⟩ := h.makes_flush
  refine ⟨?_, ?_⟩
  · rw [show s.flush.2.session.work = s.session.work from hmakes.work]
    exact h.work
  · rw [hpending]
    exact fun _ hmem => (List.not_mem_nil hmem).elim

theorem resolve (h : s.TracksNothing) (handle : Handle) : (s.resolve handle).2.TracksNothing := by
  obtain ⟨s₁, deliveries, hafter, heq, -, -⟩ := resolve_eq s handle
  have htracks : s₁.TracksNothing := by
    rw [hafter]
    split
    · exact h
    · exact h.flush
  rw [heq]
  exact ⟨htracks.work, htracks.pending⟩

end TracksNothing

/-- The batch of the deferred commands. -/
def deferredBatch (s : OpenSession) : Request :=
  { method := .post, path := "/bulk_docs"
    body := some (Command.batchBody s.session.work.deferred) }

/-- A plan of the deferred commands is sent as `deferredBatch`, if at all. -/
theorem TracksNothing.sends (h : s.TracksNothing) {plan : Plan} {w : Workspace}
    (hplan : s.workspace.planSave s.session.callbacks = (.ok plan, w))
    {answer : Except Halt Response} {s₁ : OpenSession}
    (hsend : (s.withWorkspace w).send "save_changes" (batchRequest plan) = (answer, s₁)) :
    (∀ planned ∈ plan, planned.origin = .deferred)
      ∧ ∃ sent, s₁.connection.sent = s.connection.sent ++ sent
        ∧ sent.Sublist [s.session.options.scope s.deferredBatch] := by
  have hdeferred := (Workspace.planSave_of_tracksNothing h.work hplan).2 plan rfl
  have hbatch : batchRequest plan = s.deferredBatch := by
    have hsame : Planned.command ∘ Workspace.plannedDeferred = id := rfl
    unfold batchRequest deferredBatch Plan.body Plan.commands
    rw [hdeferred, List.map_map, hsame, List.map_id]
    rfl
  rw [hbatch] at hsend
  obtain ⟨budget, warnings, sent, rfl, hsent⟩ := send_eq hsend
  refine ⟨?_, ?_⟩
  · rw [hdeferred]
    exact List.forall_mem_map.mpr fun _ _ => rfl
  · rcases hsent with ⟨rfl, -⟩ | rfl
    · exact ⟨[], (List.append_nil _).symm, List.nil_sublist _⟩
    · exact ⟨_, rfl, List.Sublist.refl _⟩

/-- A save sends `deferredBatch`, or nothing. -/
theorem TracksNothing.save (h : s.TracksNothing) :
    s.save.2.TracksNothing
      ∧ ∃ sent, s.save.2.connection.sent = s.connection.sent ++ sent
        ∧ sent.Sublist [s.session.options.scope s.deferredBatch] := by
  have hplanned : ∀ {planned w}, s.workspace.planSave s.session.callbacks = (planned, w) →
      (s.withWorkspace w).TracksNothing := by
    intro planned w hplan
    refine ⟨?_, h.pending⟩
    show w.work.TracksNothing
    rw [(Workspace.planSave_of_tracksNothing h.work hplan).1]
    exact h.work
  rcases hsave : s.save with ⟨answer, s'⟩
  cases saveEnds hsave with
  | refused hplan | idle hplan =>
    exact ⟨hplanned hplan, [], (List.append_nil _).symm, List.nil_sublist _⟩
  | unanswered hplan _ hsend | failed hplan _ hsend =>
    exact ⟨(hplanned hplan).makes (.send hsend), (h.sends hplan hsend).2⟩
  | conflict hplan _ hsend =>
    have hsent := (hplanned hplan).makes (.send hsend)
    exact ⟨hsent.makes (makes_warn _ .batchRejected), (h.sends hplan hsend).2⟩
  | settled hplan _ hsend =>
    obtain ⟨horigins, hbatch⟩ := h.sends hplan hsend
    have hsent := (hplanned hplan).makes (.send hsend)
    exact ⟨hsent.locally (f := (·.settle _ _ _))
      (Workspace.tracksNothing_settle hsent.work horigins _), hbatch⟩

/-! ## All operations -/

/-- The operation is a `lazyLoad`. -/
def IsLazyLoad : Operation → Prop
  | .lazyLoad .. => True
  | _ => False

theorem TracksNothing.perform (h : s.TracksNothing) (hkeep : s.session.callbacks.KeepInstances)
    {operation : Operation} (hlazy : ¬ IsLazyLoad operation) :
    (s.perform operation).TracksNothing := by
  cases operation with
  | store entity =>
    exact h.locally_of_eq (congrArg Prod.snd (Workspace.store_of_tracksNothing h.work ..))
  | storeUnder entity id =>
    exact h.locally_of_eq (congrArg Prod.snd (Workspace.store_of_tracksNothing h.work ..))
  | storeOver entity id version =>
    exact h.locally_of_eq (congrArg Prod.snd (Workspace.store_of_tracksNothing h.work ..))
  | delete entity => exact h.locally_of_eq (Workspace.delete_of_tracksNothing h.work entity)
  | deleteId id version => exact h.locally (Workspace.tracksNothing_deleteId h.work id version)
  | defer commands => exact h.locally (Workspace.tracksNothing_defer h.work commands)
  | ignoreChanges entity =>
    exact h.locally_of_eq (Workspace.ignoreChanges_of_tracksNothing h.work entity)
  | evict entity =>
    refine ⟨?_, h.pending⟩
    show (s.workspace.evict entity).work.TracksNothing
    rw [Workspace.evict_of_tracksNothing h.work]
    exact h.work
  | metadataOf entity =>
    exact h.locally_of_eq (Workspace.metadataOf_of_tracksNothing h.work entity)
  | clear =>
    exact ⟨Workspace.tracksNothing_clear h.work, fun _ hmem => (List.not_mem_nil hmem).elim⟩
  | setMaxRequests max => exact ⟨h.work, h.pending⟩
  | load type id includes => exact h.makes (h.makes_load type id includes)
  | loadMany type ids includes => exact h.makes (h.makes_loadMany type ids includes)
  | runQuery type q => exact h.makes (makes_runQuery h.work.off hkeep rfl)
  | countQuery q => exact h.makes (makes_countQuery hkeep rfl)
  | lazyLoad => exact absurd trivial hlazy
  | lazyQuery type q => exact h.lazyQuery hkeep type q
  | lazyCount q => exact h.lazyCount hkeep q
  | flush => exact h.flush
  | resolve handle => exact h.resolve handle
  | save => exact h.save.1
  | listen callbacks => exact ⟨h.work, h.pending⟩
  | outside shared connection deliveries => exact ⟨h.work, h.pending⟩

/-- The states of sessions with `noTracking` in which there is no `lazyLoad`. -/
inductive Untracking : OpenSession → Prop where
  | opened (id : Nat) (conventions : Conventions) (options : SessionOptions)
    (hoff : options.noTracking = true) (shared : Shared) (connection : Connection)
    (deliveries : Deliveries) :
    Untracking { session := Session.new id conventions options, shared, connection, deliveries }
  | step {s : OpenSession} (operation : Operation) (h : Untracking s)
    (hadmits : s.Admits operation) (hlazy : ¬ IsLazyLoad operation) :
    Untracking (s.perform operation)

theorem Untracking.reachable (h : s.Untracking) : s.Reachable := by
  induction h with
  | opened => exact .opened ..
  | step operation _ hadmits _ ih => exact ih.step operation hadmits

theorem Untracking.tracksNothing (h : s.Untracking) : s.TracksNothing := by
  induction h with
  | opened id conventions options hoff shared connection deliveries =>
    exact ⟨⟨hoff, rfl, rfl, rfl, rfl⟩, fun _ hmem => (List.not_mem_nil hmem).elim⟩
  | step operation hbefore _ hlazy ih =>
    exact ih.perform hbefore.reachable.consistent.callbacks hlazy

/-- The entities that an operation returns or delivers. -/
def gives (s : OpenSession) : Operation → List EntityRef
  | .load type id includes => instancesOf Option.toList (s.load type id includes).1
  | .loadMany type ids includes => instancesOf foundInstances (s.loadMany type ids includes).1
  | .runQuery type q => instancesOf QueryResult.results (s.runQuery type q).1
  | .flush => deliveredInstances (s.rounds.flatMap Round.delivered)
  | .resolve handle =>
    if s.deliveries.isResolved handle then []
    else deliveredInstances (s.rounds.flatMap Round.delivered)
  | _ => []

/-- The entities in `given` are new, and no record holds them. -/
structure GivesDetached (s : OpenSession) (given : List EntityRef) (s' : OpenSession) : Prop where
  distinct : given.Nodup
  fresh : ∀ ref ∈ given, s.shared.entities.length ≤ ref ∧ ref < s'.shared.entities.length
  unknown : ∀ ref ∈ given, s'.session.work.recordForEntity? ref = none

theorem Makes.givesDetached (hmakes : s.Makes made s') (h' : s'.TracksNothing) :
    s.GivesDetached made s' :=
  ⟨hmakes.workspace.distinct, hmakes.workspace.fresh, fun ref _ => h'.work.recordForEntity? ref⟩

theorem TracksNothing.gives_detached (h : s.TracksNothing)
    (hkeep : s.session.callbacks.KeepInstances) {operation : Operation}
    (hlazy : ¬ IsLazyLoad operation) :
    s.GivesDetached (s.gives operation) (s.perform operation) := by
  have h' := h.perform hkeep hlazy
  have hnothing : ∀ s', s'.TracksNothing → s.GivesDetached [] s' := fun s' _ =>
    ⟨List.nodup_nil, fun _ hmem => (List.not_mem_nil hmem).elim,
      fun _ hmem => (List.not_mem_nil hmem).elim⟩
  have hflush : ∀ s', s'.TracksNothing → s'.shared = s.flush.2.shared →
      s.GivesDetached (deliveredInstances (s.rounds.flatMap Round.delivered)) s' := by
    intro s' h' hshared
    obtain ⟨hmakes, -⟩ := h.makes_flush
    refine ⟨hmakes.distinct, ?_, fun ref _ => h'.work.recordForEntity? ref⟩
    rw [hshared]
    exact hmakes.fresh
  cases operation with
  | load type id includes => exact (h.makes_load type id includes).givesDetached h'
  | loadMany type ids includes => exact (h.makes_loadMany type ids includes).givesDetached h'
  | runQuery type q => exact (makes_runQuery h.work.off hkeep rfl).givesDetached h'
  | flush => exact hflush _ h' rfl
  | resolve handle =>
    obtain ⟨s₁, deliveries, hafter, heq, -, -⟩ := resolve_eq s handle
    show s.GivesDetached (if s.deliveries.isResolved handle then _ else _) (s.resolve handle).2
    split
    · exact hnothing _ h'
    · next hopen =>
      refine hflush _ h' ?_
      show (s.resolve handle).2.shared = s.flush.2.shared
      rw [heq, hafter, if_neg hopen]
  | _ => exact hnothing _ h'

/-- The value that a handle is resolved to was held before, or is delivered by the flush. -/
theorem resolve_gives {handle : Handle} {value : LazyValue}
    (hvalue : (s.resolve handle).1 = .ok value) :
    s.deliveries.values.find? handle = some (.ok value)
      ∨ value.instances ⊆ s.gives (.resolve handle) := by
  obtain ⟨s₁, -, hafter, -, -, hheld⟩ := resolve_eq s handle
  replace hheld := hheld value hvalue
  rw [hafter] at hheld
  split at hheld
  · exact Or.inl hheld
  · next hopen =>
    obtain ⟨sent, hdelivers, -⟩ := s.flushes_rounds.delivers
    rw [hdelivers.deliveries] at hheld
    rcases Deliveries.mem_of_find?_deliverAll hheld with hmem | hbefore
    · refine Or.inr fun ref href => ?_
      show ref ∈ (if s.deliveries.isResolved handle then [] else _)
      rw [if_neg hopen]
      exact List.mem_flatMap.mpr ⟨(handle, .ok value), hmem, href⟩
    · exact Or.inl hbefore

/-- A session with `noTracking` and without `lazyLoad` has no record, whatever is done and whatever
the server answers: every entity that it gives is new and has no record, and a save sends the
deferred commands alone. -/
theorem untracked_session_tracks_nothing (h : s.Untracking) :
    (s.session.work.records = [] ∧ s.session.work.identities.entries = []
        ∧ s.session.work.registry.entries = [])
      ∧ (∀ operation, ¬ IsLazyLoad operation →
        s.GivesDetached (s.gives operation) (s.perform operation))
      ∧ (∀ handle value, (s.resolve handle).1 = .ok value →
        s.deliveries.values.find? handle = some (.ok value)
          ∨ value.instances ⊆ s.gives (.resolve handle))
      ∧ ∃ sent, s.save.2.connection.sent = s.connection.sent ++ sent
        ∧ sent.Sublist [s.session.options.scope s.deferredBatch] := by
  have htracks := h.tracksNothing
  have hkeep := h.reachable.consistent.callbacks
  exact ⟨⟨htracks.work.records, htracks.work.identities, htracks.work.registry⟩,
    fun _ hlazy => htracks.gives_detached hkeep hlazy, fun _ _ => resolve_gives, htracks.save.2⟩

/-- The reply to a load of the document `users/1`. -/
def oneUser : Json :=
  .obj [("Results", .arr [.obj
    [("@metadata", .obj [("@id", .str "users/1")]), ("Name", .str "Al")]])]

/-- A session with `noTracking` beside a server that gives this reply to loads and lazy loads. -/
def besideUserUntracked : OpenSession where
  session := Session.new 1 {} { noTracking := true }
  shared := {}
  connection :=
    { server := fun sent =>
        if sent.getLast?.map Request.path = some "/multi_get" then
          .ok (.ok (.obj
            [("Results", .arr [.obj [("Result", oneUser), ("StatusCode", .nat 200)]])]))
        else .ok (.ok oneUser) }
  deliveries := {}

/-- That session once it has loaded `users/1` and deferred a DELETE of `users/2`. -/
def loadedUntracked : OpenSession :=
  (besideUserUntracked.perform (.load Shop.anything "users/1" [])).perform
    (.deleteId "users/2" none)

/-- Loading `users/1` again gives another entity, and the DELETE is saved. -/
theorem untracked_session_tracks_nothing_loaded :
    loadedUntracked.Untracking
      ∧ loadedUntracked.session.work.records = []
      ∧ loadedUntracked.shared.entities.length = 1
      ∧ loadedUntracked.GivesDetached [1]
          (loadedUntracked.perform (.load Shop.anything "users/1" []))
      ∧ loadedUntracked.save.2.connection.sent
          = loadedUntracked.connection.sent ++ [loadedUntracked.deferredBatch] := by
  have hopened : besideUserUntracked.Untracking := .opened 1 {} { noTracking := true } rfl _ _ _
  have hreached : loadedUntracked.Untracking :=
    (hopened.step (.load Shop.anything "users/1" []) trivial not_false).step
      (.deleteId "users/2" none) trivial not_false
  obtain ⟨⟨hrecords, -, -⟩, hgives, -, sent, hsent, hbatch⟩ :=
    untracked_session_tracks_nothing hreached
  have hgiven : loadedUntracked.gives (.load Shop.anything "users/1" []) = [1] := by
    decide +kernel
  have hload := hgives (.load Shop.anything "users/1" []) not_false
  rw [hgiven] at hload
  refine ⟨hreached, hrecords, by decide +kernel, hload, ?_⟩
  have hlength : loadedUntracked.save.2.connection.sent.length
      = loadedUntracked.connection.sent.length + 1 := by
    decide +kernel
  rw [hsent, List.length_append] at hlength
  rw [hsent, hbatch.eq_of_length (Nat.add_left_cancel hlength)]
  rfl

/-- That session once it has lazily loaded `users/1`, and its entity is edited. -/
def lazilyLoadedUntracked : OpenSession :=
  let s := (besideUserUntracked.perform (.lazyLoad Shop.anything ["users/1"] [])).perform .flush
  s.perform (.outside
    { s.shared with
      entities := s.shared.entities.map fun e => { e with state := .obj [("Name", .str "Ann")] } }
    s.connection s.deliveries)

/-- The entity is tracked, and the next save writes it. -/
theorem lazyLoad_tracks_without_tracking :
    lazilyLoadedUntracked.session.work.noTracking = true
      ∧ lazilyLoadedUntracked.session.work.registry.entries = [(0, 0)]
      ∧ lazilyLoadedUntracked.session.work.deferred = []
      ∧ (lazilyLoadedUntracked.workspace.planSave {}).1.toOption.map
          (List.map (fun planned => (planned.command.kind, planned.command.id)))
        = some [(.put, "users/1")]
      ∧ lazilyLoadedUntracked.save.2.connection.sent.map Request.path
        = ["/multi_get", "/bulk_docs"] := by
  decide +kernel

end OpenSession

end DocumentSession
