import DocumentSession.Proofs.Forest
import DocumentSession.Proofs.PerformCases
import DocumentSession.Proofs.Run

set_option autoImplicit false

/-! # Sessions whose dictionaries are in order

A record opens its dictionary when its metadata are first asked for, and releases it when the server
sends other metadata. Callers and callbacks edit the dictionaries that they hold; all such edits
keep a forest in order (`Forest.Grows`). `OpenSession.Orderly` are the states of a session in which
nothing else is done to dictionaries.

In every one of them each dictionary of a record was made, and its record has an entity
(`Orderly.inOrder`). No operation removes a dictionary or gives one to a record without entity
(`Workspace.Retains`). -/

namespace DocumentSession

/-! ## The dictionaries of records -/

/-- `r'` has the dictionary of `r`, and an entity if `r` does. -/
def Record.KeepsDictionary (r r' : Record) : Prop :=
  r'.dictionary = r.dictionary ∧ (r.entity.isSome = true → r'.entity.isSome = true)

instance : Std.Refl Record.KeepsDictionary :=
  ⟨fun _ => ⟨rfl, id⟩⟩

/-- Every record of `t'` has no dictionary, or keeps that of the record of `t` under its key. -/
def KeepDictionaries (t t' : Table Record) : Prop :=
  Keyed.Develops (fun r => r.dictionary = none) Record.KeepsDictionary t t'

namespace KeepDictionaries

theorem refl (t : Table Record) : KeepDictionaries t t :=
  Keyed.Develops.refl t

theorem modify (t : Table Record) (key : RecordKey) (change : Record → Record)
    (hchange : ∀ r, (change r).dictionary = none ∨ Record.KeepsDictionary r (change r)) :
    KeepDictionaries t (t.modify key change) :=
  Keyed.Develops.modify t key change fun r _ => hchange r

theorem erase (t : Table Record) (key : RecordKey) : KeepDictionaries t (t.erase key) :=
  Keyed.Develops.erase t key

theorem insert (t : Table Record) (key : RecordKey) {r : Record} (hr : r.dictionary = none) :
    KeepDictionaries t (t.insert key r) :=
  Keyed.Develops.insert t key hr

end KeepDictionaries

namespace Workspace

variable {w w' w'' : Workspace}

/-- From `w` to `w'` no dictionary is removed, and a record has one only if it had it before or has
an entity. -/
structure Retains (w w' : Workspace) : Prop where
  forest : w.shared.dictionaries.Grows w'.shared.dictionaries
  record : ∀ key r' n, w'.work.records.find? key = some r' → r'.dictionary = some n →
    (∃ r, w.work.records.find? key = some r ∧ r.dictionary = some n
      ∧ (r.entity.isSome = true → r'.entity.isSome = true))
    ∨ (r'.entity.isSome = true ∧ n < w'.shared.dictionaries.nodes.length)

namespace Retains

theorem of_keep (hforest : w.shared.dictionaries.Grows w'.shared.dictionaries)
    (hrecords : KeepDictionaries w.work.records w'.work.records) : w.Retains w' := by
  refine ⟨hforest, ?_⟩
  intro key r' n hr' hn
  rcases hrecords key r' hr' with hnone | ⟨r, hr, hsame, hholds⟩
  · rw [hnone] at hn
    cases hn
  · exact Or.inl ⟨r, hr, hsame.symm.trans hn, hholds⟩

/-- A change of the unit of work that keeps dictionaries. -/
theorem of_work {work : UnitOfWork} (hrecords : KeepDictionaries w.work.records work.records) :
    w.Retains { w with work } :=
  .of_keep (.refl _) hrecords

/-- A change of what is shared in which dictionaries only grow. -/
theorem of_shared {shared : Shared}
    (hforest : w.shared.dictionaries.Grows shared.dictionaries) : w.Retains { w with shared } :=
  .of_keep hforest (.refl _)

theorem refl (w : Workspace) : w.Retains w :=
  .of_keep (.refl _) (.refl _)

theorem trans (h : w.Retains w') (h' : w'.Retains w'') : w.Retains w'' := by
  refine ⟨h.forest.trans h'.forest, ?_⟩
  intro key r'' n hr'' hn
  rcases h'.record key r'' n hr'' hn with ⟨r', hr', hn', hholds'⟩ | hmade
  · rcases h.record key r' n hr' hn' with ⟨r, hr, hn, hholds⟩ | ⟨hentity, hlt⟩
    · exact Or.inl ⟨r, hr, hn, hholds' ∘ hholds⟩
    · exact Or.inr ⟨hholds' hentity, Nat.lt_of_lt_of_le hlt h'.forest.length⟩
  · exact Or.inr hmade

end Retains

/-! ## Local work -/

theorem grows_release (s : Shared) (r : Record) :
    s.dictionaries.Grows (s.release r).dictionaries := by
  unfold Shared.release Record.releaseDictionary
  cases r.dictionary with
  | none => exact .refl _
  | some n => exact s.dictionaries.grows_release n

theorem retains_removeRecord (w : Workspace) (key : RecordKey) :
    w.Retains (w.removeRecord key).2 := by
  unfold removeRecord
  split
  · exact .refl w
  · next r _ => exact .of_keep (grows_release w.shared r) (.erase _ key)

theorem retains_clear (w : Workspace) : w.Retains w.clear := by
  refine .of_keep ?_ (fun _ _ hr => by cases hr)
  unfold clear
  dsimp only
  generalize w.work.records = records
  generalize w.shared = shared
  induction records generalizing shared with
  | nil => exact .refl _
  | cons entry rest ih => exact (grows_release shared entry.2).trans (ih _)

/-- `openDictionary` of a record with an entity. -/
theorem retains_openDictionary {key : RecordKey} {r : Record}
    (hr : w.work.records.find? key = some r) (hentity : r.entity.isSome = true) :
    w.Retains (w.openDictionary key r).2 := by
  unfold openDictionary Record.openDictionary
  cases hd : r.dictionary with
  | some n =>
    dsimp only
    refine .of_work ?_
    intro k r' hr'
    rw [UnitOfWork.Consistent.find?_modifyRecord hr] at hr'
    split at hr'
    · next hk =>
      subst hk
      obtain rfl := Option.some.inj hr'
      exact Or.inr ⟨r, hr, rfl, id⟩
    · exact KeepDictionaries.refl _ k r' hr'
  | none =>
    dsimp only
    refine ⟨w.shared.dictionaries.grows_create r.metadata none, ?_⟩
    intro k r' n hr' hn
    rw [UnitOfWork.Consistent.find?_modifyRecord hr] at hr'
    split at hr'
    · obtain rfl := Option.some.inj hr'
      obtain rfl := Option.some.inj hn
      refine Or.inr ⟨hentity, ?_⟩
      dsimp only
      rw [Metadata.Forest.length_create]
      exact Nat.lt_succ_self _
    · exact Or.inl ⟨r', hr', hn, id⟩

/-- A change of one record that keeps its dictionary or releases it. -/
theorem Retains.of_modify (w : Workspace) (key : RecordKey) (change : Record → Record)
    (hchange : ∀ r, (change r).dictionary = none ∨ Record.KeepsDictionary r (change r)) :
    w.Retains { w with work := w.work.modifyRecord key change } :=
  .of_work (.modify _ key change hchange)

theorem LocalStep.retains {given : Option String} (h : w.LocalStep given w') : w.Retains w' := by
  cases h with
  | index hrecords _ => exact .of_work (by rw [hrecords]; exact .refl _)
  | removeRecord key => exact retains_removeRecord w key
  | track entity id incomplete check =>
    refine .of_keep ?_ (.insert _ w.work.nextKey rfl)
    unfold Workspace.track
    dsimp only
    split <;> exact .refl _
  | @attach key _ _ _ entity id check =>
    exact .of_keep (.refl _) (.modify _ key
      (fun r => { r with entity := some entity, check, changeVector := given.or r.changeVector })
      (fun _ => Or.inr ⟨rfl, fun _ => rfl⟩))
  | storeAgain key check => exact .of_modify w key _ fun _ => Or.inr ⟨rfl, fun holds => holds⟩
  | ignoreChanges key => exact .of_modify w key _ fun _ => Or.inr ⟨rfl, fun holds => holds⟩
  | openDictionary hr hentity => exact retains_openDictionary hr hentity
  | retain n => exact .of_keep (Metadata.Forest.grows_retain _ n) (.refl _)
  | clear => exact retains_clear w

theorem LocalSteps.retains {given : Option String} (h : w.LocalSteps given w') : w.Retains w' := by
  induction h with
  | refl => exact .refl w
  | tail _ hstep ih => exact ih.trans hstep.retains

/-! ## Reading -/

theorem ReadStep.retains {D : Fields → Prop} (h : w.ReadStep D w') : w.Retains w' := by
  cases h with
  | warn warning => exact .of_shared (.refl _)
  | markMissing id => exact .of_work (.refl _)
  | register document _ =>
    unfold Workspace.register
    dsimp only
    split
    · exact .refl w
    · split
      · unfold refreshRecord
        split
        · next r _ =>
          split
          · exact .refl w
          · exact .of_keep (grows_release w.shared r)
              (.modify _ _ (·.refreshed (Metadata.split document).1 (Metadata.split document).2)
                (fun _ => Or.inl rfl))
        · exact .refl w
      · exact .of_work (.insert _ w.work.nextKey rfl)
  | entityFor type key =>
    unfold Workspace.entityFor
    split
    · exact .refl w
    · split
      · dsimp only
        split <;> exact .refl w
      · exact .refl w
      · split
        · exact .refl w
        · exact .of_keep (.refl _)
            (.modify _ key (fun r => { r with entity := some w.shared.entities.length })
              (fun _ => Or.inr ⟨rfl, fun _ => rfl⟩))
  | detached type document =>
    unfold Workspace.detached
    dsimp only
    split
    · exact .refl w
    · exact .of_shared (.refl _)

theorem Reads.retains {D : Fields → Prop} (h : w.Reads D w') : w.Retains w' := by
  induction h with
  | refl => exact .refl w
  | tail _ hstep ih => exact ih.trans hstep.retains

end Workspace

/-! ## Saving -/

namespace Callbacks

/-- The callbacks keep the forest of dictionaries in order. -/
structure KeepOrder (c : Callbacks) : Prop where
  beforeStore : ∀ callback ∈ c.beforeStore, ∀ event (s : Shared),
    s.dictionaries.Grows (callback event s).2.dictionaries
  afterSave : ∀ callback ∈ c.afterSave, ∀ event (s : Shared),
    s.dictionaries.Grows (callback event s).2.dictionaries
  beforeDelete : ∀ callback ∈ c.beforeDelete, ∀ id (s : Shared),
    s.dictionaries.Grows (callback id s).2.dictionaries
  beforeQuery : ∀ callback ∈ c.beforeQuery, ∀ q (s : Shared),
    s.dictionaries.Grows (callback q s).2.2.dictionaries

theorem grows_callEach {Event : Type} {callbacks : List (Event → Shared → Verdict)}
    (hkeep : ∀ callback ∈ callbacks, ∀ event (s : Shared),
      s.dictionaries.Grows (callback event s).2.dictionaries) (event : Event) (s : Shared) :
    s.dictionaries.Grows (callEach event callbacks s).2.dictionaries :=
  relates_callEach (R := fun s s' => s.dictionaries.Grows s'.dictionaries)
    (fun s => .refl s.dictionaries) Metadata.Forest.Grows.trans hkeep event s

theorem grows_callEachOnQuery {callbacks : List (Query → Shared → Option Error × Query × Shared)}
    (hkeep : ∀ callback ∈ callbacks, ∀ q (s : Shared),
      s.dictionaries.Grows (callback q s).2.2.dictionaries) (q : Query) (s : Shared) :
    s.dictionaries.Grows (callEachOnQuery callbacks q s).2.2.dictionaries :=
  relates_callEachOnQuery (R := fun s s' => s.dictionaries.Grows s'.dictionaries)
    (fun s => .refl s.dictionaries) Metadata.Forest.Grows.trans hkeep q s

end Callbacks

namespace Workspace

variable {w w' : Workspace} {callbacks : Callbacks}

theorem PlanStep.retains (hkeep : callbacks.KeepOrder) (h : w.PlanStep callbacks w') :
    w.Retains w' := by
  cases h with
  | beforeDelete id => exact .of_shared (Callbacks.grows_callEach hkeep.beforeDelete id w.shared)
  | beforeStore event =>
    exact .of_shared (Callbacks.grows_callEach hkeep.beforeStore event w.shared)
  | opens hr hentity => exact retains_openDictionary hr hentity

theorem Plans.retains (hkeep : callbacks.KeepOrder) (h : w.Plans callbacks w') : w.Retains w' := by
  induction h with
  | refl => exact .refl w
  | tail _ hstep ih => exact ih.trans (hstep.retains hkeep)

theorem grows_savedAs (s : Shared) (r : Record) (id : String) :
    s.dictionaries.Grows (s.savedAs r id).dictionaries := by
  unfold Shared.savedAs
  cases r.entity with
  | none => exact grows_release s r
  | some entity => exact grows_release s r

theorem Settles.retains {planned : Planned} {result : Fields} {answer : Except Error Unit}
    (h : w.Settles planned result answer w') : w.Retains w' := by
  have hversioned : ∀ key, w.Retains
      { w with work := w.work.modifyRecord key (·.atVersion (resultVersion result)) } :=
    fun key => .of_modify w key _ (fun _ => Or.inr ⟨rfl, id⟩)
  cases h with
  | unnamed _ _ => exact .refl w
  | goneBeforePut _ _ => exact .refl w
  | goneBeforeDelete _ _ => exact .refl w
  | @saved key body metadata r id _ _ _ _ =>
    exact .of_keep (grows_savedAs w.shared r id)
      (.modify _ key (·.saved id body (overlayResult metadata result)) (fun _ => Or.inl rfl))
  | @replaced key body metadata r id other replaced _ _ _ _ _ _ =>
    have hforgotten : w.Retains { w with work := w.work.withoutRecord other replaced } :=
      .of_work (.erase _ other)
    refine hforgotten.trans (.of_keep ?_
      (.modify _ key (·.saved id body (overlayResult metadata result)) (fun _ => Or.inl rfl)))
    exact (grows_savedAs w.shared r id).trans (grows_release _ replaced)
  | @deleted key r _ _ => exact .of_keep (grows_release w.shared r) (.erase _ key)
  | @overwritten key r _ _ _ =>
    exact .of_keep (grows_release w.shared r)
      (.modify _ key (fun r => r.overwritten (overlayResult r.metadata result))
        (fun _ => Or.inl rfl))
  | written _ _ _ => exact .of_work (.refl _)
  | @dropped key r _ _ _ _ => exact .of_keep (grows_release w.shared r) (.erase _ key)
  | noted _ _ _ => exact .of_work (.refl _)
  | unknown _ _ _ => exact .refl w
  | @versioned key r _ _ _ _ => exact hversioned key
  | @unfit key r e _ _ _ _ => exact hversioned key
  | @scripted key r document shared _ _ _ _ hrenewed =>
    refine (hversioned key).trans (.of_keep ?_
      (.modify _ key (·.scripted (Metadata.split document).1 (Metadata.split document).2) ?_))
    · have hsame : shared.dictionaries = w.shared.dictionaries := by
        rcases hrenewed with ⟨-, rfl⟩ | ⟨entity, e, -, -, rfl⟩ <;> rfl
      dsimp only
      rw [← hsame]
      split
      · exact .refl _
      · exact grows_release shared r
    · intro r
      unfold Record.scripted
      split
      · exact Or.inr ⟨rfl, id⟩
      · exact Or.inl rfl

theorem SettlesAll.retains {pairs : List (Planned × Fields)} {answers : List (Except Error Unit)}
    (h : w.SettlesAll pairs answers w') : w.Retains w' := by
  induction h with
  | nil => exact .refl _
  | cons first _ ih => exact first.retains.trans ih

theorem retains_announce (hkeep : callbacks.KeepOrder) (w : Workspace) (failure : Option Error)
    (keys : List RecordKey) : w.Retains (w.announce callbacks failure keys).2 := by
  induction keys generalizing w failure with
  | nil => exact .refl w
  | cons key rest ih =>
    rw [announce]
    split
    · exact ih w failure
    · exact Retains.trans (.of_shared (Callbacks.grows_callEach hkeep.afterSave _ w.shared))
        (ih _ _)

theorem retains_settle (h : w.Consistent) (hkeep : callbacks.KeepOrder) (plan : Plan)
    (answer : Option Json) : w.Retains (w.settle callbacks plan answer).2 := by
  unfold settle
  split
  · exact .refl w
  · next results _ =>
    obtain ⟨answers, hrun, -⟩ := settleAll_settlesAll h none plan results
    rcases hall : w.settleAll none plan results with ⟨failure, w₁⟩
    rw [hall] at hrun
    have hdone : w₁.Retains { w₁ with work := { w₁.work with deferred := [] } } :=
      .of_work (.refl _)
    exact (hrun.retains.trans hdone).trans (retains_announce hkeep _ failure _)

end Workspace

namespace OpenSession

variable {s s' : OpenSession}

/-! ## Orderly sessions -/

/-- The operation keeps the forest of dictionaries in order. -/
def KeepsOrder (s : OpenSession) : Operation → Prop
  | .listen callbacks => callbacks.KeepOrder
  | .outside shared _ _ => s.shared.dictionaries.Grows shared.dictionaries
  | _ => True

/-- The states of sessions in which every operation `KeepsOrder`. -/
inductive Orderly : OpenSession → Prop where
  | opened (id : Nat) (conventions : Conventions) (options : SessionOptions) (shared : Shared)
    (connection : Connection) (deliveries : Deliveries)
    (hordered : shared.dictionaries.Ordered) :
    Orderly { session := Session.new id conventions options, shared, connection, deliveries }
  | step {s : OpenSession} (operation : Operation) (h : Orderly s)
    (hadmits : s.Admits operation) (hkeeps : s.KeepsOrder operation) :
    Orderly (s.perform operation)

theorem Orderly.reachable (h : s.Orderly) : s.Reachable := by
  induction h with
  | opened id conventions options shared connection deliveries _ =>
    exact .opened id conventions options shared connection deliveries
  | step operation _ hadmits _ ih => exact ih.step operation hadmits

theorem Reads.retains (h : s.Reads s') : s.workspace.Retains s'.workspace :=
  h.workspace.retains

theorem retains_asked (hkeep : s.session.callbacks.KeepOrder) (operation : Operation) :
    s.workspace.Retains (s.asked operation).workspace := by
  have hfreeze : ∀ q, s.workspace.Retains (s.freeze q).2.workspace := by
    intro q
    rw [freeze_eq]
    exact .of_shared (Callbacks.grows_callEachOnQuery hkeep.beforeQuery q s.shared)
  unfold asked
  split
  all_goals first | exact hfreeze _ | exact .refl _

theorem retains_save (h : s.Consistent) (hkeep : s.session.callbacks.KeepOrder) :
    s.workspace.Retains s.save.2.workspace ∧ s.save.2.session.callbacks = s.session.callbacks := by
  have hplanned : ∀ {planned w}, s.workspace.planSave s.session.callbacks = (planned, w) →
      s.workspace.Retains w ∧ (s.withWorkspace w).Consistent := by
    intro planned w hplan
    have hconsistent := h.workspace.planSave h.callbacks
    rw [hplan] at hconsistent
    exact ⟨(Workspace.plans_planSave hplan).retains hkeep, h.withWorkspace hconsistent⟩
  rcases hsave : s.save with ⟨answer, s'⟩
  cases saveEnds hsave with
  | refused hplan | idle hplan => exact ⟨(hplanned hplan).1, rfl⟩
  | unanswered hplan _ hsend | failed hplan _ hsend =>
    have hreads := reads_send hsend
    exact ⟨(hplanned hplan).1.trans hreads.retains, hreads.callbacks⟩
  | conflict hplan _ hsend =>
    have hreads := (reads_send hsend).trans (.warn _ .batchRejected)
    exact ⟨(hplanned hplan).1.trans hreads.retains, hreads.callbacks⟩
  | @settled _ _ _ s₁ hplan _ hsend =>
    obtain ⟨hretains, hconsistent⟩ := hplanned hplan
    have hreads := reads_send hsend
    have hkeep₁ : s₁.session.callbacks.KeepOrder := hreads.callbacks ▸ hkeep
    exact ⟨(hretains.trans hreads.retains).trans
      (Workspace.retains_settle (hconsistent.reads hreads).workspace hkeep₁ _ _), hreads.callbacks⟩

/-- Every operation `Retains` to dictionaries, and its callbacks keep the order. -/
theorem PerformCases.retains {operation : Operation} (hcases : s.PerformCases operation s')
    (h : s.Consistent) (hkeep : s.session.callbacks.KeepOrder) (hkeeps : s.KeepsOrder operation) :
    s.workspace.Retains s'.workspace ∧ s'.session.callbacks.KeepOrder := by
  cases hcases with
  | localSteps hlocal _ hcallbacks => exact ⟨hlocal.retains, by rw [hcallbacks]; exact hkeep⟩
  | reads _ hreads =>
    refine ⟨(retains_asked hkeep operation).trans hreads.retains, ?_⟩
    rw [hreads.callbacks, session_asked]
    exact hkeep
  | saves =>
    obtain ⟨hretains, hcallbacks⟩ := retains_save h hkeep
    exact ⟨hretains, by rw [hcallbacks]; exact hkeep⟩
  | listens callbacks => exact ⟨.refl _, hkeeps⟩
  | outside shared connection deliveries => exact ⟨.of_shared hkeeps, hkeep⟩

end OpenSession

/-! ## What holds in every orderly session -/

/-- The forest is in order, and the dictionaries of records were made for records that have an
entity. -/
structure Workspace.InOrder (w : Workspace) : Prop where
  ordered : w.shared.dictionaries.Ordered
  made : ∀ key r n, w.work.records.find? key = some r → r.dictionary = some n →
    r.entity.isSome = true ∧ n < w.shared.dictionaries.nodes.length

theorem Workspace.Retains.inOrder {w w' : Workspace} (h : w.Retains w') (hinOrder : w.InOrder) :
    w'.InOrder := by
  refine ⟨h.forest.ordered hinOrder.ordered, ?_⟩
  intro key r' n hr' hn
  rcases h.record key r' n hr' hn with ⟨r, hr, hn, hholds⟩ | hmade
  · obtain ⟨hentity, hlt⟩ := hinOrder.made key r n hr hn
    exact ⟨hholds hentity, Nat.lt_of_lt_of_le hlt h.forest.length⟩
  · exact hmade

theorem OpenSession.Orderly.inOrder {s : OpenSession} (h : s.Orderly) :
    s.workspace.InOrder ∧ s.session.callbacks.KeepOrder := by
  induction h with
  | opened id conventions options shared connection deliveries hordered =>
    refine ⟨⟨hordered, fun _ _ _ hr => by cases hr⟩, ?_⟩
    exact ⟨by simp [Session.new], by simp [Session.new], by simp [Session.new],
      by simp [Session.new]⟩
  | step operation h _ hkeeps ih =>
    have hconsistent := h.reachable.consistent
    obtain ⟨hretains, hkeep⟩ := (performCases hconsistent operation).retains hconsistent ih.2 hkeeps
    exact ⟨hretains.inOrder ih.1, hkeep⟩

/-- `save` registers no callbacks. -/
theorem OpenSession.Orderly.callbacks_save {s : OpenSession} (h : s.Orderly) :
    (s.perform .save).session.callbacks = s.session.callbacks :=
  (retains_save h.reachable.consistent h.inOrder.2).2

end DocumentSession
