import Mathlib.Logic.Relation
import DocumentSession.Proofs.Consistent.Store

set_option autoImplicit false

/-! # Steps of local work

An operation that sends no request changes its workspace by a run of few kinds of steps
(`Workspace.LocalStep`): an index changes, a record is removed, made by `track`, given an entity by
`attach`, stored again or set to `ignoreChanges`, or its dictionary is opened or retained.
`Workspace.LocalSteps` is such a run. Every operation without a request is one (`localSteps_store`,
`localSteps_delete` and so on), so what each step preserves, all of them do.

A record gets no change vector but the one that was `given`. -/

namespace DocumentSession.Workspace

/-- A step of local work. The `given` change vector is the one that the caller stores over, if
any. -/
inductive LocalStep (given : Option String) : Workspace → Workspace → Prop where
  /-- The indexes change, and `records` and `nextKey` do not. -/
  | index {w : Workspace} {work : UnitOfWork} (hrecords : work.records = w.work.records)
    (hnext : work.nextKey = w.work.nextKey) : LocalStep given w { w with work }
  | removeRecord (w : Workspace) (key : RecordKey) : LocalStep given w (w.removeRecord key).2
  | track (w : Workspace) (entity : EntityRef) (id : String) (incomplete : Bool)
    (check : VersionCheck) : LocalStep given w (w.track entity id incomplete given check)
  | attach {w : Workspace} {key : RecordKey} {r : Record}
    (hr : w.work.records.find? key = some r) (hvacant : r.entity = none) (entity : EntityRef)
    (id : String) (check : VersionCheck) : LocalStep given w (w.attach key entity id given check)
  | storeAgain (w : Workspace) (key : RecordKey) (check : VersionCheck) :
    LocalStep given w { w with
      work := w.work.modifyRecord key
        (fun r => { r with changeVector := given.or r.changeVector, check }) }
  | ignoreChanges (w : Workspace) (key : RecordKey) :
    LocalStep given w
      { w with work := w.work.modifyRecord key (fun r => { r with ignoreChanges := true }) }
  | openDictionary {w : Workspace} {key : RecordKey} {r : Record}
    (hr : w.work.records.find? key = some r) (hentity : r.entity.isSome = true) :
    LocalStep given w (w.openDictionary key r).2
  | retain (w : Workspace) (n : Metadata.NodeId) :
    LocalStep given w
      { w with shared := { w.shared with dictionaries := w.shared.dictionaries.retain n } }
  | clear (w : Workspace) : LocalStep given w w.clear

/-- A run of local steps. -/
abbrev LocalSteps (given : Option String) : Workspace → Workspace → Prop :=
  Relation.ReflTransGen (LocalStep given)

variable {given : Option String}

theorem localSteps_store (w : Workspace) (entity : EntityRef) (id : Option String)
    (check : VersionCheck) : w.LocalSteps given (w.store entity id given check).2 := by
  unfold store
  split
  · exact .refl
  · split
    · next key r _ =>
      unfold storeAgain
      split
      · exact .refl
      · split
        · exact .refl
        · exact .single (.storeAgain w key check)
    · dsimp only
      split
      · exact .refl
      · split
        · exact .single (.track w entity _ _ check)
        · next key r hfound =>
          split
          · exact .refl
          · next hvacant =>
            have hr : w.work.records.find? key = some r := by
              split at hfound
              · cases hfound
              · obtain ⟨key', -, hfound⟩ := Option.bind_eq_some_iff.mp hfound
                obtain ⟨r', hr, heq⟩ := Option.bind_eq_some_iff.mp hfound
                obtain ⟨rfl, rfl⟩ := Prod.mk.inj (Option.some.inj heq)
                exact hr
            exact .single (.attach hr (by simpa using hvacant) entity _ check)

theorem localSteps_delete (w : Workspace) (entity : EntityRef) :
    w.LocalSteps given (w.delete entity).2 := by
  unfold delete
  split
  · exact .refl
  · split
    · exact .single (.removeRecord w _)
    · exact .single (.index rfl rfl)

theorem localSteps_defer (w : Workspace) (commands : List Command) :
    w.LocalSteps given (w.defer commands).2 := by
  unfold defer
  split
  · exact .refl
  · exact .single (.index rfl rfl)

theorem localSteps_deferDelete (w : Workspace) (id : String) (version tracked : Option String) :
    w.LocalSteps given (w.deferDelete id version tracked).2 := by
  have hmarked : w.LocalSteps given (w.markMissing id) := .single (.index rfl rfl)
  exact hmarked.trans (localSteps_defer _ _)

theorem localSteps_deleteId (w : Workspace) (id : String) (version : Option String) :
    w.LocalSteps given (w.deleteId id version).2 := by
  unfold deleteId
  split
  · exact .refl
  · split
    · exact localSteps_deferDelete w id version none
    · split
      · exact .refl
      · exact .refl
      · next key _ _ _ _ =>
        have hremoved : w.LocalSteps given (w.removeRecord key).2 := .single (.removeRecord w key)
        exact hremoved.trans (localSteps_deferDelete _ _ _ _)

theorem localSteps_ignoreChanges (w : Workspace) (entity : EntityRef) :
    w.LocalSteps given (w.ignoreChanges entity).2 := by
  unfold ignoreChanges
  split
  · exact .refl
  · exact .single (.ignoreChanges w _)

theorem localSteps_evict (w : Workspace) (entity : EntityRef) :
    w.LocalSteps given (w.evict entity) := by
  unfold evict
  split
  · exact .single (.removeRecord w _)
  · exact .refl

theorem localSteps_metadataOf {w : Workspace} (h : w.Consistent) (entity : EntityRef) :
    w.LocalSteps given (w.metadataOf entity).2 := by
  unfold metadataOf
  split
  · exact .refl
  · next key r hfound =>
    obtain ⟨hr, hentity⟩ := h.find?_of_recordOf hfound
    have hopened : w.LocalSteps given (w.openDictionary key r).2 :=
      .single (.openDictionary hr (by rw [hentity]; rfl))
    exact hopened.tail (.retain _ _)

end DocumentSession.Workspace
