import DocumentSession.Proofs.Refusals
import DocumentSession.Proofs.AnswerItems

set_option autoImplicit false

/-! # The indexes of identifiers after local work

An operation that sends no request changes the `IdIndexes` of its session in one of the ways in
`OpenSession.LocalIndexChange`: `identities` get a record or lose one, a record comes into
`deleted`, or `deferred` gets commands (`localIndexChange_perform`). Only storing an entity under an
identifier takes it out of `missing`. -/

namespace DocumentSession

open Identifier (normalize)

namespace IdIndexes

/-- The indexes without the record `key`. -/
def without (m : IdIndexes) (key : RecordKey) : IdIndexes :=
  { m with identities := m.identities.removeRecord key, deleted := m.deleted.erase key }

/-- The indexes without the record of `id`, if there is one. -/
def forget (m : IdIndexes) (id : String) : IdIndexes :=
  (m.identities.get? id).elim m m.without

@[simp] theorem missing_forget (m : IdIndexes) (id : String) :
    (m.forget id).missing = m.missing := by
  unfold forget
  cases m.identities.get? id <;> rfl

@[simp] theorem deferred_forget (m : IdIndexes) (id : String) :
    (m.forget id).deferred = m.deferred := by
  unfold forget
  cases m.identities.get? id <;> rfl

/-- The indexes where `id` is missing and the commands in `deferred` wait. -/
def deferringDelete (m : IdIndexes) (id : String) (deferred : List Command) : IdIndexes :=
  { m with missing := m.missing.insert id, deferred }

/-- The record of `id` is in `deleted`, or a DELETE command for `id` is in `deferred`. -/
def DeletionPending (m : IdIndexes) (id : String) : Prop :=
  (∃ key, m.identities.get? id = some key ∧ m.deleted.contains key = true)
    ∨ (CommandKind.delete, normalize id) ∈ m.deferred.map Command.dedupKey

end IdIndexes

namespace OpenSession

/-- The ways in which an operation that sends no request changes `s.idIndexes`. -/
inductive LocalIndexChange (s : OpenSession) : Operation → IdIndexes → Prop where
  | rests {operation : Operation} : LocalIndexChange s operation s.idIndexes
  /-- `store` under an identifier that has a record. -/
  | attaches {operation : Operation} (id : String) :
    LocalIndexChange s operation { s.idIndexes with missing := s.idIndexes.missing.remove id }
  /-- `store` under an identifier that has no record. -/
  | tracks {operation : Operation} {id : String} (hnew : s.idIndexes.identities.get? id = none) :
    LocalIndexChange s operation
      { s.idIndexes with
        identities := s.idIndexes.identities.insert id s.idIndexes.nextKey
        missing := s.idIndexes.missing.remove id
        nextKey := s.idIndexes.nextKey + 1 }
  /-- `store` under an incomplete identifier, which does not come into `identities`. -/
  | awaits {operation : Operation} (id : String) :
    LocalIndexChange s operation
      { s.idIndexes with
        missing := s.idIndexes.missing.remove id
        nextKey := s.idIndexes.nextKey + 1 }
  /-- `delete` of an entity that is new. -/
  | forgets {operation : Operation} {key : RecordKey}
    (hkept : s.idIndexes.deleted.contains key = false) :
    LocalIndexChange s operation (s.idIndexes.without key)
  | evicts {entity : EntityRef} {key : RecordKey}
    (hkey : s.session.work.registry.get? entity = some key) :
    LocalIndexChange s (.evict entity) (s.idIndexes.without key)
  /-- `delete` of an entity that was loaded or saved. -/
  | deletes {operation : Operation} {id : String} {key : RecordKey}
    (hkey : s.idIndexes.identities.get? id = some key) :
    LocalIndexChange s operation
      { s.idIndexes with
        missing := s.idIndexes.missing.insert id
        deleted := s.idIndexes.deleted.insert key () }
  | defers {operation : Operation} (commands : List Command) :
    LocalIndexChange s operation { s.idIndexes with deferred := s.idIndexes.deferred ++ commands }
  /-- `deleteId`: the record of `id` is removed, and a DELETE command for `id` waits, one that was
  deferred before or a new one. -/
  | deletesId {operation : Operation} {id : String} {deferred : List Command}
    (hmore : s.idIndexes.deferred.map Command.dedupKey ⊆ deferred.map Command.dedupKey)
    (hwaits : (CommandKind.delete, normalize id) ∈ deferred.map Command.dedupKey) :
    LocalIndexChange s operation ((s.idIndexes.forget id).deferringDelete id deferred)
  | clears {operation : Operation} {m : IdIndexes} (hmissing : m.missing = {}) :
    LocalIndexChange s operation m

end OpenSession

namespace Workspace

variable {w : Workspace} {key : RecordKey}

theorem idIndexes_removeRecord {r : Record} (hr : w.work.records.find? key = some r) :
    (w.removeRecord key).2.idIndexes = w.idIndexes.without key := by
  unfold removeRecord
  rw [hr]
  rfl

/-- After `deferDelete` a DELETE command for `id` waits, beside all commands that waited before. -/
theorem idIndexes_deferDelete (w : Workspace) (id : String) (given tracked : Option String) :
    ∃ deferred, (w.deferDelete id given tracked).2.idIndexes =
      w.idIndexes.deferringDelete id deferred
      ∧ w.idIndexes.deferred.map Command.dedupKey ⊆ deferred.map Command.dedupKey
      ∧ (CommandKind.delete, normalize id) ∈ deferred.map Command.dedupKey := by
  obtain ⟨c, hkey, hdefer⟩ := w.deferDelete_eq id given tracked
  rw [hdefer, defer_singleton]
  by_cases hclash : c.dedupKey ∈ (w.markMissing id).work.deferred.map Command.dedupKey
  · rw [if_pos hclash]
    rw [hkey] at hclash
    exact ⟨w.idIndexes.deferred, rfl, List.Subset.refl _, hclash⟩
  · rw [if_neg hclash]
    refine ⟨w.idIndexes.deferred ++ [c], rfl, ?_, ?_⟩
    · rw [List.map_append]
      exact List.subset_append_left ..
    · simp [hkey]

end Workspace

namespace OpenSession

variable {s : OpenSession}

theorem localIndexChange_store (h : s.Consistent) (operation : Operation) (entity : EntityRef)
    (id version : Option String) (check : VersionCheck) :
    s.LocalIndexChange operation (s.workspace.store entity id version check).2.idIndexes := by
  unfold Workspace.store
  split
  · exact .rests
  · split
    · unfold Workspace.storeAgain
      split
      · exact .rests
      · split
        · exact .rests
        · exact .rests
    · dsimp only
      generalize s.workspace.idToStore entity id = id
      split
      · exact .rests
      · cases hincomplete : Identifier.isIncomplete id s.workspace.work.conventions.separator with
        | true =>
          simp only [if_true]
          exact .awaits id
        | false =>
          simp only [Bool.false_eq_true, if_false]
          cases hfound : s.workspace.work.recordForId? id with
          | none =>
            exact .tracks (h.workspace.toCoherent.recordForId?_eq_none_iff.mp hfound)
          | some found =>
            obtain ⟨key, r⟩ := found
            dsimp only
            split
            · exact .rests
            · exact .attaches id

theorem localIndexChange_delete (h : s.Consistent) (operation : Operation) (entity : EntityRef) :
    s.LocalIndexChange operation (s.workspace.delete entity).2.idIndexes := by
  unfold Workspace.delete
  split
  · exact .rests
  · next key r hfound =>
    obtain ⟨hr, -⟩ := h.workspace.toCoherent.recordForEntity?_eq_some_iff.mp hfound
    split
    · next hnew =>
      show s.LocalIndexChange operation (s.workspace.removeRecord key).2.idIndexes
      rw [Workspace.idIndexes_removeRecord hr]
      refine .forgets ?_
      rw [Bool.eq_false_iff]
      intro hdelete
      obtain ⟨-, hsaved⟩ := h.workspace.deletable_of_record hr hdelete
      rw [hnew] at hsaved
      cases hsaved
    · next hsaved =>
      refine .deletes ?_
      by_contra hunindexed
      exact hsaved (h.workspace.unindexed key r hr hunindexed).isNew

theorem localIndexChange_deleteId (h : s.Consistent) (operation : Operation) (id : String)
    (version : Option String) :
    s.LocalIndexChange operation (s.workspace.deleteId id version).2.idIndexes := by
  unfold Workspace.deleteId
  split
  · exact .rests
  · split
    · next hnone =>
      have hget : s.idIndexes.identities.get? id = none :=
        h.workspace.toCoherent.recordForId?_eq_none_iff.mp hnone
      have hforget : s.workspace.idIndexes = s.idIndexes.forget id := by
        unfold IdIndexes.forget
        rw [hget]
        rfl
      obtain ⟨deferred, hindexes, hmore, hwaits⟩ :=
        s.workspace.idIndexes_deferDelete id version none
      rw [hindexes, hforget]
      exact .deletesId hmore hwaits
    · next key r hfound =>
      obtain ⟨hget, hr⟩ := UnitOfWork.recordForId?_eq_some_iff.mp hfound
      split
      · exact .rests
      · exact .rests
      · have hforget : (s.workspace.removeRecord key).2.idIndexes = s.idIndexes.forget id := by
          rw [Workspace.idIndexes_removeRecord hr]
          unfold IdIndexes.forget
          rw [show s.idIndexes.identities.get? id = some key from hget]
          rfl
        obtain ⟨deferred, hindexes, hmore, hwaits⟩ :=
          (s.workspace.removeRecord key).2.idIndexes_deferDelete id version r.changeVector
        rw [Workspace.idIndexes_removeRecord hr] at hmore
        rw [hindexes, hforget]
        exact .deletesId hmore hwaits

/-- `evict` removes the record of the entity from the indexes. -/
theorem idIndexes_evict (h : s.Consistent) {entity : EntityRef} {key : RecordKey}
    (hkey : s.session.work.registry.get? entity = some key) :
    (s.workspace.evict entity).idIndexes = s.idIndexes.without key := by
  obtain ⟨r, hr, -⟩ := (h.workspace.held entity key).mp hkey
  unfold Workspace.evict
  rw [show s.workspace.work.registry.get? entity = some key from hkey]
  exact Workspace.idIndexes_removeRecord hr

theorem localIndexChange_evict (h : s.Consistent) (entity : EntityRef) :
    s.LocalIndexChange (.evict entity) (s.workspace.evict entity).idIndexes := by
  cases hkey : s.session.work.registry.get? entity with
  | none =>
    unfold Workspace.evict
    rw [show s.workspace.work.registry.get? entity = none from hkey]
    exact .rests
  | some key =>
    rw [idIndexes_evict h hkey]
    exact .evicts hkey

/-- An operation that sends no request changes `idIndexes` in one of the ways in
`LocalIndexChange`. -/
theorem localIndexChange_perform (h : s.Consistent) {operation : Operation}
    (hlocal : ¬ Reading operation) (hsaves : operation ≠ .save) :
    s.LocalIndexChange operation (s.perform operation).idIndexes := by
  cases operation with
  | store entity => exact localIndexChange_store h _ entity none none .auto
  | storeUnder entity id => exact localIndexChange_store h _ entity (some id) none .auto
  | storeOver entity id version => exact localIndexChange_store h _ entity (some id) version _
  | delete entity => exact localIndexChange_delete h _ entity
  | deleteId id version => exact localIndexChange_deleteId h _ id version
  | defer commands =>
    show s.LocalIndexChange _ (s.workspace.defer commands).2.idIndexes
    unfold Workspace.defer
    split
    · exact .rests
    · exact .defers commands
  | ignoreChanges entity =>
    show s.LocalIndexChange _ (s.workspace.ignoreChanges entity).2.idIndexes
    unfold Workspace.ignoreChanges
    split
    · exact .rests
    · exact .rests
  | evict entity => exact localIndexChange_evict h entity
  | metadataOf entity =>
    show s.LocalIndexChange _ (s.workspace.metadataOf entity).2.idIndexes
    unfold Workspace.metadataOf
    split
    · exact .rests
    · exact .rests
  | clear => exact .clears rfl
  | setMaxRequests max => exact .rests
  | save => exact absurd rfl hsaves
  | listen callbacks => exact .rests
  | outside shared connection deliveries => exact .rests
  | _ => exact absurd trivial hlocal

end OpenSession

end DocumentSession
