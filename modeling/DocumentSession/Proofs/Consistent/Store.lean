import DocumentSession.Proofs.Consistent.Basic
import DocumentSession.Workspace.Store

set_option autoImplicit false

/-! # Storing and deleting keep a workspace consistent

A workspace is consistent if its unit of work is, over the entities that there are. Every operation
that sends no request keeps it so, whether it is refused or not (`Consistent.store`,
`Consistent.delete`, `Consistent.deleteId`, `Consistent.defer`, `Consistent.evict` and so on). -/

namespace DocumentSession

/-! ## Entities -/

namespace Shared

@[simp] theorem length_entities_setEntity (s : Shared) (ref : EntityRef) (e : Entity) :
    (s.setEntity ref e).entities.length = s.entities.length :=
  List.length_set

@[simp] theorem length_entities_setId (s : Shared) (ref : EntityRef) (id : String) :
    (s.setId ref id).entities.length = s.entities.length :=
  List.length_set

/-- Where entities were only added, those that were there have the state they had. -/
theorem entity_of_entities {s s' : Shared} (h : s.entities <+: s'.entities) {entity : EntityRef}
    (hmade : entity < s.entities.length) : s'.entity entity = s.entity entity := by
  obtain ⟨made, heq⟩ := h
  unfold Shared.entity
  rw [← heq, List.getElem?_append_left hmade]

end Shared

/-- `openDictionary` changes nothing of a record but its dictionary. -/
theorem Record.openDictionary_record (r : Record) (forest : Metadata.Forest) :
    (r.openDictionary forest).2.1
      = { r with dictionary := some (r.openDictionary forest).1 } := by
  unfold Record.openDictionary
  split
  · next n hn =>
    cases r
    simp_all
  · rfl

namespace Workspace

/-- The indexes of a workspace agree, and lead only to entities that are there. -/
def Consistent (w : Workspace) : Prop :=
  w.work.Consistent w.shared.entities.length

namespace Consistent

variable {w : Workspace}

/-- What is shared may change, as long as no entity is removed. -/
theorem setShared (h : w.Consistent) {shared : Shared}
    (hlength : w.shared.entities.length ≤ shared.entities.length) :
    Workspace.Consistent { w with shared } :=
  UnitOfWork.Consistent.mono h hlength

theorem removeRecord (h : w.Consistent) (key : RecordKey) :
    (w.removeRecord key).2.Consistent := by
  unfold Workspace.removeRecord
  cases hr : w.work.records.find? key with
  | none => exact h
  | some r => exact UnitOfWork.Consistent.withoutRecord h hr

theorem markMissing (h : w.Consistent) (id : String) : (w.markMissing id).Consistent :=
  UnitOfWork.Consistent.setMissing h _

theorem clear (_ : w.Consistent) : w.clear.Consistent :=
  UnitOfWork.Consistent.of_empty rfl rfl rfl rfl rfl

/-! ## Metadata and changes -/

theorem openDictionary (h : w.Consistent) {key : RecordKey} {r : Record}
    (hr : w.work.records.find? key = some r) : (w.openDictionary key r).2.Consistent := by
  refine UnitOfWork.Consistent.modifyRecord h key _ ?_
  intro r' hr'
  rw [hr] at hr'
  obtain rfl := Option.some.inj hr'
  show w.work.KeepsPlace key r (r.openDictionary w.shared.dictionaries).2.1
  rw [Record.openDictionary_record]
  exact ⟨rfl, rfl, id, Or.inl rfl⟩

/-- `openDictionary` changes one record at most. -/
theorem find?_openDictionary {key : RecordKey} {r : Record}
    (hr : w.work.records.find? key = some r) (other : RecordKey) :
    (w.openDictionary key r).2.work.records.find? other
      = if key = other then some (r.openDictionary w.shared.dictionaries).2.1
        else w.work.records.find? other :=
  UnitOfWork.Consistent.find?_modifyRecord hr
    (fun _ => (r.openDictionary w.shared.dictionaries).2.1) other

/-- The record that `recordOf` finds is in the table. -/
theorem find?_of_recordOf {entity : EntityRef} {key : RecordKey} {r : Record}
    (h : w.Consistent) (hfound : w.recordOf entity = .ok (key, r)) :
    w.work.records.find? key = some r ∧ r.entity = some entity := by
  unfold recordOf at hfound
  split at hfound
  · next found hfind =>
    obtain rfl := Except.ok.inj hfound
    exact h.toCoherent.recordForEntity?_eq_some_iff.mp hfind
  · cases hfound

theorem metadataOf (h : w.Consistent) (entity : EntityRef) :
    (w.metadataOf entity).2.Consistent := by
  unfold Workspace.metadataOf
  split
  · exact h
  · next key r hfound => exact h.openDictionary (h.find?_of_recordOf hfound).1

theorem ignoreChanges (h : w.Consistent) (entity : EntityRef) :
    (w.ignoreChanges entity).2.Consistent := by
  unfold Workspace.ignoreChanges
  split
  · exact h
  · exact UnitOfWork.Consistent.modifyRecord h _ _ (fun r _ => ⟨rfl, rfl, id, Or.inl rfl⟩)

theorem evict (h : w.Consistent) (entity : EntityRef) : (w.evict entity).Consistent := by
  unfold Workspace.evict
  split
  · exact h.removeRecord _
  · exact h

/-! ## Store -/

theorem storeAgain (h : w.Consistent) (key : RecordKey) (r : Record)
    (id changeVector : Option String) (check : VersionCheck) :
    (w.storeAgain key r id changeVector check).2.Consistent := by
  unfold Workspace.storeAgain
  split
  · exact h
  · split
    · exact h
    · refine UnitOfWork.Consistent.modifyRecord h key _ ?_
      exact fun r _ => ⟨rfl, rfl, fun hbody => hbody, Or.inl rfl⟩

theorem attach (h : w.Consistent) {key : RecordKey} {r : Record} {entity : EntityRef}
    (hr : w.work.records.find? key = some r) (hnone : r.entity = none)
    (hfree : w.work.registry.get? entity = none) (hentity : entity < w.shared.entities.length)
    (id : String) (changeVector : Option String) (check : VersionCheck) :
    (w.attach key entity id changeVector check).Consistent := by
  have hgiven := UnitOfWork.Consistent.giveEntity h hr hnone hfree hentity
    (fun r =>
      { r with entity := some entity, check, changeVector := changeVector.or r.changeVector })
    rfl rfl rfl
  exact (hgiven.setMissing (w.work.missing.remove id)).mono
    (Nat.le_of_eq (Shared.length_entities_setId ..).symm)

theorem track (h : w.Consistent) {entity : EntityRef}
    (hfree : w.work.registry.get? entity = none) (hentity : entity < w.shared.entities.length)
    (id : String) (changeVector : Option String) (check : VersionCheck) (incomplete : Bool)
    (hincomplete : incomplete = Identifier.isIncomplete id w.work.conventions.separator)
    (hid : incomplete = false → w.work.identities.get? id = none) :
    (w.track entity id incomplete changeVector check).Consistent := by
  have hadded := UnitOfWork.Consistent.addRecord h
    (.ofEntity id entity (w.newMetadata (w.shared.entity entity).type) changeVector check)
    incomplete (Or.inr rfl)
    (fun e he => Option.some.inj he ▸ ⟨hfree, hentity⟩) hid
    (fun hawaits => ⟨rfl, rfl, hincomplete.symm.trans hawaits⟩)
  refine (hadded.setMissing (w.work.missing.remove id)).mono (Nat.le_of_eq ?_)
  cases incomplete with
  | true => rfl
  | false => exact (Shared.length_entities_setId ..).symm

theorem store (h : w.Consistent) {entity : EntityRef}
    (hentity : entity < w.shared.entities.length) (id changeVector : Option String)
    (check : VersionCheck) : (w.store entity id changeVector check).2.Consistent := by
  unfold Workspace.store
  split
  · exact h
  · split
    · exact h.storeAgain _ _ id changeVector check
    · next hfree =>
      replace hfree := h.toCoherent.recordForEntity?_eq_none_iff.mp hfree
      dsimp only
      split
      · exact h
      · split
        · next hnone =>
          refine h.track hfree hentity _ changeVector check _ rfl ?_
          intro hcomplete
          rw [hcomplete] at hnone
          exact h.toCoherent.recordForId?_eq_none_iff.mp hnone
        · next key r hfound =>
          split
          · exact h
          · next hnone =>
            refine h.attach ?_ (by simpa using hnone) hfree hentity _ changeVector check
            split at hfound
            · cases hfound
            · exact (UnitOfWork.recordForId?_eq_some_iff.mp hfound).2

/-! ## Delete and defer -/

theorem delete (h : w.Consistent) (entity : EntityRef) : (w.delete entity).2.Consistent := by
  unfold Workspace.delete
  split
  · exact h
  · next key r hfound =>
    obtain ⟨hr, he⟩ := h.toCoherent.recordForEntity?_eq_some_iff.mp hfound
    split
    · exact h.removeRecord key
    · next hsaved =>
      have hmarked := UnitOfWork.Consistent.markDeleted h hr (by rw [he]; rfl)
        (by simpa using hsaved)
      exact hmarked.setMissing _

/-- Commands without `firstClash` differ from those taken and from each other. -/
theorem nodup_of_firstClash {taken : List (CommandKind × String)} {commands : List Command}
    (htaken : taken.Nodup) (hclash : firstClash taken commands = none) :
    (taken ++ commands.map Command.dedupKey).Nodup := by
  induction commands generalizing taken with
  | nil => simpa using htaken
  | cons c rest ih =>
    rw [firstClash] at hclash
    split at hclash
    · cases hclash
    · next hfree =>
      have hrest := ih (List.nodup_cons.mpr ⟨hfree, htaken⟩) hclash
      rw [List.map_cons]
      exact (List.perm_middle.nodup_iff).mpr hrest

theorem defer (h : w.Consistent) (commands : List Command) :
    (w.defer commands).2.Consistent := by
  unfold Workspace.defer
  split
  · exact h
  · next hclash =>
    refine UnitOfWork.Consistent.setDeferred h ?_
    rw [List.map_append]
    exact nodup_of_firstClash h.distinct hclash

theorem deferDelete (h : w.Consistent) (id : String) (given tracked : Option String) :
    (w.deferDelete id given tracked).2.Consistent := by
  unfold Workspace.deferDelete
  exact (h.markMissing id).defer _

theorem deleteId (h : w.Consistent) (id : String) (changeVector : Option String) :
    (w.deleteId id changeVector).2.Consistent := by
  unfold Workspace.deleteId
  split
  · exact h
  · split
    · exact h.deferDelete id changeVector none
    · next key r hfound =>
      split
      · exact h
      · exact h
      · exact (h.removeRecord key).deferDelete id changeVector r.changeVector

end Consistent

end Workspace

end DocumentSession
