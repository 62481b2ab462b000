import DocumentSession.Proofs.Consistent.Store
import DocumentSession.Proofs.WellFormed
import DocumentSession.Workspace.Settle

set_option autoImplicit false

/-! # The ways of settling a result

`Workspace.Settles` lists the ways in which `settleResult` settles one result, each with the
workspace it leads to, and `settleResult_settles` says that there are no others. All theorems about
settling start from these cases.

If the result of a PUT assigns the identifier of another record, that record is removed, and the PUT
is settled as under a free identifier (`settlePut_of_taken`, `settlePut_of_free`). -/

namespace DocumentSession

/-! ## Moving a record -/

namespace UnitOfWork

/-- The unit of work once the entity of `r` is saved under `id`, which no other record has. -/
def savedAs (u : UnitOfWork) (key : RecordKey) (r : Record) (id : String)
    (body metadata : Fields) : UnitOfWork :=
  { u.modifyRecord key (·.saved id body metadata) with
    identities :=
      (if Identifier.normalize r.id = Identifier.normalize id then u.identities
        else u.identities.removeRecord key).insert id key
    missing := u.missing.remove id }

theorem Consistent.savedAs {u : UnitOfWork} {n : Nat} (h : u.Consistent n) {key : RecordKey}
    {r : Record} (hr : u.records.find? key = some r) {id : String}
    (hfree : ∀ other, u.identities.get? id = some other → other = key) (body metadata : Fields) :
    (u.savedAs key r id body metadata).Consistent n :=
  (h.moveRecord hr (·.saved id body metadata) rfl rfl rfl rfl hfree).setMissing _

end UnitOfWork

/-- What is shared once the entity of `r` is saved under `id`: its dictionary is released, and `id`
is put into it. -/
def Shared.savedAs (s : Shared) (r : Record) (id : String) : Shared :=
  r.entity.elim (s.release r) (fun entity => (s.release r).setId entity id)

@[simp] theorem Shared.length_entities_savedAs (s : Shared) (r : Record) (id : String) :
    (s.savedAs r id).entities.length = s.entities.length := by
  unfold savedAs
  cases r.entity with
  | none => rfl
  | some entity => exact length_entities_setId ..

namespace Workspace

variable {w : Workspace}

/-- The `@id` in the result of a PUT. -/
def resultId (result : Fields) : Option String :=
  (Keyed.find? result Metadata.idKey).bind Json.str?

/-- `overlayResult` puts every member of a `result` but `Type` over the metadata that was sent. -/
theorem find?_overlayResult (sent : Fields) {result : Fields}
    (hwell : (Json.obj result).isWellFormed = true) (key : String) :
    Keyed.find? (overlayResult sent result) key
      = if key = "Type" then Keyed.find? sent key
        else (Keyed.find? result key).or (Keyed.find? sent key) := by
  have hsorted := Keyed.sorted_erase (Json.sorted_of_isWellFormed hwell) "Type"
  unfold overlayResult
  rw [Keyed.find?_overlay sent hsorted, Keyed.find?_erase]
  by_cases htype : key = "Type"
  · rw [if_pos htype, if_pos htype.symm]
    rfl
  · rw [if_neg htype, if_neg (Ne.symm htype)]

/-- The change vector of a result is the one of `overlayResult sent result`. -/
theorem changeVectorOf_overlayResult {sent result : Fields} {version : String}
    (hwell : (Json.obj result).isWellFormed = true)
    (hversion : Record.changeVectorOf result = some version) :
    Record.changeVectorOf (overlayResult sent result) = some version := by
  unfold Record.changeVectorOf at *
  rw [find?_overlayResult sent hwell, if_neg (by decide)]
  obtain ⟨value, hvalue, hstr⟩ := Option.bind_eq_some_iff.mp hversion
  rw [hvalue]
  exact hstr

/-- Whether another record than `key` has `id` does not depend on whether `key` was removed from the
index. -/
theorem filter_get?_reindexed {m : IdentityMap} (hm : m.entries.Sorted) (key : RecordKey)
    (id : String) (same : Prop) [Decidable same] :
    ((if same then m else m.removeRecord key).get? id).filter (· ≠ key)
      = (m.get? id).filter (· ≠ key) := by
  split
  · rfl
  · rw [IdentityMap.get?_removeRecord hm, Option.filter_filter]
    simp

/-- `settlePut` under an identifier that no other record has. -/
theorem settlePut_of_free (h : w.Consistent) {key : RecordKey} {r : Record}
    (hr : w.work.records.find? key = some r) {result : Fields} {id : String}
    (hid : resultId result = some id)
    (hfree : ∀ other, w.work.identities.get? id = some other → other = key)
    (body sent : Fields) :
    w.settlePut key body sent result
      = (.ok (),
          { work := w.work.savedAs key r id body (overlayResult sent result)
            shared := w.shared.savedAs r id }) := by
  have hnone : (w.work.identities.get? id).filter (· ≠ key) = none := by
    rw [Option.filter_eq_none_iff]
    intro other hother
    simpa using hfree other hother
  unfold resultId at hid
  unfold settlePut
  simp only [hid, hr]
  unfold settleId UnitOfWork.savedAs Shared.savedAs
  have hindex := filter_get?_reindexed h.identities_sorted key id
    (Identifier.normalize r.id = Identifier.normalize id)
  by_cases hsame : Identifier.normalize r.id = Identifier.normalize id
  · simp only [hsame, if_true, UnitOfWork.modifyRecord, hnone]
  · simp only [hsame, if_false, UnitOfWork.modifyRecord] at hindex ⊢
    simp only [hindex, hnone]

/-- `settlePut` under the identifier of another record: it is settled as if that record was removed
before, and reports `replacedDocument`. -/
theorem settlePut_of_taken (h : w.Consistent) {key : RecordKey} {r : Record}
    (hr : w.work.records.find? key = some r) {result : Fields} {id : String}
    (hid : resultId result = some id)
    {other : RecordKey} {replaced : Record}
    (hother : w.work.identities.get? id = some other) (hne : other ≠ key)
    (hreplaced : w.work.records.find? other = some replaced) (body sent : Fields) :
    w.settlePut key body sent result
      = (.error (replacedDocument id),
          { work :=
              (w.work.withoutRecord other replaced).savedAs key r id body
                (overlayResult sent result)
            shared :=
              ((w.shared.savedAs r id).release replaced).warn .serverReplacedDocument }) := by
  have hsome : (w.work.identities.get? id).filter (· ≠ key) = some other := by
    rw [hother, Option.filter_some, if_pos (by simpa using hne)]
  have hfind : (w.work.records.modify key
      (·.saved id body (overlayResult sent result))).find? other = some replaced :=
    (Keyed.find?_modify_of_ne _ (Ne.symm hne) _).trans hreplaced
  have hindex := filter_get?_reindexed h.identities_sorted key id
    (Identifier.normalize r.id = Identifier.normalize id)
  unfold resultId at hid
  unfold settlePut
  simp only [hid, hr]
  unfold settleId UnitOfWork.savedAs Shared.savedAs
  by_cases hsame : Identifier.normalize r.id = Identifier.normalize id
  · simp only [hsame, if_true, UnitOfWork.modifyRecord, hsome, Workspace.removeRecord, hfind,
      UnitOfWork.withoutRecord, Keyed.erase_modify]
  · simp only [hsame, if_false, UnitOfWork.modifyRecord] at hindex ⊢
    simp only [hindex, hsome, Workspace.removeRecord, hfind, UnitOfWork.withoutRecord,
      Keyed.erase_modify, IdentityMap.removeRecord_comm]

/-! ## The ways of settling a result -/

/-- Materializing `body` for the entity of `r`, if there is one, gives `shared`. -/
def Renews (w : Workspace) (r : Record) (body : Fields) (shared : Shared) : Prop :=
  (r.entity = none ∧ shared = w.shared)
    ∨ ∃ entity e, r.entity = some entity
      ∧ (w.shared.entity entity).type.materialize body r.id w.work.conventions.identityProperty
          = .ok e
      ∧ shared = w.shared.setEntity entity e

theorem Renews.length_entities {r : Record} {body : Fields} {shared : Shared}
    (h : w.Renews r body shared) : shared.entities.length = w.shared.entities.length := by
  rcases h with ⟨-, rfl⟩ | ⟨entity, e, -, -, rfl⟩
  · rfl
  · exact Shared.length_entities_setEntity ..

/-- The `ChangeVector` in the result of a PATCH. -/
def resultVersion (result : Fields) : Option String :=
  (Keyed.find? result "ChangeVector").bind Json.str?

/-- The `ModifiedDocument` in the result of a PATCH. -/
def resultDocument (result : Fields) : Option Fields :=
  (Keyed.find? result "ModifiedDocument").bind Json.fields?

/-- The ways in which `settleResult` settles the result of a planned command, each with its answer
and the workspace afterwards. -/
inductive Settles (w : Workspace) (planned : Planned) (result : Fields) :
    Except Error Unit → Workspace → Prop where
  /-- A PUT whose result has no identifier. -/
  | unnamed {key : RecordKey} {body metadata : Fields}
    (horigin : planned.origin = .put key body metadata) (hid : resultId result = none) :
    Settles w planned result (.error (.protocol "PUT result is missing '@id'" none)) w
  /-- A PUT of a record that was removed in the meantime. -/
  | goneBeforePut {key : RecordKey} {body metadata : Fields}
    (horigin : planned.origin = .put key body metadata)
    (hr : w.work.records.find? key = none) : Settles w planned result (.ok ()) w
  /-- A DELETE of a record that was removed in the meantime. -/
  | goneBeforeDelete {key : RecordKey} (horigin : planned.origin = .delete key)
    (hr : w.work.records.find? key = none) : Settles w planned result (.ok ()) w
  /-- A PUT under an identifier that no other record has. -/
  | saved {key : RecordKey} {body metadata : Fields} {r : Record} {id : String}
    (horigin : planned.origin = .put key body metadata)
    (hr : w.work.records.find? key = some r) (hid : resultId result = some id)
    (hfree : ∀ other, w.work.identities.get? id = some other → other = key) :
    Settles w planned result (.ok ())
      { work := w.work.savedAs key r id body (overlayResult metadata result)
        shared := w.shared.savedAs r id }
  /-- A PUT under the identifier of another record, which is removed. -/
  | replaced {key : RecordKey} {body metadata : Fields} {r : Record} {id : String}
    {other : RecordKey} {replaced : Record}
    (horigin : planned.origin = .put key body metadata)
    (hr : w.work.records.find? key = some r) (hid : resultId result = some id)
    (hother : w.work.identities.get? id = some other) (hne : other ≠ key)
    (hreplaced : w.work.records.find? other = some replaced) :
    Settles w planned result (.error (replacedDocument id))
      { work :=
          (w.work.withoutRecord other replaced).savedAs key r id body
            (overlayResult metadata result)
        shared := ((w.shared.savedAs r id).release replaced).warn .serverReplacedDocument }
  /-- A DELETE of a record. -/
  | deleted {key : RecordKey} {r : Record} (horigin : planned.origin = .delete key)
    (hr : w.work.records.find? key = some r) :
    Settles w planned result (.ok ())
      { work := { w.work.withoutRecord key r with missing := w.work.missing.insert r.id }
        shared := w.shared.release r }
  /-- A deferred PUT of a document with a record. -/
  | overwritten {key : RecordKey} {r : Record} (horigin : planned.origin = .deferred)
    (hkind : planned.command.kind = .put)
    (hfound : w.work.recordForId? planned.command.id = some (key, r)) :
    Settles w planned result (.ok ())
      { work :=
          { w.work.modifyRecord key (fun r => r.overwritten (overlayResult r.metadata result)) with
            missing := w.work.missing.remove planned.command.id }
        shared := w.shared.release r }
  /-- A deferred PUT of a document without record. -/
  | written (horigin : planned.origin = .deferred) (hkind : planned.command.kind = .put)
    (hfound : w.work.recordForId? planned.command.id = none) :
    Settles w planned result (.ok ())
      { w with work := { w.work with missing := w.work.missing.remove planned.command.id } }
  /-- A deferred DELETE of a document with a record. -/
  | dropped {key : RecordKey} {r : Record} (horigin : planned.origin = .deferred)
    (hkind : planned.command.kind = .delete)
    (hget : w.work.identities.get? planned.command.id = some key)
    (hr : w.work.records.find? key = some r) :
    Settles w planned result (.ok ())
      { work :=
          { w.work.withoutRecord key r with
            missing := w.work.missing.insert planned.command.id }
        shared := w.shared.release r }
  /-- A deferred DELETE of a document without record. -/
  | noted (horigin : planned.origin = .deferred) (hkind : planned.command.kind = .delete)
    (hget : w.work.identities.get? planned.command.id = none) :
    Settles w planned result (.ok ())
      { w with work := { w.work with missing := w.work.missing.insert planned.command.id } }
  /-- A deferred PATCH of a document without record. -/
  | unknown (horigin : planned.origin = .deferred) (hkind : planned.command.kind = .patch)
    (hfound : w.work.recordForId? planned.command.id = none) :
    Settles w planned result (.ok ()) w
  /-- A deferred PATCH whose result has no `ModifiedDocument`. -/
  | versioned {key : RecordKey} {r : Record} (horigin : planned.origin = .deferred)
    (hkind : planned.command.kind = .patch)
    (hfound : w.work.recordForId? planned.command.id = some (key, r))
    (hdocument : resultDocument result = none) :
    Settles w planned result (.ok ())
      { w with work := w.work.modifyRecord key (·.atVersion (resultVersion result)) }
  /-- A deferred PATCH whose `ModifiedDocument` cannot be decoded for the entity. -/
  | unfit {key : RecordKey} {r : Record} {e : Error} (horigin : planned.origin = .deferred)
    (hkind : planned.command.kind = .patch)
    (hfound : w.work.recordForId? planned.command.id = some (key, r))
    (hdocument : (resultDocument result).isSome = true) :
    Settles w planned result (.error e)
      { w with work := w.work.modifyRecord key (·.atVersion (resultVersion result)) }
  /-- A deferred PATCH whose result has a `ModifiedDocument`. -/
  | scripted {key : RecordKey} {r : Record} {document : Fields} {shared : Shared}
    (horigin : planned.origin = .deferred) (hkind : planned.command.kind = .patch)
    (hfound : w.work.recordForId? planned.command.id = some (key, r))
    (hdocument : resultDocument result = some document)
    (hrenewed : w.Renews r (Metadata.split document).1 shared) :
    Settles w planned result (.ok ())
      { work :=
          (w.work.modifyRecord key (·.atVersion (resultVersion result))).modifyRecord key
            (·.scripted (Metadata.split document).1 (Metadata.split document).2)
        shared := if (Metadata.split document).2 = [] then shared else shared.release r }

theorem settlePut_settles (h : w.Consistent) {planned : Planned} {key : RecordKey}
    {body metadata : Fields} (horigin : planned.origin = .put key body metadata)
    (result : Fields) :
    w.Settles planned result (w.settlePut key body metadata result).1
      (w.settlePut key body metadata result).2 := by
  cases hid : resultId result with
  | none =>
    have hput : w.settlePut key body metadata result
        = (.error (.protocol "PUT result is missing '@id'" none), w) := by
      unfold resultId at hid
      unfold settlePut
      rw [hid]
    rw [hput]
    exact .unnamed horigin hid
  | some id =>
    cases hr : w.work.records.find? key with
    | none =>
      have hput : w.settlePut key body metadata result = (.ok (), w) := by
        unfold resultId at hid
        unfold settlePut
        simp only [hid, hr]
      rw [hput]
      exact .goneBeforePut horigin hr
    | some r =>
      by_cases hfree : ∀ other, w.work.identities.get? id = some other → other = key
      · rw [settlePut_of_free h hr hid hfree]
        exact .saved horigin hr hid hfree
      · obtain ⟨other, hother, hne⟩ : ∃ other, w.work.identities.get? id = some other
            ∧ other ≠ key := by
          simpa using hfree
        obtain ⟨replaced, hreplaced, -⟩ := h.toCoherent.record_of_get? hother
        rw [settlePut_of_taken h hr hid hother hne hreplaced]
        exact .replaced horigin hr hid hother hne hreplaced

theorem settleDelete_settles {planned : Planned} {key : RecordKey}
    (horigin : planned.origin = .delete key) (result : Fields) :
    w.Settles planned result (.ok ()) (w.settleDelete key) := by
  unfold settleDelete removeRecord
  cases hr : w.work.records.find? key with
  | none => exact .goneBeforeDelete horigin hr
  | some r => exact .deleted horigin hr

theorem settleDeferredPut_settles {planned : Planned} (horigin : planned.origin = .deferred)
    (hkind : planned.command.kind = .put) (result : Fields) :
    w.Settles planned result (.ok ()) (w.settleDeferredPut planned.command.id result) := by
  unfold settleDeferredPut
  cases hfound : w.work.recordForId? planned.command.id with
  | none => exact .written horigin hkind hfound
  | some found => exact .overwritten horigin hkind hfound

theorem settleDeferredDelete_settles (h : w.Consistent) {planned : Planned}
    (horigin : planned.origin = .deferred) (hkind : planned.command.kind = .delete)
    (result : Fields) :
    w.Settles planned result (.ok ()) (w.settleDeferredDelete planned.command.id) := by
  unfold settleDeferredDelete removeRecord
  cases hget : w.work.identities.get? planned.command.id with
  | none => exact .noted horigin hkind hget
  | some key =>
    obtain ⟨r, hr, -⟩ := h.toCoherent.record_of_get? hget
    simp only [hr]
    exact .dropped horigin hkind hget hr

/-- `settleModified` fails and changes nothing, or puts the document into the record and its
entity. -/
theorem settleModified_cases (key : RecordKey) (r : Record) (document : Fields) :
    (∃ e, w.settleModified key r document = (.error e, w))
      ∨ ∃ shared, w.Renews r (Metadata.split document).1 shared
        ∧ w.settleModified key r document
          = (.ok (),
            { work :=
                w.work.modifyRecord key
                  (·.scripted (Metadata.split document).1 (Metadata.split document).2)
              shared :=
                if (Metadata.split document).2 = [] then shared else shared.release r }) := by
  unfold settleModified Renews
  rcases Metadata.split document with ⟨body, metadata⟩
  dsimp only
  cases hentity : r.entity with
  | none => exact Or.inr ⟨w.shared, Or.inl ⟨rfl, rfl⟩, rfl⟩
  | some entity =>
    dsimp only
    cases hmade : (w.shared.entity entity).type.materialize body r.id
        w.work.conventions.identityProperty with
    | error e => exact Or.inl ⟨e, rfl⟩
    | ok e =>
      exact Or.inr ⟨w.shared.setEntity entity e, Or.inr ⟨entity, e, rfl, hmade, rfl⟩, rfl⟩

theorem settleDeferredPatch_settles {planned : Planned} (horigin : planned.origin = .deferred)
    (hkind : planned.command.kind = .patch) (result : Fields) :
    w.Settles planned result (w.settleDeferredPatch planned.command.id result).1
      (w.settleDeferredPatch planned.command.id result).2 := by
  unfold settleDeferredPatch
  cases hfound : w.work.recordForId? planned.command.id with
  | none => exact .unknown horigin hkind hfound
  | some found =>
    obtain ⟨key, r⟩ := found
    dsimp only
    cases hdocument : resultDocument result with
    | none =>
      unfold resultDocument at hdocument
      rw [hdocument]
      exact .versioned horigin hkind hfound hdocument
    | some document =>
      have hsome := hdocument
      unfold resultDocument at hdocument
      rw [hdocument]
      dsimp only
      rcases settleModified_cases key r document with ⟨e, hfailed⟩ | ⟨shared, hrenewed, hdone⟩
      · rw [hfailed]
        exact .unfit horigin hkind hfound (by rw [hsome]; rfl)
      · rw [hdone]
        exact .scripted horigin hkind hfound hsome hrenewed

/-- Every result is settled in one of these ways. -/
theorem settleResult_settles (h : w.Consistent) (planned : Planned) (result : Fields) :
    w.Settles planned result (w.settleResult planned result).1
      (w.settleResult planned result).2 := by
  unfold settleResult
  cases horigin : planned.origin with
  | put key body metadata => exact settlePut_settles h horigin result
  | delete key => exact settleDelete_settles horigin result
  | deferred =>
    cases hkind : planned.command.kind with
    | put => exact settleDeferredPut_settles horigin hkind result
    | delete => exact settleDeferredDelete_settles h horigin hkind result
    | patch => exact settleDeferredPatch_settles horigin hkind result

end Workspace

end DocumentSession
