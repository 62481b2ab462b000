import DocumentSession.Proofs.Change
import DocumentSession.Proofs.Plan
import DocumentSession.Proofs.Run

set_option autoImplicit false

/-! # What the results of deferred commands settle

Planning leaves out a record for whose document a command waits in `deferred`, so whatever about the
record is to be sent has to be settled by the results of these commands. Each of them settles a
part: a PUT settles that the document is new and the edits of its metadata, a PATCH settles what the
document in its result has of body and metadata, and a DELETE settles everything (`SettledBy`). The
body of the instance is settled by a PATCH alone.

A run over such results leaves a record pending if and only if it was, and the results do not settle
it (`SettlesAll.isPending_iff`). -/

namespace DocumentSession

open Identifier (normalize)

/-! ## Types whose entities are written as they are read -/

namespace EntityType

/-- An entity that is materialized from `body` is written as `body`. -/
def Restores (type : EntityType) (identityProperty : String) (body : Fields) : Prop :=
  ∀ id e, type.materialize body id identityProperty = .ok e → e.toBody identityProperty = .ok body

/-- Setting the identifier does not change the body of an entity. -/
def KeepsBody (type : EntityType) (identityProperty : String) : Prop :=
  ∀ state id, Entity.toBody { type, state := type.setId state id } identityProperty
    = Entity.toBody { type, state } identityProperty

end EntityType

namespace Workspace

variable {w w' w'' : Workspace} {key : RecordKey} {r r' r'' : Record}

/-! ## What is unsent -/

/-- `toBody` of the instance differs from the body that is last known, or fails. -/
def bodyUnsent (w : Workspace) (r : Record) : Bool :=
  match r.entity with
  | none => false
  | some entity =>
    match w.bodyOf entity with
    | .error _ => true
    | .ok body => r.bodyDiffers body

/-- The record is new, its metadata is dirty, or its body is unsent. -/
def Unsent (w : Workspace) (r : Record) : Prop :=
  r.isNew = true ∨ r.isMetadataDirty w.shared.dictionaries = true ∨ w.bodyUnsent r = true

theorem bodyUnsent_congr (hentity : r'.entity = r.entity) (hbody : r'.body = r.body)
    (hsame : ∀ entity, r.entity = some entity → w'.bodyOf entity = w.bodyOf entity) :
    w'.bodyUnsent r' = w.bodyUnsent r := by
  unfold bodyUnsent Record.bodyDiffers
  rw [hentity, hbody]
  cases he : r.entity with
  | none => rfl
  | some entity =>
    dsimp only
    rw [hsame entity he]

theorem entityChanged_ne_ok_false_iff :
    w.entityChanged r ≠ .ok false ↔ r.entity.isSome = true ∧ w.Unsent r := by
  unfold entityChanged Unsent bodyUnsent
  cases r.entity with
  | none => simp
  | some entity =>
    dsimp only
    cases r.isNew with
    | true => simp
    | false =>
      cases r.isMetadataDirty w.shared.dictionaries with
      | true => simp
      | false =>
        cases w.bodyOf entity with
        | error e => simp [Except.map]
        | ok body => simp [Except.map]

/-- A record is pending if it is to be deleted, or its entity is `Unsent` and not ignored. -/
theorem isPending_iff :
    w.IsPending key r ↔ w.work.isToDelete key = true
      ∨ (r.ignoreChanges = false ∧ r.entity.isSome = true ∧ w.Unsent r) := by
  unfold IsPending
  rw [entityChanged_ne_ok_false_iff]

/-! ## The results for a document -/

/-- `pair` is a deferred command of `kind` for the document `id`, with its result. -/
def waited (kind : CommandKind) (id : String) (pair : Planned × Fields) : Bool :=
  pair.1.origin = .deferred && pair.1.command.kind = kind
    && normalize pair.1.command.id = normalize id

/-- The result replaces the metadata of the record of `id`: that of a PUT, or that of a PATCH whose
document has metadata. -/
def renewsMetadata (id : String) (pair : Planned × Fields) : Bool :=
  waited .put id pair
    || (waited .patch id pair
      && (resultDocument pair.2).any (fun document => (Metadata.split document).2 ≠ []))

/-- The result replaces the body of the record of `id`, as that of a PATCH with a document does. -/
def renewsBody (id : String) (pair : Planned × Fields) : Bool :=
  waited .patch id pair && (resultDocument pair.2).isSome

/-- The results of deferred commands settle all that is pending about a record. The record has to be
found by its identifier for that. Either its document is deleted, or it is not to be deleted and the
results settle each part of it that is unsent. -/
def SettledBy (w : Workspace) (key : RecordKey) (r : Record) (pairs : List (Planned × Fields)) :
    Prop :=
  w.work.identities.get? r.id = some key
    ∧ (pairs.any (waited .delete r.id) = true
      ∨ (w.work.isToDelete key = false
        ∧ (r.isNew = true → pairs.any (waited .put r.id) = true)
        ∧ (r.isMetadataDirty w.shared.dictionaries = true → pairs.any (renewsMetadata r.id) = true)
        ∧ (w.bodyUnsent r = true → pairs.any (renewsBody r.id) = true)))

instance (w : Workspace) (key : RecordKey) (r : Record) (pairs : List (Planned × Fields)) :
    Decidable (w.SettledBy key r pairs) :=
  inferInstanceAs (Decidable (_ ∧ (_ ∨ (_ ∧ (_ → _) ∧ (_ → _) ∧ (_ → _)))))

/-- The type of every instance `Restores` the documents in the results of PATCH commands. -/
def AllRestore (w : Workspace) (pairs : List (Planned × Fields)) : Prop :=
  ∀ e ∈ w.shared.entities, ∀ pair ∈ pairs, ∀ document, resultDocument pair.2 = some document →
    e.type.Restores w.work.conventions.identityProperty (Metadata.split document).1

theorem AllRestore.of_types {pairs : List (Planned × Fields)} (hrestores : w.AllRestore pairs)
    (htypes : w'.shared.entities.map (·.type) = w.shared.entities.map (·.type))
    (hconventions : w'.work.conventions = w.work.conventions) : w'.AllRestore pairs := by
  intro e he pair hpair document hdocument
  have hmem : e.type ∈ w.shared.entities.map (·.type) := by
    rw [← htypes]
    exact List.mem_map_of_mem he
  obtain ⟨e₀, he₀, htype⟩ := List.mem_map.mp hmem
  rw [hconventions, ← htype]
  exact hrestores e₀ he₀ pair hpair document hdocument

theorem SettlesAll.allRestore {pairs pairs' : List (Planned × Fields)}
    {answers : List (Except Error Unit)} (hrun : w.SettlesAll pairs' answers w')
    (h : w.Consistent) (hrestores : w.AllRestore pairs) : w'.AllRestore pairs := by
  refine hrun.preserves (P := fun v => v.AllRestore pairs) h ?_ hrestores
  intro v v' planned result answer _ _ _ hsettles hrestores
  exact hrestores.of_types hsettles.types hsettles.conventions

/-! ## Progress of a record -/

/-- From `w` to `w'` the record at `key` stays, and the parts of it that the flags name are
settled. -/
structure Progress (w : Workspace) (key : RecordKey) (r : Record) (put metadata body : Bool)
    (w' : Workspace) (r' : Record) : Prop where
  record : w'.work.records.find? key = some r'
  indexed : w'.work.identities.get? r.id = some key ↔ w.work.identities.get? r.id = some key
  kept : w'.work.isToDelete key = w.work.isToDelete key
  id : r'.id = r.id
  entity : r'.entity = r.entity
  watched : r'.ignoreChanges = r.ignoreChanges
  isNew : r'.isNew = (r.isNew && !put)
  dirty : r'.isMetadataDirty w'.shared.dictionaries
    = (r.isMetadataDirty w.shared.dictionaries && !metadata)
  unsent : w'.bodyUnsent r' = (w.bodyUnsent r && !body)

theorem Progress.trans {p m b p' m' b' : Bool} (h : w.Progress key r p m b w' r')
    (h' : w'.Progress key r' p' m' b' w'' r'') :
    w.Progress key r (p || p') (m || m') (b || b') w'' r'' := by
  refine ⟨h'.record, ?_, h'.kept.trans h.kept, h'.id.trans h.id, h'.entity.trans h.entity,
    h'.watched.trans h.watched, ?_, ?_, ?_⟩
  · rw [← h.indexed, ← h.id]
    exact h'.indexed
  · rw [h'.isNew, h.isNew, Bool.not_or, Bool.and_assoc]
  · rw [h'.dirty, h.dirty, Bool.not_or, Bool.and_assoc]
  · rw [h'.unsent, h.unsent, Bool.not_or, Bool.and_assoc]

theorem KeepsRecord.bodyUnsent_eq (hkeeps : w.KeepsRecord w' key)
    (hr : w.work.records.find? key = some r) : w'.bodyUnsent r = w.bodyUnsent r := by
  refine bodyUnsent_congr rfl rfl ?_
  intro entity he
  unfold bodyOf
  rw [hkeeps.entity r entity hr he, hkeeps.conventions]

theorem KeepsRecord.isMetadataDirty_eq (hkeeps : w.KeepsRecord w' key) (r : Record) :
    r.isMetadataDirty w'.shared.dictionaries = r.isMetadataDirty w.shared.dictionaries := by
  unfold Record.isMetadataDirty
  cases r.dictionary with
  | none => rfl
  | some n => exact hkeeps.dirty n

/-- Of a record that is kept nothing is settled. -/
theorem KeepsRecord.progress (hkeeps : w.KeepsRecord w' key)
    (hr : w.work.records.find? key = some r) : w.Progress key r false false false w' r := by
  refine ⟨hkeeps.record.trans hr, hkeeps.indexed r.id, hkeeps.deleted, rfl, rfl, rfl, ?_, ?_, ?_⟩
  · rw [Bool.not_false, Bool.and_true]
  · rw [hkeeps.isMetadataDirty_eq, Bool.not_false, Bool.and_true]
  · rw [hkeeps.bodyUnsent_eq hr, Bool.not_false, Bool.and_true]

/-- Of a record whose dictionary is opened nothing is settled. -/
theorem Opened.progress (hopened : w.Opened w') (hr : w.work.records.find? key = some r) :
    ∃ r', w.Progress key r false false false w' r' := by
  obtain ⟨dictionary, hr', hdirty⟩ := hopened.record key r hr
  refine ⟨_, hr', ?_, hopened.isToDelete_eq key, rfl, rfl, rfl, ?_, ?_, ?_⟩
  · rw [hopened.work]
  · rw [Bool.not_false, Bool.and_true]
  · rw [hdirty, Bool.not_false, Bool.and_true]
  · rw [Bool.not_false, Bool.and_true]
    exact bodyUnsent_congr rfl rfl (fun entity _ => hopened.bodyOf_eq entity)

/-- Where nothing is settled, the record is as pending as it was. -/
theorem Progress.isPending_iff (h : w.Progress key r false false false w' r') :
    w'.IsPending key r' ↔ w.IsPending key r := by
  rw [Workspace.isPending_iff, Workspace.isPending_iff, h.kept, h.watched, h.entity]
  unfold Unsent
  rw [h.isNew, h.dirty, h.unsent]
  simp only [Bool.not_false, Bool.and_true]

/-- Where nothing is settled, the same results are `SettledBy`. -/
theorem Progress.settledBy_iff (h : w.Progress key r false false false w' r')
    (pairs : List (Planned × Fields)) : w'.SettledBy key r' pairs ↔ w.SettledBy key r pairs := by
  unfold SettledBy
  rw [h.id, h.indexed, h.kept, h.isNew, h.dirty, h.unsent]
  simp only [Bool.not_false, Bool.and_true]

/-! ## Results of waiting commands -/

section Waiting

variable {planned : Planned} {result : Fields} {kind : CommandKind} {id : String}

theorem waited_eq_true_iff :
    waited kind id (planned, result) = true ↔ planned.origin = .deferred
      ∧ planned.command.kind = kind ∧ normalize planned.command.id = normalize id := by
  unfold waited
  simp only [Bool.and_eq_true, decide_eq_true_eq, and_assoc]

/-- A deferred command touches a record that is found by its identifier if and only if it is for
that identifier. -/
theorem touches_iff (h : w.Consistent) (hdeferred : planned.origin = .deferred)
    (hr : w.work.records.find? key = some r) (hindexed : w.work.identities.get? r.id = some key) :
    w.Touches planned result key ↔ normalize planned.command.id = normalize r.id := by
  unfold Touches
  rw [hdeferred]
  dsimp only
  constructor
  · intro hget
    obtain ⟨r', hr', hid⟩ := h.toCoherent.record_of_get? hget
    obtain rfl := Option.some.inj (hr.symm.trans hr')
    exact hid.symm
  · intro hid
    rw [w.work.identities.get?_congr hid]
    exact hindexed

/-- No deferred command touches a record that is not found by its identifier. -/
theorem not_touches_of_unindexed (h : w.Consistent) (hdeferred : planned.origin = .deferred)
    (hr : w.work.records.find? key = some r) (hindexed : w.work.identities.get? r.id ≠ some key) :
    ¬ w.Touches planned result key := by
  unfold Touches
  rw [hdeferred]
  intro hget
  obtain ⟨r', hr', hid⟩ := h.toCoherent.record_of_get? hget
  obtain rfl := Option.some.inj (hr.symm.trans hr')
  rw [w.work.identities.get?_congr hid] at hindexed
  exact hindexed hget

/-- A record that `Renews` a body has no unsent body, if the type of its instance `Restores` the
body. -/
theorem Renews.bodyUnsent {body : Fields} {shared : Shared} (hrenewed : w.Renews r body shared)
    (h : w.Consistent) (hr : w.work.records.find? key = some r)
    (hwell : (Json.obj body).isWellFormed = true)
    (hrestores : ∀ entity, r.entity = some entity →
      (w.shared.entity entity).type.Restores w.work.conventions.identityProperty body)
    (hwork : w'.work.conventions = w.work.conventions)
    (hentities : w'.shared.entities = shared.entities)
    (hentity : r'.entity = r.entity) (hbody : r'.body = some body) :
    w'.bodyUnsent r' = false := by
  unfold Workspace.bodyUnsent Record.bodyDiffers
  rw [hentity, hbody]
  rcases hrenewed with ⟨hnone, -⟩ | ⟨entity, e, he, hmade, rfl⟩
  · rw [hnone]
  · have hknown : entity < w.shared.entities.length :=
      h.known entity key ((h.held entity key).mpr ⟨r, hr, he⟩)
    have hstate : w'.shared.entity entity = e := by
      unfold Shared.entity
      rw [hentities]
      exact w.shared.entity_setEntity_self hknown e
    have hwritten : w'.bodyOf entity = .ok body := by
      unfold bodyOf
      rw [hstate, hwork]
      exact hrestores entity he r.id e hmade
    rw [he]
    dsimp only
    rw [hwritten]
    exact Change.any_self hwell

theorem waited_eq_false_of_ne (hid : normalize planned.command.id ≠ normalize id) :
    waited kind id (planned, result) = false := by
  rw [← Bool.not_eq_true, waited_eq_true_iff]
  exact fun hwaited => hid hwaited.2.2

theorem waited_of_kind (hdeferred : planned.origin = .deferred)
    (hkind : planned.command.kind = kind) (hid : normalize planned.command.id = normalize id)
    (kind' : CommandKind) (result : Fields) :
    waited kind' id (planned, result) = decide (kind = kind') := by
  unfold waited
  simp only [hdeferred, hkind, hid, decide_true, Bool.true_and, Bool.and_true]

theorem isWellFormed_of_resultDocument {document : Fields}
    (hwell : (Json.obj result).isWellFormed = true)
    (hdocument : resultDocument result = some document) :
    (Json.obj (Metadata.split document).1).isWellFormed = true := by
  obtain ⟨value, hvalue, hfields⟩ := Option.bind_eq_some_iff.mp hdocument
  have hmember := Json.isWellFormed_of_mem hwell (Keyed.mem_of_find? hvalue)
  cases value with
  | obj members =>
    obtain rfl := Option.some.inj hfields
    exact Json.isWellFormed_erase hmember Metadata.key
  | null | bool | num | str | arr => cases hfields

/-- A PUT for the document of a record settles that it is new, and its metadata. -/
theorem progress_overwritten (hr : w.work.records.find? key = some r)
    (metadata : Record → Fields) (missing : KnownMissing) :
    w.Progress key r true true false
      { work := { w.work.modifyRecord key (fun r => r.overwritten (metadata r)) with missing }
        shared := w.shared.release r } (r.overwritten (metadata r)) := by
  refine ⟨Keyed.find?_modify_self hr (fun r => r.overwritten (metadata r)), Iff.rfl, rfl, rfl,
    rfl, rfl, ?_, ?_, ?_⟩
  · rw [Bool.not_true, Bool.and_false]
    rfl
  · rw [Bool.not_true, Bool.and_false]
    rfl
  · rw [Bool.not_false, Bool.and_true]
    exact bodyUnsent_congr rfl rfl (fun _ _ => rfl)

/-- A PATCH without a document settles nothing. -/
theorem progress_atVersion (hr : w.work.records.find? key = some r) (version : Option String) :
    w.Progress key r false false false
      { w with work := w.work.modifyRecord key (·.atVersion version) } (r.atVersion version) := by
  refine ⟨Keyed.find?_modify_self hr (·.atVersion version), Iff.rfl, rfl, rfl, rfl, rfl, ?_, ?_, ?_⟩
  · rw [Bool.not_false, Bool.and_true]
    rfl
  · rw [Bool.not_false, Bool.and_true]
    rfl
  · rw [Bool.not_false, Bool.and_true]
    exact bodyUnsent_congr rfl rfl (fun _ _ => rfl)

/-- A PATCH with a document settles the body, and the metadata if the document has some. -/
theorem progress_scripted (h : w.Consistent) (hr : w.work.records.find? key = some r)
    {body metadata : Fields} {shared : Shared} (hrenewed : w.Renews r body shared)
    (hwell : (Json.obj body).isWellFormed = true)
    (hrestores : ∀ entity, r.entity = some entity →
      (w.shared.entity entity).type.Restores w.work.conventions.identityProperty body)
    (version : Option String) :
    w.Progress key r false (decide (metadata ≠ [])) true
      { work :=
          (w.work.modifyRecord key (·.atVersion version)).modifyRecord key
            (·.scripted body metadata)
        shared := if metadata = [] then shared else shared.release r }
      ((r.atVersion version).scripted body metadata) := by
  -- the record takes over the version first and the document then
  have hversion : (w.work.records.modify key (·.atVersion version)).find? key
      = some (r.atVersion version) := Keyed.find?_modify_self hr _
  have hentities : (if metadata = [] then shared else shared.release r).entities
      = shared.entities := by
    split <;> rfl
  have hscripted : ((r.atVersion version).scripted body metadata).entity = r.entity
      ∧ ((r.atVersion version).scripted body metadata).id = r.id
      ∧ ((r.atVersion version).scripted body metadata).isNew = r.isNew
      ∧ ((r.atVersion version).scripted body metadata).ignoreChanges = r.ignoreChanges := by
    unfold Record.scripted
    split <;> exact ⟨rfl, rfl, rfl, rfl⟩
  obtain ⟨hentity, hid, hisNew, hwatched⟩ := hscripted
  refine ⟨Keyed.find?_modify_self hversion (·.scripted body metadata), Iff.rfl, rfl, hid, hentity,
    hwatched, ?_, ?_, ?_⟩
  · rw [Bool.not_false, Bool.and_true]
    exact hisNew
  · by_cases hnone : metadata = []
    · subst hnone
      rw [decide_eq_false (not_not_intro rfl), Bool.not_false, Bool.and_true]
      unfold Record.isMetadataDirty
      show r.dictionary.any shared.dictionaries.isDirty = _
      congr 1
      funext n
      exact hrenewed.isDirty n
    · rw [decide_eq_true hnone, Bool.not_true, Bool.and_false]
      unfold Record.scripted
      rw [if_neg hnone]
      rfl
  · rw [Bool.not_true, Bool.and_false]
    exact hrenewed.bodyUnsent h hr hwell hrestores rfl hentities hentity rfl

/-- What the result of a deferred command does to a record that is found by its identifier. After a
DELETE the record is gone; else it stays, and what the result settles is settled. -/
theorem Settles.progress (hsettles : w.Settles planned result (.ok ()) w') (h : w.Consistent)
    (hdeferred : planned.origin = .deferred) (hr : w.work.records.find? key = some r)
    (hindexed : w.work.identities.get? r.id = some key)
    (hwell : (Json.obj result).isWellFormed = true)
    (hrestores : w.AllRestore [(planned, result)]) :
    (waited .delete r.id (planned, result) = true ∧ w'.work.records.find? key = none)
      ∨ (waited .delete r.id (planned, result) = false ∧ ∃ r',
        w.Progress key r (waited .put r.id (planned, result))
          (renewsMetadata r.id (planned, result)) (renewsBody r.id (planned, result)) w' r') := by
  unfold renewsMetadata renewsBody
  by_cases hid : normalize planned.command.id = normalize r.id
  · have hget : w.work.identities.get? planned.command.id = some key := by
      rw [w.work.identities.get?_congr hid]
      exact hindexed
    have hfound : w.work.recordForId? planned.command.id = some (key, r) :=
      UnitOfWork.recordForId?_eq_some_iff.mpr ⟨hget, hr⟩
    -- the record that the result is about is this one
    cases hsettles with
    | goneBeforePut horigin | goneBeforeDelete horigin | saved horigin | deleted horigin =>
      rw [hdeferred] at horigin
      cases horigin
    | overwritten _ hkind hfound' =>
      obtain ⟨rfl, rfl⟩ := Prod.mk.inj (Option.some.inj (hfound.symm.trans hfound'))
      have hdelete := waited_of_kind hdeferred hkind hid .delete result
      have hput := waited_of_kind hdeferred hkind hid .put result
      have hpatch := waited_of_kind hdeferred hkind hid .patch result
      rw [hdelete, hput, hpatch]
      exact Or.inr ⟨rfl, _, progress_overwritten hr _ _⟩
    | dropped _ hkind hget' _ =>
      obtain rfl := Option.some.inj (hget.symm.trans hget')
      have hdelete : waited .delete r.id (planned, result) = true :=
        waited_eq_true_iff.mpr ⟨hdeferred, hkind, hid⟩
      exact Or.inl ⟨hdelete, (Keyed.find?_erase ..).trans (if_pos rfl)⟩
    | versioned _ hkind hfound' hdocument =>
      obtain ⟨rfl, rfl⟩ := Prod.mk.inj (Option.some.inj (hfound.symm.trans hfound'))
      have hdelete := waited_of_kind hdeferred hkind hid .delete result
      have hput := waited_of_kind hdeferred hkind hid .put result
      have hpatch := waited_of_kind hdeferred hkind hid .patch result
      rw [hdelete, hput, hpatch, hdocument]
      exact Or.inr ⟨rfl, _, progress_atVersion hr _⟩
    | @scripted _ _ document _ _ hkind hfound' hdocument hrenewed =>
      obtain ⟨rfl, rfl⟩ := Prod.mk.inj (Option.some.inj (hfound.symm.trans hfound'))
      have hdelete := waited_of_kind hdeferred hkind hid .delete result
      have hput := waited_of_kind hdeferred hkind hid .put result
      have hpatch := waited_of_kind hdeferred hkind hid .patch result
      rw [hdelete, hput, hpatch, hdocument]
      refine Or.inr ⟨rfl, _, progress_scripted h hr hrenewed
        (isWellFormed_of_resultDocument hwell hdocument) ?_ _⟩
      intro entity he
      have hknown := h.known entity key ((h.held entity key).mpr ⟨r, hr, he⟩)
      exact hrestores _ (w.shared.entity_mem hknown) _ (List.mem_singleton_self _) document
        hdocument
    | written _ _ hfound' | unknown _ _ hfound' =>
      rw [hfound] at hfound'
      cases hfound'
    | noted _ _ hget' =>
      rw [hget] at hget'
      cases hget'
  · have hnot : ¬ w.Touches planned result key := by
      rw [touches_iff h hdeferred hr hindexed]
      exact hid
    have hother : ∀ kind, waited kind r.id (planned, result) = false :=
      fun _ => waited_eq_false_of_ne hid
    rw [hother .delete, hother .put, hother .patch]
    exact Or.inr ⟨rfl, r, (hsettles.keepsRecord h hnot).progress hr⟩

/-- The same for a run over the results of deferred commands. -/
theorem SettlesAll.progress {pairs : List (Planned × Fields)} {answers : List (Except Error Unit)}
    (hrun : w.SettlesAll pairs answers w') (h : w.Consistent)
    (hok : ∀ answer ∈ answers, answer = .ok ())
    (hdeferred : ∀ pair ∈ pairs, pair.1.origin = .deferred)
    (hr : w.work.records.find? key = some r) (hindexed : w.work.identities.get? r.id = some key)
    (hwell : ∀ pair ∈ pairs, (Json.obj pair.2).isWellFormed = true)
    (hrestores : w.AllRestore pairs) :
    (pairs.any (waited .delete r.id) = true ∧ w'.work.records.find? key = none)
      ∨ (pairs.any (waited .delete r.id) = false ∧ ∃ r',
        w.Progress key r (pairs.any (waited .put r.id)) (pairs.any (renewsMetadata r.id))
          (pairs.any (renewsBody r.id)) w' r') := by
  induction hrun generalizing r with
  | nil w => exact Or.inr ⟨rfl, r, (KeepsRecord.refl w key).progress hr⟩
  | @cons w w₁ _ planned result answer pairs answers first others ih =>
    rw [List.forall_mem_cons] at hok hdeferred hwell
    obtain ⟨rfl, hok⟩ := hok
    obtain ⟨hfirst, hdeferred⟩ := hdeferred
    obtain ⟨hwellFirst, hwell⟩ := hwell
    have h₁ := h.settles first
    simp only [List.any_cons]
    have hrestoresFirst : w.AllRestore [(planned, result)] := by
      intro e he pair hmem
      obtain rfl := List.mem_singleton.mp hmem
      exact hrestores e he _ (List.mem_cons_self ..)
    have hrestores₁ : w₁.AllRestore pairs := by
      have hrest : w.AllRestore pairs :=
        fun e he pair hmem => hrestores e he pair (List.mem_cons_of_mem _ hmem)
      exact hrest.of_types first.types first.conventions
    -- the first result deletes the record, or the others go on from what it left
    rcases first.progress h hfirst hr hindexed hwellFirst hrestoresFirst with
      ⟨hdeleted, hgone⟩ | ⟨hkept, r₁, hprogress⟩
    · rw [hdeleted]
      exact Or.inl ⟨rfl, others.absent h₁ hgone⟩
    · have hindexed₁ : w₁.work.identities.get? r₁.id = some key := by
        rw [hprogress.id]
        exact hprogress.indexed.mpr hindexed
      have hrest := ih h₁ hok hdeferred hprogress.record hindexed₁ hwell hrestores₁
      rw [hprogress.id] at hrest
      rw [hkept, Bool.false_or]
      refine hrest.imp_right ?_
      rintro ⟨hnone, r', hprogress'⟩
      exact ⟨hnone, r', hprogress.trans hprogress'⟩

/-- A run over the results of deferred commands keeps a record that is not found by its
identifier. -/
theorem SettlesAll.keepsRecord_of_unindexed {pairs : List (Planned × Fields)}
    {answers : List (Except Error Unit)} (hrun : w.SettlesAll pairs answers w')
    (h : w.Consistent) (hdeferred : ∀ pair ∈ pairs, pair.1.origin = .deferred)
    (hr : w.work.records.find? key = some r)
    (hindexed : w.work.identities.get? r.id ≠ some key) : w.KeepsRecord w' key := by
  refine hrun.preserves (P := fun v => w.KeepsRecord v key) h ?_ (.refl w key)
  intro v v' planned result answer hmem _ hv hsettles hkeeps
  refine hkeeps.trans (hsettles.keepsRecord hv ?_)
  refine not_touches_of_unindexed hv (hdeferred _ hmem) (hkeeps.record.trans hr) ?_
  rwa [ne_eq, hkeeps.indexed]

/-- A run over the results of deferred commands leaves a record pending if and only if it was, and
is not `SettledBy` the results. -/
theorem SettlesAll.isPending_iff {pairs : List (Planned × Fields)}
    {answers : List (Except Error Unit)} (hrun : w.SettlesAll pairs answers w')
    (h : w.Consistent) (hok : ∀ answer ∈ answers, answer = .ok ())
    (hdeferred : ∀ pair ∈ pairs, pair.1.origin = .deferred)
    (hr : w.work.records.find? key = some r)
    (hwell : ∀ pair ∈ pairs, (Json.obj pair.2).isWellFormed = true)
    (hrestores : w.AllRestore pairs) :
    (∃ r', w'.work.records.find? key = some r' ∧ w'.IsPending key r')
      ↔ w.IsPending key r ∧ ¬ w.SettledBy key r pairs := by
  by_cases hindexed : w.work.identities.get? r.id = some key
  · unfold SettledBy
    rcases hrun.progress h hok hdeferred hr hindexed hwell hrestores with
      ⟨hdeleted, hgone⟩ | ⟨hkept, r', hprogress⟩
    · rw [hgone, hdeleted]
      simp [hindexed]
    · have hsame : (∃ r', w'.work.records.find? key = some r' ∧ w'.IsPending key r')
          ↔ w'.IsPending key r' := by
        rw [hprogress.record]
        simp
      rw [hsame, Workspace.isPending_iff, Workspace.isPending_iff, hprogress.kept,
        hprogress.watched, hprogress.entity, hkept]
      unfold Unsent
      rw [hprogress.isNew, hprogress.dirty, hprogress.unsent]
      simp only [hindexed, true_and, Bool.and_eq_true, Bool.not_eq_true', Bool.false_eq_true,
        false_or]
      cases w.work.isToDelete key with
      | true => simp
      | false =>
        simp only [Bool.false_eq_true, false_or, true_and]
        grind
  · have hkeeps := hrun.keepsRecord_of_unindexed h hdeferred hr hindexed
    have hunsettled : ¬ w.SettledBy key r pairs := fun hsettled => hindexed hsettled.1
    rw [hkeeps.record, hr]
    simp only [Option.some.injEq, exists_eq_left', (hkeeps.progress hr).isPending_iff, hunsettled,
      not_false_eq_true, and_true]

/-- What is pending after such a run was pending before and is not `SettledBy` the results. -/
theorem SettlesAll.exists_isPending_iff {pairs : List (Planned × Fields)}
    {answers : List (Except Error Unit)} (hrun : w.SettlesAll pairs answers w')
    (h : w.Consistent) (hok : ∀ answer ∈ answers, answer = .ok ())
    (hdeferred : ∀ pair ∈ pairs, pair.1.origin = .deferred)
    (hwell : ∀ pair ∈ pairs, (Json.obj pair.2).isWellFormed = true)
    (hrestores : w.AllRestore pairs) :
    (∃ r', w'.work.records.find? key = some r' ∧ w'.IsPending key r')
      ↔ ∃ r, w.work.records.find? key = some r ∧ w.IsPending key r
          ∧ ¬ w.SettledBy key r pairs := by
  cases hr : w.work.records.find? key with
  | none =>
    rw [hrun.absent h hr]
    simp
  | some r =>
    rw [hrun.isPending_iff h hok hdeferred hr hwell hrestores]
    simp

end Waiting

end Workspace

end DocumentSession
