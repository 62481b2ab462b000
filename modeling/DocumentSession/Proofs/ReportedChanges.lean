import DocumentSession.Proofs.Change
import DocumentSession.Proofs.PendingChanges
import DocumentSession.Proofs.SentMetadata

set_option autoImplicit false

/-! # `whatChanged` and `hasChanged`

`Workspace.whatChanged` lists the pending changes document by document, and `Workspace.hasChanged`
says of a single instance whether it has changed. Each of them walks through the records on its own.

`whatChanged` leaves out a document that is written for its metadata alone
(`Workspace.OnlyMetadataChanged`). It names every other document of the next save, and so it names
all of them if and only if there is no such document (`OpenSession.whatChanged_names_plan_iff`).

`hasChanged` answers `true` for an instance if the next save has a command for it. It does so as
well if the changes of the instance are ignored (`Workspace.HasIgnoredChange`), and then there is no
such command (`OpenSession.hasChanged_tells_plan_iff`). -/

namespace DocumentSession

open Identifier (normalize isIncomplete)

/-- Where no identifier is incomplete, every document has one record. -/
theorem UnitOfWork.Coherent.eq_of_complete_id {u : UnitOfWork} (h : u.Coherent)
    (hcomplete : ∀ key r, u.records.find? key = some r →
      isIncomplete r.id u.conventions.separator = false)
    {key key' : RecordKey} {r r' : Record} (hr : u.records.find? key = some r)
    (hr' : u.records.find? key' = some r') (hid : normalize r.id = normalize r'.id) :
    key = key' := by
  by_contra hne
  rcases h.awaitsId_of_same_id hr hr' hne hid with hawaits | hawaits
  · exact Bool.false_ne_true ((hcomplete key r hr).symm.trans hawaits.incomplete)
  · exact Bool.false_ne_true ((hcomplete key' r' hr').symm.trans hawaits.incomplete)

/-- If every step `Adds` keys, the keys of a fold are those at first and those that the steps
add. -/
theorem Keyed.mem_keys_foldl_iff {α κ β : Type} {step : Keyed κ β → α → Keyed κ β}
    (Adds : α → κ → Prop)
    (hstep : ∀ found a k, k ∈ (step found a).keys ↔ k ∈ found.keys ∨ Adds a k)
    (found : Keyed κ β) (entries : List α) (k : κ) :
    k ∈ (entries.foldl step found).keys ↔ k ∈ found.keys ∨ ∃ a ∈ entries, Adds a k := by
  induction entries generalizing found with
  | nil => simp
  | cons a rest ih => rw [List.foldl_cons, ih, hstep, or_assoc, List.exists_mem_cons_iff]

namespace Workspace

variable {w w' : Workspace} {key : RecordKey} {r : Record}

/-! ## Why an entity is written -/

/-- The next save considers the entity of a record, and its document is new or has another body than
the one last known. -/
def BodyChanged (w : Workspace) (key : RecordKey) (r : Record) : Prop :=
  ∃ entity body, w.Considers key r entity ∧ w.bodyOf entity = .ok body
    ∧ (r.isNew = true ∨ r.bodyDiffers body = true)

/-- The next save writes the entity of a record because its metadata was edited, and for no other
reason: the document was saved before, and its body is the one last known. -/
def OnlyMetadataChanged (w : Workspace) (key : RecordKey) (r : Record) : Prop :=
  ∃ entity body, w.Considers key r entity ∧ w.bodyOf entity = .ok body
    ∧ r.isNew = false ∧ r.bodyDiffers body = false
    ∧ r.isMetadataDirty w.shared.dictionaries = true

/-- An entity that would have to be written, but its changes are ignored. -/
structure HasIgnoredChange (w : Workspace) (key : RecordKey) (r : Record) : Prop where
  kept : w.work.isToDelete key = false
  ignored : r.ignoreChanges = true
  changed : w.entityChanged r = .ok true

theorem BodyChanged.writes (h : w.BodyChanged key r) :
    ∃ entity body, w.Writes key r entity body := by
  obtain ⟨entity, body, hconsiders, hbody, hchanged⟩ := h
  refine ⟨entity, body, hconsiders, hbody, ?_⟩
  unfold mustWrite
  rcases hchanged with hnew | hdiffers
  · rw [hnew]
    rfl
  · rw [hdiffers, Bool.or_true]

theorem OnlyMetadataChanged.writes (h : w.OnlyMetadataChanged key r) :
    ∃ entity body, w.Writes key r entity body := by
  obtain ⟨entity, body, hconsiders, hbody, -, -, hdirty⟩ := h
  refine ⟨entity, body, hconsiders, hbody, ?_⟩
  unfold mustWrite
  rw [hdirty, Bool.or_true, Bool.true_or]

/-- An entity is written for its body or for its metadata alone. -/
theorem Writes.bodyChanged_or {entity : EntityRef} {body : Fields}
    (h : w.Writes key r entity body) : w.BodyChanged key r ∨ w.OnlyMetadataChanged key r := by
  have hmust := h.must
  unfold mustWrite at hmust
  simp only [Bool.or_eq_true] at hmust
  cases hnew : r.isNew with
  | true => exact Or.inl ⟨entity, body, h.toConsiders, h.written, Or.inl hnew⟩
  | false =>
    cases hdiffers : r.bodyDiffers body with
    | true => exact Or.inl ⟨entity, body, h.toConsiders, h.written, Or.inr hdiffers⟩
    | false =>
      rw [hnew, hdiffers] at hmust
      simp only [Bool.false_eq_true, false_or, or_false] at hmust
      exact Or.inr ⟨entity, body, h.toConsiders, h.written, hnew, hdiffers, hmust⟩

theorem BodyChanged.not_onlyMetadata {r' : Record} (h : w.BodyChanged key r) :
    ¬ w.OnlyMetadataChanged key r' := by
  obtain ⟨entity, body, hconsiders, hbody, hchanged⟩ := h
  rintro ⟨entity', body', hconsiders', hbody', hsaved, hsame, -⟩
  obtain ⟨rfl, rfl⟩ := hconsiders.unique hconsiders'
  obtain rfl := Except.ok.inj (hbody.symm.trans hbody')
  rcases hchanged with hnew | hdiffers
  · rw [hsaved] at hnew
    cases hnew
  · rw [hsame] at hdiffers
    cases hdiffers

theorem not_onlyMetadata_of_isToDelete (hdelete : w.work.isToDelete key = true) :
    ¬ w.OnlyMetadataChanged key r := by
  rintro ⟨_, _, hconsiders, -⟩
  rw [hconsiders.kept] at hdelete
  cases hdelete

theorem Considers.bodyChanged_iff {entity : EntityRef} {body : Fields} {r' : Record}
    (h : w.Considers key r entity) (hbody : w.bodyOf entity = .ok body) :
    w.BodyChanged key r' ↔ r' = r ∧ (r.isNew = true ∨ r.bodyDiffers body = true) := by
  constructor
  · rintro ⟨entity', body', hconsiders, hbody', hchanged⟩
    obtain ⟨rfl, rfl⟩ := h.unique hconsiders
    obtain rfl := Except.ok.inj (hbody.symm.trans hbody')
    exact ⟨rfl, hchanged⟩
  · rintro ⟨rfl, hchanged⟩
    exact ⟨entity, body, h, hbody, hchanged⟩

/-! ## `whatChanged` -/

/-- `changesOf` an entity is empty if and only if its document was saved and has the body last
known. -/
theorem changesOf_eq_ok {entity : EntityRef} {body : Fields} (hbody : w.bodyOf entity = .ok body) :
    ∃ changes, w.changesOf r entity = .ok changes
      ∧ (changes = [] ↔ ¬ (r.isNew = true ∨ r.bodyDiffers body = true)) := by
  unfold changesOf Record.bodyDiffers
  cases r.isNew with
  | true => exact ⟨_, rfl, by simp [wholeDocument]⟩
  | false =>
    rw [hbody]
    cases r.body with
    | none => exact ⟨_, rfl, by simp [wholeDocument]⟩
    | some old => exact ⟨_, rfl, by simp [Change.list_eq_nil_iff]⟩

theorem collectChanges_of_considers {entity : EntityRef} {changes : List Change}
    (h : w.Considers key r entity) (hchanges : w.changesOf r entity = .ok changes)
    (found : Dict (List Change)) (rest : List RecordKey) :
    w.collectChanges found (key :: rest)
      = w.collectChanges (if changes = [] then found else found.insert r.id changes) rest := by
  rw [collectChanges]
  simp only [h.kept, h.record, h.holds, h.watched, hchanges]
  cases changes <;> rfl

theorem collectChanges_of_not_considers (hdeferred : w.work.deferred = [])
    (h : ∀ r entity, ¬ w.Considers key r entity) (found : Dict (List Change))
    (rest : List RecordKey) :
    w.collectChanges found (key :: rest) = w.collectChanges found rest := by
  rw [collectChanges]
  split
  · next r hkept hr =>
    split
    · next entity hentity hwatched =>
      exact absurd ⟨hr, hkept, hentity, hwatched, hasDeferred_of_nil hdeferred r.id⟩ (h r entity)
    · rfl
  · rfl

/-- One step of `collectChanges` adds the document of the record if its body changed. -/
theorem collectChanges_step (hdeferred : w.work.deferred = [])
    (hwritable : ∀ r entity, w.Considers key r entity → ∃ body, w.bodyOf entity = .ok body)
    (found : Dict (List Change)) (rest : List RecordKey) :
    ∃ found' : Dict (List Change),
      w.collectChanges found (key :: rest) = w.collectChanges found' rest
        ∧ ∀ id, id ∈ found'.keys ↔ id ∈ found.keys ∨ ∃ r, w.BodyChanged key r ∧ r.id = id := by
  by_cases hconsidered : ∃ r entity, w.Considers key r entity
  · obtain ⟨r, entity, hconsiders⟩ := hconsidered
    obtain ⟨body, hbody⟩ := hwritable r entity hconsiders
    obtain ⟨changes, hchanges, hnil⟩ := changesOf_eq_ok (r := r) hbody
    refine ⟨_, collectChanges_of_considers hconsiders hchanges found rest, fun id => ?_⟩
    have hadded : (∃ r', w.BodyChanged key r' ∧ r'.id = id) ↔ changes ≠ [] ∧ r.id = id := by
      rw [ne_eq, hnil, not_not]
      simp only [hconsiders.bodyChanged_iff hbody, and_assoc, exists_eq_left]
    rw [hadded]
    split
    · next hempty => simp [hempty]
    · next hsome =>
      rw [Keyed.mem_keys_insert, or_comm, eq_comm (a := id)]
      simp [hsome]
  · refine ⟨found, collectChanges_of_not_considers hdeferred
      (fun r entity h => hconsidered ⟨r, entity, h⟩) found rest, fun id => ?_⟩
    have hnone : ¬ ∃ r, w.BodyChanged key r ∧ r.id = id := by
      rintro ⟨r, ⟨entity, -, hconsiders, -⟩, -⟩
      exact hconsidered ⟨r, entity, hconsiders⟩
    simp [hnone]

/-- `collectChanges` adds the documents whose bodies changed. -/
theorem collectChanges_eq_ok (hdeferred : w.work.deferred = [])
    (hwritable : ∀ key r entity, w.Considers key r entity → ∃ body, w.bodyOf entity = .ok body)
    (found : Dict (List Change)) (keys : List RecordKey) :
    ∃ changes, w.collectChanges found keys = .ok changes
      ∧ ∀ id, id ∈ changes.keys
          ↔ id ∈ found.keys ∨ ∃ key ∈ keys, ∃ r, w.BodyChanged key r ∧ r.id = id := by
  induction keys generalizing found with
  | nil => exact ⟨found, rfl, by simp⟩
  | cons key rest ih =>
    obtain ⟨found', hstep, hadded⟩ := collectChanges_step hdeferred (hwritable key) found rest
    obtain ⟨changes, hchanges, hkeys⟩ := ih found'
    refine ⟨changes, hstep.trans hchanges, fun id => ?_⟩
    rw [hkeys, hadded, or_assoc, List.exists_mem_cons_iff]

/-- `deletions` has the documents that are to be deleted. -/
theorem mem_keys_deletions_iff {id : String} :
    id ∈ w.deletions.keys
      ↔ ∃ key r, w.work.isToDelete key = true ∧ w.work.records.find? key = some r ∧ r.id = id := by
  rw [deletions, Keyed.mem_keys_foldl_iff
    (fun key id => ∃ r, w.work.records.find? key = some r ∧ r.id = id)]
  · simp [Keyed.keys, UnitOfWork.isToDelete, Keyed.contains_iff_mem_keys]
  · intro found key id
    cases hr : w.work.records.find? key with
    | none => simp
    | some r => simp [Keyed.mem_keys_insert, or_comm, eq_comm]

/-- Where no command is deferred and every entity can be written, `whatChanged` has the documents
that are to be deleted and those whose bodies changed. -/
theorem whatChanged_eq_ok (h : w.Consistent) (hdeferred : w.work.deferred = [])
    (hwritable : ∀ key r entity, w.Considers key r entity → ∃ body, w.bodyOf entity = .ok body) :
    ∃ changes, w.whatChanged = .ok changes
      ∧ ∀ id, id ∈ changes.keys
          ↔ ∃ key r, w.work.records.find? key = some r ∧ r.id = id
            ∧ (w.work.isToDelete key = true ∨ w.BodyChanged key r) := by
  obtain ⟨changes, hchanges, hkeys⟩ :=
    collectChanges_eq_ok hdeferred hwritable w.deletions w.work.registry.records
  refine ⟨changes, hchanges, fun id => ?_⟩
  rw [hkeys, mem_keys_deletions_iff]
  constructor
  · rintro (⟨key, r, hdelete, hr, hid⟩ | ⟨key, -, r, hchanged, hid⟩)
    · exact ⟨key, r, hr, hid, Or.inl hdelete⟩
    · obtain ⟨_, _, hwrites⟩ := hchanged.writes
      exact ⟨key, r, hwrites.record, hid, Or.inr hchanged⟩
  · rintro ⟨key, r, hr, hid, hdelete | hchanged⟩
    · exact Or.inl ⟨key, r, hdelete, hr, hid⟩
    · obtain ⟨_, _, hwrites⟩ := hchanged.writes
      exact Or.inr ⟨key, hwrites.toConsiders.mem_records h, r, hchanged, hid⟩

/-! ## The commands of records -/

namespace IsPlan

variable {plan puts : Plan} {due : List RecordKey} {planned : Planned}

/-- Where no command is deferred, every planned command is for a record. -/
theorem exists_record (hplan : w.IsPlan plan w' due puts) (hdeferred : w.work.deferred = [])
    (hmem : planned ∈ plan) :
    ∃ key r, planned.origin.record? = some key ∧ w.work.records.find? key = some r
      ∧ planned.command.id = r.id
      ∧ (w.work.isToDelete key = true ∨ ∃ entity body, w.Writes key r entity body) := by
  cases horigin : planned.origin with
  | put key body metadata =>
    obtain ⟨r, entity, hwrites, hid, -⟩ := hplan.put_of_origin hmem horigin
    exact ⟨key, r, rfl, hwrites.record, hid, Or.inr ⟨entity, body, hwrites⟩⟩
  | delete key =>
    obtain ⟨hdelete, r, hr, -, hid⟩ := hplan.delete_of_origin hmem horigin
    exact ⟨key, r, rfl, hr, hid, Or.inl hdelete⟩
  | deferred =>
    have hwaits := hplan.waited_of_origin hmem horigin
    rw [hdeferred] at hwaits
    cases hwaits

/-- Where no command is deferred, a record has a command if and only if it is to be deleted or its
entity is written. -/
theorem exists_command_iff (hplan : w.IsPlan plan w' due puts) (hdeferred : w.work.deferred = [])
    (hr : w.work.records.find? key = some r) :
    (∃ planned ∈ plan, planned.origin.record? = some key)
      ↔ w.work.isToDelete key = true ∨ ∃ entity body, w.Writes key r entity body := by
  constructor
  · rintro ⟨planned, hmem, horigin⟩
    obtain ⟨key', r', horigin', hr', -, hpending⟩ := hplan.exists_record hdeferred hmem
    obtain rfl := Option.some.inj (horigin.symm.trans horigin')
    obtain rfl := Option.some.inj (hr.symm.trans hr')
    exact hpending
  · rw [hplan.plan_eq]
    rintro (hdelete | ⟨entity, body, hwrites⟩)
    · have hplanned := plannedDelete_eq_some_iff.mpr ⟨r, hr, hasDeferred_of_nil hdeferred r.id, rfl⟩
      have hkey := Keyed.contains_iff_mem_keys.mp hdelete
      exact ⟨_, List.mem_append_left _ (List.mem_append_left _
        (List.mem_filterMap.mpr ⟨key, hkey, hplanned⟩)), rfl⟩
    · obtain ⟨planned, hmem, _, _, _, _, -, rfl⟩ :=
        hplan.exists_put (hplan.mem_due key r entity body hwrites)
      exact ⟨_, List.mem_append_left _ (List.mem_append_right _ hmem), rfl⟩

/-- `whatChanged` names the documents of the planned commands that are not for metadata alone. -/
theorem whatChanged_eq_ok (hplan : w.IsPlan plan w' due puts) (h : w.Consistent)
    (hdeferred : w.work.deferred = []) :
    ∃ changes, w.whatChanged = .ok changes
      ∧ ∀ id, id ∈ changes.keys
          ↔ ∃ planned ∈ plan, planned.command.id = id
            ∧ ∀ key r, planned.origin.record? = some key → ¬ w.OnlyMetadataChanged key r := by
  obtain ⟨changes, hchanges, hkeys⟩ :=
    Workspace.whatChanged_eq_ok h hdeferred hplan.writable
  refine ⟨changes, hchanges, fun id => (hkeys id).trans ⟨?_, ?_⟩⟩
  · rintro ⟨key, r, hr, rfl, hpending⟩
    obtain ⟨planned, hmem, horigin⟩ :=
      (hplan.exists_command_iff hdeferred hr).mpr (hpending.imp_right BodyChanged.writes)
    obtain ⟨key', r', horigin', hr', hid, -⟩ := hplan.exists_record hdeferred hmem
    obtain rfl := Option.some.inj (horigin.symm.trans horigin')
    obtain rfl := Option.some.inj (hr.symm.trans hr')
    refine ⟨planned, hmem, hid, fun key' r' horigin' => ?_⟩
    obtain rfl := Option.some.inj (horigin.symm.trans horigin')
    rcases hpending with hdelete | hchanged
    · exact not_onlyMetadata_of_isToDelete hdelete
    · exact hchanged.not_onlyMetadata
  · rintro ⟨planned, hmem, rfl, hother⟩
    obtain ⟨key, r, horigin, hr, hid, hpending⟩ := hplan.exists_record hdeferred hmem
    refine ⟨key, r, hr, hid.symm, hpending.imp_right ?_⟩
    rintro ⟨_, _, hwrites⟩
    exact hwrites.bodyChanged_or.resolve_right (hother key r horigin)

end IsPlan

/-! ## `hasChanged` -/

theorem hasChanged_eq {entity : EntityRef} (hr : w.recordOf entity = .ok (key, r)) :
    w.hasChanged entity
      = if w.work.isToDelete key = true then .ok true else w.entityChanged r := by
  unfold hasChanged
  rw [hr]
  rfl

/-- `hasChanged` of an instance whose changes are not ignored is `true` if and only if it is deleted
or written. -/
theorem hasChanged_of_watched (h : w.Consistent) (hdeferred : w.work.deferred = [])
    (hwritable : ∀ key r entity, w.Considers key r entity → ∃ body, w.bodyOf entity = .ok body)
    {entity : EntityRef} (hr : w.recordOf entity = .ok (key, r))
    (hwatched : r.ignoreChanges = false) :
    ∃ changed, w.hasChanged entity = .ok changed
      ∧ (changed = true
        ↔ w.work.isToDelete key = true ∨ ∃ entity body, w.Writes key r entity body) := by
  rw [hasChanged_eq hr]
  cases hdelete : w.work.isToDelete key with
  | true => exact ⟨true, rfl, by simp⟩
  | false =>
    obtain ⟨hfound, hentity⟩ := h.find?_of_recordOf hr
    have hconsiders : w.Considers key r entity :=
      ⟨hfound, hdelete, hentity, hwatched, hasDeferred_of_nil hdeferred r.id⟩
    obtain ⟨body, hbody⟩ := hwritable key r entity hconsiders
    refine ⟨w.mustWrite r body, entityChanged_eq_mustWrite hentity hbody, ?_⟩
    constructor
    · exact fun hmust => Or.inr ⟨entity, body, hconsiders, hbody, hmust⟩
    · rintro (hfalse | ⟨entity', body', hwrites⟩)
      · cases hfalse
      · obtain ⟨-, rfl⟩ := hconsiders.unique hwrites.toConsiders
        obtain rfl := Except.ok.inj (hbody.symm.trans hwrites.written)
        exact hwrites.must

/-- `hasChanged` of an instance whose changes are ignored is `true` if and only if it is deleted, or
`HasIgnoredChange`. -/
theorem hasChanged_of_ignored {entity : EntityRef} (hr : w.recordOf entity = .ok (key, r))
    (hignored : r.ignoreChanges = true) :
    w.hasChanged entity = .ok true
      ↔ w.work.isToDelete key = true ∨ w.HasIgnoredChange key r := by
  rw [hasChanged_eq hr]
  cases hdelete : w.work.isToDelete key with
  | true => simp
  | false =>
    have hiff : w.HasIgnoredChange key r ↔ w.entityChanged r = .ok true :=
      ⟨HasIgnoredChange.changed, fun hchanged => ⟨hdelete, hignored, hchanged⟩⟩
    simp [hiff]

end Workspace

namespace OpenSession

open Workspace

variable {s : OpenSession} {plan : Plan}

/-- Where no command is deferred, no callback is registered and the next save is planned,
`whatChanged` answers. It names the documents of exactly those planned commands that are not for
metadata alone. Where no tracked identifier is incomplete, it names the documents of all of them if
and only if no entity is written for its metadata alone. -/
theorem whatChanged_names_plan_iff (h : s.Reachable) (hquiet : s.session.callbacks = {})
    (hdeferred : s.session.work.deferred = [])
    (hplan : (s.workspace.planSave s.session.callbacks).1 = .ok plan) :
    ∃ changes, s.workspace.whatChanged = .ok changes
      ∧ (∀ id, id ∈ changes.keys
          ↔ ∃ planned ∈ plan, planned.command.id = id
            ∧ ∀ key r, planned.origin.record? = some key →
                ¬ s.workspace.OnlyMetadataChanged key r)
      ∧ ((∀ key r, s.session.work.records.find? key = some r →
            isIncomplete r.id s.session.work.conventions.separator = false) →
          ((∀ id, id ∈ changes.keys ↔ id ∈ plan.commands.map (·.id))
            ↔ ∀ key r, ¬ s.workspace.OnlyMetadataChanged key r)) := by
  have hconsistent := h.consistent.workspace
  rw [hquiet] at hplan
  obtain ⟨due, puts, hparts⟩ := planSave_eq_ok hconsistent (Prod.ext hplan rfl)
  obtain ⟨changes, hchanges, hnamed⟩ := hparts.whatChanged_eq_ok hconsistent hdeferred
  have hids : ∀ id, id ∈ plan.commands.map (·.id) ↔ ∃ planned ∈ plan, planned.command.id = id := by
    simp [Plan.commands]
  refine ⟨changes, hchanges, hnamed, fun hcomplete => ⟨fun hall key r honly => ?_, ?_⟩⟩
  · -- the document is listed for some record, which can only be this one
    obtain ⟨_, _, hwrites⟩ := honly.writes
    obtain ⟨planned, hmem, horigin⟩ :=
      (hparts.exists_command_iff hdeferred hwrites.record).mpr (Or.inr ⟨_, _, hwrites⟩)
    obtain ⟨planned', hmem', hid', hother⟩ :=
      (hnamed planned.command.id).mp ((hall _).mpr ((hids _).mpr ⟨planned, hmem, rfl⟩))
    obtain ⟨key₁, r₁, horigin₁, hr₁, hid₁, -⟩ := hparts.exists_record hdeferred hmem
    obtain ⟨key₂, r₂, horigin₂, hr₂, hid₂, -⟩ := hparts.exists_record hdeferred hmem'
    have hsame : r₁.id = r₂.id := by rw [← hid₁, ← hid₂, hid']
    obtain rfl := hconsistent.toCoherent.eq_of_complete_id hcomplete hr₁ hr₂ (by rw [hsame])
    obtain rfl := Option.some.inj (horigin.symm.trans horigin₁)
    exact hother key r horigin₂ honly
  · intro hnone id
    rw [hnamed, hids]
    exact exists_congr fun planned => and_congr_right fun _ =>
      and_iff_left fun key r _ => hnone key r

/-- `usersLoaded` with one of the documents to be deleted, the body of another and the metadata of
the last edited, and a new one stored. -/
def usersMixed : OpenSession :=
  ((((usersLoaded.perform (.outside
    (usersLoaded.shared.setEntity 3 { type := Shop.anything, state := .obj [("Name", .str "Cid")] })
    usersLoaded.connection usersLoaded.deliveries)).perform (.delete 2)).perform
      (.storeUnder 0 "users/9")).perform (.metadataOf 4)).afterUses [.set 0 "tier" (.str "gold")]

theorem usersMixed_reachable : usersMixed.Reachable := by
  have hloaded : usersLoaded.Reachable :=
    .step (.loadMany Shop.anything ["users/1", "users/2", "users/3"] []) (.opened 1 {} {} _ _ _)
      trivial
  have hedited := hloaded.step (.outside
    (usersLoaded.shared.setEntity 3 { type := Shop.anything, state := .obj [("Name", .str "Cid")] })
    usersLoaded.connection usersLoaded.deliveries)
    (Nat.le_of_eq (Shared.length_entities_setEntity ..).symm)
  have hstored := (hedited.step (.delete 2) trivial).step (.storeUnder 0 "users/9")
    (by show 0 < List.length _; decide)
  exact (hstored.step (.metadataOf 4) trivial).step (.outside _ _ _) (Nat.le_refl _)

/-- The third document is written for its metadata alone. -/
theorem usersMixed_onlyMetadata :
    usersMixed.workspace.OnlyMetadataChanged 2
      { id := "users/3", metadata := [("@id", .str "users/3")], dictionary := some 0,
        body := some [], entity := some 4 } :=
  ⟨4, [], ⟨rfl, rfl, rfl, rfl, rfl⟩, rfl, rfl, rfl, rfl⟩

/-- All four documents are to be saved. -/
theorem commands_usersMixed :
    (usersMixed.workspace.planSave {}).1.toOption.map
        (fun plan => plan.map fun planned => (planned.command.id, planned.origin.record?))
      = some [("users/1", some 0), ("users/2", some 1), ("users/3", some 2),
          ("users/9", some 3)] := by
  decide +kernel

theorem usersMixed_complete (key : RecordKey) (r : Record)
    (hr : usersMixed.session.work.records.find? key = some r) :
    isIncomplete r.id usersMixed.session.work.conventions.separator = false := by
  have hentries : ∀ entry ∈ usersMixed.session.work.records,
      isIncomplete entry.2.id usersMixed.session.work.conventions.separator = false := by
    decide +kernel
  exact hentries (key, r) (Keyed.mem_of_find? hr)

/-- Of the four documents of the next save, `whatChanged` names all but the third. -/
theorem whatChanged_names_plan_iff_mixed :
    ∃ plan changes, (usersMixed.workspace.planSave usersMixed.session.callbacks).1 = .ok plan
      ∧ plan.commands.map (·.id) = ["users/1", "users/2", "users/3", "users/9"]
      ∧ usersMixed.workspace.whatChanged = .ok changes
      ∧ "users/3" ∉ changes.keys
      ∧ ¬ ∀ id, id ∈ changes.keys ↔ id ∈ plan.commands.map (·.id) := by
  have hcallbacks : usersMixed.session.callbacks = {} := usersLoaded_callbacks
  obtain ⟨plan, hplan, hcommands⟩ := Option.map_eq_some_iff.mp commands_usersMixed
  replace hplan := Except.eq_ok_of_toOption hplan
  rw [← hcallbacks] at hplan
  obtain ⟨changes, hchanges, hnamed, hall⟩ :=
    whatChanged_names_plan_iff usersMixed_reachable hcallbacks rfl hplan
  have hids : plan.commands.map (·.id) = ["users/1", "users/2", "users/3", "users/9"] := by
    have hfirst := congrArg (List.map Prod.fst) hcommands
    rw [List.map_map] at hfirst
    rw [Plan.commands, List.map_map]
    exact hfirst
  refine ⟨plan, changes, hplan, hids, hchanges, fun hthird => ?_, fun hnames => ?_⟩
  · obtain ⟨planned, hmem, hid, hother⟩ := (hnamed "users/3").mp hthird
    have hpair : (planned.command.id, planned.origin.record?) ∈ plan.map fun planned =>
        (planned.command.id, planned.origin.record?) := List.mem_map.mpr ⟨planned, hmem, rfl⟩
    rw [hcommands, hid] at hpair
    have horigin : planned.origin.record? = some 2 := by simpa using hpair
    exact hother 2 _ horigin usersMixed_onlyMetadata
  · exact (hall usersMixed_complete).mp hnames 2 _ usersMixed_onlyMetadata

/-- A document whose `tier` alone was set is written by the next save, and not listed. -/
theorem metadata_change_not_listed :
    let edited := goldAsked.afterUses [.set 0 "tier" (.str "silver")]
    edited.Reachable ∧ edited.session.callbacks = {} ∧ edited.session.work.deferred = []
      ∧ (∀ entry ∈ edited.session.work.records,
          isIncomplete entry.2.id edited.session.work.conventions.separator = false)
      ∧ edited.workspace.whatChanged = .ok []
      ∧ ∃ plan, (edited.workspace.planSave edited.session.callbacks).1 = .ok plan
        ∧ plan.commands.map (·.id) = ["users/1"] := by
  intro edited
  have hcallbacks : edited.session.callbacks = {} := goldLoaded_callbacks
  refine ⟨(goldAsked_orderly.afterUses _).reachable, hcallbacks, rfl, by decide, rfl, ?_⟩
  have hids : (edited.workspace.planSave {}).1.toOption.map (fun plan => plan.commands.map (·.id))
      = some ["users/1"] := by
    decide +kernel
  obtain ⟨plan, hplan, hplanned⟩ := Option.map_eq_some_iff.mp hids
  rw [hcallbacks]
  exact ⟨plan, Except.eq_ok_of_toOption hplan, hplanned⟩

/-- Where no command is deferred, no callback is registered and the next save is planned,
`hasChanged` of a tracked instance whose changes are not ignored is `true` if and only if a planned
command is for its record. For any instance that is so if and only if it has no ignored change: with
such a change the answer is `true`, and no command is for it. -/
theorem hasChanged_tells_plan_iff (h : s.Reachable) (hquiet : s.session.callbacks = {})
    (hdeferred : s.session.work.deferred = [])
    (hplan : (s.workspace.planSave s.session.callbacks).1 = .ok plan)
    {entity : EntityRef} {key : RecordKey} {r : Record}
    (hr : s.workspace.recordOf entity = .ok (key, r)) :
    (r.ignoreChanges = false →
        s.workspace.hasChanged entity
          = .ok (plan.any (fun planned => planned.origin.record? = some key)))
      ∧ ((s.workspace.hasChanged entity = .ok true
            ↔ ∃ planned ∈ plan, planned.origin.record? = some key)
          ↔ ¬ s.workspace.HasIgnoredChange key r) := by
  have hconsistent := h.consistent.workspace
  rw [hquiet] at hplan
  obtain ⟨due, puts, hparts⟩ := planSave_eq_ok hconsistent (Prod.ext hplan rfl)
  obtain ⟨hfound, hentity⟩ := hconsistent.find?_of_recordOf hr
  have hcommand := hparts.exists_command_iff hdeferred hfound
  constructor
  · intro hwatched
    obtain ⟨changed, hchanged, hiff⟩ :=
      hasChanged_of_watched hconsistent hdeferred hparts.writable hr hwatched
    rw [hchanged, Except.ok.injEq, Bool.eq_iff_iff, hiff, ← hcommand]
    simp
  · cases hignored : r.ignoreChanges with
    | false =>
      have hnone : ¬ s.workspace.HasIgnoredChange key r := by
        intro hchange
        rw [hchange.ignored] at hignored
        cases hignored
      obtain ⟨changed, hchanged, hiff⟩ :=
        hasChanged_of_watched hconsistent hdeferred hparts.writable hr hignored
      rw [hchanged, Except.ok.injEq, hiff, hcommand]
      exact iff_of_true Iff.rfl hnone
    | true =>
      have hunwritten : ¬ ∃ entity body, s.workspace.Writes key r entity body := by
        rintro ⟨_, _, hwrites⟩
        rw [hwrites.watched] at hignored
        cases hignored
      rw [hasChanged_of_ignored hr hignored, hcommand, or_iff_left hunwritten, or_iff_left_iff_imp]
      -- such a change is one of an entity that is not to be deleted
      have hkept : s.workspace.HasIgnoredChange key r →
          ¬ s.workspace.work.isToDelete key = true := by
        intro hchange hdelete
        rw [hchange.kept] at hdelete
        cases hdelete
      exact ⟨fun himp hchange => hkept hchange (himp hchange),
        fun hnone hchange => absurd hchange hnone⟩

theorem usersIgnored_callbacks : usersIgnored.session.callbacks = {} :=
  usersLoaded_callbacks

/-- The one document of the three whose changes are not ignored is the only one to be saved. -/
theorem records_usersIgnored :
    (usersIgnored.workspace.planSave {}).1.toOption.map (List.map (·.origin.record?))
      = some [some 0] := by
  decide +kernel

/-- The first of the three documents has changed, and a command is for it. Of the second that does
not hold. -/
theorem hasChanged_tells_plan_iff_ignored :
    usersIgnored.workspace.hasChanged 2 = .ok true
      ∧ ∃ plan, (usersIgnored.workspace.planSave usersIgnored.session.callbacks).1 = .ok plan
        ∧ (∃ planned ∈ plan, planned.origin.record? = some 0)
        ∧ ¬ (usersIgnored.workspace.hasChanged 3 = .ok true
          ↔ ∃ planned ∈ plan, planned.origin.record? = some 1) := by
  have hrecords := records_usersIgnored
  rw [← usersIgnored_callbacks] at hrecords
  obtain ⟨plan, hplan, hrecords⟩ := Option.map_eq_some_iff.mp hrecords
  replace hplan := Except.eq_ok_of_toOption hplan
  have hfirst : usersIgnored.workspace.recordOf 2 = .ok (0,
      { id := "users/1", metadata := [("@id", .str "users/1")], body := some [],
        entity := some 2 }) :=
    rfl
  have hsecond : usersIgnored.workspace.recordOf 3 = .ok (1,
      { id := "users/2", metadata := [("@id", .str "users/2")], body := some [],
        entity := some 3, ignoreChanges := true }) :=
    rfl
  have hcounts := hasChanged_tells_plan_iff usersIgnored_reachable usersIgnored_callbacks
    rfl hplan hfirst
  have hleft := hasChanged_tells_plan_iff usersIgnored_reachable usersIgnored_callbacks
    rfl hplan hsecond
  have hcommand : ∃ planned ∈ plan, planned.origin.record? = some 0 := by
    have hmem : some 0 ∈ plan.map (·.origin.record?) := by
      rw [hrecords]
      exact List.mem_singleton_self _
    exact List.mem_map.mp hmem
  have hchanged : usersIgnored.workspace.hasChanged 2 = .ok true := by
    rw [hcounts.1 rfl]
    exact congrArg Except.ok (List.any_eq_true.mpr
      (hcommand.imp fun planned h => ⟨h.1, decide_eq_true h.2⟩))
  have hignored : usersIgnored.workspace.HasIgnoredChange 1
      { id := "users/2", metadata := [("@id", .str "users/2")], body := some [],
        entity := some 3, ignoreChanges := true } :=
    ⟨rfl, rfl, rfl⟩
  exact ⟨hchanged, plan, hplan, hcommand, fun htells => hleft.2.mp htells hignored⟩

/-- An edited document whose changes are ignored counts as changed, and the next save has no command
for it. -/
theorem ignored_change_told :
    usersIgnored.Reachable ∧ usersIgnored.session.callbacks = {}
      ∧ usersIgnored.session.work.deferred = []
      ∧ usersIgnored.workspace.hasChanged 3 = .ok true
      ∧ ((usersIgnored.workspace.recordOf 3).map (·.1)).toOption = some 1
      ∧ ∃ plan, (usersIgnored.workspace.planSave usersIgnored.session.callbacks).1 = .ok plan
        ∧ ∀ planned ∈ plan, planned.origin.record? ≠ some 1 := by
  refine ⟨usersIgnored_reachable, usersIgnored_callbacks, rfl, rfl, rfl, ?_⟩
  have hrecords := records_usersIgnored
  rw [← usersIgnored_callbacks] at hrecords
  obtain ⟨plan, hplan, hrecords⟩ := Option.map_eq_some_iff.mp hrecords
  refine ⟨plan, Except.eq_ok_of_toOption hplan, fun planned hmem horigin => ?_⟩
  have hmem' : planned.origin.record? ∈ plan.map (·.origin.record?) :=
    List.mem_map.mpr ⟨planned, hmem, rfl⟩
  rw [hrecords, horigin] at hmem'
  simp at hmem'

end OpenSession

end DocumentSession
