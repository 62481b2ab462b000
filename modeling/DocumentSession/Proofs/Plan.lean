import DocumentSession.Proofs.Consistent.Save
import DocumentSession.Proofs.Forest
import Mathlib.Data.List.Forall2

set_option autoImplicit false

/-! # Plans without callbacks

Without callbacks `planSave` depends on the workspace alone: it plans a DELETE for each record in
`deleted`, a PUT for each record whose entity has to be written, and the deferred commands
(`Workspace.planSave_eq_ok`). It leaves out the documents for which a command is deferred. It opens
the dictionaries of the records that it writes and changes nothing else (`Opened`).

A record is pending (`IsPending`) if it would be deleted or written, were it not for a deferred
command for its document. The plan is empty if and only if no record is pending and no command is
deferred (`planSave_eq_nil_iff`). -/

namespace DocumentSession

/-! ## Opening dictionaries -/

theorem Record.isMetadataDirty_openDictionary (r : Record) (forest : Metadata.Forest) :
    (r.openDictionary forest).2.1.isMetadataDirty (r.openDictionary forest).2.2
      = r.isMetadataDirty forest := by
  unfold openDictionary
  cases hd : r.dictionary with
  | some n => rfl
  | none =>
    unfold isMetadataDirty
    rw [hd]
    exact forest.isDirty_created r.metadata

/-- The record that a planned command comes from; a deferred command has none. -/
def Origin.record? : Origin → Option RecordKey
  | .put key _ _ => some key
  | .delete key => some key
  | .deferred => none

namespace Workspace

variable {w w' w'' : Workspace}

/-- `w'` is `w` in which some records have opened their dictionaries. -/
structure Opened (w w' : Workspace) : Prop where
  work : w'.work = { w.work with records := w'.work.records }
  record : ∀ key r, w.work.records.find? key = some r → ∃ dictionary,
    w'.work.records.find? key = some { r with dictionary }
      ∧ Record.isMetadataDirty { r with dictionary } w'.shared.dictionaries
          = r.isMetadataDirty w.shared.dictionaries
  absent : ∀ key, w.work.records.find? key = none → w'.work.records.find? key = none
  entities : w'.shared.entities = w.shared.entities

theorem Opened.refl (w : Workspace) : w.Opened w :=
  ⟨rfl, fun _ r hr => ⟨r.dictionary, hr, rfl⟩, fun _ hnone => hnone, rfl⟩

theorem Opened.trans (h : w.Opened w') (h' : w'.Opened w'') : w.Opened w'' := by
  refine ⟨?_, ?_, ?_, h'.entities.trans h.entities⟩
  · rw [h'.work, h.work]
  · intro key r hr
    obtain ⟨d, hr', hdirty⟩ := h.record key r hr
    obtain ⟨d', hr'', hdirty'⟩ := h'.record key _ hr'
    exact ⟨d', hr'', hdirty'.trans hdirty⟩
  · intro key hnone
    exact h'.absent key (h.absent key hnone)

/-- Every record of `w'` is one of `w`, up to its dictionary. -/
theorem Opened.record_before (h : w.Opened w') {key : RecordKey} {r' : Record}
    (hr' : w'.work.records.find? key = some r') :
    ∃ r, w.work.records.find? key = some r ∧ r' = { r with dictionary := r'.dictionary }
      ∧ r'.isMetadataDirty w'.shared.dictionaries
          = r.isMetadataDirty w.shared.dictionaries := by
  cases hr : w.work.records.find? key with
  | none =>
    rw [h.absent key hr] at hr'
    cases hr'
  | some r =>
    obtain ⟨d, hopened, hdirty⟩ := h.record key r hr
    rw [hopened] at hr'
    obtain rfl := Option.some.inj hr'
    exact ⟨r, rfl, rfl, hdirty⟩

theorem opened_openDictionary {key : RecordKey} {r : Record}
    (hr : w.work.records.find? key = some r) : w.Opened (w.openDictionary key r).2 := by
  have hrecord : (r.openDictionary w.shared.dictionaries).2.1
      = { r with dictionary := some (r.openDictionary w.shared.dictionaries).1 } :=
    r.openDictionary_record w.shared.dictionaries
  have hdirty : ∀ n, (r.openDictionary w.shared.dictionaries).2.2.isDirty n
      = w.shared.dictionaries.isDirty n := by
    intro n
    unfold Record.openDictionary
    split
    · rfl
    · exact w.shared.dictionaries.isDirty_create r.metadata n
  have hother : ∀ k, key ≠ k →
      (w.openDictionary key r).2.work.records.find? k = w.work.records.find? k := by
    intro k hk
    exact Keyed.find?_modify_of_ne _ hk (fun _ => (r.openDictionary w.shared.dictionaries).2.1)
  refine ⟨rfl, ?_, ?_, rfl⟩
  · intro k r' hr'
    by_cases hk : key = k
    · subst hk
      rw [hr] at hr'
      obtain rfl := Option.some.inj hr'
      refine ⟨some (r.openDictionary w.shared.dictionaries).1, ?_, ?_⟩
      · rw [← hrecord]
        exact Keyed.find?_modify_self hr (fun _ => (r.openDictionary w.shared.dictionaries).2.1)
      · rw [← hrecord]
        exact r.isMetadataDirty_openDictionary w.shared.dictionaries
    · refine ⟨r'.dictionary, (hother k hk).trans hr', ?_⟩
      show r'.dictionary.any _ = r'.dictionary.any _
      cases r'.dictionary with
      | none => rfl
      | some n => exact hdirty n
  · intro k hnone
    have hk : key ≠ k := by
      rintro rfl
      rw [hr] at hnone
      cases hnone
    exact (hother k hk).trans hnone

/-! ## Records that are written -/

/-- `planned` is the PUT of the entity of the record `key`. -/
def IsPutOf (w : Workspace) (key : RecordKey) (planned : Planned) : Prop :=
  ∃ r entity body metadata, w.Writes key r entity body
    ∧ planned =
      { command :=
          { id := r.id, action := .put (Keyed.insert body Metadata.key (.obj metadata))
            changeVector := versionToPut w.work.conventions r }
        origin := .put key body metadata }

theorem Opened.conventions_eq (h : w.Opened w') : w'.work.conventions = w.work.conventions := by
  rw [h.work]

theorem Opened.entity_eq (h : w.Opened w') (entity : EntityRef) :
    w'.shared.entity entity = w.shared.entity entity := by
  unfold Shared.entity
  rw [h.entities]

theorem Opened.bodyOf_eq (h : w.Opened w') (entity : EntityRef) :
    w'.bodyOf entity = w.bodyOf entity := by
  unfold bodyOf
  rw [h.entity_eq, h.conventions_eq]

theorem Opened.isToDelete_eq (h : w.Opened w') (key : RecordKey) :
    w'.work.isToDelete key = w.work.isToDelete key := by
  rw [h.work]
  rfl

theorem Opened.hasDeferred_eq (h : w.Opened w') (id : String) :
    w'.work.hasDeferred id = w.work.hasDeferred id := by
  rw [h.work]
  rfl

theorem Opened.considers (h : w.Opened w') {key : RecordKey} {r : Record} {entity : EntityRef}
    (hconsiders : w.Considers key r entity) :
    ∃ dictionary, w'.Considers key { r with dictionary } entity := by
  obtain ⟨d, hr', -⟩ := h.record key r hconsiders.record
  refine ⟨d, hr', ?_, hconsiders.holds, hconsiders.watched, ?_⟩
  · rw [h.isToDelete_eq]
    exact hconsiders.kept
  · rw [h.hasDeferred_eq]
    exact hconsiders.free

theorem Opened.writes (h : w.Opened w') {key : RecordKey} {r' : Record} {entity : EntityRef}
    {body : Fields} (hwrites : w'.Writes key r' entity body) :
    ∃ r, r' = { r with dictionary := r'.dictionary } ∧ w.Writes key r entity body := by
  obtain ⟨r, hr, heq, hdirty⟩ := h.record_before hwrites.record
  have hkept := hwrites.kept
  have hholds := hwrites.holds
  have hwatched := hwrites.watched
  have hfree := hwrites.free
  have hbody := hwrites.written
  have hmust := hwrites.must
  unfold mustWrite at hmust
  rw [hdirty] at hmust
  rw [heq] at hholds hwatched hfree hmust
  rw [h.isToDelete_eq] at hkept
  rw [h.hasDeferred_eq] at hfree
  rw [h.bodyOf_eq] at hbody
  exact ⟨r, heq, ⟨hr, hkept, hholds, hwatched, hfree⟩, hbody, hmust⟩

theorem Opened.writes_after (h : w.Opened w') {key : RecordKey} {r : Record} {entity : EntityRef}
    {body : Fields} (hwrites : w.Writes key r entity body) :
    ∃ r', w'.Writes key r' entity body := by
  obtain ⟨d, hr', hdirty⟩ := h.record key r hwrites.record
  obtain ⟨d', hconsiders⟩ := h.considers hwrites.toConsiders
  have heq := hconsiders.record
  rw [hr'] at heq
  rw [← Option.some.inj heq] at hconsiders
  have hbody := hwrites.written
  have hmust := hwrites.must
  unfold mustWrite at hmust
  rw [← hdirty] at hmust
  rw [← h.bodyOf_eq] at hbody
  exact ⟨_, hconsiders, hbody, hmust⟩

theorem Opened.isPutOf (h : w.Opened w') {key : RecordKey} {planned : Planned}
    (hput : w'.IsPutOf key planned) : w.IsPutOf key planned := by
  obtain ⟨r', entity, body, metadata, hwrites, rfl⟩ := hput
  obtain ⟨r, heq, hbefore⟩ := h.writes hwrites
  refine ⟨r, entity, body, metadata, hbefore, ?_⟩
  rw [heq, h.work]
  rfl

/-! ## The plan -/

theorem hasDeferred_of_mem {command : Command} {id : String} (hmem : command ∈ w.work.deferred)
    (hid : Identifier.normalize command.id = Identifier.normalize id) :
    w.work.hasDeferred id = true := by
  unfold UnitOfWork.hasDeferred
  rw [List.any_eq_true]
  exact ⟨command, hmem, by simpa using hid⟩

theorem hasDeferred_of_nil (hdeferred : w.work.deferred = []) (id : String) :
    w.work.hasDeferred id = false := by
  unfold UnitOfWork.hasDeferred
  rw [hdeferred]
  rfl

theorem planDeletes_eq (w : Workspace) (keys : List RecordKey) :
    w.planDeletes {} keys = (.ok (keys.filterMap w.plannedDelete), w) := by
  induction keys with
  | nil => rfl
  | cons key rest ih =>
    rw [planDeletes, List.filterMap_cons]
    unfold plannedDelete
    cases w.work.records.find? key with
    | none => exact ih
    | some r =>
      dsimp only
      split
      · exact ih
      · simp only [Callbacks.callEach, ih]
        rfl

theorem planDeferred_eq (w : Workspace) (commands : List Command) :
    w.planDeferred {} commands = (.ok (commands.map plannedDeferred), w) := by
  induction commands with
  | nil => rfl
  | cons command rest ih =>
    have hasked : (if command.kind = .delete then
        Callbacks.callEach command.id ({} : Callbacks).beforeDelete w.shared
        else (.ok (), w.shared)) = (.ok (), w.shared) := by
      split <;> rfl
    rw [planDeferred]
    simp only [hasked, ih]
    rfl

/-- Without callbacks a PUT has the body of the entity and the merged metadata that `w` shows. -/
theorem planPut_spec {key : RecordKey} {r : Record} {entity : EntityRef} {body : Fields}
    {planned : Planned} (h : w.Writes key r entity body)
    (hput : w.planPut {} key r entity = (.ok planned, w')) :
    w.Opened w' ∧ w.IsPutOf key planned := by
  have hopened := opened_openDictionary h.record
  obtain ⟨shared, body', metadata, htold, hafter, hbody, -, rfl⟩ := planPut_eq_ok hput
  -- nothing was called
  obtain rfl := (Prod.mk.inj htold).2
  have hopened' : w.Opened w' := hafter ▸ hopened
  rw [hopened'.bodyOf_eq entity, h.written] at hbody
  obtain rfl := Except.ok.inj hbody
  exact ⟨hopened', r, entity, body, metadata, h, rfl⟩

/-- Without callbacks `planEntity` plans nothing for an entity that need not be written, and
otherwise its PUT. -/
theorem planEntity_spec {key : RecordKey} {planned : Option Planned}
    (hplan : w.planEntity {} key = (.ok planned, w')) :
    w.Opened w'
      ∧ (∀ r entity, w.Considers key r entity → ∃ body, w.bodyOf entity = .ok body)
      ∧ ((planned = none ∧ ∀ r entity body, ¬ w.Writes key r entity body)
        ∨ ∃ p, planned = some p ∧ w.IsPutOf key p) := by
  rcases planEntity_eq_ok hplan with ⟨rfl, rfl, hkept⟩ | ⟨r, entity, body, p, hwrites, hput, rfl⟩
  · refine ⟨.refl _, ?_, Or.inl ⟨rfl, ?_⟩⟩
    · intro r entity hconsiders
      obtain ⟨body, hbody, -⟩ := hkept r entity hconsiders
      exact ⟨body, hbody⟩
    · intro r entity body hwrites
      obtain ⟨body', hbody, hmust⟩ := hkept r entity hwrites.toConsiders
      rw [hwrites.written] at hbody
      obtain rfl := Except.ok.inj hbody
      rw [hwrites.must] at hmust
      cases hmust
  · obtain ⟨hopened, hof⟩ := planPut_spec hwrites hput
    refine ⟨hopened, ?_, Or.inr ⟨p, rfl, hof⟩⟩
    intro r' entity' h'
    rw [(hwrites.toConsiders.unique h').2]
    exact ⟨body, hwrites.written⟩

/-- Without callbacks `planPuts` plans one PUT for each entity that has to be written, in the order
of `keys`. -/
theorem planPuts_spec {keys : List RecordKey} {plan : Plan}
    (hplan : w.planPuts {} keys = (.ok plan, w')) :
    w.Opened w'
      ∧ (∀ key ∈ keys, ∀ r entity, w.Considers key r entity → ∃ body, w.bodyOf entity = .ok body)
      ∧ ∃ due : List RecordKey, due.Sublist keys
        ∧ (∀ key ∈ keys, ∀ r entity body, w.Writes key r entity body → key ∈ due)
        ∧ List.Forall₂ w.IsPutOf due plan := by
  induction keys generalizing w plan with
  | nil =>
    obtain ⟨hplans, rfl⟩ := Prod.mk.inj hplan
    obtain rfl := Except.ok.inj hplans
    exact ⟨.refl w, by simp, [], .refl _, by simp, .nil⟩
  | cons key rest ih =>
    obtain ⟨planned, w₁, plans, hfirst, hrest, rfl⟩ := planPuts_cons_eq_ok hplan
    obtain ⟨hopened, hwritable, hcases⟩ := planEntity_spec hfirst
    obtain ⟨hopened', hwritable', due, hsublist, hdue, hputs⟩ := ih hrest
    -- the others are planned once the first record has opened its dictionary, which changes
    -- nothing of what they come to
    have hputs₁ : List.Forall₂ w.IsPutOf due plans :=
      hputs.imp fun _ _ hput => hopened.isPutOf hput
    have hwritable₁ : ∀ k ∈ key :: rest, ∀ r entity, w.Considers k r entity →
        ∃ body, w.bodyOf entity = .ok body := by
      intro k hk r entity hconsiders
      rcases List.mem_cons.mp hk with rfl | hk
      · exact hwritable r entity hconsiders
      · obtain ⟨d, hconsiders'⟩ := hopened.considers hconsiders
        obtain ⟨body, hbody⟩ := hwritable' k hk _ entity hconsiders'
        exact ⟨body, (hopened.bodyOf_eq entity).symm.trans hbody⟩
    have hdue₁ : ∀ k ∈ rest, ∀ r entity body, w.Writes k r entity body → k ∈ due := by
      intro k hk r entity body hwrites
      obtain ⟨r', hwrites'⟩ := hopened.writes_after hwrites
      exact hdue k hk r' entity body hwrites'
    refine ⟨hopened.trans hopened', hwritable₁, ?_⟩
    rcases hcases with ⟨rfl, hidle⟩ | ⟨p, rfl, hput⟩
    · refine ⟨due, hsublist.cons key, ?_, hputs₁⟩
      intro k hk r entity body hwrites
      rcases List.mem_cons.mp hk with rfl | hk
      · exact (hidle r entity body hwrites).elim
      · exact hdue₁ k hk r entity body hwrites
    · refine ⟨key :: due, hsublist.cons_cons key, ?_, .cons hput hputs₁⟩
      intro k hk r entity body hwrites
      rcases List.mem_cons.mp hk with rfl | hk
      · exact List.mem_cons_self ..
      · exact List.mem_cons_of_mem _ (hdue₁ k hk r entity body hwrites)

/-- `plan` consists of the DELETEs of `w`, the `puts` for the records in `due`, and the deferred
commands. -/
structure IsPlan (w : Workspace) (plan : Plan) (w' : Workspace) (due : List RecordKey)
    (puts : Plan) : Prop where
  plan_eq : plan = w.work.deleted.keys.filterMap w.plannedDelete ++ puts
    ++ w.work.deferred.map plannedDeferred
  opened : w.Opened w'
  writable : ∀ key r entity, w.Considers key r entity → ∃ body, w.bodyOf entity = .ok body
  due_sublist : due.Sublist w.work.registry.records
  mem_due : ∀ key r entity body, w.Writes key r entity body → key ∈ due
  isPutOf : List.Forall₂ w.IsPutOf due puts

/-- A record that `planEntity` considers is one of the registry. -/
theorem Considers.mem_records (h : w.Consistent) {key : RecordKey} {r : Record}
    {entity : EntityRef} (hconsiders : w.Considers key r entity) :
    key ∈ w.work.registry.records :=
  (Registry.mem_records h.registry_sorted).mpr
    ⟨entity, (h.held entity key).mpr ⟨r, hconsiders.record, hconsiders.holds⟩⟩

/-- Without callbacks a plan that succeeds has the parts that `IsPlan` lists. -/
theorem planSave_eq_ok (h : w.Consistent) {plan : Plan}
    (hplan : w.planSave {} = (.ok plan, w')) : ∃ due puts, w.IsPlan plan w' due puts := by
  obtain ⟨deletes, w₁, puts, w₂, deferred, hdeletes, hputs, hdeferred, rfl⟩ :=
    planSave_eq_append hplan
  rw [planDeletes_eq] at hdeletes
  rw [planDeferred_eq] at hdeferred
  obtain ⟨⟨⟩, rfl⟩ := Prod.mk.inj hdeletes
  obtain ⟨⟨⟩, rfl⟩ := Prod.mk.inj hdeferred
  obtain ⟨hopened, hwritable, due, hsublist, hdue, hputs⟩ := planPuts_spec hputs
  refine ⟨due, puts, ⟨?_, hopened, ?_, hsublist, ?_, hputs⟩⟩
  · rw [hopened.work]
  · intro key r entity hconsiders
    exact hwritable key (hconsiders.mem_records h) r entity hconsiders
  · intro key r entity body hwrites
    exact hdue key (hwrites.toConsiders.mem_records h) r entity body hwrites

/-! ## The origins of a plan -/

/-- No record comes twice in `registry.records`, for an entity has one record. -/
theorem Consistent.nodup_records (h : w.Consistent) : w.work.registry.records.Nodup := by
  refine Registry.nodup_records h.registry_sorted ?_
  intro entity entity' key hkey hkey'
  obtain ⟨r, hr, he⟩ := (h.held entity key).mp hkey
  obtain ⟨r', hr', he'⟩ := (h.held entity' key).mp hkey'
  rw [hr] at hr'
  obtain rfl := Option.some.inj hr'
  exact Option.some.inj (he.symm.trans he')

namespace IsPlan

variable {plan puts : Plan} {due : List RecordKey} {planned : Planned}

theorem exists_put (hplan : w.IsPlan plan w' due puts) {key : RecordKey} (hkey : key ∈ due) :
    ∃ planned ∈ puts, w.IsPutOf key planned := by
  obtain ⟨i, hi, rfl⟩ := List.getElem_of_mem hkey
  have hi' : i < puts.length := hplan.isPutOf.length_eq ▸ hi
  exact ⟨puts[i], List.getElem_mem hi', hplan.isPutOf.get hi hi'⟩

theorem exists_due (hplan : w.IsPlan plan w' due puts) (hput : planned ∈ puts) :
    ∃ key ∈ due, w.IsPutOf key planned := by
  obtain ⟨i, hi, rfl⟩ := List.getElem_of_mem hput
  have hi' : i < due.length := hplan.isPutOf.length_eq ▸ hi
  exact ⟨due[i], List.getElem_mem hi', hplan.isPutOf.get hi' hi⟩

/-- A planned command is the DELETE of a record in `deleted`, the PUT of a record in `due`, or a
deferred command. -/
theorem cases_of_mem (hplan : w.IsPlan plan w' due puts) (hmem : planned ∈ plan) :
    (∃ key, w.work.isToDelete key = true ∧ w.plannedDelete key = some planned)
      ∨ (∃ key ∈ due, w.IsPutOf key planned)
      ∨ (planned.command ∈ w.work.deferred ∧ planned.origin = .deferred) := by
  rw [hplan.plan_eq, List.mem_append, List.mem_append, List.mem_filterMap, List.mem_map] at hmem
  rcases hmem with (⟨key, hkey, hdelete⟩ | hput) | ⟨command, hcommand, rfl⟩
  · exact Or.inl ⟨key, Keyed.contains_iff_mem_keys.mpr hkey, hdelete⟩
  · exact Or.inr (Or.inl (hplan.exists_due hput))
  · exact Or.inr (Or.inr ⟨hcommand, rfl⟩)

theorem delete_of_origin (hplan : w.IsPlan plan w' due puts) (hmem : planned ∈ plan)
    {key : RecordKey} (horigin : planned.origin = .delete key) :
    w.work.isToDelete key = true
      ∧ ∃ r, w.work.records.find? key = some r ∧ w.work.hasDeferred r.id = false
        ∧ planned.command.id = r.id := by
  rcases hplan.cases_of_mem hmem with ⟨k, hk, hdelete⟩ | ⟨k, -, hput⟩ | ⟨-, hdeferred⟩
  · obtain ⟨r, hr, hfree, rfl⟩ := plannedDelete_eq_some_iff.mp hdelete
    obtain rfl := Origin.delete.inj horigin
    exact ⟨hk, r, hr, hfree, rfl⟩
  · obtain ⟨r, entity, body, metadata, -, rfl⟩ := hput
    cases horigin
  · rw [hdeferred] at horigin
    cases horigin

theorem put_of_origin (hplan : w.IsPlan plan w' due puts) (hmem : planned ∈ plan)
    {key : RecordKey} {body metadata : Fields} (horigin : planned.origin = .put key body metadata) :
    ∃ r entity, w.Writes key r entity body ∧ planned.command.id = r.id
      ∧ planned.command.action = .put (Keyed.insert body Metadata.key (.obj metadata)) := by
  rcases hplan.cases_of_mem hmem with ⟨k, -, hdelete⟩ | ⟨k, -, hput⟩ | ⟨-, hdeferred⟩
  · obtain ⟨r, -, -, rfl⟩ := plannedDelete_eq_some_iff.mp hdelete
    cases horigin
  · obtain ⟨r, entity, b, m, hwrites, rfl⟩ := hput
    obtain ⟨rfl, rfl, rfl⟩ := Origin.put.inj horigin
    exact ⟨r, entity, hwrites, rfl, rfl⟩
  · rw [hdeferred] at horigin
    cases horigin

theorem waited_of_origin (hplan : w.IsPlan plan w' due puts) (hmem : planned ∈ plan)
    (horigin : planned.origin = .deferred) : planned.command ∈ w.work.deferred := by
  rcases hplan.cases_of_mem hmem with ⟨k, -, hdelete⟩ | ⟨k, -, hput⟩ | ⟨hwaited, -⟩
  · obtain ⟨r, -, -, rfl⟩ := plannedDelete_eq_some_iff.mp hdelete
    cases horigin
  · obtain ⟨r, entity, b, m, -, rfl⟩ := hput
    cases horigin
  · exact hwaited

/-- No two planned commands come from the same record. -/
theorem records_nodup (hplan : w.IsPlan plan w' due puts) (h : w.Consistent) :
    (plan.filterMap (·.origin.record?)).Nodup := by
  have hdeleted : ∀ key planned, w.plannedDelete key = some planned →
      planned.origin.record? = some key := by
    intro key planned hdelete
    obtain ⟨r, -, -, rfl⟩ := plannedDelete_eq_some_iff.mp hdelete
    rfl
  have hputs : ∀ {due : List RecordKey} {puts : Plan}, List.Forall₂ w.IsPutOf due puts →
      puts.filterMap (·.origin.record?) = due := by
    intro due puts hputs
    induction hputs with
    | nil => rfl
    | cons hput _ ih =>
      obtain ⟨r, entity, body, metadata, -, rfl⟩ := hput
      exact congrArg _ ih
  have hdeferred : (w.work.deferred.map plannedDeferred).filterMap (·.origin.record?) = [] := by
    rw [List.filterMap_map]
    exact List.filterMap_eq_nil_iff.mpr fun _ _ => rfl
  rw [hplan.plan_eq, List.filterMap_append, List.filterMap_append, hputs hplan.isPutOf, hdeferred,
    List.append_nil, List.filterMap_filterMap, List.nodup_append]
  refine ⟨?_, hplan.due_sublist.nodup h.nodup_records, ?_⟩
  · refine (Keyed.nodup_keys h.deleted_sorted).filterMap ?_
    intro key key' found hkey hkey'
    obtain ⟨p, hp, hfound⟩ := Option.bind_eq_some_iff.mp hkey
    obtain ⟨p', hp', hfound'⟩ := Option.bind_eq_some_iff.mp hkey'
    have hsame := (hdeleted key p hp).symm.trans hfound
    have hsame' := (hdeleted key' p' hp').symm.trans hfound'
    exact Option.some.inj (hsame.trans hsame'.symm)
  · -- a record to delete is not written
    rintro key hkey _ hdue rfl
    obtain ⟨k, hk, hfound⟩ := List.mem_filterMap.mp hkey
    obtain ⟨p, hp, hfound⟩ := Option.bind_eq_some_iff.mp hfound
    have hsame := (hdeleted k p hp).symm.trans hfound
    obtain rfl := Option.some.inj hsame
    obtain ⟨_, -, r, entity, body, metadata, hwrites, -⟩ := hplan.exists_put hdue
    have hdelete : w.work.isToDelete k = true := Keyed.contains_iff_mem_keys.mpr hk
    rw [hwrites.kept] at hdelete
    cases hdelete

/-- All DELETEs of records come before all PUTs. -/
theorem deletes_first (hplan : w.IsPlan plan w' due puts) :
    plan.Pairwise (fun x y => ∀ key body metadata, x.origin = .put key body metadata →
      ∀ other, y.origin ≠ .delete other) := by
  have hdeletes : ∀ x ∈ w.work.deleted.keys.filterMap w.plannedDelete,
      ∀ key body metadata, x.origin ≠ .put key body metadata := by
    intro x hx key body metadata
    obtain ⟨k, -, hdelete⟩ := List.mem_filterMap.mp hx
    obtain ⟨r, -, -, rfl⟩ := plannedDelete_eq_some_iff.mp hdelete
    exact Origin.noConfusion
  have hothers : ∀ y ∈ puts ++ w.work.deferred.map plannedDeferred,
      ∀ other, y.origin ≠ .delete other := by
    intro y hy other
    rcases List.mem_append.mp hy with hput | hdeferred
    · obtain ⟨k, -, r, entity, body, metadata, -, rfl⟩ := hplan.exists_due hput
      exact Origin.noConfusion
    · obtain ⟨command, -, rfl⟩ := List.mem_map.mp hdeferred
      exact Origin.noConfusion
  rw [hplan.plan_eq, List.append_assoc, List.pairwise_append]
  refine ⟨?_, ?_, ?_⟩
  · refine List.pairwise_of_forall_mem_list ?_
    intro x hx y _ key body metadata horigin
    exact absurd horigin (hdeletes x hx key body metadata)
  · refine List.pairwise_of_forall_mem_list ?_
    intro x _ y hy _ _ _ _ other
    exact hothers y hy other
  · intro x hx y _ key body metadata horigin
    exact absurd horigin (hdeletes x hx key body metadata)

end IsPlan

/-! ## Pending records -/

/-- The next save would delete the record or write its entity, if no command was deferred for its
document. -/
def IsPending (w : Workspace) (key : RecordKey) (r : Record) : Prop :=
  w.work.isToDelete key = true ∨ (r.ignoreChanges = false ∧ w.entityChanged r ≠ .ok false)

theorem entityChanged_eq_mustWrite {r : Record} {entity : EntityRef} {body : Fields}
    (hholds : r.entity = some entity) (hbody : w.bodyOf entity = .ok body) :
    w.entityChanged r = .ok (w.mustWrite r body) := by
  unfold entityChanged mustWrite
  rw [hholds]
  dsimp only
  split
  · next hnew =>
    rw [hnew]
    rfl
  · next hnew =>
    rw [hbody, Bool.eq_false_of_not_eq_true hnew]
    rfl

/-- An entity that has not changed has a body, and need not be written. -/
theorem mustWrite_of_unchanged {r : Record} {entity : EntityRef} (hholds : r.entity = some entity)
    (hunchanged : w.entityChanged r = .ok false) :
    ∃ body, w.bodyOf entity = .ok body ∧ w.mustWrite r body = false := by
  cases hbody : w.bodyOf entity with
  | ok body =>
    rw [entityChanged_eq_mustWrite hholds hbody] at hunchanged
    exact ⟨body, rfl, Except.ok.inj hunchanged⟩
  | error e =>
    unfold entityChanged at hunchanged
    rw [hholds] at hunchanged
    dsimp only at hunchanged
    split at hunchanged
    · cases hunchanged
    · rw [hbody] at hunchanged
      cases hunchanged

/-- A pending record is considered by `planEntity`, unless it is in `deleted` or a command is
deferred for its document. -/
theorem IsPending.considers {key : RecordKey} {r : Record} (h : w.IsPending key r)
    (hr : w.work.records.find? key = some r) (hkept : w.work.isToDelete key = false)
    (hfree : w.work.hasDeferred r.id = false) :
    ∃ entity, w.Considers key r entity ∧ w.entityChanged r ≠ .ok false := by
  rcases h with hdelete | ⟨hwatched, hchanged⟩
  · rw [hkept] at hdelete
    cases hdelete
  · cases hholds : r.entity with
    | none =>
      unfold entityChanged at hchanged
      rw [hholds] at hchanged
      exact absurd rfl hchanged
    | some entity => exact ⟨entity, ⟨hr, hkept, hholds, hwatched, hfree⟩, hchanged⟩

/-- A plan writes every pending record for which no command is deferred and which is not in
`deleted`. -/
theorem IsPlan.mem_due_of_pending {plan puts : Plan} {due : List RecordKey}
    (hplan : w.IsPlan plan w' due puts) {key : RecordKey} {r : Record} (h : w.IsPending key r)
    (hr : w.work.records.find? key = some r) (hkept : w.work.isToDelete key = false)
    (hfree : w.work.hasDeferred r.id = false) : key ∈ due := by
  obtain ⟨entity, hconsiders, hchanged⟩ := h.considers hr hkept hfree
  obtain ⟨body, hbody⟩ := hplan.writable key r entity hconsiders
  rw [entityChanged_eq_mustWrite hconsiders.holds hbody] at hchanged
  refine hplan.mem_due key r entity body ⟨hconsiders, hbody, ?_⟩
  cases hmust : w.mustWrite r body with
  | true => rfl
  | false =>
    rw [hmust] at hchanged
    exact absurd rfl hchanged

theorem planPuts_eq_nil {keys : List RecordKey}
    (hidle : ∀ key r, w.work.records.find? key = some r → ¬ w.IsPending key r) :
    w.planPuts {} keys = (.ok [], w) := by
  -- no entity has to be written
  have hentity : ∀ key, w.planEntity {} key = (.ok none, w) := by
    intro key
    by_cases hconsiders : ∃ r entity, w.Considers key r entity
    · obtain ⟨r, entity, h⟩ := hconsiders
      have hunchanged : w.entityChanged r = .ok false := by
        by_contra hchanged
        exact hidle key r h.record (Or.inr ⟨h.watched, hchanged⟩)
      obtain ⟨body, hbody, hmust⟩ := mustWrite_of_unchanged h.holds hunchanged
      rw [planEntity_of_considers h hbody, hmust]
      rfl
    · exact planEntity_of_not_considers fun r entity h => hconsiders ⟨r, entity, h⟩
  induction keys with
  | nil => rfl
  | cons key rest ih =>
    rw [planPuts, hentity key]
    simp only [ih]
    rfl

/-- If a plan is empty, no command is deferred and no record is pending. -/
theorem IsPlan.idle_of_nil {puts : Plan} {due : List RecordKey} (hplan : w.IsPlan [] w' due puts)
    (h : w.Consistent) : w.work.deferred = []
      ∧ ∀ key r, w.work.records.find? key = some r → ¬ w.IsPending key r := by
  have hempty := hplan.plan_eq.symm
  rw [List.append_eq_nil_iff, List.append_eq_nil_iff, List.map_eq_nil_iff] at hempty
  obtain ⟨⟨hdeletes, hputs⟩, hdeferred⟩ := hempty
  have hfree := hasDeferred_of_nil hdeferred
  have hdue : due = [] := by
    have hlength := hplan.isPutOf.length_eq
    rw [hputs] at hlength
    exact List.length_eq_zero_iff.mp hlength
  have hkept : ∀ key, w.work.isToDelete key = false := by
    intro key
    by_contra hdelete
    rw [Bool.not_eq_false] at hdelete
    obtain ⟨r, hr, -⟩ := h.deletable key hdelete
    have hplanned := plannedDelete_eq_some_iff.mpr ⟨r, hr, hfree r.id, rfl⟩
    rw [List.filterMap_eq_nil_iff.mp hdeletes key (Keyed.contains_iff_mem_keys.mp hdelete)]
      at hplanned
    cases hplanned
  refine ⟨hdeferred, ?_⟩
  intro key r hr hpending
  have hmem := hplan.mem_due_of_pending hpending hr (hkept key) (hfree r.id)
  rw [hdue] at hmem
  cases hmem

/-- If no command is deferred and no record is pending, `planSave` gives the empty plan and changes
nothing. -/
theorem planSave_of_idle (h : w.Consistent) (hdeferred : w.work.deferred = [])
    (hidle : ∀ key r, w.work.records.find? key = some r → ¬ w.IsPending key r) :
    w.planSave {} = (.ok [], w) := by
  have hdeleted : w.work.deleted.keys = [] := by
    rw [List.eq_nil_iff_forall_not_mem]
    intro key hmem
    have hdelete : w.work.isToDelete key = true := Keyed.contains_iff_mem_keys.mpr hmem
    obtain ⟨r, hr, -⟩ := h.deletable key hdelete
    exact hidle key r hr (Or.inl hdelete)
  unfold planSave
  rw [planDeletes_eq, hdeleted]
  simp only [List.filterMap_nil, planPuts_eq_nil hidle, planDeferred_eq, hdeferred,
    List.map_nil, List.append_nil]

/-- `planSave` gives the empty plan if and only if no command is deferred and no record is
pending. -/
theorem planSave_eq_nil_iff (h : w.Consistent) :
    (w.planSave {}).1 = .ok []
      ↔ w.work.deferred = []
        ∧ ∀ key r, w.work.records.find? key = some r → ¬ w.IsPending key r := by
  constructor
  · intro hnil
    rcases hplan : w.planSave {} with ⟨planned, w'⟩
    rw [hplan] at hnil
    dsimp only at hnil
    rw [hnil] at hplan
    obtain ⟨due, puts, hparts⟩ := planSave_eq_ok h hplan
    exact hparts.idle_of_nil h
  · rintro ⟨hdeferred, hidle⟩
    rw [planSave_of_idle h hdeferred hidle]

end Workspace

end DocumentSession
