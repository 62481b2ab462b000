import DocumentSession.Workspace.Save

set_option autoImplicit false

/-! # The parts of a plan

`planSave` makes a plan in parts, each by a function of its own. There is one lemma for each of
these functions, which says all that its success means: `planDeletes_eq_ok`, `planEntity_eq_ok`,
`planPut_eq_ok`, `planPuts_cons_eq_ok`, `planDeferred_eq_ok` and `planSave_eq_append`. All theorems
about plans start from these lemmas, and unfold none of the functions. -/

namespace DocumentSession.Workspace

variable {w w' : Workspace} {c : Callbacks} {plan : Plan} {planned : Planned} {key : RecordKey}
  {r : Record} {entity : EntityRef}

/-! ## Deletions -/

/-- The DELETE that is planned for the record `key`, unless a command is deferred for its
document. -/
def plannedDelete (w : Workspace) (key : RecordKey) : Option Planned :=
  match w.work.records.find? key with
  | none => none
  | some r =>
    if w.work.hasDeferred r.id then none
    else
      some
        { command :=
            { id := r.id, action := .delete
              changeVector := versionToDelete w.work.conventions r }
          origin := .delete key }

theorem plannedDelete_eq_some_iff :
    w.plannedDelete key = some planned
      ↔ ∃ r, w.work.records.find? key = some r ∧ w.work.hasDeferred r.id = false
        ∧ planned =
          { command :=
              { id := r.id, action := .delete
                changeVector := versionToDelete w.work.conventions r }
            origin := .delete key } := by
  unfold plannedDelete
  cases w.work.records.find? key with
  | none => simp
  | some r =>
    dsimp only
    constructor
    · intro hplanned
      split at hplanned
      · cases hplanned
      · next hfree =>
        exact ⟨r, rfl, (Bool.not_eq_true _).mp hfree, (Option.some.inj hplanned).symm⟩
    · rintro ⟨r', hr', hfree, rfl⟩
      obtain rfl := Option.some.inj hr'
      rw [hfree]
      rfl

/-- `planDeletes` plans the `plannedDelete` of each key, whatever the callbacks do, short of
refusing. -/
theorem planDeletes_eq_ok {keys : List RecordKey} (hplan : w.planDeletes c keys = (.ok plan, w')) :
    plan = keys.filterMap w.plannedDelete ∧ w'.work = w.work := by
  induction keys generalizing w plan with
  | nil =>
    obtain ⟨hplans, rfl⟩ := Prod.mk.inj hplan
    exact ⟨(Except.ok.inj hplans).symm, rfl⟩
  | cons key rest ih =>
    rw [planDeletes] at hplan
    rw [List.filterMap_cons]
    unfold plannedDelete
    cases hr : w.work.records.find? key with
    | none =>
      rw [hr] at hplan
      exact ih hplan
    | some r =>
      rw [hr] at hplan
      dsimp only at hplan ⊢
      split at hplan
      · next hwaits =>
        rw [if_pos hwaits]
        exact ih hplan
      · next hfree =>
        rw [if_neg hfree]
        split at hplan
        · cases (Prod.mk.inj hplan).1
        · split at hplan
          · next hrest =>
            obtain ⟨hplans, rfl⟩ := Prod.mk.inj hplan
            obtain rfl := Except.ok.inj hplans
            obtain ⟨rfl, hwork⟩ := ih hrest
            exact ⟨rfl, hwork⟩
          · next hfailed => exact absurd hplan (hfailed _ _)

theorem origin_planDeletes {keys : List RecordKey}
    (hplan : w.planDeletes c keys = (.ok plan, w')) :
    ∀ planned ∈ plan, ∃ key, planned.origin = .delete key := by
  intro planned hmem
  rw [(planDeletes_eq_ok hplan).1] at hmem
  obtain ⟨key, -, hdelete⟩ := List.mem_filterMap.mp hmem
  obtain ⟨r, -, -, rfl⟩ := plannedDelete_eq_some_iff.mp hdelete
  exact ⟨key, rfl⟩

/-! ## Commands that waited -/

/-- A deferred command as it is planned. -/
def plannedDeferred (command : Command) : Planned :=
  { command, origin := .deferred }

/-- `planDeferred` plans every deferred command as it is. -/
theorem planDeferred_spec {commands : List Command} {answer : Except Error Plan}
    (h : w.planDeferred c commands = (answer, w')) :
    w'.work = w.work ∧ ∀ plan, answer = .ok plan → plan = commands.map plannedDeferred := by
  induction commands generalizing w w' answer with
  | nil =>
    obtain ⟨rfl, rfl⟩ := Prod.mk.inj h
    exact ⟨rfl, fun plan hplan => (Except.ok.inj hplan).symm⟩
  | cons command rest ih =>
    rw [planDeferred] at h
    split at h
    · obtain ⟨rfl, rfl⟩ := Prod.mk.inj h
      exact ⟨rfl, fun plan hplan => by cases hplan⟩
    · next shared _ =>
      rcases hrest : planDeferred { w with shared } c rest with ⟨e | plan, w₁⟩
      all_goals
        obtain ⟨hwork, hcommands⟩ := ih hrest
        rw [hrest] at h
        obtain ⟨rfl, rfl⟩ := Prod.mk.inj h
        refine ⟨hwork, ?_⟩
        intro plan' hplan'
        cases hplan'
      rw [hcommands plan rfl]
      rfl

theorem planDeferred_eq_ok {commands : List Command}
    (hplan : w.planDeferred c commands = (.ok plan, w')) :
    plan = commands.map plannedDeferred ∧ w'.work = w.work := by
  obtain ⟨hwork, hcommands⟩ := planDeferred_spec hplan
  exact ⟨hcommands plan rfl, hwork⟩

theorem origin_planDeferred {commands : List Command}
    (hplan : w.planDeferred c commands = (.ok plan, w')) :
    ∀ planned ∈ plan, planned.origin = .deferred := by
  rw [(planDeferred_eq_ok hplan).1]
  exact List.forall_mem_map.mpr fun _ _ => rfl

/-! ## The write of an entity -/

/-- `planEntity` gets as far as comparing `entity`, the entity of the record: it is neither to be
deleted nor ignored, and no command is deferred for its document. -/
structure Considers (w : Workspace) (key : RecordKey) (r : Record) (entity : EntityRef) :
    Prop where
  record : w.work.records.find? key = some r
  kept : w.work.isToDelete key = false
  holds : r.entity = some entity
  watched : r.ignoreChanges = false
  free : w.work.hasDeferred r.id = false

/-- `planEntity` plans a PUT of `entity`, whose body is `body` at that point. -/
structure Writes (w : Workspace) (key : RecordKey) (r : Record) (entity : EntityRef)
    (body : Fields) : Prop extends w.Considers key r entity where
  written : w.bodyOf entity = .ok body
  must : w.mustWrite r body = true

theorem Considers.unique {r' : Record} {entity' : EntityRef} (h : w.Considers key r entity)
    (h' : w.Considers key r' entity') : r' = r ∧ entity' = entity := by
  have hr := h'.record
  rw [h.record] at hr
  obtain rfl := Option.some.inj hr
  have hentity := h'.holds
  rw [h.holds] at hentity
  exact ⟨rfl, (Option.some.inj hentity).symm⟩

/-- A planned PUT carries the body of the entity and the merged metadata of the record as they are
after `openDictionary` and the `beforeStore` callbacks. -/
theorem planPut_eq_ok (hput : w.planPut c key r entity = (.ok planned, w')) :
    ∃ shared body metadata,
      Callbacks.callEach { id := r.id, metadata := (w.openDictionary key r).1, entity }
          c.beforeStore (w.openDictionary key r).2.shared = (.ok (), shared)
        ∧ w' = { (w.openDictionary key r).2 with shared }
        ∧ w'.bodyOf entity = .ok body
        ∧ metadata
          = Record.mergedMetadata { r with dictionary := some (w.openDictionary key r).1 }
              shared.dictionaries
        ∧ planned =
          { command :=
              { id := r.id, action := .put (Keyed.insert body Metadata.key (.obj metadata))
                changeVector := versionToPut w.work.conventions r }
            origin := .put key body metadata } := by
  unfold planPut at hput
  dsimp only at hput
  split at hput
  · cases (Prod.mk.inj hput).1
  · next shared htold =>
    split at hput
    · cases (Prod.mk.inj hput).1
    · next body hbody =>
      obtain ⟨hplanned, rfl⟩ := Prod.mk.inj hput
      exact ⟨shared, body, _, htold, rfl, hbody, rfl, (Except.ok.inj hplanned).symm⟩

theorem planEntity_of_not_considers (h : ∀ r entity, ¬ w.Considers key r entity) :
    w.planEntity c key = (.ok none, w) := by
  unfold planEntity
  split
  · next r hkept hr =>
    split
    · rfl
    · next entity hentity =>
      split
      · rfl
      · next hleft =>
        simp only [Bool.or_eq_true, not_or, Bool.not_eq_true] at hleft
        exact absurd ⟨hr, hkept, hentity, hleft.1, hleft.2⟩ (h r entity)
  · rfl

theorem planEntity_of_considers {body : Fields} (h : w.Considers key r entity)
    (hbody : w.bodyOf entity = .ok body) :
    w.planEntity c key
      = if !w.mustWrite r body then (.ok none, w)
        else
          match w.planPut c key r entity with
          | (.error e, w) => (.error e, w)
          | (.ok planned, w) => (.ok (some planned), w) := by
  unfold planEntity
  rcases hput : w.planPut c key r entity with ⟨_ | planned, w'⟩ <;>
    simp only [h.kept, h.record, h.holds, h.watched, h.free, hbody, hput, Bool.or_self,
      Bool.false_eq_true, if_false]

theorem planEntity_of_unwritable {e : Error} (h : w.Considers key r entity)
    (hbody : w.bodyOf entity = .error e) : w.planEntity c key = (.error e, w) := by
  unfold planEntity
  simp only [h.kept, h.record, h.holds, h.watched, h.free, hbody, Bool.or_self, Bool.false_eq_true,
    if_false]

/-- `planEntity` leaves an entity that need not be written out and changes nothing, and plans a PUT
of one that has to be written. -/
theorem planEntity_eq_ok {answer : Option Planned}
    (hplan : w.planEntity c key = (.ok answer, w')) :
    (answer = none ∧ w' = w
        ∧ ∀ r entity, w.Considers key r entity →
          ∃ body, w.bodyOf entity = .ok body ∧ w.mustWrite r body = false)
      ∨ ∃ r entity body planned, w.Writes key r entity body
        ∧ w.planPut c key r entity = (.ok planned, w') ∧ answer = some planned := by
  by_cases hconsiders : ∃ r entity, w.Considers key r entity
  · obtain ⟨r, entity, h⟩ := hconsiders
    cases hbody : w.bodyOf entity with
    | error e =>
      rw [planEntity_of_unwritable h hbody] at hplan
      cases (Prod.mk.inj hplan).1
    | ok body =>
      rw [planEntity_of_considers h hbody] at hplan
      cases hmust : w.mustWrite r body with
      | false =>
        simp only [hmust, Bool.not_false, if_true] at hplan
        obtain ⟨hanswer, rfl⟩ := Prod.mk.inj hplan
        refine Or.inl ⟨(Except.ok.inj hanswer).symm, rfl, fun r' entity' h' => ?_⟩
        obtain ⟨rfl, rfl⟩ := h.unique h'
        exact ⟨body, hbody, hmust⟩
      | true =>
        simp only [hmust, Bool.not_true, Bool.false_eq_true, if_false] at hplan
        split at hplan
        · cases (Prod.mk.inj hplan).1
        · next planned _ hput =>
          obtain ⟨hanswer, rfl⟩ := Prod.mk.inj hplan
          exact Or.inr ⟨r, entity, body, planned, ⟨h, hbody, hmust⟩, hput,
            (Except.ok.inj hanswer).symm⟩
  · have hnone : ∀ r entity, ¬ w.Considers key r entity := fun r entity h =>
      hconsiders ⟨r, entity, h⟩
    rw [planEntity_of_not_considers hnone] at hplan
    obtain ⟨hanswer, rfl⟩ := Prod.mk.inj hplan
    exact Or.inl ⟨(Except.ok.inj hanswer).symm, rfl,
      fun r entity h => absurd h (hnone r entity)⟩

/-- A command that `planEntity` plans is the PUT of the entity of its record. -/
theorem planPut_of_planEntity (hplan : w.planEntity c key = (.ok (some planned), w')) :
    ∃ r entity body, w.Writes key r entity body
      ∧ w.planPut c key r entity = (.ok planned, w') := by
  rcases planEntity_eq_ok hplan with ⟨hnone, -⟩ | ⟨r, entity, body, _, hwrites, hput, hsome⟩
  · cases hnone
  · obtain rfl := Option.some.inj hsome
    exact ⟨r, entity, body, hwrites, hput⟩

theorem origin_planEntity (hplan : w.planEntity c key = (.ok (some planned), w')) :
    ∃ body metadata, planned.origin = .put key body metadata := by
  obtain ⟨r, entity, _, -, hput⟩ := planPut_of_planEntity hplan
  obtain ⟨-, body, metadata, -, -, -, -, rfl⟩ := planPut_eq_ok hput
  exact ⟨body, metadata, rfl⟩

/-! ## Writes and the whole -/

theorem planPuts_cons_eq_ok {rest : List RecordKey}
    (hplan : w.planPuts c (key :: rest) = (.ok plan, w')) :
    ∃ first w₁ others, w.planEntity c key = (.ok first, w₁)
      ∧ w₁.planPuts c rest = (.ok others, w') ∧ plan = first.toList ++ others := by
  rw [planPuts] at hplan
  split at hplan
  · cases (Prod.mk.inj hplan).1
  · next first w₁ hfirst =>
    split at hplan
    · next others w₂ hrest =>
      obtain ⟨hplans, rfl⟩ := Prod.mk.inj hplan
      exact ⟨first, w₁, others, hfirst, hrest, (Except.ok.inj hplans).symm⟩
    · next hfailed => exact absurd hplan (hfailed _ _)

theorem planSave_eq_append (hplan : w.planSave c = (.ok plan, w')) :
    ∃ deletes w₁ puts w₂ deferred,
      w.planDeletes c w.work.deleted.keys = (.ok deletes, w₁)
        ∧ w₁.planPuts c w₁.work.registry.records = (.ok puts, w₂)
        ∧ w₂.planDeferred c w₂.work.deferred = (.ok deferred, w')
        ∧ plan = deletes ++ puts ++ deferred := by
  unfold planSave at hplan
  split at hplan
  · cases (Prod.mk.inj hplan).1
  · next deletes w₁ hdeletes =>
    split at hplan
    · cases (Prod.mk.inj hplan).1
    · next puts w₂ hputs =>
      split at hplan
      · cases (Prod.mk.inj hplan).1
      · next deferred w₃ hdeferred =>
        obtain ⟨hplans, rfl⟩ := Prod.mk.inj hplan
        exact ⟨deletes, w₁, puts, w₂, deferred, hdeletes, hputs, hdeferred,
          (Except.ok.inj hplans).symm⟩

end DocumentSession.Workspace
