import DocumentSession.Proofs.PlannedPut

set_option autoImplicit false

/-! # The commands of a plan with callbacks

With any callbacks a plan has the same DELETEs and the same deferred commands, and each PUT is for a
record that is not in `deleted`: planning changes dictionaries and `shared` only. So the parts of a
plan are read off the workspace before it (`Workspace.parts_of_planSave`). -/

namespace DocumentSession.Workspace

variable {w w' : Workspace} {c : Callbacks} {plan : Plan} {planned : Planned}

/-! ## Frames -/

/-- Planning changes nothing of the unit of work but its `records`. -/
theorem Plans.work (h : w.Plans c w') : w'.work = { w.work with records := w'.work.records } := by
  induction h with
  | refl => rfl
  | tail _ hstep ih =>
    cases hstep with
    | beforeDelete | beforeStore => exact ih
    | opens hr =>
      rw [(opened_openDictionary hr).work, ih]

/-- Planning changes nothing of a record but its `dictionary`. -/
theorem Plans.record_before (h : w.Plans c w') {key : RecordKey} {r' : Record}
    (hr' : w'.work.records.find? key = some r') :
    ∃ r, w.work.records.find? key = some r ∧ r' = { r with dictionary := r'.dictionary } := by
  induction h generalizing r' with
  | refl => exact ⟨r', hr', rfl⟩
  | tail _ hstep ih =>
    cases hstep with
    | beforeDelete | beforeStore => exact ih hr'
    | opens hr =>
      obtain ⟨r₁, hr₁, heq₁, -⟩ := (opened_openDictionary hr).record_before hr'
      obtain ⟨r, hr, heq⟩ := ih hr₁
      refine ⟨r, hr, ?_⟩
      rw [heq₁, heq]

/-- Planning removes no record. -/
theorem Plans.record_after (h : w.Plans c w') {key : RecordKey} {r : Record}
    (hr : w.work.records.find? key = some r) :
    ∃ dictionary, w'.work.records.find? key = some { r with dictionary } := by
  induction h with
  | refl => exact ⟨r.dictionary, hr⟩
  | tail _ hstep ih =>
    obtain ⟨dictionary, hfound⟩ := ih
    cases hstep with
    | beforeDelete | beforeStore => exact ⟨dictionary, hfound⟩
    | opens hopened =>
      obtain ⟨dictionary', hfound', -⟩ := (opened_openDictionary hopened).record key _ hfound
      exact ⟨dictionary', hfound'⟩

/-! ## The parts of a plan -/

/-- `planned` is a PUT of the entity of a record that is not in `deleted`. -/
def WritesRecord (w : Workspace) (planned : Planned) : Prop :=
  ∃ key r body metadata, w.work.records.find? key = some r ∧ w.work.isToDelete key = false
    ∧ planned =
      { command :=
          { id := r.id, action := .put (Keyed.insert body Metadata.key (.obj metadata))
            changeVector := versionToPut w.work.conventions r }
        origin := .put key body metadata }

theorem writesRecord_of_planPuts {keys : List RecordKey}
    (hplan : w.planPuts c keys = (.ok plan, w')) : ∀ planned ∈ plan, w.WritesRecord planned := by
  intro planned hmem
  obtain ⟨key, v, v', hplans, hentity⟩ := planEntity_of_mem hplan hmem
  obtain ⟨r', entity, _, hwrites, hput⟩ := planPut_of_planEntity hentity
  obtain ⟨-, body, metadata, -, -, -, -, rfl⟩ := planPut_eq_ok hput
  obtain ⟨r, hr, heq⟩ := hplans.record_before hwrites.record
  have hkept := hwrites.kept
  rw [hplans.work] at hkept
  refine ⟨key, r, body, metadata, hr, hkept, ?_⟩
  rw [heq, hplans.work]
  rfl

/-- A plan has the `plannedDelete`s of the records in `deleted`, then PUTs of records that are not,
then the deferred commands. -/
theorem parts_of_planSave (hplan : w.planSave c = (.ok plan, w')) :
    ∃ puts, plan = w.work.deleted.keys.filterMap w.plannedDelete ++ puts
        ++ w.work.deferred.map plannedDeferred
      ∧ ∀ planned ∈ puts, w.WritesRecord planned := by
  obtain ⟨deletes, w₁, puts, w₂, deferred, hdeletes, hputs, hdeferred, rfl⟩ :=
    planSave_eq_append hplan
  obtain ⟨rfl, hwork₁⟩ := planDeletes_eq_ok hdeletes
  obtain ⟨rfl, -⟩ := planDeferred_eq_ok hdeferred
  have hdeferred₂ : w₂.work.deferred = w.work.deferred := by
    rw [(plans_planPuts hputs).work, hwork₁]
  refine ⟨puts, by rw [hdeferred₂], fun planned hmem => ?_⟩
  have hwrites := writesRecord_of_planPuts hputs planned hmem
  unfold WritesRecord at hwrites ⊢
  rw [← hwork₁]
  exact hwrites

/-- A planned command is the DELETE of a record in `deleted`, the PUT of another record, or a
deferred command. -/
theorem cases_of_planSave (hplan : w.planSave c = (.ok plan, w')) (hmem : planned ∈ plan) :
    (∃ key, w.work.isToDelete key = true ∧ w.plannedDelete key = some planned)
      ∨ w.WritesRecord planned
      ∨ ∃ command ∈ w.work.deferred, planned = plannedDeferred command := by
  obtain ⟨puts, rfl, hputs⟩ := parts_of_planSave hplan
  rw [List.mem_append, List.mem_append, List.mem_filterMap, List.mem_map] at hmem
  rcases hmem with (⟨key, hkey, hdelete⟩ | hput) | ⟨command, hcommand, rfl⟩
  · exact Or.inl ⟨key, Keyed.contains_iff_mem_keys.mpr hkey, hdelete⟩
  · exact Or.inr (Or.inl (hputs planned hput))
  · exact Or.inr (Or.inr ⟨command, hcommand, rfl⟩)

end DocumentSession.Workspace
