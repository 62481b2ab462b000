import DocumentSession.Proofs.Saves

set_option autoImplicit false

/-! # Settings stay as they were opened

No operation changes the conventions of a session, its options, and whether it tracks anything. -/

namespace DocumentSession

namespace Workspace

variable {w w' : Workspace}

/-! ## Local work -/

theorem settings_removeRecord (w : Workspace) (key : RecordKey) :
    (w.removeRecord key).2.work.settings = w.work.settings := by
  unfold removeRecord
  split <;> rfl

theorem settings_store (w : Workspace) (entity : EntityRef) (id changeVector : Option String)
    (check : VersionCheck) :
    (w.store entity id changeVector check).2.work.settings = w.work.settings := by
  unfold store
  split
  · rfl
  · split
    · unfold storeAgain
      repeat' split
      all_goals rfl
    · dsimp only
      repeat' split
      all_goals rfl

theorem settings_delete (w : Workspace) (entity : EntityRef) :
    (w.delete entity).2.work.settings = w.work.settings := by
  unfold delete
  repeat' split
  all_goals first | rfl | exact settings_removeRecord w _

theorem settings_defer (w : Workspace) (commands : List Command) :
    (w.defer commands).2.work.settings = w.work.settings := by
  unfold defer
  split <;> rfl

theorem settings_deleteId (w : Workspace) (id : String) (changeVector : Option String) :
    (w.deleteId id changeVector).2.work.settings = w.work.settings := by
  unfold deleteId deferDelete
  repeat' split
  all_goals first
    | rfl
    | exact settings_defer (w.markMissing id) _
    | exact (settings_defer _ _).trans (settings_removeRecord w _)

theorem settings_ignoreChanges (w : Workspace) (entity : EntityRef) :
    (w.ignoreChanges entity).2.work.settings = w.work.settings := by
  unfold ignoreChanges
  split <;> rfl

theorem settings_evict (w : Workspace) (entity : EntityRef) :
    (w.evict entity).work.settings = w.work.settings := by
  unfold evict
  split
  · exact settings_removeRecord w _
  · rfl

theorem settings_metadataOf (w : Workspace) (entity : EntityRef) :
    (w.metadataOf entity).2.work.settings = w.work.settings := by
  unfold metadataOf
  split <;> rfl

/-! ## Saving -/

theorem Plans.settings {callbacks : Callbacks} (h : w.Plans callbacks w') :
    w'.work.settings = w.work.settings := by
  induction h with
  | refl => rfl
  | tail _ hstep ih =>
    rw [← ih]
    cases hstep <;> rfl

theorem SettlesAll.settings {pairs : List (Planned × Fields)}
    {answers : List (Except Error Unit)} (h : w.SettlesAll pairs answers w') :
    w'.work.settings = w.work.settings := by
  induction h with
  | nil => rfl
  | cons first _ ih =>
    rw [ih]
    cases first <;> rfl

end Workspace

/-! ## All operations -/

namespace OpenSession

variable {s s' : OpenSession}

/-- The settings of a session. -/
def settings (s : OpenSession) : (Conventions × Bool) × SessionOptions :=
  (s.session.work.settings, s.session.options)

theorem Saves.settings {u : UnitOfWork} (h : s.Saves u) :
    u.settings = s.session.work.settings := by
  cases h with
  | unsettled hplans => exact hplans.settings
  | settled hplan _ hwork _ hrun =>
    have hplanned := (Workspace.plans_planSave hplan).settings
    rw [← hwork] at hplanned
    exact (show _ = _ from hrun.settings).trans hplanned

theorem Reads.settings (h : s.Reads s') : s'.settings = s.settings :=
  Prod.ext h.workspace.settings h.options

theorem options_save (s : OpenSession) : s.save.2.session.options = s.session.options := by
  rcases hsave : s.save with ⟨answer, s'⟩
  cases saveEnds hsave with
  | refused | idle => rfl
  | unanswered _ _ hsend | conflict _ _ hsend | failed _ _ hsend | settled _ _ hsend =>
    exact (reads_send hsend).options

/-- No operation changes the settings. -/
theorem settings_perform (h : s.Consistent) (operation : Operation) :
    (s.perform operation).settings = s.settings := by
  have hlocally : ∀ {α : Type} (f : Workspace → α × Workspace),
      (f s.workspace).2.work.settings = s.workspace.work.settings →
      (s.locally f).2.settings = s.settings := fun f hf => congrArg (·, s.session.options) hf
  by_cases hreading : Reading operation
  · refine (reads_perform hreading).settings.trans ?_
    unfold settings
    rw [session_asked]
  cases operation with
  | store entity => exact hlocally _ (Workspace.settings_store _ entity none none .auto)
  | storeUnder entity id =>
    exact hlocally _ (Workspace.settings_store _ entity (some id) none .auto)
  | storeOver entity id version =>
    exact hlocally _ (Workspace.settings_store _ entity (some id) version _)
  | delete entity => exact hlocally _ (Workspace.settings_delete _ entity)
  | deleteId id version => exact hlocally _ (Workspace.settings_deleteId _ id version)
  | defer commands => exact hlocally _ (Workspace.settings_defer _ commands)
  | ignoreChanges entity => exact hlocally _ (Workspace.settings_ignoreChanges _ entity)
  | evict entity =>
    exact congrArg (·, s.session.options) (Workspace.settings_evict s.workspace entity)
  | metadataOf entity => exact hlocally _ (Workspace.settings_metadataOf _ entity)
  | save => exact Prod.ext (saves h).settings (options_save s)
  | clear | setMaxRequests max | listen callbacks | outside shared connection deliveries => rfl
  | _ => exact absurd trivial hreading

/-- A session tracks nothing if and only if it was opened with the option `noTracking`. -/
theorem Reachable.noTracking (h : s.Reachable) :
    s.session.work.noTracking = s.session.options.noTracking := by
  induction h with
  | opened => rfl
  | @step s operation h _ ih =>
    have hsettings := settings_perform h.consistent operation
    have hwork := congrArg (fun settings => settings.1.2) hsettings
    have hoptions := congrArg (fun settings => settings.2.noTracking) hsettings
    exact hwork.trans (ih.trans hoptions.symm)

end OpenSession

end DocumentSession
