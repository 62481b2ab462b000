import DocumentSession.Proofs.Callbacks
import DocumentSession.Proofs.Planning
import DocumentSession.Proofs.Reads
import DocumentSession.Proofs.Settles
import DocumentSession.Proofs.LocalSteps

set_option autoImplicit false

/-! # Budget warnings

The budget warnings of a session are those that its budget is exhausted, or nearly so
(`Warning.isBudgetWarning`). Work on a workspace gives none of them: reading, storing, planning and
settling leave `budgetWarnings` as they are (`Shared.Quiet`), if the callbacks do
(`Callbacks.Quiet`). -/

namespace DocumentSession

/-- Whether the warning is about the budget. -/
def Warning.isBudgetWarning : Warning → Bool
  | .budgetExhausted | .budgetNearlyExhausted => true
  | .batchRejected | .serverReplacedDocument | .lazyRetry | .lazyGaveUp => false

namespace Shared

/-- The budget warnings, in the order in which they were given. -/
def budgetWarnings (s : Shared) : List Warning :=
  s.warnings.filter Warning.isBudgetWarning

/-- No budget warning is given between `s` and `s'`. -/
def Quiet (s s' : Shared) : Prop :=
  s'.budgetWarnings = s.budgetWarnings

variable {s s' s'' : Shared}

theorem Quiet.refl (s : Shared) : s.Quiet s :=
  rfl

theorem Quiet.trans (h : s.Quiet s') (h' : s'.Quiet s'') : s.Quiet s'' :=
  Eq.trans h' h

theorem Quiet.of_warnings (h : s'.warnings = s.warnings) : s.Quiet s' :=
  congrArg (List.filter Warning.isBudgetWarning) h

theorem budgetWarnings_warn (s : Shared) (warning : Warning) :
    (s.warn warning).budgetWarnings =
      s.budgetWarnings ++ if warning.isBudgetWarning then [warning] else [] := by
  unfold budgetWarnings warn
  rw [List.filter_append, List.filter_singleton]
  cases warning.isBudgetWarning <;> rfl

theorem quiet_warn (s : Shared) {warning : Warning} (h : warning.isBudgetWarning = false) :
    s.Quiet (s.warn warning) := by
  unfold Quiet
  rw [budgetWarnings_warn, h]
  exact List.append_nil _

theorem quiet_release (s : Shared) (r : Record) : s.Quiet (s.release r) :=
  .of_warnings rfl

end Shared

/-! ## Callbacks -/

namespace Callbacks

/-- Callbacks that give no budget warning. -/
structure Quiet (c : Callbacks) : Prop where
  beforeStore : ∀ callback ∈ c.beforeStore, ∀ event (s : Shared), s.Quiet (callback event s).2
  afterSave : ∀ callback ∈ c.afterSave, ∀ event (s : Shared), s.Quiet (callback event s).2
  beforeDelete : ∀ callback ∈ c.beforeDelete, ∀ id (s : Shared), s.Quiet (callback id s).2
  beforeQuery : ∀ callback ∈ c.beforeQuery, ∀ q (s : Shared), s.Quiet (callback q s).2.2

theorem Quiet.none : Quiet {} := by
  constructor
  all_goals exact fun _ hmem => (List.not_mem_nil hmem).elim

theorem quiet_callEach {Event : Type} {callbacks : List (Event → Shared → Verdict)}
    (h : ∀ callback ∈ callbacks, ∀ event (s : Shared), s.Quiet (callback event s).2)
    (event : Event) (s : Shared) : s.Quiet (callEach event callbacks s).2 :=
  relates_callEach Shared.Quiet.refl Shared.Quiet.trans h event s

end Callbacks

namespace Workspace

variable {w w' : Workspace}

/-! ## Local work -/

theorem quiet_removeRecord (w : Workspace) (key : RecordKey) :
    w.shared.Quiet (w.removeRecord key).2.shared := by
  unfold removeRecord
  split
  · exact .refl _
  · exact w.shared.quiet_release _

theorem quiet_clear (w : Workspace) : w.shared.Quiet w.clear.shared := by
  show w.shared.Quiet (w.work.records.foldl (fun s entry => s.release entry.2) w.shared)
  generalize w.shared = s
  induction w.work.records generalizing s with
  | nil => exact .refl s
  | cons entry rest ih => exact (s.quiet_release entry.2).trans (ih _)

theorem LocalStep.quiet {given : Option String} (h : LocalStep given w w') :
    w.shared.Quiet w'.shared := by
  cases h with
  | removeRecord key => exact w.quiet_removeRecord key
  | track entity id incomplete check =>
    cases incomplete with
    | true => exact .refl _
    | false => exact .of_warnings rfl
  | clear => exact w.quiet_clear
  | _ => exact .of_warnings rfl

theorem LocalSteps.quiet {given : Option String} (h : w.LocalSteps given w') :
    w.shared.Quiet w'.shared := by
  induction h with
  | refl => exact .refl _
  | tail _ hstep ih => exact ih.trans hstep.quiet

theorem quiet_metadataOf (w : Workspace) (entity : EntityRef) :
    w.shared.Quiet (w.metadataOf entity).2.shared := by
  unfold metadataOf
  split
  · exact .refl _
  · exact .of_warnings rfl

/-! ## Reading -/

/-- No step of reading gives a budget warning. -/
theorem readClosed_quiet :
    ReadClosed (fun _ => True) (fun w w' => w.shared.Quiet w'.shared) where
  refl w := .refl w.shared
  trans := .trans
  markMissing w _ := .refl w.shared
  register {w w' document answer} _ h := by
    unfold register at h
    dsimp only at h
    split at h
    · obtain ⟨-, rfl⟩ := Prod.mk.inj h
      exact .refl _
    · split at h
      · obtain ⟨-, rfl⟩ := Prod.mk.inj h
        unfold refreshRecord
        split
        · split
          · exact .refl _
          · exact w.shared.quiet_release _
        · exact .refl _
      · obtain ⟨-, rfl⟩ := Prod.mk.inj h
        exact .refl _
  entityFor {w w' type key answer} h := by
    unfold entityFor at h
    split at h
    · obtain ⟨-, rfl⟩ := Prod.mk.inj h
      exact .refl _
    · split at h
      · dsimp only at h
        split at h
        all_goals
          obtain ⟨-, rfl⟩ := Prod.mk.inj h
          exact .refl _
      · obtain ⟨-, rfl⟩ := Prod.mk.inj h
        exact .refl _
      · split at h
        · obtain ⟨-, rfl⟩ := Prod.mk.inj h
          exact .refl _
        · obtain ⟨-, rfl⟩ := Prod.mk.inj h
          exact .of_warnings rfl
  detached {w w' type document answer} h := by
    unfold detached at h
    dsimp only at h
    split at h
    · obtain ⟨-, rfl⟩ := Prod.mk.inj h
      exact .refl _
    · obtain ⟨-, rfl⟩ := Prod.mk.inj h
      exact .of_warnings rfl

/-! ## Saving -/

variable {callbacks : Callbacks}

theorem Plans.quiet (hquiet : callbacks.Quiet) (h : w.Plans callbacks w') :
    w.shared.Quiet w'.shared := by
  induction h with
  | refl => exact .refl _
  | tail _ hstep ih =>
    refine ih.trans ?_
    cases hstep with
    | beforeDelete id => exact Callbacks.quiet_callEach hquiet.beforeDelete id _
    | beforeStore event => exact Callbacks.quiet_callEach hquiet.beforeStore event _
    | opens _ _ => exact .of_warnings rfl

/-- A document that the server replaced causes a warning, but not one about the budget. -/
theorem quiet_settleId (w : Workspace) (key : RecordKey) (oldId id : String) :
    w.shared.Quiet (w.settleId key oldId id).2.shared := by
  unfold settleId
  dsimp only
  generalize hunlinked : (if Identifier.normalize oldId = Identifier.normalize id then w else _
    : Workspace) = unlinked
  have hquiet : w.shared.Quiet unlinked.shared := by
    rw [← hunlinked]
    split
    · exact .refl _
    · exact .refl _
  refine hquiet.trans ?_
  rcases (unlinked.work.identities.get? id).filter (· ≠ key) with _ | other
  · exact .refl _
  · have hremoved := unlinked.quiet_removeRecord other
    dsimp only
    rcases hforgotten : unlinked.removeRecord other with ⟨_ | replaced, w'⟩
    all_goals rw [hforgotten] at hremoved
    · exact hremoved
    · exact hremoved.trans (w'.shared.quiet_warn rfl)

theorem quiet_settlePut (w : Workspace) (key : RecordKey) (body sent result : Fields) :
    w.shared.Quiet (w.settlePut key body sent result).2.shared := by
  unfold settlePut
  split
  · exact .refl _
  · split
    · exact .refl _
    · next r _ =>
      refine .trans ?_ (quiet_settleId ..)
      cases hentity : r.entity with
      | none => exact w.shared.quiet_release r
      | some entity => exact .of_warnings rfl

theorem Renews.quiet {r : Record} {body : Fields} {shared : Shared}
    (h : w.Renews r body shared) : w.shared.Quiet shared := by
  rcases h with ⟨-, rfl⟩ | ⟨entity, e, -, -, rfl⟩
  · exact .refl _
  · exact .of_warnings rfl

theorem quiet_settleModified (w : Workspace) (key : RecordKey) (r : Record) (document : Fields) :
    w.shared.Quiet (w.settleModified key r document).2.shared := by
  rcases settleModified_cases (w := w) key r document with ⟨e, heq⟩ | ⟨shared, hrenews, heq⟩
  · rw [heq]
    exact .refl _
  · rw [heq]
    refine hrenews.quiet.trans ?_
    dsimp only
    split
    · exact .refl _
    · exact shared.quiet_release r

theorem quiet_settleDeferredPatch (w : Workspace) (id : String) (result : Fields) :
    w.shared.Quiet (w.settleDeferredPatch id result).2.shared := by
  unfold settleDeferredPatch
  split
  · exact .refl _
  · split
    · exact .refl _
    · exact quiet_settleModified { w with work := w.work.modifyRecord _ _ } _ _ _

/-- Settling a result gives no budget warning. -/
theorem quiet_settleResult (w : Workspace) (planned : Planned) (result : Fields) :
    w.shared.Quiet (w.settleResult planned result).2.shared := by
  unfold settleResult
  cases planned.origin with
  | put key body metadata => exact w.quiet_settlePut key body metadata result
  | delete key =>
    have hremoved := w.quiet_removeRecord key
    unfold settleDelete
    dsimp only
    rcases hremove : w.removeRecord key with ⟨_ | r, w'⟩
    all_goals
      rw [hremove] at hremoved
      exact hremoved
  | deferred =>
    cases planned.command.kind with
    | put =>
      unfold settleDeferredPut
      cases w.work.recordForId? planned.command.id with
      | none => exact .refl _
      | some found => exact w.shared.quiet_release found.2
    | delete =>
      unfold settleDeferredDelete
      cases w.work.identities.get? planned.command.id with
      | none => exact .refl _
      | some key => exact w.quiet_removeRecord key
    | patch => exact w.quiet_settleDeferredPatch planned.command.id result

theorem quiet_settleAll (w : Workspace) (failure : Option Error) (plan : Plan)
    (results : List Fields) : w.shared.Quiet (w.settleAll failure plan results).2.shared := by
  induction plan generalizing w failure results with
  | nil => exact .refl _
  | cons planned plan ih =>
    cases results with
    | nil => exact .refl _
    | cons result results =>
      rw [settleAll]
      exact (w.quiet_settleResult planned result).trans (ih _ _ results)

theorem quiet_announce (hquiet : callbacks.Quiet) (w : Workspace) (failure : Option Error)
    (keys : List RecordKey) :
    w.shared.Quiet (w.announce callbacks failure keys).2.shared := by
  induction keys generalizing w failure with
  | nil => exact .refl _
  | cons key rest ih =>
    rw [announce]
    split
    · exact ih w failure
    · exact (Callbacks.quiet_callEach hquiet.afterSave _ w.shared).trans (ih _ _)

theorem quiet_settle (hquiet : callbacks.Quiet) (w : Workspace) (plan : Plan)
    (answer : Option Json) : w.shared.Quiet (w.settle callbacks plan answer).2.shared := by
  unfold settle
  split
  · exact .refl _
  · next results _ =>
    exact (w.quiet_settleAll none plan results).trans (quiet_announce hquiet _ _ _)

end Workspace

end DocumentSession
