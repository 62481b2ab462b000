import DocumentSession.Proofs.SettledVersions
import DocumentSession.Proofs.PerformCases
import DocumentSession.Proofs.Sends

set_option autoImplicit false

/-! # The unit of work after a save

A save plans, and then settles the results of its whole plan or none of them. `OpenSession.Saves`
says this of the unit of work, with any callbacks: what planning and every run of results preserve,
a save preserves. -/

namespace DocumentSession.OpenSession

open Workspace (resultsFor settle settleAll_settlesAll announce_work eq_ok_of_resultsFor)

variable {s s' : OpenSession}

/-- The commands of the next save, each with its result, if the server answers with success and a
well-formed reply. -/
def acknowledged (s : OpenSession) : List (Planned × Fields) :=
  match s.workspace.planSave s.session.callbacks with
  | (.error _, _) => []
  | (.ok plan, w) =>
    match ((s.withWorkspace w).send "save_changes" (batchRequest plan)).1 with
    | .error _ => []
    | .ok response =>
      if response.isSuccess then plan.zip ((resultsFor plan response.body).toOption.getD []) else []

/-- The units of work that a save can lead to. -/
inductive Saves (s : OpenSession) : UnitOfWork → Prop where
  /-- Nothing is sent, or no result is settled. -/
  | unsettled {w : Workspace} (hplans : s.workspace.Plans s.session.callbacks w) : Saves s w.work
  | settled {plan : Plan} {w w₁ w₂ : Workspace} {answers : List (Except Error Unit)}
    (hplan : s.workspace.planSave s.session.callbacks = (.ok plan, w))
    (hcommands : s.acknowledged.map Prod.fst = plan) (hwork : w₁.work = w.work)
    (hconsistent : w₁.Consistent) (hrun : w₁.SettlesAll s.acknowledged answers w₂) :
    Saves s { w₂.work with deferred := [] }

/-- A save leads to one of these. -/
theorem saves (h : s.Consistent) : s.Saves s.save.2.session.work := by
  rcases hsave : s.save with ⟨answer, s'⟩
  cases saveEnds hsave with
  | refused hplan | idle hplan => exact .unsettled (Workspace.plans_planSave hplan)
  | unanswered hplan _ hsend | conflict hplan _ hsend | failed hplan _ hsend =>
    have hunsettled := Saves.unsettled (s := s) (Workspace.plans_planSave hplan)
    exact (sends_of_send hsend).work ▸ hunsettled
  | @settled plan w response s₁ hplan _ hsend hsuccess =>
    have hplans := Workspace.plans_planSave hplan
    have hconsistent := h.workspace.planSave h.callbacks
    rw [hplan] at hconsistent
    have hwork : s₁.session.work = w.work := (sends_of_send hsend).work
    have h₁ : s₁.Consistent := (h.withWorkspace hconsistent).reads (reads_send hsend)
    show s.Saves (s₁.workspace.settle _ plan response.body).2.work
    unfold settle
    cases hresults : resultsFor plan response.body with
    | error e =>
      show s.Saves s₁.session.work
      rw [hwork]
      exact .unsettled hplans
    | ok results =>
      have hpairs : s.acknowledged = plan.zip results := by
        unfold acknowledged
        rw [hplan]
        dsimp only
        rw [hsend]
        dsimp only
        rw [if_pos hsuccess, hresults]
        rfl
      have hlength := (eq_ok_of_resultsFor hresults).2.length_eq.symm
      obtain ⟨answers, hrun, -⟩ := settleAll_settlesAll h₁.workspace none plan results
      rw [← hpairs] at hrun
      show s.Saves (Workspace.announce _ _ _ _).2.work
      rw [(announce_work _ _ _ _).1]
      refine .settled hplan ?_ hwork h₁.workspace hrun
      rw [hpairs]
      exact List.map_fst_zip (Nat.le_of_eq hlength.symm)

end DocumentSession.OpenSession
