import DocumentSession.Proofs.Sends
import DocumentSession.Proofs.SettledVersions

set_option autoImplicit false

/-! # The workspace between two results

The reply to a save has one result for each command. `Workspace.afterResults` is the workspace once
some of them are settled, one after the other, so what holds of runs holds of it
(`settlesAll_afterResults`). Once all results are settled no command is deferred, and `announce`
changes nothing of the unit of work (`work_settle`).

A session settles a reply in a workspace that comes from the one in which it planned the save, with
`shared` changed in between (`OpenSession.Awaits`). -/

namespace DocumentSession

namespace Workspace

variable {w : Workspace} {key : RecordKey} {plan : Plan} {results : List Fields}
  {answer : Option Json} {before after pairs : List (Planned × Fields)} {planned : Planned}
  {result : Fields}

/-- The workspace after `settleResult` for each of `pairs`. -/
def afterResults (w : Workspace) (pairs : List (Planned × Fields)) : Workspace :=
  pairs.foldl (fun v pair => (v.settleResult pair.1 pair.2).2) w

@[simp] theorem afterResults_cons (w : Workspace) (planned : Planned) (result : Fields)
    (pairs : List (Planned × Fields)) :
    w.afterResults ((planned, result) :: pairs)
      = (w.settleResult planned result).2.afterResults pairs :=
  rfl

theorem afterResults_append (w : Workspace) (before after : List (Planned × Fields)) :
    w.afterResults (before ++ after) = (w.afterResults before).afterResults after :=
  List.foldl_append

theorem settleAll_snd (w : Workspace) (failure : Option Error) (plan : Plan)
    (results : List Fields) :
    (w.settleAll failure plan results).2 = w.afterResults (plan.zip results) := by
  induction plan generalizing w failure results with
  | nil => rfl
  | cons planned plan ih =>
    cases results with
    | nil => rfl
    | cons result results =>
      rw [settleAll]
      exact ih _ _ results

/-- `afterResults` is reached by a run of results. -/
theorem settlesAll_afterResults (h : w.Consistent) (pairs : List (Planned × Fields)) :
    ∃ answers, w.SettlesAll pairs answers (w.afterResults pairs) := by
  induction pairs generalizing w with
  | nil => exact ⟨[], .nil w⟩
  | cons pair pairs ih =>
    have hfirst := settleResult_settles h pair.1 pair.2
    obtain ⟨answers, hothers⟩ := ih (h.settles hfirst)
    exact ⟨_ :: answers, .cons hfirst hothers⟩

theorem Consistent.afterResults (h : w.Consistent) (pairs : List (Planned × Fields)) :
    (w.afterResults pairs).Consistent := by
  obtain ⟨answers, hrun⟩ := settlesAll_afterResults h pairs
  exact hrun.consistent h

/-- After `settle` no command is deferred, whatever the callbacks do. -/
theorem work_settle (w : Workspace) (callbacks : Callbacks)
    (hresults : resultsFor plan answer = .ok results) :
    (w.settle callbacks plan answer).2.work
      = { (w.afterResults (plan.zip results)).work with deferred := [] } := by
  unfold settle
  rw [hresults, ← settleAll_snd w none]
  exact (announce_work _ callbacks _ _).1

/-- Without callbacks `settle` is `afterResults`, after which no command is deferred. -/
theorem settle_quiet (w : Workspace) (hresults : resultsFor plan answer = .ok results) :
    (w.settle {} plan answer).2
      = { w.afterResults (plan.zip results) with
          work := { (w.afterResults (plan.zip results)).work with deferred := [] } } := by
  unfold settle
  rw [hresults, ← settleAll_snd w none]
  dsimp only
  rw [announce_eq]

/-- `KeepsRecord` does not depend on the deferred commands. -/
theorem KeepsRecord.setDeferred {w' : Workspace} (h : w.KeepsRecord w' key)
    (deferred : List Command) :
    w.KeepsRecord { w' with work := { w'.work with deferred } } key :=
  ⟨h.record, h.indexed, h.deleted, h.entity, h.dirty, h.conventions⟩

/-- Results that spare a record leave it as it is. -/
theorem keepsRecord_afterResults (h : w.Consistent)
    (hspares : ∀ pair ∈ pairs, ∀ r, w.work.records.find? key = some r →
      Spares pair.1 pair.2 key r.id) {r : Record} (hr : w.work.records.find? key = some r) :
    w.KeepsRecord (w.afterResults pairs) key := by
  obtain ⟨answers, hrun⟩ := settlesAll_afterResults h pairs
  exact hrun.keepsRecord h hr fun pair hmem => hspares pair hmem r hr

/-- No result makes a record. -/
theorem absent_afterResults (h : w.Consistent) (hnone : w.work.records.find? key = none)
    (pairs : List (Planned × Fields)) : (w.afterResults pairs).work.records.find? key = none := by
  obtain ⟨answers, hrun⟩ := settlesAll_afterResults h pairs
  exact hrun.absent h hnone

/-! ## Each result in its workspace -/

/-- `P` holds of every result in the workspace in which it is settled. -/
def AtEach (w : Workspace) (pairs : List (Planned × Fields))
    (P : Workspace → Planned → Fields → Prop) : Prop :=
  ∀ before planned result after, pairs = before ++ (planned, result) :: after →
    P (w.afterResults before) planned result

theorem atEach_cons {P : Workspace → Planned → Fields → Prop} :
    w.AtEach ((planned, result) :: pairs) P
      ↔ P w planned result ∧ (w.settleResult planned result).2.AtEach pairs P := by
  constructor
  · intro h
    refine ⟨h [] planned result pairs rfl, fun before planned' result' after hsplit => ?_⟩
    exact h ((planned, result) :: before) planned' result' after (by rw [hsplit, List.cons_append])
  · rintro ⟨hfirst, hrest⟩ before planned' result' after hsplit
    rcases List.cons_eq_append_iff.mp hsplit with ⟨rfl, hsame⟩ | ⟨before', rfl, hrest'⟩
    · obtain ⟨hpair, -⟩ := List.cons.inj hsame
      obtain ⟨rfl, rfl⟩ := Prod.mk.inj hpair
      exact hfirst
    · exact hrest before' planned' result' after hrest'

end Workspace

namespace OpenSession

variable {s s' : OpenSession} {w : Workspace}

/-- A workspace in which the reply to a save may be settled: planning has opened dictionaries, and
since then entities may have been changed or added. -/
def Awaits (s : OpenSession) (w : Workspace) : Prop :=
  ∃ v, s.workspace.Plans s.session.callbacks v ∧ w.work = v.work
    ∧ v.shared.entities.length ≤ w.shared.entities.length

theorem Awaits.consistent (hawaits : s.Awaits w) (h : s.Consistent) : w.Consistent := by
  obtain ⟨v, hplans, hwork, hentities⟩ := hawaits
  have hshared := (h.workspace.plans h.callbacks hplans).setShared hentities
  rw [← hwork] at hshared
  exact hshared

/-- After the request of a save, the workspace is one in which its reply may be settled. -/
theorem awaits_of_send {planned : Except Error Plan} {operation : String} {r : Request}
    {answer : Except Halt Response}
    (hplan : s.workspace.planSave s.session.callbacks = (planned, w))
    (hsend : (s.withWorkspace w).send operation r = (answer, s')) : s.Awaits s'.workspace := by
  have hsends := sends_of_send hsend
  exact ⟨w, Workspace.plans_planSave hplan, hsends.work,
    Nat.le_of_eq (congrArg List.length hsends.entities.symm)⟩

end OpenSession

end DocumentSession
