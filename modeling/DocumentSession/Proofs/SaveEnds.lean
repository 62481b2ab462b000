import DocumentSession.Proofs.SessionReads
import DocumentSession.Session.Save

set_option autoImplicit false

/-! # The ends of a save

`save` plans, sends the plan and settles the reply, and it may end at each of these steps.
`OpenSession.SaveEnds` lists the ends, each with its answer and the session that it leaves. What
holds of every save is proved by these cases. -/

namespace DocumentSession.OpenSession

/-- The ways in which a save ends. -/
inductive SaveEnds (s : OpenSession) : Except Halt Unit → OpenSession → Prop where
  /-- A callback refuses, or an entity cannot be encoded. -/
  | refused {e : Error} {w : Workspace}
    (hplan : s.workspace.planSave s.session.callbacks = (.error e, w)) :
    SaveEnds s (.error (.failed e)) (s.withWorkspace w)
  /-- The plan is empty. -/
  | idle {w : Workspace} (hplan : s.workspace.planSave s.session.callbacks = (.ok [], w)) :
    SaveEnds s (.ok ()) (s.withWorkspace w)
  /-- The request is not sent, or gets no response. -/
  | unanswered {plan : Plan} {w : Workspace} {halt : Halt} {s₁ : OpenSession}
    (hplan : s.workspace.planSave s.session.callbacks = (.ok plan, w)) (hsome : plan ≠ [])
    (hsend : (s.withWorkspace w).send "save_changes" (batchRequest plan) = (.error halt, s₁)) :
    SaveEnds s (.error halt) s₁
  /-- The server reports a concurrency conflict. -/
  | conflict {plan : Plan} {w : Workspace} {response : Response} {s₁ : OpenSession}
    (hplan : s.workspace.planSave s.session.callbacks = (.ok plan, w)) (hsome : plan ≠ [])
    (hsend : (s.withWorkspace w).send "save_changes" (batchRequest plan) = (.ok response, s₁))
    (hfailed : response.isSuccess = false)
    (hconflict : response.toError.isConcurrencyConflict = true) :
    SaveEnds s (.error (.failed response.toError)) (s₁.warn .batchRejected)
  /-- The server reports another error. -/
  | failed {plan : Plan} {w : Workspace} {response : Response} {s₁ : OpenSession}
    (hplan : s.workspace.planSave s.session.callbacks = (.ok plan, w)) (hsome : plan ≠ [])
    (hsend : (s.withWorkspace w).send "save_changes" (batchRequest plan) = (.ok response, s₁))
    (hfailed : response.isSuccess = false)
    (hother : response.toError.isConcurrencyConflict = false) :
    SaveEnds s (.error (.failed response.toError)) s₁
  /-- The server answers with success, and its reply is settled. -/
  | settled {plan : Plan} {w : Workspace} {response : Response} {s₁ : OpenSession}
    (hplan : s.workspace.planSave s.session.callbacks = (.ok plan, w)) (hsome : plan ≠ [])
    (hsend : (s.withWorkspace w).send "save_changes" (batchRequest plan) = (.ok response, s₁))
    (hsuccess : response.isSuccess = true) :
    SaveEnds s
      ((s₁.workspace.settle s₁.session.callbacks plan response.body).1.mapError .failed)
      (s₁.withWorkspace (s₁.workspace.settle s₁.session.callbacks plan response.body).2)

variable {s s' : OpenSession}

theorem attempt_eq {α : Type} (s : OpenSession) (f : Workspace → Except Error α × Workspace) :
    s.attempt f = ((f s.workspace).1.mapError .failed, s.withWorkspace (f s.workspace).2) := rfl

theorem save_eq_sendPlan {plan : Plan} {w : Workspace}
    (hplan : s.workspace.planSave s.session.callbacks = (.ok plan, w)) (hsome : plan ≠ []) :
    s.save = (s.withWorkspace w).sendPlan plan := by
  unfold save
  rw [attempt_eq, hplan]
  cases plan with
  | nil => exact absurd rfl hsome
  | cons planned rest => rfl

/-- Every save ends in one of these ways. -/
theorem saveEnds {answer : Except Halt Unit} (h : s.save = (answer, s')) :
    s.SaveEnds answer s' := by
  rcases hplan : s.workspace.planSave s.session.callbacks with ⟨e | plan, w⟩
  · unfold save at h
    rw [attempt_eq, hplan] at h
    obtain ⟨rfl, rfl⟩ := Prod.mk.inj h
    exact .refused hplan
  · by_cases hsome : plan = []
    · subst hsome
      unfold save at h
      rw [attempt_eq, hplan] at h
      obtain ⟨rfl, rfl⟩ := Prod.mk.inj h
      exact .idle hplan
    · rw [save_eq_sendPlan hplan hsome] at h
      unfold sendPlan at h
      rcases hsend : (s.withWorkspace w).send "save_changes" (batchRequest plan) with
        ⟨halt | response, s₁⟩
      all_goals
        rw [hsend] at h
        dsimp only at h
      · obtain ⟨rfl, rfl⟩ := Prod.mk.inj h
        exact .unanswered hplan hsome hsend
      · split at h
        · next hsuccess =>
          obtain ⟨rfl, rfl⟩ := Prod.mk.inj h
          exact .settled hplan hsome hsend hsuccess
        · next hfailed =>
          rw [Bool.not_eq_true] at hfailed
          split at h
          · next hconflict =>
            obtain ⟨rfl, rfl⟩ := Prod.mk.inj h
            exact .conflict hplan hsome hsend hfailed hconflict
          · next hother =>
            obtain ⟨rfl, rfl⟩ := Prod.mk.inj h
            exact .failed hplan hsome hsend hfailed ((Bool.not_eq_true _).mp hother)

/-- A save that succeeds has an empty plan, or settles a reply without an error. -/
theorem save_eq_ok (h : s.save = (.ok (), s')) :
    (∃ w, s.workspace.planSave s.session.callbacks = (.ok [], w) ∧ s' = s.withWorkspace w)
      ∨ ∃ plan w response s₁,
        s.workspace.planSave s.session.callbacks = (.ok plan, w) ∧ plan ≠ []
          ∧ (s.withWorkspace w).send "save_changes" (batchRequest plan) = (.ok response, s₁)
          ∧ response.isSuccess = true
          ∧ (s₁.workspace.settle s₁.session.callbacks plan response.body).1 = .ok ()
          ∧ s' = s₁.withWorkspace
            (s₁.workspace.settle s₁.session.callbacks plan response.body).2 := by
  generalize hanswer : (.ok () : Except Halt Unit) = answer at h
  cases saveEnds h with
  | refused | unanswered | conflict | failed => cases hanswer
  | idle hplan => exact Or.inl ⟨_, hplan, rfl⟩
  | settled hplan hsome hsend hsuccess =>
    exact Or.inr ⟨_, _, _, _, hplan, hsome, hsend, hsuccess,
      Except.eq_ok_of_mapError hanswer.symm, rfl⟩

end DocumentSession.OpenSession
