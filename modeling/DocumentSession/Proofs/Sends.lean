import DocumentSession.Proofs.Plan
import DocumentSession.Proofs.Reachable
import DocumentSession.Proofs.Run

set_option autoImplicit false

/-! # The request of a save

A request that is sent comes to the end of `sent`, and `execute` gives its response; one that is not
sent leaves the connection as it is (`Sends`). A save succeeds without a request if and only if its
plan is empty (`save_sends_nothing_iff`). One that succeeds settles each result of its plan without
an error (`settled_of_save`). -/

namespace DocumentSession

/-- A workspace with the same unit of work, entities and dictionaries is one with no dictionary
opened. -/
theorem Workspace.Opened.of_same {w w' : Workspace} (hwork : w'.work = w.work)
    (hentities : w'.shared.entities = w.shared.entities)
    (hdictionaries : w'.shared.dictionaries = w.shared.dictionaries) : w.Opened w' := by
  refine ⟨by rw [hwork], ?_, ?_, hentities⟩
  · intro key r hr
    refine ⟨r.dictionary, ?_, ?_⟩
    · rw [hwork]
      exact hr
    · rw [hdictionaries]
  · intro key hnone
    rw [hwork]
    exact hnone

namespace Workspace

variable {plan : Plan} {results : List Fields}

theorem eq_ok_of_checkResult {command : Command} {item : Json} {fields : Fields}
    (hresult : checkResult command item = .ok fields) :
    item = .obj fields ∧ (command.kind = .put →
      (resultId fields).isSome = true ∧ (Record.changeVectorOf fields).isSome = true) := by
  cases item with
  | obj fields' =>
    unfold checkResult at hresult
    dsimp only at hresult
    split at hresult
    · cases hresult
    · next hlacking =>
      obtain rfl := Except.ok.inj hresult
      refine ⟨rfl, ?_⟩
      intro hput
      have hnone : requiredKeys.find?
          (fun key => ((Keyed.find? fields' key).bind Json.str?).isNone) = none := by
        rw [Option.eq_none_iff_forall_ne_some]
        exact fun key => hlacking key hput
      simp only [List.find?_eq_none, Bool.not_eq_true, Option.isNone_eq_false_iff] at hnone
      exact ⟨hnone _ (List.mem_cons_self ..),
        hnone _ (List.mem_cons_of_mem _ (List.mem_cons_self ..))⟩
  | _ => cases hresult

theorem eq_ok_of_checkResults {plan : Plan} {items : List Json}
    (hlength : items.length = plan.length)
    (hresults : checkResults plan.commands items = .ok results) :
    items = results.map .obj
      ∧ List.Forall₂ (fun (planned : Planned) result => planned.command.kind = .put →
        (resultId result).isSome = true ∧ (Record.changeVectorOf result).isSome = true)
        plan results := by
  unfold Plan.commands at hresults
  induction plan generalizing items results with
  | nil =>
    obtain rfl := List.length_eq_zero_iff.mp hlength
    obtain rfl := Except.ok.inj hresults
    exact ⟨rfl, .nil⟩
  | cons planned plan ih =>
    cases items with
    | nil => cases hlength
    | cons item items =>
      rw [List.map_cons, checkResults] at hresults
      cases hfirst : checkResult planned.command item with
      | error e =>
        rw [hfirst] at hresults
        cases hresults
      | ok fields =>
        rw [hfirst] at hresults
        cases hrest : checkResults (plan.map Planned.command) items with
        | error e =>
          simp only [hrest] at hresults
          cases hresults
        | ok rest =>
          simp only [hrest] at hresults
          obtain rfl := Except.ok.inj hresults
          obtain ⟨rfl, hnamed⟩ := eq_ok_of_checkResult hfirst
          obtain ⟨rfl, hrestNamed⟩ := ih (Nat.succ.inj hlength) hrest
          exact ⟨rfl, .cons hnamed hrestNamed⟩

/-- A reply that is accepted lists one object for each command, and that of a PUT has an `@id` and a
`@change-vector`. -/
theorem eq_ok_of_resultsFor {answer : Option Json}
    (hresults : resultsFor plan answer = .ok results) :
    answer.bind (fun body => (body.get? "Results").bind Json.items?) = some (results.map .obj)
      ∧ List.Forall₂ (fun (planned : Planned) result => planned.command.kind = .put →
        (resultId result).isSome = true ∧ (Record.changeVectorOf result).isSome = true)
        plan results := by
  unfold resultsFor at hresults
  split at hresults
  · cases hresults
  · next body hbody =>
    obtain ⟨rfl, -⟩ := Option.filter_eq_some_iff.mp hbody
    split at hresults
    · cases hresults
    · next items hitems =>
      split at hresults
      · cases hresults
      · next hlength =>
        obtain ⟨rfl, hnamed⟩ := eq_ok_of_checkResults (not_not.mp hlength) hresults
        exact ⟨hitems, hnamed⟩

end Workspace

namespace OpenSession

open Workspace

variable {s s' : OpenSession}

/-! ## Sending -/

/-- The effect of `send`, whatever it answers. -/
structure Sends (s : OpenSession) (r : Request) (answer : Except Halt Response) (s' : OpenSession) :
    Prop where
  work : s'.session.work = s.session.work
  callbacks : s'.session.callbacks = s.session.callbacks
  entities : s'.shared.entities = s.shared.entities
  dictionaries : s'.shared.dictionaries = s.shared.dictionaries
  connection : (s'.connection = s.connection ∧ ∃ halt, answer = .error halt)
    ∨ (answer, s'.connection) = s.connection.execute (s.session.options.scope r)

theorem sends_of_send {operation : String} {r : Request} {answer : Except Halt Response}
    (hsend : s.send operation r = (answer, s')) : s.Sends r answer s' := by
  have hcount : (s.count operation).2.session.work = s.session.work
      ∧ (s.count operation).2.session.callbacks = s.session.callbacks
      ∧ (s.count operation).2.session.options = s.session.options
      ∧ (s.count operation).2.shared.entities = s.shared.entities
      ∧ (s.count operation).2.shared.dictionaries = s.shared.dictionaries
      ∧ (s.count operation).2.connection = s.connection := by
    unfold count
    rcases s.session.budget.record operation with ⟨counted, warning, budget⟩
    cases warning <;> exact ⟨rfl, rfl, rfl, rfl, rfl, rfl⟩
  unfold send at hsend
  split at hsend
  · obtain ⟨rfl, rfl⟩ := Prod.mk.inj hsend
    exact ⟨rfl, rfl, rfl, rfl, Or.inl ⟨rfl, _, rfl⟩⟩
  · split at hsend
    · next hcounted =>
      rw [hcounted] at hcount
      obtain ⟨hwork, hcallbacks, -, hentities, hdictionaries, hconnection⟩ := hcount
      obtain ⟨rfl, rfl⟩ := Prod.mk.inj hsend
      exact ⟨hwork, hcallbacks, hentities, hdictionaries, Or.inl ⟨hconnection, _, rfl⟩⟩
    · next hcounted =>
      rw [hcounted] at hcount
      obtain ⟨hwork, hcallbacks, hoptions, hentities, hdictionaries, hconnection⟩ := hcount
      dsimp only at hoptions hconnection
      rw [hoptions, hconnection] at hsend
      obtain ⟨rfl, rfl⟩ := Prod.mk.inj hsend
      exact ⟨hwork, hcallbacks, hentities, hdictionaries, Or.inr rfl⟩

/-- What `send` requires to get a response. -/
theorem send_eq_ok {operation : String} {r : Request} {response : Response}
    (hsend : s.send operation r = (.ok response, s')) :
    s.connection.cancelled = none ∧ (s.session.budget.record operation).1 = .ok ()
      ∧ (s.connection.execute (s.session.options.scope r)).1 = .ok response := by
  rcases (sends_of_send hsend).connection with ⟨-, halt, herror⟩ | hexecuted
  · cases herror
  · have hcounted : (s.count operation).1 = (s.session.budget.record operation).1 := rfl
    refine ⟨?_, ?_, (congrArg Prod.fst hexecuted).symm⟩
    · unfold send at hsend
      split at hsend
      · cases (Prod.mk.inj hsend).1
      · next hcancelled => exact hcancelled
    · unfold send at hsend
      split at hsend
      · cases (Prod.mk.inj hsend).1
      · split at hsend
        · cases (Prod.mk.inj hsend).1
        · next hcount =>
          rw [← hcounted, hcount]

/-- A request with a response is the last one in `sent`. -/
theorem sent_of_send {operation : String} {r : Request} {response : Response}
    (hsend : s.send operation r = (.ok response, s')) :
    s'.connection.sent = s.connection.sent ++ [s.session.options.scope r] := by
  rcases (sends_of_send hsend).connection with ⟨-, halt, herror⟩ | hexecuted
  · cases herror
  · rw [(Prod.mk.inj hexecuted).2]

/-! ## A save -/

/-- A save succeeds without a request if and only if its plan is empty. -/
theorem save_sends_nothing_iff :
    (s.save.1 = .ok () ∧ s.save.2.connection.sent = s.connection.sent)
      ↔ (s.workspace.planSave s.session.callbacks).1 = .ok [] := by
  rcases hsave : s.save with ⟨answer, s'⟩
  constructor
  · rintro ⟨rfl, hsent⟩
    rcases save_eq_ok hsave with ⟨w, hplan, rfl⟩ | ⟨plan, w, response, s₁, -, -, hsend, -, -, rfl⟩
    · rw [hplan]
    · -- the request of a batch was sent
      have hlength := congrArg List.length ((sent_of_send hsend).symm.trans hsent)
      rw [List.length_append] at hlength
      exact absurd hlength (Nat.ne_of_gt (Nat.lt_succ_self _))
  · intro hnil
    cases saveEnds hsave with
    | idle hplan => exact ⟨rfl, rfl⟩
    | refused hplan =>
      rw [hplan] at hnil
      cases hnil
    | unanswered hplan hsome | conflict hplan hsome | failed hplan hsome | settled hplan hsome =>
      rw [hplan] at hnil
      exact absurd (Except.ok.inj hnil) hsome

/-- The commands of the next save, each with its result in the reply. -/
def batchResults (s : OpenSession) : List (Planned × Fields) :=
  match s.workspace.planSave s.session.callbacks with
  | (.error _, _) => []
  | (.ok plan, _) =>
    match (s.connection.execute (s.session.options.scope (batchRequest plan))).1 with
    | .error _ => []
    | .ok response => plan.zip ((resultsFor plan response.body).toOption.getD [])

theorem batchResults_eq {plan : Plan} {w : Workspace} {response : Response}
    {results : List Fields}
    (hplan : s.workspace.planSave s.session.callbacks = (.ok plan, w))
    (hresponse : (s.connection.execute (s.session.options.scope (batchRequest plan))).1
      = .ok response)
    (hresults : resultsFor plan response.body = .ok results) :
    s.batchResults = plan.zip results := by
  unfold batchResults
  rw [hplan]
  dsimp only
  rw [hresponse]
  dsimp only
  rw [hresults]
  rfl

/-- What a save that succeeds without callbacks has done. -/
structure Settled (s : OpenSession) (plan : Plan) (w w₁ : Workspace)
    (answers : List (Except Error Unit)) (s' : OpenSession) : Prop where
  planned : ∃ due puts, s.workspace.IsPlan plan w due puts
  consistent : w.Consistent
  commands : s.batchResults.map Prod.fst = plan
  run : w.SettlesAll s.batchResults answers w₁
  ok : ∀ answer ∈ answers, answer = .ok ()
  workspace : s'.workspace = { w₁ with work := { w₁.work with deferred := [] } }
  callbacks : s'.session.callbacks = s.session.callbacks

/-- A save that succeeds without callbacks runs over the results of its plan, settles each of them
without an error, and leaves no command deferred. -/
theorem settled_of_save (hsave : s.save = (.ok (), s')) (hquiet : s.session.callbacks = {})
    (h : s.workspace.Consistent) : ∃ plan w w₁ answers, s.Settled plan w w₁ answers s' := by
  have hkeep : Callbacks.KeepInstances {} := ⟨by simp, by simp, by simp, by simp⟩
  have hplanned := h.planSave hkeep
  rcases save_eq_ok hsave with ⟨w, hplan, rfl⟩ |
    ⟨plan, w, response, s₁, hplan, -, hsend, -, hsettled, rfl⟩
  all_goals
    have hbatch := hplan
    rw [hquiet] at hplan
    rw [hplan] at hplanned
    obtain ⟨due, puts, hparts⟩ := planSave_eq_ok h hplan
  · have hempty : s.batchResults = [] := by
      unfold batchResults
      rw [hbatch]
      dsimp only
      split <;> rfl
    -- an empty plan has none of the commands that wait
    have hdeferred : w.work.deferred = [] := by
      have hparts' := hparts.plan_eq.symm
      rw [List.append_eq_nil_iff, List.map_eq_nil_iff] at hparts'
      rw [hparts.opened.work]
      exact hparts'.2
    refine ⟨[], w, w, [], ⟨due, puts, hparts⟩, hplanned, ?_, ?_, by simp, ?_, rfl⟩
    · rw [hempty]
      rfl
    · rw [hempty]
      exact .nil w
    · rw [← hdeferred]
      rfl
  · have hsends := sends_of_send hsend
    have hquiet₁ : s₁.session.callbacks = {} := hsends.callbacks.trans hquiet
    -- sending leaves what was planned
    have hopened : w.Opened s₁.workspace :=
      .of_same hsends.work hsends.entities hsends.dictionaries
    have h₁ : s₁.workspace.Consistent := by
      have hshared := hplanned.setShared
        (Nat.le_of_eq (congrArg List.length hsends.entities.symm))
      have hsame : s₁.workspace = { w with shared := s₁.shared } := by
        unfold workspace
        rw [hsends.work]
        rfl
      rw [hsame]
      exact hshared
    rw [hquiet₁] at hsettled ⊢
    obtain ⟨results, answers, w₁, hresults, hrun, hanswers, hworkspace⟩ :=
      settles_of_settle_eq_ok h₁ hsettled
    have hpairs : s.batchResults = plan.zip results :=
      batchResults_eq hbatch (send_eq_ok hsend).2.2 hresults
    have hlength := (eq_ok_of_resultsFor hresults).2.length_eq.symm
    refine ⟨plan, s₁.workspace, w₁, answers, ⟨due, puts, hparts.plan_eq, ?_, hparts.writable,
      hparts.due_sublist, hparts.mem_due, hparts.isPutOf⟩, h₁, ?_, ?_, hanswers, hworkspace,
      hquiet₁.trans hquiet.symm⟩
    · exact hparts.opened.trans hopened
    · rw [hpairs]
      exact List.map_fst_zip (Nat.le_of_eq hlength.symm)
    · rw [hpairs]
      exact hrun

end OpenSession

end DocumentSession
