import DocumentSession.Proofs.PendingWork
import DocumentSession.Proofs.Sends
import DocumentSession.Entity.Shop

set_option autoImplicit false

/-! # A save that fails loses nothing

A save can end before a result is settled: a `beforeStore` or `beforeDelete` callback refuses, its
request is not sent or not answered with success, or the answer is malformed
(`OpenSession.EndsEarly`). As long as the callbacks edit nothing, the workspace then looks as before
(`Undisturbed`), and the next save plans the same batch (`OpenSession.failed_save_loses_nothing`).

`resultsFor` checks the answer as a whole before the first result is settled, so it does not matter
which one is malformed. Planning has only opened dictionaries by then
(`Workspace.planSave_follows`). -/

namespace DocumentSession

namespace Workspace

variable {w w₁ w₂ : Workspace}

/-- A workspace with other notes and warnings is `Undisturbed` as well. -/
theorem Undisturbed.of_same (h : w.Undisturbed w₁) (hwork : w₂.work = w₁.work)
    (hentities : w₂.shared.entities = w₁.shared.entities)
    (hdictionaries : w₂.shared.dictionaries = w₁.shared.dictionaries) : w.Undisturbed w₂ := by
  have hshared : w₁.shared.Undisturbed w₂.shared := by
    refine ⟨?_, ?_⟩
    · exact hentities ▸ List.prefix_refl _
    · rw [hdictionaries]
      exact .refl _
  have hsame : w₂ = { w₁ with shared := w₂.shared } := by rw [← hwork]
  rw [hsame]
  exact h.trans (.of_shared h.inOrder hshared)

/-! ## Malformed answers -/

/-- What can be wrong with the answer to `plan`. -/
inductive Malformed (plan : Plan) (answer : Option Json) : Prop where
  /-- There is no answer, or it has no list of results. -/
  | unlisted (hitems : resultItems answer = none)
  | miscounted {items : List Json} (hitems : resultItems answer = some items)
    (hlength : items.length ≠ plan.length)
  | notObject {items : List Json} {item : Json} (hitems : resultItems answer = some items)
    (hmem : item ∈ items) (hitem : item.fields? = none)
  /-- The result of a PUT has no identifier or no version. -/
  | lacking {items : List Json} {i : Nat} {planned : Planned} {fields : Fields} {key : String}
    (hitems : resultItems answer = some items) (hplanned : plan[i]? = some planned)
    (hfields : items[i]? = some (.obj fields)) (hput : planned.command.kind = .put)
    (hkey : key ∈ requiredKeys) (hlacks : (Keyed.find? fields key).bind Json.str? = none)

/-- `resultsFor` refuses a malformed answer. -/
theorem Malformed.not_taken {plan : Plan} {answer : Option Json} (h : Malformed plan answer)
    (results : List Fields) : resultsFor plan answer ≠ .ok results := by
  intro hresults
  obtain ⟨hlisted, hnamed⟩ := eq_ok_of_resultsFor hresults
  replace hlisted : resultItems answer = some (results.map .obj) := hlisted
  cases h with
  | unlisted hitems =>
    rw [hlisted] at hitems
    cases hitems
  | miscounted hitems hlength =>
    rw [hlisted] at hitems
    obtain rfl := Option.some.inj hitems
    rw [List.length_map] at hlength
    exact hlength hnamed.length_eq.symm
  | notObject hitems hmem hitem =>
    rw [hlisted] at hitems
    obtain rfl := Option.some.inj hitems
    obtain ⟨fields, -, rfl⟩ := List.mem_map.mp hmem
    cases hitem
  | @lacking items i planned fields key hitems hplanned hfields hput hkey hlacks =>
    rw [hlisted] at hitems
    obtain rfl := Option.some.inj hitems
    rw [List.getElem?_map] at hfields
    obtain ⟨result, hresult, hobj⟩ := Option.map_eq_some_iff.mp hfields
    obtain rfl := Json.obj.inj hobj
    obtain ⟨hi, rfl⟩ := List.getElem?_eq_some_iff.mp hplanned
    obtain ⟨hi', rfl⟩ := List.getElem?_eq_some_iff.mp hresult
    obtain ⟨hid, hversion⟩ := hnamed.get hi hi' hput
    rcases List.mem_pair.mp hkey with rfl | rfl
    · rw [resultId, List.get_eq_getElem, hlacks] at hid
      cases hid
    · rw [Record.changeVectorOf, List.get_eq_getElem, hlacks] at hversion
      cases hversion

/-- `settle` of a malformed answer fails and changes nothing. -/
theorem settle_of_malformed {plan : Plan} {answer : Option Json} (h : Malformed plan answer)
    (w : Workspace) (c : Callbacks) : ∃ e, w.settle c plan answer = (.error e, w) := by
  unfold settle
  cases hresults : resultsFor plan answer with
  | error e => exact ⟨e, rfl⟩
  | ok results => exact absurd hresults (h.not_taken results)

end Workspace

namespace OpenSession

open Workspace

variable {s s' : OpenSession} {plan : Plan}

/-! ## Saves that end early -/

/-- `plan` is not sent, or its answer is not settled. -/
inductive Unsettled (s : OpenSession) (plan : Plan) : Prop where
  | cancelled {reason : String} (h : s.connection.cancelled = some reason)
  | exhausted {e : Error} (h : (s.session.budget.record "save_changes").1 = .error e)
  | unanswered {halt : Halt}
    (h : (s.connection.execute (s.session.options.scope (batchRequest plan))).1 = .error halt)
  | failed {response : Response}
    (h : (s.connection.execute (s.session.options.scope (batchRequest plan))).1 = .ok response)
    (hstatus : response.isSuccess = false)
  | malformed {response : Response}
    (h : (s.connection.execute (s.session.options.scope (batchRequest plan))).1 = .ok response)
    (hmalformed : Malformed plan response.body)

/-- `save` ends before anything is settled. -/
inductive EndsEarly (s : OpenSession) : Prop where
  /-- A callback refuses, or an entity cannot be written. -/
  | refused {e : Error} (h : (s.workspace.planSave s.session.callbacks).1 = .error e)
  | unsettled {plan : Plan} (hplan : (s.workspace.planSave s.session.callbacks).1 = .ok plan)
    (hsome : plan ≠ []) (h : s.Unsettled plan)

/-- A plan that is `Unsettled` keeps the unit of work. -/
theorem Unsettled.sendPlan (h : s.Unsettled plan) :
    ∃ halt s', s.sendPlan plan = (.error halt, s')
      ∧ s'.session.work = s.session.work
      ∧ s'.shared.entities = s.shared.entities
      ∧ s'.shared.dictionaries = s.shared.dictionaries := by
  rcases hsend : s.send "save_changes" (batchRequest plan) with ⟨answer, s₁⟩
  have hsends := sends_of_send hsend
  unfold OpenSession.sendPlan
  rw [hsend]
  cases answer with
  | error halt => exact ⟨halt, s₁, rfl, hsends.work, hsends.entities, hsends.dictionaries⟩
  | ok response =>
    obtain ⟨hnone, hcounted, hresponse⟩ := send_eq_ok hsend
    dsimp only
    split
    · next hsuccess =>
      -- of the causes only a malformed answer is left
      have hmalformed : Malformed plan response.body := by
        cases h with
        | cancelled h =>
          rw [hnone] at h
          cases h
        | exhausted h =>
          rw [hcounted] at h
          cases h
        | unanswered h =>
          rw [hresponse] at h
          cases h
        | failed h hstatus =>
          rw [hresponse] at h
          obtain rfl := Except.ok.inj h
          rw [hsuccess] at hstatus
          cases hstatus
        | malformed h hmalformed =>
          rw [hresponse] at h
          obtain rfl := Except.ok.inj h
          exact hmalformed
      obtain ⟨e, hsettle⟩ := settle_of_malformed hmalformed s₁.workspace s₁.session.callbacks
      refine ⟨.failed e, s₁.withWorkspace s₁.workspace, ?_, hsends.work, hsends.entities,
        hsends.dictionaries⟩
      rw [attempt_eq, hsettle]
      rfl
    · refine ⟨_, _, rfl, ?_⟩
      split <;> exact ⟨hsends.work, hsends.entities, hsends.dictionaries⟩

/-- A save that `EndsEarly` fails, and leaves the unit of work as planning left it. -/
theorem EndsEarly.save (h : s.EndsEarly) :
    ∃ halt s', s.save = (.error halt, s')
      ∧ s'.session.work = (s.workspace.planSave s.session.callbacks).2.work
      ∧ s'.shared.entities = (s.workspace.planSave s.session.callbacks).2.shared.entities
      ∧ s'.shared.dictionaries
        = (s.workspace.planSave s.session.callbacks).2.shared.dictionaries := by
  rcases hplan : s.workspace.planSave s.session.callbacks with ⟨answer, w⟩
  cases h with
  | @refused e h =>
    rw [hplan] at h
    obtain rfl := h
    refine ⟨.failed e, s.withWorkspace w, ?_, rfl, rfl, rfl⟩
    unfold OpenSession.save
    rw [attempt_eq, hplan]
    rfl
  | @unsettled plan h hsome hunsettled =>
    rw [hplan] at h
    obtain rfl := h
    rw [save_eq_sendPlan hplan hsome]
    -- planning touches neither the connection nor the budget
    have hsent : (s.withWorkspace w).Unsettled plan := by
      cases hunsettled with
      | cancelled h => exact .cancelled h
      | exhausted h => exact .exhausted h
      | unanswered h => exact .unanswered h
      | failed h hstatus => exact .failed h hstatus
      | malformed h hmalformed => exact .malformed h hmalformed
    exact hsent.sendPlan

/-- A save that ends early loses nothing: the workspace looks as before, and with callbacks that
agree the next save plans what this one planned, or would have planned with them. -/
theorem failed_save_loses_nothing (h : s.Orderly) (hc : s.session.callbacks.EditNothing)
    (hends : s.EndsEarly) :
    (∃ halt, s.save.1 = .error halt) ∧ s.workspace.Undisturbed s.save.2.workspace
      ∧ ∀ c : Callbacks, c.EditNothing → c.Agree →
        (s.save.2.workspace.planSave c).1 = (s.workspace.planSave c).1
          ∧ ∀ plan, (s.workspace.planSave s.session.callbacks).1 = .ok plan →
            (s.save.2.workspace.planSave c).1 = .ok plan := by
  have hconsistent := h.reachable.consistent
  obtain ⟨hundisturbed, hfollows⟩ :=
    planSave_follows hconsistent.workspace hc h.inOrder.1 rfl
  have hsaved := hconsistent.save.workspace
  obtain ⟨halt, s', hsave, hwork, hentities, hdictionaries⟩ := hends.save
  rw [hsave] at hsaved ⊢
  have hsame : s.workspace.Undisturbed s'.workspace :=
    hundisturbed.of_same hwork hentities hdictionaries
  refine ⟨⟨halt, rfl⟩, hsame, ?_⟩
  intro c hedits hagrees
  have hbefore := (planSave_follows hconsistent.workspace hedits h.inOrder.1 rfl).2.agreed hagrees
  have hafter := (planSave_follows hsaved hedits hsame.inOrder rfl).2.agreed hagrees
  rw [hsame.pendingPlan hconsistent.workspace] at hafter
  refine ⟨hafter.trans hbefore.symm, ?_⟩
  intro plan hplan
  exact hafter.trans (hfollows.ok plan hplan)

/-- Callbacks that leave a note of every PUT. -/
def noting : Callbacks where
  beforeStore := [fun event s => (.ok (), s.note { label := "store", subject := .ok event.id })]

/-- A session whose server has two documents. -/
def besidePair : OpenSession where
  session := Session.new 1 {} {}
  shared := {}
  connection := { server := fun _ => .ok (.ok (.obj [("Results", .arr
    (["users/1", "users/2"].map fun id => .obj [("@metadata", .obj [("@id", .str id)])]))])) }
  deliveries := {}

/-- `besidePair` once both documents are loaded. -/
def pairLoaded : OpenSession :=
  besidePair.perform (.loadMany Shop.anything ["users/1", "users/2"] [])

/-- The results of two PUT commands, the second without a version. -/
def forgetfulResults : List Json :=
  [.obj [("@change-vector", .str "A:3"), ("@id", .str "users/1")],
    .obj [("@id", .str "users/2")]]

/-- Both documents are edited, and the server answers a batch with `forgetfulResults`. -/
def editPair : Operation :=
  .outside
    { pairLoaded.shared with
      entities := pairLoaded.shared.entities.map fun e =>
        { e with state := .obj [("Name", .str "Ann")] } }
    { server := fun _ => .ok (.ok (.obj [("Results", .arr forgetfulResults)])) }
    pairLoaded.deliveries

/-- `pairLoaded` after `editPair`, with the callbacks `noting`. -/
def pairEdited : OpenSession :=
  (pairLoaded.perform editPair).perform (.listen noting)

theorem noting_editNothing : noting.EditNothing := by
  refine ⟨?_, by simp [noting]⟩
  intro callback hcallback event s _
  obtain rfl := List.mem_singleton.mp hcallback
  exact ⟨List.prefix_refl _, .refl _⟩

theorem pairEdited_orderly : pairEdited.Orderly := by
  have hordered : besidePair.shared.dictionaries.Ordered := by
    intro n node hnode
    cases hnode
  have hloaded : pairLoaded.Orderly :=
    .step (.loadMany Shop.anything ["users/1", "users/2"] [])
      (.opened 1 {} {} _ _ _ hordered) trivial trivial
  have hedited : (pairLoaded.perform editPair).Orderly :=
    hloaded.step editPair (Nat.le_of_eq (List.length_map _).symm) (.refl _)
  refine hedited.step (.listen noting) ⟨?_, by simp [noting], by simp [noting], by simp [noting]⟩
    ⟨?_, by simp [noting], by simp [noting], by simp [noting]⟩
  · intro callback hcallback event s
    obtain rfl := List.mem_singleton.mp hcallback
    exact Nat.le_refl _
  · intro callback hcallback event s
    obtain rfl := List.mem_singleton.mp hcallback
    exact .refl _

/-- The second result in the answer has no version. The save fails, and the next one plans both PUT
commands again. -/
theorem failed_save_loses_nothing_forgetful :
    (∃ halt, pairEdited.save.1 = .error halt)
      ∧ ∃ plan, (pairEdited.save.2.workspace.planSave {}).1 = .ok plan
        ∧ plan.map (fun planned => (planned.command.kind, planned.command.id))
          = [(.put, "users/1"), (.put, "users/2")] := by
  have hcommands : (pairEdited.workspace.planSave noting).1.toOption.map
      (List.map (fun planned => (planned.command.kind, planned.command.id)))
        = some [(.put, "users/1"), (.put, "users/2")] := by
    decide +kernel
  cases hplan : (pairEdited.workspace.planSave noting).1 with
  | error e =>
    rw [hplan] at hcommands
    cases hcommands
  | ok plan =>
    rw [hplan] at hcommands
    replace hcommands := Option.some.inj hcommands
    have hsecond := congrArg (·[1]?) hcommands
    rw [List.getElem?_map] at hsecond
    obtain ⟨planned, hplanned, hput⟩ := Option.map_eq_some_iff.mp hsecond
    have hsome : plan ≠ [] := by
      rintro rfl
      cases hplanned
    have hends : pairEdited.EndsEarly :=
      .unsettled hplan hsome (.malformed rfl (.lacking rfl hplanned
        (show forgetfulResults[1]? = _ from rfl) (Prod.mk.inj hput).1
        (List.mem_cons_of_mem _ (List.mem_cons_self ..)) rfl))
    have hkept := failed_save_loses_nothing pairEdited_orderly noting_editNothing hends
    exact ⟨hkept.1, plan, (hkept.2.2 {} Callbacks.editNothing_nil Callbacks.agree_nil).2 plan hplan,
      hcommands⟩

end OpenSession

end DocumentSession
