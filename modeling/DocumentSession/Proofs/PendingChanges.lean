import DocumentSession.Proofs.ExactPlan
import DocumentSession.Proofs.Sends

set_option autoImplicit false

/-! # `hasChanges` and the next save

`Workspace.hasChanges` walks through the records on its own: it stops at the first entity that has
changed (`anyChanged`), and asks neither which records are to be deleted nor for which documents
commands are deferred. It comes to the same as planning. The session has no changes if and only if
no command is deferred and no record is pending (`hasChanges_eq_ok_false_iff`), which is when a plan
is empty, and the walk fails over no entity that can be planned (`hasChanges_ne_error`). So the
answer says whether the next save sends anything (`OpenSession.hasChanges_predicts_save`). -/

namespace DocumentSession

namespace Workspace

variable {w w' : Workspace}

/-! ## The walk through the records -/

/-- `anyChanged` answers `false` if and only if every record that it looks at is unchanged. -/
theorem anyChanged_eq_ok_false_iff {keys : List RecordKey} :
    w.anyChanged keys = .ok false
      ↔ ∀ key ∈ keys, ∀ r, w.work.records.find? key = some r → r.ignoreChanges = false →
          w.entityChanged r = .ok false := by
  induction keys with
  | nil => simp [anyChanged]
  | cons key rest ih =>
    rw [List.forall_mem_cons, ← ih, anyChanged]
    cases hr : w.work.records.find? key with
    | none => simp
    | some r =>
      cases hignored : r.ignoreChanges with
      | true => simp [hignored]
      | false =>
        rcases hchanged : w.entityChanged r with e | _ | _ <;> simp [hignored, hchanged]

/-- `anyChanged` fails only over a record that it looks at. -/
theorem exists_of_anyChanged_eq_error {keys : List RecordKey} {e : Error}
    (h : w.anyChanged keys = .error e) :
    ∃ key ∈ keys, ∃ r, w.work.records.find? key = some r ∧ r.ignoreChanges = false
      ∧ w.entityChanged r = .error e := by
  induction keys with
  | nil => cases h
  | cons key rest ih =>
    have hlater (h : w.anyChanged rest = .error e) : ∃ k ∈ key :: rest, ∃ r,
        w.work.records.find? k = some r ∧ r.ignoreChanges = false
          ∧ w.entityChanged r = .error e := by
      obtain ⟨k, hk, hfound⟩ := ih h
      exact ⟨k, List.mem_cons_of_mem key hk, hfound⟩
    rw [anyChanged] at h
    cases hr : w.work.records.find? key with
    | none =>
      rw [hr] at h
      exact hlater h
    | some r =>
      cases hignored : r.ignoreChanges with
      | true =>
        simp only [hr, hignored, if_true] at h
        exact hlater h
      | false =>
        simp only [hr, hignored, Bool.false_eq_true, if_false] at h
        rcases hchanged : w.entityChanged r with e' | _ | _
        · rw [hchanged] at h
          obtain rfl := Except.error.inj h
          exact ⟨key, List.mem_cons_self .., r, hr, hignored, hchanged⟩
        · rw [hchanged] at h
          exact hlater h
        · rw [hchanged] at h
          cases h

/-! ## `hasChanges` and the plan -/

/-- `hasChanges` looks at every record that may have changed. -/
theorem mem_records_of_entityChanged (h : w.Consistent) {key : RecordKey} {r : Record}
    (hr : w.work.records.find? key = some r) (hchanged : w.entityChanged r ≠ .ok false) :
    key ∈ w.work.registry.records := by
  cases hentity : r.entity with
  | none =>
    unfold entityChanged at hchanged
    rw [hentity] at hchanged
    exact absurd rfl hchanged
  | some entity =>
    exact (Registry.mem_records h.registry_sorted).mpr
      ⟨entity, (h.held entity key).mpr ⟨r, hr, hentity⟩⟩

/-- `hasChanges` answers `false` if and only if no command is deferred and no record is pending. -/
theorem hasChanges_eq_ok_false_iff (h : w.Consistent) :
    w.hasChanges = .ok false
      ↔ w.work.deferred = []
        ∧ ∀ key r, w.work.records.find? key = some r → ¬ w.IsPending key r := by
  unfold hasChanges
  constructor
  · intro hnone
    split at hnone
    · cases hnone
    · next hwaits =>
      simp only [Bool.or_eq_true, Bool.not_eq_true', not_or, Bool.not_eq_false,
        List.isEmpty_iff] at hwaits
      obtain ⟨hdeleted, hdeferred⟩ := hwaits
      refine ⟨hdeferred, ?_⟩
      rintro key r hr (hdelete | ⟨hwatched, hchanged⟩)
      · unfold UnitOfWork.isToDelete at hdelete
        rw [hdeleted] at hdelete
        cases hdelete
      · have hmem := mem_records_of_entityChanged h hr hchanged
        exact hchanged (anyChanged_eq_ok_false_iff.mp hnone key hmem r hr hwatched)
  · rintro ⟨hdeferred, hidle⟩
    have hdeleted : w.work.deleted = [] := by
      rw [List.eq_nil_iff_forall_not_mem]
      intro entry hmem
      have hdelete : w.work.isToDelete entry.1 = true :=
        Keyed.contains_iff_mem_keys.mpr (List.mem_map_of_mem hmem)
      obtain ⟨r, hr, -⟩ := h.deletable entry.1 hdelete
      exact hidle entry.1 r hr (Or.inl hdelete)
    rw [hdeleted, hdeferred]
    refine anyChanged_eq_ok_false_iff.mpr fun key _ r hr hwatched => ?_
    by_contra hchanged
    exact hidle key r hr (Or.inr ⟨hwatched, hchanged⟩)

/-- `hasChanges` fails over no entity that can be planned. -/
theorem hasChanges_ne_error {plan puts : Plan} {due : List RecordKey}
    (hplan : w.IsPlan plan w' due puts) (e : Error) : w.hasChanges ≠ .error e := by
  unfold hasChanges
  intro hfailed
  split at hfailed
  · cases hfailed
  · next hwaits =>
    simp only [Bool.or_eq_true, Bool.not_eq_true', not_or, Bool.not_eq_false,
      List.isEmpty_iff] at hwaits
    obtain ⟨hdeleted, hdeferred⟩ := hwaits
    obtain ⟨key, -, r, hr, hwatched, hchanged⟩ := exists_of_anyChanged_eq_error hfailed
    -- where nothing waits, the plan considers every record that the walk looks at
    have hpending : w.IsPending key r := by
      refine Or.inr ⟨hwatched, ?_⟩
      rw [hchanged]
      exact nofun
    have hkept : w.work.isToDelete key = false := by
      unfold UnitOfWork.isToDelete
      rw [hdeleted]
      rfl
    obtain ⟨entity, hconsiders, -⟩ :=
      hpending.considers hr hkept (hasDeferred_of_nil hdeferred r.id)
    obtain ⟨body, hbody⟩ := hplan.writable key r entity hconsiders
    rw [entityChanged_eq_mustWrite hconsiders.holds hbody] at hchanged
    cases hchanged

/-- `hasChanges` answers `true` if and only if the plan of the next save has a command, if there is
a plan. -/
theorem hasChanges_eq_ok (h : w.Consistent) {plan : Plan} (hplan : (w.planSave {}).1 = .ok plan) :
    w.hasChanges = .ok (!plan.isEmpty) := by
  have hfalse : w.hasChanges = .ok false ↔ plan = [] := by
    rw [hasChanges_eq_ok_false_iff h, ← planSave_eq_nil_iff h, hplan, Except.ok.injEq]
  rcases hchanges : w.hasChanges with e | _ | _
  · obtain ⟨due, puts, hparts⟩ := planSave_eq_ok h (Prod.ext hplan rfl)
    exact absurd hchanges (hasChanges_ne_error hparts e)
  · rw [hfalse.mp hchanges]
    rfl
  · cases plan with
    | nil =>
      rw [hfalse.mpr rfl] at hchanges
      cases hchanges
    | cons planned rest => rfl

end Workspace

namespace OpenSession

open Workspace

variable {s s' : OpenSession}

/-! ## `hasChanges` and the save -/

/-- `send` would not refuse a request for `operation`: the caller has not cancelled, and the budget
has room. -/
structure MaySend (s : OpenSession) (operation : String) : Prop where
  wanted : s.connection.cancelled = none
  counted : (s.session.budget.record operation).1 = .ok ()

/-- The request of a plan is sent if it `MaySend`, whatever the answer is. -/
theorem MaySend.sent_sendPlan (h : s.MaySend "save_changes") (plan : Plan) :
    (s.sendPlan plan).2.connection.sent
      = s.connection.sent ++ [s.session.options.scope (batchRequest plan)] := by
  have hsent : (s.send "save_changes" (batchRequest plan)).2.connection.sent
      = s.connection.sent ++ [s.session.options.scope (batchRequest plan)] := by
    unfold send count
    rcases hrecord : s.session.budget.record "save_changes" with ⟨counted, warning, budget⟩
    have hcounted := h.counted
    rw [hrecord] at hcounted
    obtain rfl : counted = .ok () := hcounted
    rw [h.wanted]
    rfl
  unfold sendPlan
  rcases hsend : s.send "save_changes" (batchRequest plan) with ⟨answer, s₁⟩
  rw [hsend] at hsent
  cases answer with
  | error halt => exact hsent
  | ok response =>
    dsimp only
    split
    · exact hsent
    · split
      · exact hsent
      · exact hsent

/-- Without callbacks, a session whose next save is planned has changes if and only if the plan has
a command. Where it has none, a save succeeds and leaves all as it is. A save that `MaySend` a
request sends none if and only if the session has no changes. -/
theorem hasChanges_predicts_save (h : s.Reachable) (hquiet : s.session.callbacks = {})
    {plan : Plan} (hplan : (s.workspace.planSave s.session.callbacks).1 = .ok plan) :
    s.workspace.hasChanges = .ok (!plan.isEmpty)
      ∧ (s.workspace.hasChanges = .ok false ↔ s.save = (.ok (), s))
      ∧ (s.MaySend "save_changes" →
          (s.workspace.hasChanges = .ok false ↔ s.save.2.connection.sent = s.connection.sent)) := by
  have hconsistent := h.consistent.workspace
  rw [hquiet] at hplan
  have hchanges := hasChanges_eq_ok hconsistent hplan
  -- an empty plan is made without a trace
  have hidle (hnone : s.workspace.hasChanges = .ok false) : s.save = (.ok (), s) := by
    obtain ⟨hdeferred, hidle⟩ := (hasChanges_eq_ok_false_iff hconsistent).mp hnone
    unfold save
    rw [attempt_eq, hquiet, planSave_of_idle hconsistent hdeferred hidle]
    rfl
  refine ⟨hchanges, ⟨hidle, fun hsave => ?_⟩, fun hmay => ⟨fun hnone => ?_, fun hsent => ?_⟩⟩
  · have hnothing : s.save.1 = .ok () ∧ s.save.2.connection.sent = s.connection.sent := by
      rw [hsave]
      exact ⟨rfl, rfl⟩
    have hnil := save_sends_nothing_iff.mp hnothing
    rw [hquiet, hplan] at hnil
    rw [hchanges, Except.ok.inj hnil]
    rfl
  · rw [hidle hnone]
  · cases plan with
    | nil => exact hchanges
    | cons planned rest =>
      exfalso
      rcases hplanned : s.workspace.planSave s.session.callbacks with ⟨answer, w⟩
      rw [← hquiet, hplanned] at hplan
      obtain rfl : answer = _ := hplan
      have hmay' : (s.withWorkspace w).MaySend "save_changes" := ⟨hmay.wanted, hmay.counted⟩
      rw [save_eq_sendPlan hplanned (List.cons_ne_nil planned rest), hmay'.sent_sendPlan] at hsent
      exact List.cons_ne_nil _ _ (List.append_right_eq_self.mp hsent)

/-- `usersEdited`, with the changes of two of the three documents ignored. -/
def usersIgnored : OpenSession :=
  (usersEdited.perform (.ignoreChanges 3)).perform (.ignoreChanges 4)

/-- `usersIgnored` with the third document to be deleted, and a PATCH deferred for it. -/
def usersShadowed : OpenSession :=
  (usersIgnored.perform (.delete 2)).perform
    (.defer [{ id := "users/1", action := .patch "" [] }])

/-- `usersIgnored` with the changes of the third document ignored too. -/
def usersAllIgnored : OpenSession :=
  usersIgnored.perform (.ignoreChanges 2)

theorem usersIgnored_reachable : usersIgnored.Reachable := by
  have hloaded : usersLoaded.Reachable :=
    .step (.loadMany Shop.anything ["users/1", "users/2", "users/3"] []) (.opened 1 {} {} _ _ _)
      trivial
  have hedited : usersEdited.Reachable :=
    hloaded.step (.outside _ _ _) (Nat.le_of_eq (List.length_map _).symm)
  exact (hedited.step (.ignoreChanges 3) trivial).step (.ignoreChanges 4) trivial

/-- A session whose only DELETE is left out for a PATCH, and whose every edit is ignored, has
changes. Once the third edit is ignored in place of both, it has none, and a save leaves all as it
is. -/
theorem hasChanges_predicts_save_ignored :
    usersShadowed.workspace.hasChanges = .ok true
      ∧ usersShadowed.save.2.connection.sent ≠ usersShadowed.connection.sent
      ∧ usersAllIgnored.save = (.ok (), usersAllIgnored) := by
  have hshadowed : usersShadowed.Reachable :=
    (usersIgnored_reachable.step (.delete 2) trivial).step (.defer _) trivial
  have hignored : usersAllIgnored.Reachable :=
    usersIgnored_reachable.step (.ignoreChanges 2) trivial
  have hnothing : (usersAllIgnored.workspace.planSave {}).1 = .ok [] := by decide +kernel
  have hscript : (usersShadowed.workspace.planSave {}).1
      = .ok [plannedDeferred { id := "users/1", action := .patch "" [] }] := by
    decide +kernel
  have hmay : usersShadowed.MaySend "save_changes" := ⟨rfl, by decide +kernel⟩
  have hquiet : usersShadowed.session.callbacks = {} := usersLoaded_callbacks
  have hquiet' : usersAllIgnored.session.callbacks = {} := usersLoaded_callbacks
  rw [← hquiet] at hscript
  rw [← hquiet'] at hnothing
  obtain ⟨hchanges, -, hsends⟩ := hasChanges_predicts_save hshadowed hquiet hscript
  obtain ⟨hidle, hsave, -⟩ := hasChanges_predicts_save hignored hquiet' hnothing
  refine ⟨hchanges, fun hsent => ?_, hsave.mp hidle⟩
  rw [(hsends hmay).mpr hsent] at hchanges
  cases hchanges

end OpenSession

end DocumentSession
