import DocumentSession.Proofs.Callbacks
import DocumentSession.Proofs.Planning
import DocumentSession.Proofs.Settles

set_option autoImplicit false

/-! # Saving keeps a workspace consistent

Planning only opens dictionaries and calls callbacks. `settleResult` moves, removes or renews the
record of the result, one case for each way in which a result is settled (`Consistent.settles`). -/

namespace DocumentSession

/-! ## Callbacks -/

namespace Callbacks

/-- Callbacks that may edit entities and make new ones, but remove none. -/
structure KeepInstances (c : Callbacks) : Prop where
  beforeStore : ∀ callback ∈ c.beforeStore, ∀ event s,
    s.entities.length ≤ (callback event s).2.entities.length
  afterSave : ∀ callback ∈ c.afterSave, ∀ event s,
    s.entities.length ≤ (callback event s).2.entities.length
  beforeDelete : ∀ callback ∈ c.beforeDelete, ∀ id s,
    s.entities.length ≤ (callback id s).2.entities.length
  beforeQuery : ∀ callback ∈ c.beforeQuery, ∀ q s,
    s.entities.length ≤ (callback q s).2.2.entities.length

theorem length_entities_callEach {Event : Type} {callbacks : List (Event → Shared → Verdict)}
    (hkeep : ∀ callback ∈ callbacks, ∀ event s,
      s.entities.length ≤ (callback event s).2.entities.length) (event : Event) (s : Shared) :
    s.entities.length ≤ (callEach event callbacks s).2.entities.length :=
  relates_callEach (R := fun s s' => s.entities.length ≤ s'.entities.length)
    (fun _ => Nat.le_refl _) Nat.le_trans hkeep event s

theorem length_entities_callEachOnQuery
    {callbacks : List (Query → Shared → Option Error × Query × Shared)}
    (hkeep : ∀ callback ∈ callbacks, ∀ q s,
      s.entities.length ≤ (callback q s).2.2.entities.length) (q : Query) (s : Shared) :
    s.entities.length ≤ (callEachOnQuery callbacks q s).2.2.entities.length :=
  relates_callEachOnQuery (R := fun s s' => s.entities.length ≤ s'.entities.length)
    (fun _ => Nat.le_refl _) Nat.le_trans hkeep q s

end Callbacks

namespace Workspace.Consistent

variable {w : Workspace} {callbacks : Callbacks}

/-! ## Planning -/

theorem planStep {w' : Workspace} (h : w.Consistent) (hkeep : callbacks.KeepInstances)
    (hstep : w.PlanStep callbacks w') : w'.Consistent := by
  cases hstep with
  | beforeDelete id =>
    exact h.setShared (Callbacks.length_entities_callEach hkeep.beforeDelete id w.shared)
  | beforeStore event =>
    exact h.setShared (Callbacks.length_entities_callEach hkeep.beforeStore event w.shared)
  | opens hr _ => exact h.openDictionary hr

theorem plans {w' : Workspace} (h : w.Consistent) (hkeep : callbacks.KeepInstances)
    (hplans : w.Plans callbacks w') : w'.Consistent := by
  induction hplans with
  | refl => exact h
  | tail _ hstep ih => exact ih.planStep hkeep hstep

theorem planSave (h : w.Consistent) (hkeep : callbacks.KeepInstances) :
    (w.planSave callbacks).2.Consistent :=
  h.plans hkeep (plans_planSave rfl)

end Workspace.Consistent

/-! ## Settling -/

namespace Workspace.Consistent

variable {w : Workspace} {callbacks : Callbacks}

/-- `recordForId?` finds a record with the identifier, up to case. -/
theorem record_of_recordForId? (h : w.Consistent) {id : String} {key : RecordKey} {r : Record}
    (hfound : w.work.recordForId? id = some (key, r)) :
    w.work.records.find? key = some r ∧ Identifier.normalize r.id = Identifier.normalize id := by
  obtain ⟨hkey, hr⟩ := UnitOfWork.recordForId?_eq_some_iff.mp hfound
  obtain ⟨r', hr', hid⟩ := h.toCoherent.record_of_get? hkey
  rw [hr] at hr'
  obtain rfl := Option.some.inj hr'
  exact ⟨hr, hid⟩

/-- A record that `recordForId?` finds is found by its own identifier. -/
theorem get?_of_recordForId? (h : w.Consistent) {id : String} {key : RecordKey} {r : Record}
    (hfound : w.work.recordForId? id = some (key, r)) :
    w.work.records.find? key = some r ∧ w.work.identities.get? r.id = some key := by
  obtain ⟨hr, hid⟩ := h.record_of_recordForId? hfound
  have hkey := (UnitOfWork.recordForId?_eq_some_iff.mp hfound).1
  exact ⟨hr, by rw [w.work.identities.get?_congr hid, hkey]⟩

theorem atVersion (h : w.Consistent) (key : RecordKey) (version : Option String) :
    Workspace.Consistent { w with work := w.work.modifyRecord key (·.atVersion version) } :=
  UnitOfWork.Consistent.modifyRecord h key _
    (fun _ _ => ⟨rfl, rfl, fun hbody => hbody, Or.inl rfl⟩)

/-- `Settles` keeps a workspace consistent. -/
theorem settles {planned : Planned} {result : Fields} {answer : Except Error Unit}
    {w' : Workspace} (h : w.Consistent) (hsettles : w.Settles planned result answer w') :
    w'.Consistent := by
  cases hsettles with
  | unnamed _ _ => exact h
  | goneBeforePut _ _ => exact h
  | goneBeforeDelete _ _ => exact h
  | saved _ hr _ hfree =>
    exact (UnitOfWork.Consistent.savedAs h hr hfree _ _).mono
      (Nat.le_of_eq (Shared.length_entities_savedAs ..).symm)
  | @replaced key body metadata r id other replaced _ hr _ hother hne hreplaced =>
    -- once the other record is forgotten, the identifier is free
    have hforgotten := UnitOfWork.Consistent.withoutRecord h hreplaced
    have hr' : (w.work.records.erase other).find? key = some r := by
      rw [Keyed.find?_erase, if_neg hne]
      exact hr
    have hfree : ∀ k, (w.work.identities.removeRecord other).get? id = some k → k = key := by
      intro k hk
      obtain ⟨hk, hne'⟩ := (IdentityMap.get?_removeRecord_eq_some_iff h.identities_sorted).mp hk
      exact absurd (Option.some.inj (hother.symm.trans hk)).symm hne'
    exact (UnitOfWork.Consistent.savedAs hforgotten hr' hfree _ _).mono
      (Nat.le_of_eq (Shared.length_entities_savedAs w.shared r id).symm)
  | deleted _ hr => exact (UnitOfWork.Consistent.withoutRecord h hr).setMissing _
  | @overwritten key r _ _ hfound =>
    obtain ⟨hr, hindexed⟩ := h.get?_of_recordForId? hfound
    refine UnitOfWork.Consistent.setMissing (UnitOfWork.Consistent.modifyRecord h key _ ?_) _
    intro r' hr'
    rw [hr] at hr'
    obtain rfl := Option.some.inj hr'
    exact ⟨rfl, rfl, fun hbody => hbody, Or.inr ⟨rfl, hindexed⟩⟩
  | written _ _ _ => exact UnitOfWork.Consistent.setMissing h _
  | dropped _ _ _ hr => exact (UnitOfWork.Consistent.withoutRecord h hr).setMissing _
  | noted _ _ _ => exact UnitOfWork.Consistent.setMissing h _
  | unknown _ _ _ => exact h
  | versioned _ _ _ _ => exact h.atVersion _ _
  | unfit _ _ _ _ => exact h.atVersion _ _
  | @scripted key r document shared _ _ _ _ hrenewed =>
    have hkept : ∀ before : Record, ∀ u : UnitOfWork, u.KeepsPlace key before
        (before.scripted (Metadata.split document).1 (Metadata.split document).2) := by
      intro before u
      unfold Record.scripted
      split
      · exact ⟨rfl, rfl, fun _ => rfl, Or.inl rfl⟩
      · exact ⟨rfl, rfl, fun _ => rfl, Or.inl rfl⟩
    have hchanged := UnitOfWork.Consistent.modifyRecord (h.atVersion key
      (resultVersion result)) key
      (·.scripted (Metadata.split document).1 (Metadata.split document).2)
      (fun before _ => hkept before _)
    refine hchanged.mono (Nat.le_of_eq ?_)
    rw [← hrenewed.length_entities]
    split <;> rfl

theorem settleResult (h : w.Consistent) (planned : Planned) (result : Fields) :
    (w.settleResult planned result).2.Consistent :=
  h.settles (settleResult_settles h planned result)

theorem settleAll (h : w.Consistent) (failure : Option Error) (plan : Plan)
    (results : List Fields) : (w.settleAll failure plan results).2.Consistent := by
  induction plan generalizing w failure results with
  | nil => exact h
  | cons planned plan ih =>
    cases results with
    | nil => exact h
    | cons result results => exact ih (h.settleResult planned result) _ results

theorem announce (h : w.Consistent) (hkeep : callbacks.KeepInstances) (failure : Option Error)
    (keys : List RecordKey) : (w.announce callbacks failure keys).2.Consistent := by
  induction keys generalizing w failure with
  | nil => exact h
  | cons key rest ih =>
    rw [Workspace.announce]
    split
    · exact ih h failure
    · next r _ =>
      have hcalled := Callbacks.length_entities_callEach hkeep.afterSave
        { id := r.id, entity := r.entity } w.shared
      exact ih (h.setShared hcalled) _

theorem settle (h : w.Consistent) (hkeep : callbacks.KeepInstances) (plan : Plan)
    (answer : Option Json) : (w.settle callbacks plan answer).2.Consistent := by
  unfold Workspace.settle
  split
  · exact h
  · next results _ =>
    have hsettled := h.settleAll none plan results
    rcases hall : w.settleAll none plan results with ⟨failure, w₁⟩
    rw [hall] at hsettled
    have hdone : Workspace.Consistent { w₁ with work := { w₁.work with deferred := [] } } :=
      UnitOfWork.Consistent.setDeferred hsettled List.nodup_nil
    exact hdone.announce hkeep failure _

end Workspace.Consistent

end DocumentSession
