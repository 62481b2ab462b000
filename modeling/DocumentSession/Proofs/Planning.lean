import Mathlib.Logic.Relation
import DocumentSession.Proofs.Keyed
import DocumentSession.Proofs.PlanCases

set_option autoImplicit false

/-! # Steps of planning

Planning a save changes the workspace by two kinds of steps, whether or not it succeeds: callbacks
change `shared`, and a record that holds an entity opens its dictionary (`Workspace.PlanStep`).
`Workspace.Plans` is a run of such steps, and `planSave` is one (`plans_planSave`). So what each
step preserves, planning preserves.

Every planned PUT carries the body and metadata of its `origin` (`carries_planSave`). -/

namespace DocumentSession.Workspace

/-- A step of planning. -/
inductive PlanStep (callbacks : Callbacks) : Workspace → Workspace → Prop where
  | beforeDelete (w : Workspace) (id : String) :
    PlanStep callbacks w
      { w with shared := (Callbacks.callEach id callbacks.beforeDelete w.shared).2 }
  | beforeStore (w : Workspace) (event : StoreEvent) :
    PlanStep callbacks w
      { w with shared := (Callbacks.callEach event callbacks.beforeStore w.shared).2 }
  | opens {w : Workspace} {key : RecordKey} {r : Record}
    (hr : w.work.records.find? key = some r) (hentity : r.entity.isSome = true) :
    PlanStep callbacks w (w.openDictionary key r).2

/-- A run of planning steps. -/
abbrev Plans (callbacks : Callbacks) : Workspace → Workspace → Prop :=
  Relation.ReflTransGen (PlanStep callbacks)

variable {w w' : Workspace} {callbacks : Callbacks}

/-- The `beforeDelete` callbacks for one identifier are a planning step, whatever their verdict. -/
theorem plans_beforeDelete {id : String} {answer : Except Error Unit} {shared : Shared}
    (h : Callbacks.callEach id callbacks.beforeDelete w.shared = (answer, shared)) :
    w.Plans callbacks { w with shared } := by
  have hstep : w.PlanStep callbacks _ := .beforeDelete w id
  rw [h] at hstep
  exact .single hstep

theorem plans_planDeletes {keys : List RecordKey} {answer : Except Error Plan}
    (h : w.planDeletes callbacks keys = (answer, w')) : w.Plans callbacks w' := by
  induction keys generalizing w answer with
  | nil =>
    obtain ⟨-, rfl⟩ := Prod.mk.inj h
    exact .refl
  | cons key rest ih =>
    rw [planDeletes] at h
    split at h
    · exact ih h
    · split at h
      · exact ih h
      · split at h
        · next hasked =>
          obtain ⟨-, rfl⟩ := Prod.mk.inj h
          exact plans_beforeDelete hasked
        · next hasked =>
          refine (plans_beforeDelete hasked).trans ?_
          dsimp only at h
          split at h
          · next hrest =>
            obtain ⟨-, rfl⟩ := Prod.mk.inj h
            exact ih hrest
          · exact ih h

theorem plans_planPut {key : RecordKey} {r : Record} {entity : EntityRef}
    {answer : Except Error Planned} (hr : w.work.records.find? key = some r)
    (hentity : r.entity = some entity) (h : w.planPut callbacks key r entity = (answer, w')) :
    w.Plans callbacks w' := by
  have hopened : w.Plans callbacks (w.openDictionary key r).2 :=
    .single (.opens hr (by rw [hentity]; rfl))
  unfold planPut at h
  rcases hopen : w.openDictionary key r with ⟨n, w₁⟩
  rw [hopen] at h hopened
  have hcalled := hopened.tail (.beforeStore w₁ { id := r.id, metadata := n, entity })
  dsimp only at h
  split at h
  · next hrefused =>
    rw [hrefused] at hcalled
    obtain ⟨-, rfl⟩ := Prod.mk.inj h
    exact hcalled
  · next hagreed =>
    rw [hagreed] at hcalled
    split at h
    all_goals
      obtain ⟨-, rfl⟩ := Prod.mk.inj h
      exact hcalled

theorem plans_planEntity {key : RecordKey} {answer : Except Error (Option Planned)}
    (h : w.planEntity callbacks key = (answer, w')) : w.Plans callbacks w' := by
  have hsame : ∀ {answer' : Except Error (Option Planned)},
      (answer', w) = (answer, w') → w.Plans callbacks w' := by
    intro answer' h
    obtain ⟨-, rfl⟩ := Prod.mk.inj h
    exact .refl
  unfold planEntity at h
  split at h
  · next r _ hr =>
    split at h
    · exact hsame h
    · next entity hentity =>
      split at h
      · exact hsame h
      · split at h
        · exact hsame h
        · split at h
          · exact hsame h
          · split at h
            all_goals
              rename_i hput
              obtain ⟨-, rfl⟩ := Prod.mk.inj h
              exact plans_planPut hr hentity hput
  · exact hsame h

theorem plans_planPuts {keys : List RecordKey} {answer : Except Error Plan}
    (h : w.planPuts callbacks keys = (answer, w')) : w.Plans callbacks w' := by
  induction keys generalizing w answer with
  | nil =>
    obtain ⟨-, rfl⟩ := Prod.mk.inj h
    exact .refl
  | cons key rest ih =>
    rw [planPuts] at h
    split at h
    · next hentity =>
      obtain ⟨-, rfl⟩ := Prod.mk.inj h
      exact plans_planEntity hentity
    · next hentity =>
      refine (plans_planEntity hentity).trans ?_
      split at h
      · next hrest =>
        obtain ⟨-, rfl⟩ := Prod.mk.inj h
        exact ih hrest
      · exact ih h

/-- Each PUT that `planPuts` plans comes from a `planEntity` that runs after some steps of
planning. -/
theorem planEntity_of_mem {keys : List RecordKey} {plan : Plan} {planned : Planned}
    (h : w.planPuts callbacks keys = (.ok plan, w')) (hmem : planned ∈ plan) :
    ∃ key w₁ w₂, w.Plans callbacks w₁
      ∧ w₁.planEntity callbacks key = (.ok (some planned), w₂) := by
  induction keys generalizing w plan with
  | nil =>
    obtain rfl := Except.ok.inj (Prod.mk.inj h).1
    cases hmem
  | cons key rest ih =>
    obtain ⟨first, w₁, others, hfirst, hrest, rfl⟩ := planPuts_cons_eq_ok h
    rcases List.mem_append.mp hmem with hmem | hmem
    · obtain rfl := Option.mem_toList.mp hmem
      exact ⟨key, w, w₁, .refl, hfirst⟩
    · obtain ⟨key', v, v', hplans, hentity⟩ := ih hrest hmem
      exact ⟨key', v, v', (plans_planEntity hfirst).trans hplans, hentity⟩

theorem plans_planDeferred {commands : List Command} {answer : Except Error Plan}
    (h : w.planDeferred callbacks commands = (answer, w')) : w.Plans callbacks w' := by
  induction commands generalizing w answer with
  | nil =>
    obtain ⟨-, rfl⟩ := Prod.mk.inj h
    exact .refl
  | cons command rest ih =>
    rw [planDeferred] at h
    rcases hasked : (if command.kind = .delete then
        Callbacks.callEach command.id callbacks.beforeDelete w.shared
      else (.ok (), w.shared) : Verdict) with ⟨verdict, shared⟩
    -- only a deletion is asked for
    have hplans : w.Plans callbacks { w with shared } := by
      split at hasked
      · exact plans_beforeDelete hasked
      · obtain ⟨-, rfl⟩ := Prod.mk.inj hasked
        exact .refl
    rw [hasked] at h
    cases verdict with
    | error e =>
      obtain ⟨-, rfl⟩ := Prod.mk.inj h
      exact hplans
    | ok _ =>
      refine hplans.trans ?_
      dsimp only at h
      split at h
      · next hrest =>
        obtain ⟨-, rfl⟩ := Prod.mk.inj h
        exact ih hrest
      · exact ih h

/-- `planSave` is a run of planning steps, also if it fails. -/
theorem plans_planSave {answer : Except Error Plan}
    (h : w.planSave callbacks = (answer, w')) : w.Plans callbacks w' := by
  unfold planSave at h
  split at h
  · next hdeletes =>
    obtain ⟨-, rfl⟩ := Prod.mk.inj h
    exact plans_planDeletes hdeletes
  · next hdeletes =>
    refine (plans_planDeletes hdeletes).trans ?_
    split at h
    · next hputs =>
      obtain ⟨-, rfl⟩ := Prod.mk.inj h
      exact plans_planPuts hputs
    · next hputs =>
      refine (plans_planPuts hputs).trans ?_
      split at h
      all_goals
        rename_i hdeferred
        obtain ⟨-, rfl⟩ := Prod.mk.inj h
        exact plans_planDeferred hdeferred

/-! ## What planned writes carry -/

/-- A planned PUT has the body and the metadata of its `origin` in its command. -/
def Carries (planned : Planned) : Prop :=
  ∀ key body metadata, planned.origin = .put key body metadata →
    ∃ document, planned.command.action = .put document
      ∧ Metadata.split document = (body, metadata)

/-- `Entity.toBody` writes the members of the state, but for the identity property and
`@metadata`. -/
theorem find?_toBody {e : Entity} {identityProperty : String} {body : Fields}
    (hbody : e.toBody identityProperty = .ok body) :
    ∃ members, e.state = .obj members ∧ ∀ key, Keyed.find? body key
      = if key = Metadata.key ∨ key = identityProperty then none
        else Keyed.find? members key := by
  unfold Entity.toBody at hbody
  split at hbody
  · next members hstate =>
    obtain rfl := Except.ok.inj hbody
    refine ⟨members, hstate, fun key => ?_⟩
    rw [Keyed.find?_erase, Keyed.find?_erase]
    by_cases hmetadata : Metadata.key = key
    · rw [if_pos hmetadata, if_pos (Or.inl hmetadata.symm)]
    · by_cases hidentity : identityProperty = key
      · rw [if_neg hmetadata, if_pos hidentity, if_pos (Or.inr hidentity.symm)]
      · rw [if_neg hmetadata, if_neg hidentity, if_neg]
        exact not_or.mpr ⟨Ne.symm hmetadata, Ne.symm hidentity⟩
  · cases hbody

theorem split_toBody {e : Entity} {identityProperty : String} {body : Fields}
    (hbody : e.toBody identityProperty = .ok body) (metadata : Fields) :
    Metadata.split (Keyed.insert body Metadata.key (.obj metadata)) = (body, metadata) := by
  obtain ⟨_, -, hfound⟩ := find?_toBody hbody
  have hfree : Keyed.find? body Metadata.key = none :=
    (hfound Metadata.key).trans (if_pos (Or.inl rfl))
  unfold Metadata.split
  rw [Keyed.erase_insert_self, Keyed.erase_eq_self hfree, Keyed.find?_insert, if_pos rfl]
  rfl

theorem carries_planEntity {key : RecordKey} {planned : Planned}
    (h : w.planEntity callbacks key = (.ok (some planned), w')) : Carries planned := by
  obtain ⟨r, entity, _, -, hput⟩ := planPut_of_planEntity h
  obtain ⟨-, body, metadata, -, -, hbody, -, rfl⟩ := planPut_eq_ok hput
  intro key' body' metadata' horigin
  obtain ⟨-, rfl, rfl⟩ := Origin.put.inj horigin
  exact ⟨_, rfl, split_toBody hbody _⟩

theorem carries_planSave {plan : Plan} (h : w.planSave callbacks = (.ok plan, w')) :
    ∀ planned ∈ plan, Carries planned := by
  obtain ⟨deletes, w₁, puts, w₂, deferred, hdeletes, hputs, hdeferred, rfl⟩ :=
    planSave_eq_append h
  intro planned hmem
  rw [List.mem_append, List.mem_append] at hmem
  -- only the write of an entity has its body and metadata for an origin
  rcases hmem with (hmem | hmem) | hmem
  · intro key body metadata horigin
    obtain ⟨key', hdelete⟩ := origin_planDeletes hdeletes planned hmem
    rw [hdelete] at horigin
    cases horigin
  · obtain ⟨key, v, v', -, hentity⟩ := planEntity_of_mem hputs hmem
    exact carries_planEntity hentity
  · intro key body metadata horigin
    rw [origin_planDeferred hdeferred planned hmem] at horigin
    cases horigin

end DocumentSession.Workspace
