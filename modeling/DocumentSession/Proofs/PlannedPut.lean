import DocumentSession.Proofs.Plan
import DocumentSession.Proofs.Planning

set_option autoImplicit false

/-! # The PUT of one record

The PUT of a record carries its last known metadata, overlaid by what its dictionary shows after the
`beforeStore` callbacks (`Workspace.put_of_planSave`). Callbacks may change entities and
dictionaries at any time while a save is planned. If they leave the dictionary alone
(`Callbacks.Spare`), it shows what it showed before the save; and if it is dirty, and the record is
considered at all, there is a PUT (`Workspace.exists_put_of_planSave`). -/

namespace DocumentSession

namespace Metadata.Forest

variable {f f' f'' : Forest} {n : NodeId}

/-- If `f` is in order, so is `f'`, and the dictionary `n` has the same content and the same dirty
flag in both. -/
def KeepsShown (f f' : Forest) (n : NodeId) : Prop :=
  f.Ordered → n < f.nodes.length →
    f'.Ordered ∧ n < f'.nodes.length ∧ f'.content n = f.content n ∧ f'.isDirty n = f.isDirty n

theorem KeepsShown.refl (f : Forest) (n : NodeId) : f.KeepsShown f n :=
  fun hf hn => ⟨hf, hn, rfl, rfl⟩

theorem KeepsShown.trans (h : f.KeepsShown f' n) (h' : f'.KeepsShown f'' n) :
    f.KeepsShown f'' n := by
  intro hf hn
  obtain ⟨hf', hn', hcontent, hdirty⟩ := h hf hn
  obtain ⟨hf'', hn'', hcontent', hdirty'⟩ := h' hf' hn'
  exact ⟨hf'', hn'', hcontent'.trans hcontent, hdirty'.trans hdirty⟩

theorem keepsShown_create (f : Forest) (values : Fields) (n : NodeId) :
    f.KeepsShown (f.create values).2 n := by
  intro hf hn
  have hgrows := undisturbed_create hf values
  exact ⟨hgrows.ordered hf, Nat.lt_of_lt_of_le hn hgrows.length, hgrows.content n hn,
    hgrows.isDirty n hn⟩

end Metadata.Forest

/-- The callbacks that run while a save is planned leave the content and the flag of the dictionary
`n` alone. -/
structure Callbacks.Spare (c : Callbacks) (n : Metadata.NodeId) : Prop where
  beforeStore : ∀ callback ∈ c.beforeStore, ∀ event (s : Shared),
    s.dictionaries.KeepsShown (callback event s).2.dictionaries n
  beforeDelete : ∀ callback ∈ c.beforeDelete, ∀ id (s : Shared),
    s.dictionaries.KeepsShown (callback id s).2.dictionaries n

namespace Workspace

variable {w w' w₁ w₂ : Workspace} {c : Callbacks} {plan : Plan} {planned : Planned}
  {key : RecordKey} {r : Record} {entity : EntityRef} {n : Metadata.NodeId}

/-- A record that has a dictionary is unchanged after `openDictionary` of any record. -/
theorem find?_of_openDictionary (hr : w.work.records.find? key = some r)
    (hn : r.dictionary = some n) {key' : RecordKey} {r' : Record}
    (hr' : w.work.records.find? key' = some r') :
    (w.openDictionary key' r').2.work.records.find? key = some r := by
  rw [Consistent.find?_openDictionary hr']
  split
  · next hkey =>
    subst hkey
    rw [hr'] at hr
    obtain rfl := Option.some.inj hr
    unfold Record.openDictionary
    rw [hn]
  · exact hr

/-- A record that has a dictionary is unchanged while a save is planned. -/
theorem find?_of_plans (h : w.Plans c w') (hr : w.work.records.find? key = some r)
    (hn : r.dictionary = some n) : w'.work.records.find? key = some r := by
  induction h with
  | refl => exact hr
  | tail _ hstep ih =>
    cases hstep with
    | beforeDelete | beforeStore => exact ih
    | opens hr' _ => exact find?_of_openDictionary ih hn hr'

/-- What is shared after the `beforeStore` callbacks ran for the record `r` with its dictionary
`n`. -/
def afterBeforeStore (w : Workspace) (c : Callbacks) (r : Record) (n : Metadata.NodeId)
    (entity : EntityRef) : Shared :=
  (Callbacks.callEach { id := r.id, metadata := n, entity } c.beforeStore w.shared).2

/-! ## A record whose dictionary is left alone -/

/-- `w'` has the record `key` and the dictionary `n` as `w` has them. -/
structure SparesRecord (w : Workspace) (key : RecordKey) (r : Record) (n : Metadata.NodeId)
    (w' : Workspace) : Prop where
  work : w'.work = { w.work with records := w'.work.records }
  record : w'.work.records.find? key = some r
  ordered : w'.shared.dictionaries.Ordered
  made : n < w'.shared.dictionaries.nodes.length
  content : w'.shared.dictionaries.content n = w.shared.dictionaries.content n
  isDirty : w'.shared.dictionaries.isDirty n = w.shared.dictionaries.isDirty n

namespace SparesRecord

theorem refl (hr : w.work.records.find? key = some r) (hordered : w.shared.dictionaries.Ordered)
    (hmade : n < w.shared.dictionaries.nodes.length) : w.SparesRecord key r n w :=
  ⟨rfl, hr, hordered, hmade, rfl, rfl⟩

/-- A change of `shared` that keeps what `n` shows. -/
theorem setShared (h : w.SparesRecord key r n w') {shared : Shared}
    (hshown : w'.shared.dictionaries.KeepsShown shared.dictionaries n) :
    w.SparesRecord key r n { w' with shared } := by
  obtain ⟨hordered, hmade, hcontent, hdirty⟩ := hshown h.ordered h.made
  exact ⟨h.work, h.record, hordered, hmade, hcontent.trans h.content, hdirty.trans h.isDirty⟩

theorem callEach (h : w.SparesRecord key r n w') {Event : Type}
    {callbacks : List (Event → Shared → Verdict)}
    (hspare : ∀ callback ∈ callbacks, ∀ event (s : Shared),
      s.dictionaries.KeepsShown (callback event s).2.dictionaries n) (event : Event) :
    w.SparesRecord key r n
      { w' with shared := (Callbacks.callEach event callbacks w'.shared).2 } :=
  h.setShared (Callbacks.relates_callEach
    (R := fun s s' => s.dictionaries.KeepsShown s'.dictionaries n)
    (fun s => .refl s.dictionaries n) Metadata.Forest.KeepsShown.trans hspare event w'.shared)

/-- Opening the dictionary of any record spares a record that has one already. -/
theorem openDictionary (h : w.SparesRecord key r n w') (hn : r.dictionary = some n)
    {key' : RecordKey} {r' : Record} (hr' : w'.work.records.find? key' = some r') :
    w.SparesRecord key r n (w'.openDictionary key' r').2 := by
  have hshown : w'.shared.dictionaries.KeepsShown
      (w'.openDictionary key' r').2.shared.dictionaries n := by
    unfold Workspace.openDictionary Record.openDictionary
    cases r'.dictionary with
    | some _ => exact .refl _ n
    | none => exact w'.shared.dictionaries.keepsShown_create r'.metadata n
  obtain ⟨hordered, hmade, hcontent, hdirty⟩ := hshown h.ordered h.made
  refine ⟨?_, ?_, hordered, hmade, hcontent.trans h.content, hdirty.trans h.isDirty⟩
  · show w'.work.modifyRecord key' _ = _
    unfold UnitOfWork.modifyRecord
    rw [h.work]
    rfl
  · exact find?_of_openDictionary h.record hn hr'

theorem step (h : w.SparesRecord key r n w') (hn : r.dictionary = some n) (hspare : c.Spare n)
    {w'' : Workspace} (hstep : w'.PlanStep c w'') : w.SparesRecord key r n w'' := by
  cases hstep with
  | beforeDelete id => exact h.callEach hspare.beforeDelete id
  | beforeStore event => exact h.callEach hspare.beforeStore event
  | opens hr' _ => exact h.openDictionary hn hr'

/-- Planning spares the record, if the callbacks spare its dictionary. -/
theorem plans (h : w.SparesRecord key r n w) (hn : r.dictionary = some n) (hspare : c.Spare n)
    (hplans : w.Plans c w') : w.SparesRecord key r n w' := by
  induction hplans with
  | refl => exact h
  | tail _ hstep ih => exact ih.step hn hspare hstep

theorem content_afterBeforeStore (h : w.SparesRecord key r n w') (hspare : c.Spare n) :
    (w'.afterBeforeStore c r n entity).dictionaries.content n = w.shared.dictionaries.content n :=
  (h.callEach hspare.beforeStore _).content

theorem considers (h : w.SparesRecord key r n w') (hconsiders : w.Considers key r entity) :
    w'.Considers key r entity := by
  refine ⟨h.record, ?_, hconsiders.holds, hconsiders.watched, ?_⟩
  · rw [h.work]
    exact hconsiders.kept
  · rw [h.work]
    exact hconsiders.free

end SparesRecord

/-! ## Where a write is planned -/

theorem planEntity_of_key {keys : List RecordKey} (hplan : w.planPuts c keys = (.ok plan, w'))
    (hkey : key ∈ keys) :
    ∃ answer w₁ w₂, w.Plans c w₁ ∧ w₁.planEntity c key = (.ok answer, w₂)
      ∧ ∀ planned, answer = some planned → planned ∈ plan := by
  induction keys generalizing w plan with
  | nil => cases hkey
  | cons k rest ih =>
    obtain ⟨first, w₁, others, hfirst, hrest, rfl⟩ := planPuts_cons_eq_ok hplan
    rcases List.mem_cons.mp hkey with rfl | hkey
    · refine ⟨first, w, w₁, .refl, hfirst, ?_⟩
      rintro planned rfl
      exact List.mem_append_left _ (List.mem_singleton_self planned)
    · obtain ⟨answer, v, v', hplans, hentity, hsubset⟩ := ih hrest hkey
      exact ⟨answer, v, v', (plans_planEntity hfirst).trans hplans, hentity,
        fun planned hsome => List.mem_append_right _ (hsubset planned hsome)⟩

/-- The PUTs of a plan stand between its DELETEs and the deferred commands. -/
theorem planSave_parts (hplan : w.planSave c = (.ok plan, w')) :
    ∃ deletes w₁ puts w₂ deferred, w.Plans c w₁
      ∧ w₁.planPuts c w₁.work.registry.records = (.ok puts, w₂)
      ∧ plan = deletes ++ puts ++ deferred
      ∧ (∀ planned ∈ deletes, ∃ k, planned.origin = .delete k)
      ∧ ∀ planned ∈ deferred, planned.origin = .deferred := by
  obtain ⟨deletes, w₁, puts, w₂, deferred, hdeletes, hputs, hdeferred, rfl⟩ :=
    planSave_eq_append hplan
  exact ⟨deletes, w₁, puts, w₂, deferred, plans_planDeletes hdeletes, hputs, rfl,
    origin_planDeletes hdeletes, origin_planDeferred hdeferred⟩

/-! ## What a write carries -/

/-- `planned` is a PUT of the record `r` that carries its metadata overlaid by `shown`. -/
def IsPutWith (r : Record) (key : RecordKey) (shown : Fields) (planned : Planned) : Prop :=
  ∃ body, planned.origin = .put key body (Dict.overlay r.metadata shown)
    ∧ planned.command.id = r.id
    ∧ planned.command.action
        = .put (Keyed.insert body Metadata.key (.obj (Dict.overlay r.metadata shown)))

theorem put_of_planPut (hn : r.dictionary = some n)
    (hput : w.planPut c key r entity = (.ok planned, w')) :
    IsPutWith r key ((w.afterBeforeStore c r n entity).dictionaries.content n) planned := by
  obtain ⟨shared, body, metadata, htold, -, -, rfl, rfl⟩ := planPut_eq_ok hput
  unfold openDictionary Record.openDictionary at htold ⊢
  rw [hn] at htold ⊢
  unfold afterBeforeStore
  rw [htold]
  exact ⟨body, rfl, rfl, rfl⟩

/-- A record that is considered, and whose dictionary is dirty, has a PUT. -/
theorem exists_put_of_planEntity (hconsiders : w.Considers key r entity)
    (hdirty : r.isMetadataDirty w.shared.dictionaries = true) {answer : Option Planned}
    (hplan : w.planEntity c key = (.ok answer, w')) : ∃ planned, answer = some planned := by
  rcases planEntity_eq_ok hplan with ⟨-, -, hkept⟩ | ⟨_, _, _, planned, -, -, rfl⟩
  · obtain ⟨body, -, hmust⟩ := hkept r entity hconsiders
    unfold mustWrite at hmust
    rw [hdirty, Bool.or_true, Bool.true_or] at hmust
    cases hmust
  · exact ⟨planned, rfl⟩

/-! ## The write in a plan -/

/-- The PUT of a record carries its last known metadata, overlaid by what its dictionary shows after
the `beforeStore` callbacks. -/
theorem put_of_planSave (hr : w.work.records.find? key = some r) (hn : r.dictionary = some n)
    (hplan : w.planSave c = (.ok plan, w')) (hmem : planned ∈ plan) {body metadata : Fields}
    (horigin : planned.origin = .put key body metadata) :
    ∃ w₁ entity, w.Plans c w₁ ∧ r.entity = some entity
      ∧ IsPutWith r key ((w₁.afterBeforeStore c r n entity).dictionaries.content n) planned := by
  obtain ⟨deletes, w₁, puts, w₂, deferred, hplans, hputs, rfl, hdeletes, hdeferred⟩ :=
    planSave_parts hplan
  rw [List.mem_append, List.mem_append] at hmem
  rcases hmem with (hmem | hmem) | hmem
  · obtain ⟨k, hdelete⟩ := hdeletes planned hmem
    rw [horigin] at hdelete
    cases hdelete
  · obtain ⟨k, v, v', hplans', hentity⟩ := planEntity_of_mem hputs hmem
    obtain ⟨body', metadata', horigin'⟩ := origin_planEntity hentity
    rw [horigin] at horigin'
    obtain ⟨rfl, -, -⟩ := Origin.put.inj horigin'
    obtain ⟨r', entity, _, hwrites, hput⟩ := planPut_of_planEntity hentity
    have hplanned := hplans.trans hplans'
    have hr' := hwrites.record
    rw [find?_of_plans hplanned hr hn] at hr'
    obtain rfl := Option.some.inj hr'
    exact ⟨v, entity, hplanned, hwrites.holds, put_of_planPut hn hput⟩
  · rw [hdeferred planned hmem] at horigin
    cases horigin

/-- A record that is considered, and whose dictionary is dirty, has a PUT in the plan, if the
callbacks spare the dictionary. -/
theorem exists_put_of_planSave (h : w.SparesRecord key r n w) (hn : r.dictionary = some n)
    (hspare : c.Spare n) (hplan : w.planSave c = (.ok plan, w')) (hconsistent : w.Consistent)
    (hconsiders : w.Considers key r entity) (hdirty : w.shared.dictionaries.isDirty n = true) :
    ∃ planned ∈ plan, ∃ body metadata, planned.origin = .put key body metadata := by
  obtain ⟨deletes, w₁, puts, w₂, deferred, hplans, hputs, rfl, -, -⟩ := planSave_parts hplan
  have hw₁ := h.plans hn hspare hplans
  have hkey : key ∈ w₁.work.registry.records := by
    rw [hw₁.work]
    exact hconsiders.mem_records hconsistent
  obtain ⟨answer, v, v', hplans', hentity, hsubset⟩ := planEntity_of_key hputs hkey
  have hv := h.plans hn hspare (hplans.trans hplans')
  have hdirty' : r.isMetadataDirty v.shared.dictionaries = true := by
    unfold Record.isMetadataDirty
    rw [hn, Option.any_some, hv.isDirty, hdirty]
  obtain ⟨planned, rfl⟩ := exists_put_of_planEntity (hv.considers hconsiders) hdirty' hentity
  refine ⟨planned, ?_, origin_planEntity hentity⟩
  exact List.mem_append_left _ (List.mem_append_right _ (hsubset planned rfl))

end Workspace

end DocumentSession
