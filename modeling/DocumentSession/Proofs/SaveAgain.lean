import DocumentSession.Proofs.Saved
import DocumentSession.Proofs.Sends
import DocumentSession.Proofs.Waiting

set_option autoImplicit false

/-! # A save after a save

After a save that succeeds, the records that its plan has a command for are done: those in `deleted`
are gone, and the entities that were written are not pending (`IsPlan.not_isPending_after`). What
may still be pending are the records that the plan left to a deferred command. So the next save
sends nothing if and only if the results of the deferred commands settle each of these records
(`OpenSession.save_again_iff`).

They do not always: the result of a deferred PUT has no body for the entity, so an entity that was
edited before is written by the next save, over what the command wrote
(`OpenSession.save_again_overwrites`). -/

namespace DocumentSession

namespace Workspace

variable {w w' w₀ : Workspace} {plan puts : Plan} {due : List RecordKey} {key : RecordKey}
  {r r' : Record} {planned : Planned} {result : Fields}
  {pairs front back : List (Planned × Fields)} {answers : List (Except Error Unit)}

/-! ## Results of records -/

/-- The result of a PUT that is settled without an error saves the entity. -/
theorem Settles.savesEntity_of_ok {body sent : Fields}
    (hsettles : w.Settles planned result (.ok ()) w') (h : w.Consistent)
    (hr : w.work.records.find? key = some r) (horigin : planned.origin = .put key body sent) :
    ∃ id, w.SavesEntity key r id body (overlayResult sent result) w' := by
  cases hsettles with
  | goneBeforePut horigin' hgone =>
    obtain ⟨rfl, -, -⟩ := Origin.put.inj (horigin.symm.trans horigin')
    rw [hr] at hgone
    cases hgone
  | @saved _ _ _ _ id horigin' hr' _ _ =>
    obtain ⟨rfl, rfl, rfl⟩ := Origin.put.inj (horigin.symm.trans horigin')
    obtain rfl := Option.some.inj (hr.symm.trans hr')
    exact ⟨id, savesEntity_savedAs h hr⟩
  | goneBeforeDelete horigin' | deleted horigin' | overwritten horigin' | written horigin'
  | dropped horigin' | noted horigin' | unknown horigin' | versioned horigin'
  | scripted horigin' =>
    rw [horigin] at horigin'
    cases horigin'

/-- An entity that was saved with the body that it has now is not pending. -/
theorem SavesEntity.not_isPending {id : String} {body metadata : Fields} {entity : EntityRef}
    (hsaves : w.SavesEntity key r id body metadata w') (he : r.entity = some entity)
    (hkept : w.work.isToDelete key = false) (hbody : w.bodyOf entity = .ok body)
    (hwell : (Json.obj body).isWellFormed = true)
    (hsame : ((w.shared.entity entity).setId id).toBody w.work.conventions.identityProperty
      = (w.shared.entity entity).toBody w.work.conventions.identityProperty) :
    ¬ w'.IsPending key (r.saved id body metadata) := by
  unfold IsPending
  rw [hsaves.entityChanged he hbody hwell hsame, hsaves.kept, hkept]
  simp

/-- The record of a DELETE is gone once its result is settled. -/
theorem Settles.gone_of_delete {answer : Except Error Unit}
    (hsettles : w.Settles planned result answer w') (horigin : planned.origin = .delete key) :
    w'.work.records.find? key = none := by
  cases hsettles with
  | goneBeforeDelete horigin' hgone =>
    obtain rfl := Origin.delete.inj (horigin.symm.trans horigin')
    exact hgone
  | deleted horigin' _ =>
    obtain rfl := Origin.delete.inj (horigin.symm.trans horigin')
    exact (Keyed.find?_erase ..).trans (if_pos rfl)
  | unnamed horigin' | goneBeforePut horigin' | saved horigin' | replaced horigin'
  | overwritten horigin' | written horigin' | dropped horigin' | noted horigin'
  | unknown horigin' | versioned horigin' | unfit horigin' | scripted horigin' =>
    rw [horigin] at horigin'
    cases horigin'

/-- A run of results for other records, none with an error, leaves a record as it is. -/
theorem SettlesAll.keepsRecord_of_apart (hrun : w.SettlesAll pairs answers w') (h : w.Consistent)
    (hok : ∀ answer ∈ answers, answer = .ok ())
    (hown : ∀ pair ∈ pairs, pair.1.origin ≠ .deferred)
    (hapart : ∀ pair ∈ pairs, pair.1.origin.record? ≠ some key) : w.KeepsRecord w' key := by
  refine hrun.preserves (P := fun v => w.KeepsRecord v key) h ?_ (.refl w key)
  intro v v' planned result answer hmem hanswer hv hsettles hkeeps
  obtain rfl := hok answer hanswer
  have hrecord : ∃ other, planned.origin.record? = some other := by
    have hown' := hown _ hmem
    cases horigin : planned.origin with
    | put other _ _ => exact ⟨other, rfl⟩
    | delete other => exact ⟨other, rfl⟩
    | deferred => exact absurd horigin hown'
  obtain ⟨other, hother⟩ := hrecord
  refine hkeeps.trans (hsettles.keepsRecord_of_ne hv hother ?_)
  rintro rfl
  exact hapart _ hmem hother

/-! ## The two parts of a save -/

/-- The results of a plan are those of its own DELETEs and PUTs, then those of the deferred
commands. -/
theorem IsPlan.exists_parts (hplan : w₀.IsPlan plan w due puts)
    (hpairs : pairs.map Prod.fst = plan) :
    ∃ front back, pairs = front ++ back
      ∧ (∀ pair ∈ front, pair.1.origin ≠ .deferred)
      ∧ (∀ pair ∈ back, pair.1.origin = .deferred) := by
  rw [hplan.plan_eq, List.map_eq_append_iff] at hpairs
  obtain ⟨front, back, rfl, hfront, hback⟩ := hpairs
  refine ⟨front, back, rfl, ?_, ?_⟩
  · intro pair hmem hdeferred
    have hmem' : pair.1 ∈ w₀.work.deleted.keys.filterMap w₀.plannedDelete ++ puts := by
      rw [← hfront]
      exact List.mem_map_of_mem hmem
    rcases List.mem_append.mp hmem' with hdelete | hput
    · obtain ⟨k, -, hdelete⟩ := List.mem_filterMap.mp hdelete
      obtain ⟨r, -, -, heq⟩ := plannedDelete_eq_some_iff.mp hdelete
      rw [heq] at hdeferred
      cases hdeferred
    · obtain ⟨k, -, r, entity, body, metadata, -, heq⟩ := hplan.exists_due hput
      rw [heq] at hdeferred
      cases hdeferred
  · intro pair hmem
    have hmem' : pair.1 ∈ w₀.work.deferred.map plannedDeferred := by
      rw [← hback]
      exact List.mem_map_of_mem hmem
    obtain ⟨command, -, heq⟩ := List.mem_map.mp hmem'
    rw [← heq]
    rfl

/-- Only results of deferred commands settle a record that was left to them. -/
theorem settledBy_append_iff (hfront : ∀ pair ∈ front, pair.1.origin ≠ .deferred) :
    w.SettledBy key r (front ++ back) ↔ w.SettledBy key r back := by
  -- no result of a record counts as one of a waiting command
  have hnone : ∀ kind, ∀ pair ∈ front, waited kind r.id pair = false := by
    rintro kind ⟨planned, result⟩ hmem
    rw [← Bool.not_eq_true, waited_eq_true_iff]
    exact fun hwaited => hfront _ hmem hwaited.1
  have hany : ∀ kind, front.any (waited kind r.id) = false := by
    intro kind
    rw [List.any_eq_false]
    intro pair hmem
    rw [hnone kind pair hmem]
    exact Bool.false_ne_true
  have hmetadata : front.any (renewsMetadata r.id) = false := by
    rw [List.any_eq_false]
    intro pair hmem
    unfold renewsMetadata
    rw [hnone .put pair hmem, hnone .patch pair hmem]
    exact Bool.false_ne_true
  have hbody : front.any (renewsBody r.id) = false := by
    rw [List.any_eq_false]
    intro pair hmem
    unfold renewsBody
    rw [hnone .patch pair hmem]
    exact Bool.false_ne_true
  unfold SettledBy
  simp only [List.any_append, hany, hmetadata, hbody, Bool.false_or]

/-- A record that the plan has a DELETE or PUT for is gone after these results, or not pending. -/
theorem IsPlan.not_isPending_after (hplan : w₀.IsPlan plan w due puts) (h₀ : w₀.Consistent)
    (h : w.Consistent) (hpairs : (front ++ back).map Prod.fst = plan)
    (hfront : ∀ pair ∈ front, pair.1.origin ≠ .deferred)
    (hrun : w.SettlesAll front answers w') (hok : ∀ answer ∈ answers, answer = .ok ())
    (hstates : ∀ e ∈ w₀.shared.entities, e.state.isWellFormed = true)
    (htypes : ∀ e ∈ w₀.shared.entities, e.type.KeepsBody w₀.work.conventions.identityProperty)
    {pair : Planned × Fields} (hmem : pair ∈ front) (hrecord : pair.1.origin.record? = some key)
    (hr' : w'.work.records.find? key = some r') : ¬ w'.IsPending key r' := by
  obtain ⟨planned, result⟩ := pair
  obtain ⟨before, after, rfl⟩ := List.append_of_mem hmem
  have hsplit : before ++ (planned, result) :: after ++ back
      = before ++ (planned, result) :: (after ++ back) := by
    rw [List.append_assoc, List.cons_append]
  have hapart := hplan.others_apart h₀ hpairs hsplit hrecord
  obtain ⟨v, v', answers₁, answer, answers₂, rfl, hbefore, hsettles, hafter⟩ := hrun.of_mem
  have hmem' : planned ∈ plan := by
    rw [← hpairs, hsplit]
    exact List.mem_map_of_mem (List.mem_append_right before (List.mem_cons_self ..))
  have hv := hbefore.consistent h
  have hv' := hv.settles hsettles
  cases horigin : planned.origin with
  | deferred => exact absurd horigin (hfront _ hmem)
  | delete other =>
    rw [horigin] at hrecord
    obtain rfl := Option.some.inj hrecord
    rw [hafter.absent hv' (hsettles.gone_of_delete horigin)] at hr'
    cases hr'
  | put other body sent =>
    rw [horigin] at hrecord
    obtain rfl := Option.some.inj hrecord
    obtain ⟨r, entity, hwrites, -, -⟩ := hplan.put_of_origin hmem' horigin
    obtain ⟨dictionary, hr⟩ := hplan.record_after hwrites.record
    have hanswer : answer = .ok () := hok answer (List.mem_append_right _ (List.mem_cons_self ..))
    subst hanswer
    -- the record is left alone until its own result, which takes it over, and after that
    have hkeeps := hbefore.keepsRecord_of_apart h
      (fun a ha => hok a (List.mem_append_left _ ha))
      (fun pair hpair => hfront pair (List.mem_append_left _ hpair))
      (fun pair hpair => hapart pair (List.mem_append_left _ hpair))
    obtain ⟨id, hsaves⟩ := hsettles.savesEntity_of_ok hv (hkeeps.record.trans hr) horigin
    have hkeeps' := hafter.keepsRecord_of_apart hv'
      (fun a ha => hok a (List.mem_append_right _ (List.mem_cons_of_mem _ ha)))
      (fun pair hpair => hfront pair (List.mem_append_right _ (List.mem_cons_of_mem _ hpair)))
      (fun pair hpair => hapart pair (List.mem_append_right _ (List.mem_append_left _ hpair)))
    have hsaves' := (hkeeps.savesEntity hr hsaves).keepsRecord hkeeps'
    obtain rfl := Option.some.inj (hsaves'.record.symm.trans hr')
    have hknown : w₀.shared.entity entity ∈ w₀.shared.entities :=
      w₀.shared.entity_mem
        (h₀.known entity _ ((h₀.held entity _).mpr ⟨r, hwrites.record, hwrites.holds⟩))
    refine hsaves'.not_isPending hwrites.holds
      ((hplan.opened.isToDelete_eq other).trans hwrites.kept)
      ((hplan.opened.bodyOf_eq entity).trans hwrites.written)
      (Entity.isWellFormed_of_toBody (hstates _ hknown) hwrites.written) ?_
    rw [hplan.opened.entity_eq, hplan.opened.conventions_eq]
    exact htypes _ hknown _ id

/-! ## Records left to a deferred command -/

/-- A pending record for which no command is deferred has a planned command. -/
theorem IsPlan.exists_planned (hplan : w₀.IsPlan plan w due puts)
    (hr : w₀.work.records.find? key = some r) (hpending : w₀.IsPending key r)
    (hfree : w₀.work.hasDeferred r.id = false) :
    ∃ planned ∈ plan, planned.origin.record? = some key := by
  rw [hplan.plan_eq]
  by_cases hdelete : w₀.work.isToDelete key = true
  · have hplanned := plannedDelete_eq_some_iff.mpr ⟨r, hr, hfree, rfl⟩
    refine ⟨_, List.mem_append_left _ (List.mem_append_left _ (List.mem_filterMap.mpr
      ⟨key, Keyed.contains_iff_mem_keys.mp hdelete, hplanned⟩)), rfl⟩
  · rw [Bool.not_eq_true] at hdelete
    obtain ⟨planned, hput, hof⟩ :=
      hplan.exists_put (hplan.mem_due_of_pending hpending hr hdelete hfree)
    refine ⟨planned, List.mem_append_left _ (List.mem_append_right _ hput), ?_⟩
    obtain ⟨r, entity, body, metadata, -, rfl⟩ := hof
    rfl

/-- A record for which a command is deferred has no planned command. -/
theorem IsPlan.unplanned (hplan : w₀.IsPlan plan w due puts)
    (hr : w₀.work.records.find? key = some r) (hleft : w₀.work.hasDeferred r.id = true) :
    ∀ planned ∈ plan, planned.origin.record? ≠ some key := by
  intro planned hmem hrecord
  cases horigin : planned.origin with
  | put other body sent =>
    rw [horigin] at hrecord
    obtain rfl := Option.some.inj hrecord
    obtain ⟨r', entity, hwrites, -, -⟩ := hplan.put_of_origin hmem horigin
    obtain rfl := Option.some.inj (hr.symm.trans hwrites.record)
    rw [hwrites.free] at hleft
    cases hleft
  | delete other =>
    rw [horigin] at hrecord
    obtain rfl := Option.some.inj hrecord
    obtain ⟨-, r', hr', hfree, -⟩ := hplan.delete_of_origin hmem horigin
    obtain rfl := Option.some.inj (hr.symm.trans hr')
    rw [hfree] at hleft
    cases hleft
  | deferred =>
    rw [horigin] at hrecord
    cases hrecord

/-- The results of DELETEs and PUTs settle nothing of a record without a planned command. -/
theorem IsPlan.progress_of_unplanned (hplan : w₀.IsPlan plan w due puts) (h : w.Consistent)
    (hfront : ∀ pair ∈ front, pair.1.origin ≠ .deferred)
    (hrun : w.SettlesAll front answers w') (hok : ∀ answer ∈ answers, answer = .ok ())
    (hr : w₀.work.records.find? key = some r)
    (hunplanned : ∀ pair ∈ front, pair.1.origin.record? ≠ some key) :
    ∃ r', w₀.Progress key r false false false w' r' := by
  obtain ⟨r', hopened⟩ := hplan.opened.progress hr
  have hkeeps := hrun.keepsRecord_of_apart h hok hfront hunplanned
  exact ⟨r', hopened.trans (hkeeps.progress hopened.record)⟩

/-- A record that is pending after the DELETEs and PUTs, and is not settled by the deferred
commands, is one that was left to a deferred command, and that no result settles. -/
theorem IsPlan.exists_isPending_iff (hplan : w₀.IsPlan plan w due puts) (h₀ : w₀.Consistent)
    (h : w.Consistent) (hpairs : (front ++ back).map Prod.fst = plan)
    (hfront : ∀ pair ∈ front, pair.1.origin ≠ .deferred)
    (hback : ∀ pair ∈ back, pair.1.origin = .deferred)
    (hrun : w.SettlesAll front answers w') (hok : ∀ answer ∈ answers, answer = .ok ())
    (hstates : ∀ e ∈ w₀.shared.entities, e.state.isWellFormed = true)
    (htypes : ∀ e ∈ w₀.shared.entities, e.type.KeepsBody w₀.work.conventions.identityProperty) :
    (∃ r', w'.work.records.find? key = some r' ∧ w'.IsPending key r'
        ∧ ¬ w'.SettledBy key r' back)
      ↔ ∃ r, w₀.work.records.find? key = some r ∧ w₀.IsPending key r
          ∧ w₀.work.hasDeferred r.id = true ∧ ¬ w₀.SettledBy key r (front ++ back) := by
  constructor
  · rintro ⟨r', hr', hpending', hunsettled⟩
    have hunplanned : ∀ pair ∈ front, pair.1.origin.record? ≠ some key := by
      intro pair hmem hrecord
      exact hplan.not_isPending_after h₀ h hpairs hfront hrun hok hstates htypes hmem hrecord hr'
        hpending'
    obtain ⟨r, hr⟩ : ∃ r, w₀.work.records.find? key = some r := by
      have hkeeps := hrun.keepsRecord_of_apart h hok hfront hunplanned
      obtain ⟨r, hr, -⟩ := hplan.opened.record_before (hkeeps.record.symm.trans hr')
      exact ⟨r, hr⟩
    obtain ⟨r'', hprogress⟩ := hplan.progress_of_unplanned h hfront hrun hok hr hunplanned
    obtain rfl := Option.some.inj (hprogress.record.symm.trans hr')
    have hpending := hprogress.isPending_iff.mp hpending'
    refine ⟨r, hr, hpending, ?_, ?_⟩
    · -- otherwise a command would be planned for the record, whose result is among the first
      by_contra hfree
      rw [Bool.not_eq_true] at hfree
      obtain ⟨planned, hmem, hrecord⟩ := hplan.exists_planned hr hpending hfree
      rw [← hpairs, List.mem_map] at hmem
      obtain ⟨pair, hmem, rfl⟩ := hmem
      rcases List.mem_append.mp hmem with hmem | hmem
      · exact hunplanned pair hmem hrecord
      · rw [hback pair hmem] at hrecord
        cases hrecord
    · rwa [settledBy_append_iff hfront, ← hprogress.settledBy_iff]
  · rintro ⟨r, hr, hpending, hleft, hunsettled⟩
    have hunplanned : ∀ pair ∈ front, pair.1.origin.record? ≠ some key := by
      intro pair hmem
      refine hplan.unplanned hr hleft pair.1 ?_
      rw [← hpairs]
      exact List.mem_map_of_mem (List.mem_append_left _ hmem)
    obtain ⟨r', hprogress⟩ := hplan.progress_of_unplanned h hfront hrun hok hr hunplanned
    refine ⟨r', hprogress.record, hprogress.isPending_iff.mpr hpending, ?_⟩
    rwa [hprogress.settledBy_iff, ← settledBy_append_iff hfront]

end Workspace

namespace OpenSession

open Workspace

variable {s s' : OpenSession}

/-- The types of the entities restore what they encode, and the states of the entities and the next
reply are well-formed. -/
structure WrittenAsRead (s : OpenSession) : Prop where
  states : ∀ e ∈ s.shared.entities, e.state.isWellFormed = true
  results : ∀ pair ∈ s.batchResults, (Json.obj pair.2).isWellFormed = true
  keepsBody : ∀ e ∈ s.shared.entities,
    e.type.KeepsBody s.session.work.conventions.identityProperty
  restores : s.workspace.AllRestore s.batchResults

/-- After a save that succeeds, the next save succeeds without a request if and only if the results
of the deferred commands settle every pending record that the first one left to them. -/
theorem save_again_iff (hreach : s.Reachable) (hquiet : s.session.callbacks = {})
    (hwritten : s.WrittenAsRead) (hsave : s.save = (.ok (), s')) :
    (s'.save.1 = .ok () ∧ s'.save.2.connection.sent = s'.connection.sent)
      ↔ ∀ key r, s.workspace.work.records.find? key = some r → s.workspace.IsPending key r →
          s.workspace.work.hasDeferred r.id = true →
          s.workspace.SettledBy key r s.batchResults := by
  have h₀ := hreach.consistent.workspace
  obtain ⟨plan, w, w₁, answers, hsettled⟩ := settled_of_save hsave hquiet h₀
  obtain ⟨due, puts, hplan⟩ := hsettled.planned
  have h := hsettled.consistent
  have hpairs := hsettled.commands
  have hrun := hsettled.run
  obtain ⟨front, back, hparts, hfront, hback⟩ := hplan.exists_parts hpairs
  rw [hparts] at hpairs hrun ⊢
  obtain ⟨v, answers₁, answers₂, rfl, hrunFront, hrunBack⟩ := hrun.of_append
  have hok₁ : ∀ answer ∈ answers₁, answer = .ok () :=
    fun answer hmem => hsettled.ok answer (List.mem_append_left _ hmem)
  have hok₂ : ∀ answer ∈ answers₂, answer = .ok () :=
    fun answer hmem => hsettled.ok answer (List.mem_append_right _ hmem)
  have hlast : ∀ pair ∈ back, pair ∈ s.batchResults := by
    intro pair hmem
    rw [hparts]
    exact List.mem_append_right _ hmem
  have hv := hrunFront.consistent h
  have hrestores : v.AllRestore back := by
    have hopened : w.AllRestore s.batchResults := by
      refine hwritten.restores.of_types ?_ hplan.opened.conventions_eq
      rw [hplan.opened.entities]
    refine hrunFront.allRestore h ?_
    intro e he pair hmem
    exact hopened e he pair (hlast pair hmem)
  -- what is pending after the save was left to a command before it
  have hpending : ∀ key, (∃ r₁, w₁.work.records.find? key = some r₁ ∧ w₁.IsPending key r₁)
      ↔ ∃ r, s.workspace.work.records.find? key = some r ∧ s.workspace.IsPending key r
          ∧ s.workspace.work.hasDeferred r.id = true
          ∧ ¬ s.workspace.SettledBy key r (front ++ back) := by
    intro key
    refine (hrunBack.exists_isPending_iff hv hok₂ hback
      (fun pair hmem => hwritten.results pair (hlast pair hmem)) hrestores).trans ?_
    exact hplan.exists_isPending_iff h₀ h hpairs hfront hback hrunFront hok₁ hwritten.states
      hwritten.keepsBody
  have hdone : Workspace.Consistent { w₁ with work := { w₁.work with deferred := [] } } :=
    UnitOfWork.Consistent.setDeferred (hrunBack.consistent hv) List.nodup_nil
  rw [save_sends_nothing_iff, hsettled.callbacks, hquiet, hsettled.workspace,
    planSave_eq_nil_iff hdone]
  constructor
  · rintro ⟨-, hidle⟩ key r hr hwaits hleft
    by_contra hunsettled
    obtain ⟨r₁, hr₁, hpending₁⟩ := (hpending key).mpr ⟨r, hr, hwaits, hleft, hunsettled⟩
    exact hidle key r₁ hr₁ hpending₁
  · intro hall
    refine ⟨rfl, ?_⟩
    intro key r₁ hr₁ hpending₁
    obtain ⟨r, hr, hwaits, hleft, hunsettled⟩ := (hpending key).mp ⟨r₁, hr₁, hpending₁⟩
    exact hunsettled (hall key r hr hwaits hleft)

end OpenSession

/-! ## Documents of type `anything` -/

namespace Shop

/-- The type `anything` keeps the identifier under the identity property, and putting it in changes
nothing else. -/
theorem anything_keepsBody : anything.KeepsBody "id" := by
  intro state id
  cases state with
  | obj fields =>
    show Except.ok (Keyed.erase (Keyed.erase (Keyed.insert fields "id" (.str id)) "id") _) = _
    rw [Keyed.erase_insert_self]
    rfl
  | null | bool | num | str | arr => rfl

/-- An entity of type `anything` encodes to the body that it was made from, but for the identity
property. -/
theorem anything_toBody {body : Fields} (hmetadata : Keyed.find? body Metadata.key = none)
    {id : String} {made : Entity} (hmade : anything.materialize body id "id" = .ok made) :
    made.toBody "id" = .ok (Keyed.erase body "id") := by
  obtain rfl := Except.ok.inj hmade
  refine (anything_keepsBody _ id).trans ?_
  show Except.ok
    (Keyed.erase (Keyed.erase (Keyed.insert (Keyed.erase body _) "id" (.str id)) "id") _) = _
  rw [Keyed.erase_insert_self, Keyed.erase_eq_self hmetadata, Keyed.erase_eq_self]
  rw [Keyed.find?_erase]
  split
  · rfl
  · exact hmetadata

/-- The type `anything` restores a body that has no identity property and no `@metadata`. -/
theorem anything_restores {body : Fields} (hid : Keyed.find? body "id" = none)
    (hmetadata : Keyed.find? body Metadata.key = none) : anything.Restores "id" body := by
  intro id e hmade
  rw [anything_toBody hmetadata hmade, Keyed.erase_eq_self hid]

end Shop

namespace OpenSession

open Workspace

/-- A session with a loaded and edited entity `users/1`, for which `command` is deferred. The server
lists `result` in its reply to a save. -/
def edited (command : Command) (result : Fields) : OpenSession :=
  let opened : OpenSession :=
    { session := Session.new 1 {} {}
      shared := {}
      connection :=
        { server := fun requests => .ok (.ok (.obj [("Results", .arr [.obj
            (if requests.length = 1 then [("@metadata", .obj [("@id", .str "users/1")])]
              else result)])])) }
      deliveries := {} }
  let loaded := opened.perform (.load Shop.anything "users/1" [])
  let worked := loaded.perform (.outside
    { loaded.shared with
      entities := [{ type := Shop.anything, state := .obj [("Name", .str "Ann")] }] }
    loaded.connection loaded.deliveries)
  worked.perform (.defer [command])

theorem edited_reachable (command : Command) (result : Fields) :
    (edited command result).Reachable := by
  refine Reachable.step (.defer [command]) (Reachable.step (.outside _ _ _)
    (Reachable.step (.load Shop.anything "users/1" []) (Reachable.opened 1 {} {} _ _ _) trivial) ?_)
    trivial
  exact Nat.le_refl 1

theorem edited_writtenAsRead {command : Command} {result : Fields}
    (hresults : ∀ pair ∈ (edited command result).batchResults,
      (Json.obj pair.2).isWellFormed = true)
    (hdocuments : ∀ pair ∈ (edited command result).batchResults,
      ∀ document ∈ resultDocument pair.2, Keyed.find? (Metadata.split document).1 "id" = none) :
    (edited command result).WrittenAsRead := by
  have hentities : (edited command result).shared.entities
      = [{ type := Shop.anything, state := .obj [("Name", .str "Ann")] }] := rfl
  have hproperty : (edited command result).session.work.conventions.identityProperty = "id" := rfl
  refine ⟨?_, hresults, ?_, ?_⟩
  · rw [hentities]
    decide
  · rw [hentities, hproperty]
    intro e he
    obtain rfl := List.mem_singleton.mp he
    exact Shop.anything_keepsBody
  · intro e he pair hmem document hdocument
    rw [show (edited command result).workspace.shared.entities = _ from hentities] at he
    obtain rfl := List.mem_singleton.mp he
    rw [show (edited command result).workspace.work.conventions.identityProperty = _ from hproperty]
    refine Shop.anything_restores (hdocuments pair hmem document hdocument) ?_
    exact (Keyed.find?_erase ..).trans (if_pos rfl)

/-- That session with a deferred PATCH, whose result has a `ModifiedDocument`. -/
def scripted : OpenSession :=
  edited { id := "users/1", action := .patch "" [] }
    [("ModifiedDocument", .obj [("Name", .str "Bob")])]

/-- That session with a deferred PUT. -/
def overwritten : OpenSession :=
  edited { id := "users/1", action := .put [("Name", .str "Bob")] }
    [("@change-vector", .str "A:2"), ("@id", .str "users/1")]

/-- The `ModifiedDocument` of the PATCH settles the edited entity. -/
theorem save_again_iff_scripted :
    scripted.save.2.save.1 = .ok ()
      ∧ scripted.save.2.save.2.connection.sent = scripted.save.2.connection.sent := by
  have hsave : scripted.save = (.ok (), scripted.save.2) := Prod.ext (by decide +kernel) rfl
  have hwritten : scripted.WrittenAsRead :=
    edited_writtenAsRead (by decide +kernel) (by decide +kernel)
  refine (save_again_iff (edited_reachable _ _) rfl hwritten hsave).mpr ?_
  have hsettled : ∀ entry ∈ scripted.workspace.work.records,
      scripted.workspace.SettledBy entry.1 entry.2 scripted.batchResults := by
    decide +kernel
  intro key r hr _ _
  exact hsettled (key, r) (Keyed.mem_of_find? hr)

/-- A save after one that succeeded may send a request: a deferred PUT leaves the edited entity
pending. -/
theorem save_again_overwrites :
    ¬ ∀ s s' : OpenSession, s.Reachable → s.session.callbacks = {} → s.WrittenAsRead →
      s.save = (.ok (), s') → s'.save.2.connection.sent = s'.connection.sent := by
  intro hidle
  have hsave : overwritten.save = (.ok (), overwritten.save.2) := Prod.ext (by decide +kernel) rfl
  have hwritten : overwritten.WrittenAsRead :=
    edited_writtenAsRead (by decide +kernel) (by decide +kernel)
  have hsent := hidle overwritten _ (edited_reachable _ _) rfl hwritten hsave
  have hmore : overwritten.save.2.save.2.connection.sent.length
      ≠ overwritten.save.2.connection.sent.length := by
    decide +kernel
  exact hmore (congrArg List.length hsent)

end OpenSession

end DocumentSession
