import DocumentSession.Proofs.PerformCases
import DocumentSession.Proofs.Run
import DocumentSession.Proofs.Sends

set_option autoImplicit false

/-! # Records that keep their dictionary

A record with an entity and a dictionary keeps both under one identifier until it is removed, and a
`RecordKey` is never used again (`Workspace.Linked`). Only `settle` can change that: the record
releases its dictionary when a result replaces its metadata (`Workspace.Resets`). Whatever else a
session does, and whatever else a save settles, keeps the record linked
(`OpenSession.PerformCases.linked`). -/

namespace DocumentSession

open Identifier (normalize)

namespace Workspace

variable {w w' : Workspace} {key : RecordKey} {id : String} {entity : EntityRef}
  {n : Metadata.NodeId}

/-- The record at `key` has this identifier, entity and dictionary, or it is gone for good. -/
structure Linked (w : Workspace) (key : RecordKey) (id : String) (entity : EntityRef)
    (n : Metadata.NodeId) : Prop where
  numbered : key < w.work.nextKey
  record : ∀ r, w.work.records.find? key = some r →
    r.id = id ∧ r.entity = some entity ∧ r.dictionary = some n

namespace Linked

/-- No record changes. -/
theorem of_same (h : w.Linked key id entity n) (hnext : w'.work.nextKey = w.work.nextKey)
    (hrecords : w'.work.records = w.work.records) : w'.Linked key id entity n :=
  ⟨hnext ▸ h.numbered, fun r hr => h.record r (hrecords ▸ hr)⟩

/-- A record is removed. -/
theorem of_erase (h : w.Linked key id entity n) (hnext : w'.work.nextKey = w.work.nextKey)
    {other : RecordKey} (hrecords : w'.work.records = w.work.records.erase other) :
    w'.Linked key id entity n := by
  refine ⟨hnext ▸ h.numbered, ?_⟩
  intro r hr
  rw [hrecords, Keyed.find?_erase] at hr
  split at hr
  · cases hr
  · exact h.record r hr

/-- A record is made. -/
theorem of_insert (h : w.Linked key id entity n) (hnext : w'.work.nextKey = w.work.nextKey + 1)
    {made : Record} (hrecords : w'.work.records = w.work.records.insert w.work.nextKey made) :
    w'.Linked key id entity n := by
  refine ⟨hnext ▸ Nat.lt_succ_of_lt h.numbered, ?_⟩
  intro r hr
  rw [hrecords, Keyed.find?_insert, if_neg (Nat.ne_of_gt h.numbered)] at hr
  exact h.record r hr

/-- A record changes. If it is the one that is linked, it stays so. -/
theorem of_modify (h : w.Linked key id entity n) (other : RecordKey) (change : Record → Record)
    (hnext : w'.work.nextKey = w.work.nextKey)
    (hrecords : w'.work.records = w.work.records.modify other change)
    (hchange : ∀ r, other = key → w.work.records.find? key = some r →
      (change r).id = r.id ∧ (change r).entity = r.entity ∧ (change r).dictionary = r.dictionary) :
    w'.Linked key id entity n := by
  refine ⟨hnext ▸ h.numbered, ?_⟩
  intro r hr
  rw [hrecords, Keyed.find?_modify] at hr
  split at hr
  · next hkey =>
    obtain ⟨before, hbefore, rfl⟩ := Option.map_eq_some_iff.mp hr
    obtain ⟨hid, hentity, hdictionary⟩ := hchange before hkey hbefore
    rw [hid, hentity, hdictionary]
    exact h.record before hbefore
  · exact h.record r hr

/-- A record without an entity is not the one that is linked, and may change. -/
theorem of_vacant (h : w.Linked key id entity n) {other : RecordKey} {r : Record}
    (hr : w.work.records.find? other = some r) (hvacant : r.entity = none)
    (change : Record → Record) (hnext : w'.work.nextKey = w.work.nextKey)
    (hrecords : w'.work.records = w.work.records.modify other change) :
    w'.Linked key id entity n := by
  refine h.of_modify other change hnext hrecords ?_
  intro linked hkey hlinked
  subst hkey
  obtain rfl := Option.some.inj (hr.symm.trans hlinked)
  rw [(h.record r hr).2.1] at hvacant
  cases hvacant

end Linked

/-! ## Local work -/

theorem linked_removeRecord (h : w.Linked key id entity n) (other : RecordKey) :
    (w.removeRecord other).2.Linked key id entity n := by
  unfold removeRecord
  split
  · exact h
  · exact h.of_erase rfl rfl

theorem linked_openDictionary (h : w.Linked key id entity n) {other : RecordKey} {r : Record}
    (hr : w.work.records.find? other = some r) :
    (w.openDictionary other r).2.Linked key id entity n := by
  refine h.of_modify other (fun _ => (r.openDictionary w.shared.dictionaries).2.1) rfl rfl ?_
  intro linked hkey hlinked
  subst hkey
  obtain rfl := Option.some.inj (hr.symm.trans hlinked)
  unfold Record.openDictionary
  rw [(h.record r hr).2.2]
  exact ⟨rfl, rfl, (h.record r hr).2.2⟩

theorem LocalStep.linked {given : Option String} (hstep : w.LocalStep given w')
    (h : w.Linked key id entity n) : w'.Linked key id entity n := by
  cases hstep with
  | index hrecords hnext => exact h.of_same hnext hrecords
  | removeRecord other => exact linked_removeRecord h other
  | track _ _ _ _ => exact h.of_insert rfl rfl
  | @attach other r hr hvacant entity' id' check =>
    exact h.of_vacant hr hvacant
      (fun r => { r with entity := some entity', check, changeVector := given.or r.changeVector })
      rfl rfl
  | storeAgain other check =>
    exact h.of_modify other (fun r => { r with changeVector := given.or r.changeVector, check }) rfl
      rfl (fun _ _ _ => ⟨rfl, rfl, rfl⟩)
  | ignoreChanges other =>
    exact h.of_modify other (fun r => { r with ignoreChanges := true }) rfl rfl
      (fun _ _ _ => ⟨rfl, rfl, rfl⟩)
  | openDictionary hr _ => exact linked_openDictionary h hr
  | retain _ => exact h.of_same rfl rfl
  | clear => exact ⟨h.numbered, fun _ hr => by cases hr⟩

theorem LocalSteps.linked {given : Option String} (hlocal : w.LocalSteps given w')
    (h : w.Linked key id entity n) : w'.Linked key id entity n := by
  induction hlocal with
  | refl => exact h
  | tail _ hstep ih => exact hstep.linked ih

/-! ## Reading -/

theorem linked_register (h : w.Linked key id entity n) (document : Fields) :
    (w.register document).2.Linked key id entity n := by
  unfold Workspace.register
  dsimp only
  split
  · exact h
  · split
    · unfold refreshRecord
      split
      · next r hr =>
        split
        · exact h
        · next hnone =>
          exact h.of_vacant hr (by simpa using hnone)
            (·.refreshed (Metadata.split document).1 (Metadata.split document).2) rfl rfl
      · exact h
    · exact h.of_insert rfl rfl

theorem linked_entityFor (h : w.Linked key id entity n) (type : EntityType) (other : RecordKey) :
    (w.entityFor type other).2.Linked key id entity n := by
  unfold Workspace.entityFor
  split
  · exact h
  · next r hr =>
    split
    · dsimp only
      split <;> exact h
    · exact h
    · next hnone _ =>
      split
      · exact h
      · exact h.of_vacant hr hnone
          (fun r => { r with entity := some w.shared.entities.length }) rfl rfl

theorem linked_detached (h : w.Linked key id entity n) (type : EntityType) (document : Fields) :
    (w.detached type document).2.Linked key id entity n := by
  unfold Workspace.detached
  dsimp only
  split
  · exact h
  · exact h.of_same rfl rfl

theorem ReadStep.linked {D : Fields → Prop} (hstep : w.ReadStep D w')
    (h : w.Linked key id entity n) : w'.Linked key id entity n := by
  cases hstep with
  | warn _ => exact h.of_same rfl rfl
  | markMissing _ => exact h.of_same rfl rfl
  | register document _ => exact linked_register h document
  | entityFor type other => exact linked_entityFor h type other
  | detached type document => exact linked_detached h type document

theorem Reads.linked {D : Fields → Prop} (hreads : w.Reads D w')
    (h : w.Linked key id entity n) : w'.Linked key id entity n := by
  induction hreads with
  | refl => exact h
  | tail _ hstep ih => exact hstep.linked ih

/-! ## Planning -/

theorem Plans.linked {callbacks : Callbacks} (hplans : w.Plans callbacks w')
    (h : w.Linked key id entity n) : w'.Linked key id entity n := by
  induction hplans with
  | refl => exact h
  | tail _ hstep ih =>
    cases hstep with
    | beforeDelete _ => exact ih.of_same rfl rfl
    | beforeStore _ => exact ih.of_same rfl rfl
    | opens hr _ => exact linked_openDictionary ih hr

/-! ## Settling -/

/-- A result that replaces the metadata of the record at `key`, which releases its dictionary: that
of the PUT of its entity, that of a deferred PUT for its document, and that of a deferred PATCH for
its document if it has a document with metadata. -/
inductive Resets (key : RecordKey) (id : String) (planned : Planned) (result : Fields) : Prop where
  | put {body metadata : Fields} (horigin : planned.origin = .put key body metadata)
  | overwrite (horigin : planned.origin = .deferred) (hkind : planned.command.kind = .put)
    (hid : normalize planned.command.id = normalize id)
  | script {document : Fields} (horigin : planned.origin = .deferred)
    (hkind : planned.command.kind = .patch) (hid : normalize planned.command.id = normalize id)
    (hdocument : resultDocument result = some document)
    (hmetadata : (Metadata.split document).2 ≠ [])

theorem Settles.linked {planned : Planned} {result : Fields} {answer : Except Error Unit}
    (hsettles : w.Settles planned result answer w') (hw : w.Consistent)
    (hresets : ¬ Resets key id planned result) (h : w.Linked key id entity n) :
    w'.Linked key id entity n := by
  -- a command that leads to the record has its identifier
  have hnamed : ∀ {r : Record}, w.work.recordForId? planned.command.id = some (key, r) →
      normalize planned.command.id = normalize id := by
    intro r hfound
    obtain ⟨hget, hr⟩ := UnitOfWork.recordForId?_eq_some_iff.mp hfound
    obtain ⟨r', hr', hid⟩ := hw.toCoherent.record_of_get? hget
    obtain rfl := Option.some.inj (hr.symm.trans hr')
    rw [← (h.record r hr).1, hid]
  have hversioned : ∀ other, Workspace.Linked
      { w with work := w.work.modifyRecord other (·.atVersion (resultVersion result)) } key id
      entity n :=
    fun other => h.of_modify other (·.atVersion (resultVersion result)) rfl rfl
      (fun _ _ _ => ⟨rfl, rfl, rfl⟩)
  cases hsettles with
  | unnamed | goneBeforePut | goneBeforeDelete | unknown => exact h
  | written | noted => exact h.of_same rfl rfl
  | deleted | dropped => exact h.of_erase rfl rfl
  | @saved other body metadata r id' horigin =>
    refine h.of_modify other (·.saved id' body (overlayResult metadata result)) rfl rfl ?_
    rintro r rfl -
    exact absurd (.put horigin) hresets
  | @replaced other body metadata r id' taken gone horigin =>
    have hforgotten : Workspace.Linked { w with work := w.work.withoutRecord taken gone } key id
        entity n := h.of_erase rfl rfl
    refine hforgotten.of_modify other (·.saved id' body (overlayResult metadata result)) rfl rfl ?_
    rintro r rfl -
    exact absurd (.put horigin) hresets
  | @overwritten other r horigin hkind hfound =>
    refine h.of_modify other (fun r => r.overwritten (overlayResult r.metadata result)) rfl rfl ?_
    rintro r rfl -
    exact absurd (.overwrite horigin hkind (hnamed hfound)) hresets
  | @versioned other | @unfit other => exact hversioned other
  | @scripted other r document shared horigin hkind hfound hdocument =>
    refine (hversioned other).of_modify other
      (·.scripted (Metadata.split document).1 (Metadata.split document).2) rfl rfl ?_
    rintro r rfl -
    by_cases hmetadata : (Metadata.split document).2 = []
    · unfold Record.scripted
      rw [if_pos hmetadata]
      exact ⟨rfl, rfl, rfl⟩
    · exact absurd (.script horigin hkind (hnamed hfound) hdocument hmetadata) hresets

theorem linked_announce (callbacks : Callbacks) (h : w.Linked key id entity n)
    (failure : Option Error) (keys : List RecordKey) :
    (w.announce callbacks failure keys).2.Linked key id entity n := by
  induction keys generalizing w failure with
  | nil => exact h
  | cons k rest ih =>
    rw [announce]
    split
    · exact ih h failure
    · next r _ =>
      have hcalled : Workspace.Linked
          { w with shared := (Callbacks.callEach { id := r.id, entity := r.entity }
              callbacks.afterSave w.shared).2 }
          key id entity n := h.of_same rfl rfl
      exact ih hcalled _

theorem linked_settle (hw : w.Consistent) (callbacks : Callbacks) {plan : Plan}
    {answer : Option Json}
    (hresets : ∀ results, resultsFor plan answer = .ok results →
      ∀ pair ∈ plan.zip results, ¬ Resets key id pair.1 pair.2)
    (h : w.Linked key id entity n) : (w.settle callbacks plan answer).2.Linked key id entity n := by
  unfold settle
  split
  · exact h
  · next results hresults =>
    obtain ⟨answers, hrun, -⟩ := settleAll_settlesAll hw none plan results
    have hsettled := hrun.preserves (P := fun v => v.Linked key id entity n) hw
      (fun v v' planned result _ hmem _ hv hsettles hlinked =>
        hsettles.linked hv (hresets results hresults (planned, result) hmem) hlinked) h
    have hdone : Workspace.Linked
        { (w.settleAll none plan results).2 with
          work := { (w.settleAll none plan results).2.work with deferred := [] } }
        key id entity n := hsettled.of_same rfl rfl
    exact linked_announce callbacks hdone _ _

end Workspace

namespace OpenSession

open Workspace

variable {s s' : OpenSession} {key : RecordKey} {id : String} {entity : EntityRef}
  {n : Metadata.NodeId}

/-! ## All operations -/

/-- A save sends its plan, and a result in the answer `Resets` the record. -/
def SaveResets (s : OpenSession) (key : RecordKey) (id : String) : Prop :=
  ∃ plan w response s' results, s.workspace.planSave s.session.callbacks = (.ok plan, w)
    ∧ (s.withWorkspace w).send "save_changes" (batchRequest plan) = (.ok response, s')
    ∧ response.isSuccess = true ∧ resultsFor plan response.body = .ok results
    ∧ ∃ pair ∈ plan.zip results, Resets key id pair.1 pair.2

theorem linked_save (hs : s.Consistent) (hresets : ¬ s.SaveResets key id)
    (h : s.workspace.Linked key id entity n) : s.save.2.workspace.Linked key id entity n := by
  have hplanned : ∀ {planned w}, s.workspace.planSave s.session.callbacks = (planned, w) →
      w.Linked key id entity n := fun hplan => (plans_planSave hplan).linked h
  rcases hsave : s.save with ⟨answer, s'⟩
  cases saveEnds hsave with
  | refused hplan | idle hplan => exact hplanned hplan
  | unanswered hplan _ hsend | failed hplan _ hsend =>
    exact (reads_send hsend).workspace.linked (hplanned hplan)
  | conflict hplan _ hsend =>
    exact ((reads_send hsend).workspace.linked (hplanned hplan)).of_same rfl rfl
  | @settled plan w response s₁ hplan _ hsend hsuccess =>
    have hreads := reads_send hsend
    have hconsistent := hs.workspace.planSave hs.callbacks
    rw [hplan] at hconsistent
    refine linked_settle ((hs.withWorkspace hconsistent).reads hreads).workspace _ ?_
      (hreads.workspace.linked (hplanned hplan))
    intro results hresults pair hmem hreset
    exact hresets ⟨plan, w, response, s₁, results, hplan, hsend, hsuccess, hresults, pair, hmem,
      hreset⟩

/-- After every operation the record stays linked, unless the operation is a save that `SaveResets`
it. -/
theorem PerformCases.linked {operation : Operation} (hcases : s.PerformCases operation s')
    (hs : s.Consistent) (hresets : operation = .save → ¬ s.SaveResets key id)
    (h : s.workspace.Linked key id entity n) : s'.workspace.Linked key id entity n := by
  cases hcases with
  | localSteps hlocal _ _ => exact hlocal.linked h
  | reads _ hreads =>
    have hwork : (s.asked operation).workspace.work = s.workspace.work :=
      congrArg Session.work (session_asked s operation)
    exact hreads.workspace.linked (h.of_same (by rw [hwork]) (by rw [hwork]))
  | saves => exact linked_save hs (hresets rfl) h
  | listens _ => exact h
  | outside _ _ _ => exact h.of_same rfl rfl

end OpenSession

end DocumentSession
