import DocumentSession.Proofs.PlannedCommands
import DocumentSession.Proofs.Saves
import DocumentSession.Proofs.AnswerItems

set_option autoImplicit false

/-! # The indexes of identifiers after a save

The commands of a plan stay apart while their results are settled (`Workspace.Apart`): each DELETE
is for a record in `deleted` with the identifier of the command, and each PUT for a record that is
not in `deleted`. What the settling of every single result preserves of `IdIndexes`, a save
preserves (`OpenSession.preserves_save`). -/

namespace DocumentSession

open Identifier (normalize)

namespace Workspace

variable {w w' : Workspace} {key : RecordKey} {plan : Plan} {planned : Planned} {result : Fields}
  {answer : Except Error Unit} {id : String}

/-! ## One result -/

/-- A record after a result was there before it. Unless the result is of its own PUT, it keeps its
`id`, and it is in `deleted` if and only if it was. -/
theorem Settles.record_before (hsettles : w.Settles planned result answer w') (h : w.Consistent)
    (hown : ∀ body metadata, planned.origin ≠ .put key body metadata) {r' : Record}
    (hr' : w'.work.records.find? key = some r') :
    ∃ r, w.work.records.find? key = some r ∧ r'.id = r.id
      ∧ w'.work.isToDelete key = w.work.isToDelete key := by
  by_cases htouches : w.Touches planned result key
  · have hchanged : ∀ (records : Table Record) (change : Record → Record) (r' : Record),
        (∀ r, (change r).id = r.id) → (records.modify key change).find? key = some r' →
          ∃ r, records.find? key = some r ∧ r'.id = r.id := by
      intro records change r' hid hfind
      rw [Keyed.find?_modify, if_pos rfl] at hfind
      obtain ⟨r, hr, rfl⟩ := Option.map_eq_some_iff.mp hfind
      exact ⟨r, hr, hid r⟩
    have hgone : ∀ r, (w.work.withoutRecord key r).records.find? key = none :=
      fun r => (Keyed.find?_erase ..).trans (if_pos rfl)
    unfold Touches at htouches
    cases hsettles with
    | unnamed | goneBeforePut | goneBeforeDelete | written | noted | unknown =>
      exact ⟨r', hr', rfl, rfl⟩
    | saved horigin _ hid hfree =>
      rw [horigin] at htouches
      obtain rfl | ⟨id', hid', hget⟩ := htouches
      · exact absurd horigin (hown _ _)
      · obtain rfl := Option.some.inj (hid.symm.trans hid')
        obtain rfl := hfree key hget
        exact absurd horigin (hown _ _)
    | @replaced other body metadata r id taken gone horigin _ hid htaken hne _ =>
      rw [horigin] at htouches
      obtain rfl | ⟨id', hid', hget⟩ := htouches
      · exact absurd horigin (hown _ _)
      · obtain rfl := Option.some.inj (hid.symm.trans hid')
        obtain rfl := Option.some.inj (htaken.symm.trans hget)
        have hnone := Keyed.find?_modify_of_ne (w.work.withoutRecord taken gone).records
          (Ne.symm hne) (·.saved id body (overlayResult metadata result))
        rw [hgone gone] at hnone
        exact absurd (hnone.symm.trans hr') (by simp)
    | @deleted other r horigin _ =>
      rw [horigin] at htouches
      obtain rfl : other = key := htouches
      exact absurd ((hgone r).symm.trans hr') (by simp)
    | @dropped other r horigin _ hget _ =>
      rw [horigin] at htouches
      obtain rfl := Option.some.inj (hget.symm.trans htouches)
      exact absurd ((hgone r).symm.trans hr') (by simp)
    | @overwritten other r horigin _ hfound =>
      rw [horigin] at htouches
      obtain rfl := Option.some.inj
        ((UnitOfWork.recordForId?_eq_some_iff.mp hfound).1.symm.trans htouches)
      obtain ⟨r, hr, hid⟩ := hchanged w.work.records
        (fun r => r.overwritten (overlayResult r.metadata result)) r' (fun _ => rfl) hr'
      exact ⟨r, hr, hid, rfl⟩
    | @versioned other r horigin _ hfound _ | @unfit other r _ horigin _ hfound _ =>
      rw [horigin] at htouches
      obtain rfl := Option.some.inj
        ((UnitOfWork.recordForId?_eq_some_iff.mp hfound).1.symm.trans htouches)
      obtain ⟨r, hr, hid⟩ := hchanged w.work.records (·.atVersion (resultVersion result)) r'
        (fun _ => rfl) hr'
      exact ⟨r, hr, hid, rfl⟩
    | @scripted other r document shared horigin _ hfound _ _ =>
      rw [horigin] at htouches
      obtain rfl := Option.some.inj
        ((UnitOfWork.recordForId?_eq_some_iff.mp hfound).1.symm.trans htouches)
      -- the record is changed twice
      obtain ⟨r₁, hr₁, hid₁⟩ := hchanged
        (w.work.modifyRecord other (·.atVersion (resultVersion result))).records
        (·.scripted (Metadata.split document).1 (Metadata.split document).2) r'
        (fun r => by unfold Record.scripted; split <;> rfl) hr'
      obtain ⟨r, hr, hid⟩ := hchanged w.work.records (·.atVersion (resultVersion result)) r₁
        (fun _ => rfl) hr₁
      exact ⟨r, hr, hid₁.trans hid, rfl⟩
  · have hkeeps := hsettles.keepsRecord h htouches
    exact ⟨r', hkeeps.record.symm.trans hr', rfl, hkeeps.deleted⟩

/-- An identifier that the result of a PUT assigns is not missing afterwards, unless the record of
the PUT is gone and nothing changes. -/
theorem Settles.missing_of_given (hsettles : w.Settles planned result answer w')
    {body metadata : Fields} (horigin : planned.origin = .put key body metadata) {given : String}
    (hgiven : resultId result = some given) (hid : normalize given = normalize id) :
    w' = w ∨ w'.work.missing.contains id = false := by
  cases hsettles with
  | unnamed | goneBeforePut | goneBeforeDelete | unknown => exact Or.inl rfl
  | saved _ _ hid' _ | replaced _ _ hid' _ _ _ =>
    obtain rfl := Option.some.inj (hgiven.symm.trans hid')
    refine Or.inr ?_
    show (KnownMissing.remove _ given).contains id = false
    rw [KnownMissing.contains_remove]
    simp [hid]
  | deleted horigin' | overwritten horigin' | written horigin' | dropped horigin' | noted horigin'
  | versioned horigin' | unfit horigin' | scripted horigin' =>
    rw [horigin] at horigin'
    cases horigin'

/-! ## A run of results -/

/-- The commands of `plan` are for different records of `w`: its DELETEs for records in `deleted`
that have the identifiers of the commands, its PUTs for others. -/
structure Apart (w : Workspace) (plan : Plan) : Prop where
  deletes : ∀ planned ∈ plan, ∀ key, planned.origin = .delete key →
    planned.command.kind = .delete ∧ ∀ r, w.work.records.find? key = some r →
      w.work.isToDelete key = true ∧ normalize r.id = normalize planned.command.id
  puts : ∀ planned ∈ plan, ∀ key body metadata, planned.origin = .put key body metadata →
    w.work.isToDelete key = false

theorem apart_of_planSave {c : Callbacks} (hplan : w.planSave c = (.ok plan, w')) :
    w'.Apart plan := by
  have hplans := plans_planSave hplan
  have hdeleted : ∀ key, w'.work.isToDelete key = w.work.isToDelete key := by
    intro key
    rw [hplans.work]
    rfl
  constructor
  · intro planned hmem key horigin
    rcases cases_of_planSave hplan hmem with ⟨key', hdelete, hplanned⟩ | hwrites | hwaited
    · obtain ⟨r, hr, -, rfl⟩ := plannedDelete_eq_some_iff.mp hplanned
      obtain rfl := Origin.delete.inj horigin
      refine ⟨rfl, ?_⟩
      intro r' hr'
      obtain ⟨r₀, hr₀, heq⟩ := hplans.record_before hr'
      obtain rfl := Option.some.inj (hr.symm.trans hr₀)
      exact ⟨(hdeleted key').trans hdelete, by rw [heq]⟩
    · obtain ⟨key', r, body, metadata, -, -, rfl⟩ := hwrites
      cases horigin
    · obtain ⟨command, -, rfl⟩ := hwaited
      cases horigin
  · intro planned hmem key body metadata horigin
    rcases cases_of_planSave hplan hmem with ⟨key', -, hplanned⟩ | hwrites | hwaited
    · obtain ⟨r, -, -, rfl⟩ := plannedDelete_eq_some_iff.mp hplanned
      cases horigin
    · obtain ⟨key', r, body', metadata', -, hkept, rfl⟩ := hwrites
      obtain ⟨rfl, -, -⟩ := Origin.put.inj horigin
      exact (hdeleted key').trans hkept
    · obtain ⟨command, -, rfl⟩ := hwaited
      cases horigin

/-- A result brings no record into `deleted`. -/
theorem Settles.of_isToDelete (hsettles : w.Settles planned result answer w')
    (hdelete : w'.work.isToDelete key = true) : w.work.isToDelete key = true := by
  have herase : ∀ (other : RecordKey) (r : Record),
      (w.work.withoutRecord other r).isToDelete key = true → w.work.isToDelete key = true := by
    intro other r herased
    replace herased : Keyed.contains (w.work.deleted.erase other) key = true := herased
    rw [Keyed.contains_erase, Bool.and_eq_true] at herased
    exact herased.2
  cases hsettles with
  | unnamed | goneBeforePut | goneBeforeDelete | saved | overwritten | written | noted | unknown
  | versioned | unfit | scripted => exact hdelete
  | @replaced _ _ _ _ _ other r => exact herase other r hdelete
  | @deleted other r | @dropped other r => exact herase other r hdelete

/-- Settling a result keeps the commands of the plan apart. -/
theorem Apart.settles (hapart : w.Apart plan) (h : w.Consistent) (hmem : planned ∈ plan)
    (hsettles : w.Settles planned result answer w') : w'.Apart plan := by
  constructor
  · intro other hother key horigin
    obtain ⟨hkind, hdeletes⟩ := hapart.deletes other hother key horigin
    refine ⟨hkind, ?_⟩
    intro r' hr'
    have hfound : ∃ r, w.work.records.find? key = some r := by
      rw [← Option.ne_none_iff_exists']
      intro hnone
      rw [hsettles.absent hnone] at hr'
      cases hr'
    obtain ⟨r₀, hr₀⟩ := hfound
    have hown : ∀ body metadata, planned.origin ≠ .put key body metadata := by
      intro body metadata hput
      have hkept := hapart.puts planned hmem key body metadata hput
      rw [(hdeletes r₀ hr₀).1] at hkept
      cases hkept
    obtain ⟨r, hr, hid, hdelete⟩ := hsettles.record_before h hown hr'
    obtain ⟨hbefore, hcommand⟩ := hdeletes r hr
    exact ⟨hdelete.trans hbefore, by rw [hid, hcommand]⟩
  · intro other hother key body metadata horigin
    rw [Bool.eq_false_iff]
    intro hdelete
    have hbefore := hsettles.of_isToDelete hdelete
    rw [hapart.puts other hother key body metadata horigin] at hbefore
    cases hbefore

end Workspace

namespace OpenSession

variable {s : OpenSession}

/-- A save preserves what the settling of each result preserves of `idIndexes`, whichever commands
are in `deferred`. -/
theorem preserves_save (h : s.Consistent) {P : IdIndexes → Prop} (hP : P s.idIndexes)
    (hdeferred : ∀ (m : IdIndexes) (deferred : List Command), P m → P { m with deferred })
    (hstep : ∀ (plan : Plan) (v v' : Workspace) (planned : Planned) (result : Fields)
      (answer : Except Error Unit), v.Consistent → v.Apart plan → planned ∈ plan →
        (planned, result) ∈ s.acknowledged → v.Settles planned result answer v' →
        P v.idIndexes → P v'.idIndexes) : P s.save.2.idIndexes := by
  have hsaves := saves h
  show P s.save.2.session.work.idIndexes
  generalize s.save.2.session.work = work at hsaves
  cases hsaves with
  | @unsettled w hplans =>
    have hindexes : w.work.idIndexes = s.idIndexes := by
      rw [hplans.work]
      rfl
    rw [hindexes]
    exact hP
  | @settled plan w w₁ w₂ answers hplan hcommands hwork hconsistent hrun =>
    have hindexes : w₁.idIndexes = s.idIndexes := by
      show w₁.work.idIndexes = _
      rw [hwork, (Workspace.plans_planSave hplan).work]
      rfl
    have hapart : w₁.Apart plan := by
      have hplanned := Workspace.apart_of_planSave hplan
      constructor
      · rw [hwork]
        exact hplanned.deletes
      · rw [hwork]
        exact hplanned.puts
    have hboth : w₂.Apart plan ∧ P w₂.idIndexes := by
      refine hrun.preserves (P := fun v => v.Apart plan ∧ P v.idIndexes) hconsistent ?_
        ⟨hapart, hindexes ▸ hP⟩
      rintro v v' planned result answer hmem - hv hsettles ⟨hbefore, hPv⟩
      have hplanned : planned ∈ plan := by
        rw [← hcommands]
        exact List.mem_map_of_mem hmem
      exact ⟨hbefore.settles hv hplanned hsettles,
        hstep plan v v' planned result answer hv hbefore hplanned hmem hsettles hPv⟩
    exact hdeferred w₂.idIndexes [] hboth.2

end OpenSession

end DocumentSession
