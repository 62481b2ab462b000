import DocumentSession.Proofs.LocalAnswers
import DocumentSession.Proofs.LastStatus
import DocumentSession.Proofs.SettledIndexes
import DocumentSession.Entity.Shop

set_option autoImplicit false

/-! # Identifiers that are missing for no reason

An identifier comes into `missing` because a reply says that there is no document, because the
server carried out a deletion, or because a deletion is pending. `LastReported` follows a run
together with the `DocumentStatus` of one identifier that the server reported last. If the
identifier is in `missing` for none of these reasons, it is `WronglyMissing`.

This comes about in two ways (`OpenSession.wronglyMissing_perform_iff`): a reply `Disregards` a
document, or `evict` removes a record in `deleted` and with it the pending deletion, while the
identifier stays in `missing` (`OpenSession.Withdraws`). In a run without either, no identifier is
wrongly missing, and a load answers `none` without a request only for one of the reasons
(`OpenSession.missing_with_reason`). -/

namespace DocumentSession

open Identifier (normalize)

/-! ## Results of a save -/

namespace Workspace

variable {w w' : Workspace} {plan : Plan} {planned : Planned} {result : Fields}
  {answer : Except Error Unit} {id : String} {key : RecordKey}

/-- While `id` is missing, its record stays in `deleted`, unless the server carries out a DELETE of
its document. -/
theorem Settles.keepsDeletion (hsettles : w.Settles planned result answer w') (h : w.Consistent)
    (hapart : w.Apart plan) (hmem : planned ∈ plan)
    (hother : planned.command.dedupKey ≠ (.delete, normalize id))
    (hmissing : w'.work.missing.contains id = true)
    (hget : w.work.identities.get? id = some key) (hdelete : w.work.isToDelete key = true) :
    w'.work.identities.get? id = some key ∧ w'.work.isToDelete key = true := by
  obtain ⟨r, hr, hid⟩ := h.record_of_get? hget
  have hnamed : ∀ {name : String}, w.work.identities.get? name = some key →
      normalize name = normalize id := by
    intro name hname
    obtain ⟨r', hr', hid'⟩ := h.record_of_get? hname
    obtain rfl := Option.some.inj (hr.symm.trans hr')
    exact hid'.symm.trans hid
  have hdeletion : planned.command.kind = .delete →
      normalize planned.command.id ≠ normalize id := by
    intro hkind hown
    exact hother (Prod.ext hkind hown)
  by_cases htouches : w.Touches planned result key
  · unfold Touches at htouches
    cases horigin : planned.origin with
    | put other body metadata =>
      rw [horigin] at htouches
      rcases htouches with rfl | ⟨given, hgiven, hfound⟩
      · have hkept := hapart.puts planned hmem other body metadata horigin
        exact absurd (hkept.symm.trans hdelete) (by simp)
      · rcases hsettles.missing_of_given horigin hgiven (hnamed hfound) with rfl | hgone
        · exact ⟨hget, hdelete⟩
        · exact absurd (hgone.symm.trans hmissing) (by simp)
    | delete other =>
      rw [horigin] at htouches
      obtain rfl : other = key := htouches
      obtain ⟨hkind, hrecord⟩ := hapart.deletes planned hmem other horigin
      exact absurd ((hrecord r hr).2.symm.trans hid) (hdeletion hkind)
    | deferred =>
      rw [horigin] at htouches
      have hown : normalize planned.command.id = normalize id := hnamed htouches
      cases hsettles with
      | unknown | versioned | unfit | scripted => exact ⟨hget, hdelete⟩
      | dropped _ hkind | noted _ hkind => exact absurd hown (hdeletion hkind)
      | overwritten | written =>
        replace hmissing : (KnownMissing.remove _ _).contains id = true := hmissing
        rw [KnownMissing.contains_remove] at hmissing
        simp [hown] at hmissing
      | unnamed horigin' | goneBeforePut horigin' | goneBeforeDelete horigin' | saved horigin'
      | replaced horigin' | deleted horigin' =>
        rw [horigin] at horigin'
        cases horigin'
  · have hkeeps := hsettles.keepsRecord h htouches
    exact ⟨(hkeeps.indexed id).mpr hget, hkeeps.deleted.trans hdelete⟩

end Workspace

namespace OpenSession

variable {s : OpenSession} {operation : Operation} {last : Option DocumentStatus} {id : String}

/-! ## The status that was reported last -/

/-- The server acknowledges a DELETE for `id` in the next save. -/
def deletes (s : OpenSession) (id : String) : Bool :=
  s.acknowledged.any fun carried => carried.1.command.dedupKey = (.delete, normalize id)

theorem deletes_iff : s.deletes id = true
    ↔ (CommandKind.delete, normalize id) ∈ s.acknowledged.map (·.1.command.dedupKey) := by
  simp [deletes]

/-- The status of the document of `id` that the replies to `operation` report, if any: the
`lastStatus` of its `answerItems`, or `deleted` where a save has a DELETE for `id` acknowledged. -/
def reportedStatus (s : OpenSession) (operation : Operation) (id : String) :
    Option DocumentStatus :=
  match operation with
  | .save => if s.deletes id then some .deleted else none
  | .load .. | .loadMany .. | .runQuery .. | .flush | .resolve _ =>
    AnswerItem.lastStatus id (s.answerItems operation)
  | _ => none

theorem reportedStatus_of_ne_save (hsaves : operation ≠ .save) :
    s.reportedStatus operation id = AnswerItem.lastStatus id (s.answerItems operation) := by
  cases operation with
  | save => exact absurd rfl hsaves
  | _ => rfl

/-- The reply to `operation` disregards a document of `id`. -/
def Disregards (s : OpenSession) (operation : Operation) (id : String) : Prop :=
  s.idIndexes.Disregards (s.answerItems operation) id

theorem not_disregards_of_not_reading (hlocal : ¬ Reading operation) :
    ¬ s.Disregards operation id := by
  unfold Disregards
  rw [answerItems_of_not_reading hlocal]
  exact s.idIndexes.not_disregards_nil id

/-- `operation` evicts the entity of a record in `deleted` whose `id` is missing, and no DELETE for
`id` is deferred. -/
def Withdraws (s : OpenSession) (operation : Operation) (id : String) : Prop :=
  ∃ entity key, operation = .evict entity ∧ s.session.work.registry.get? entity = some key
    ∧ s.session.work.identities.get? id = some key ∧ s.session.work.isToDelete key = true
    ∧ s.session.work.missing.contains id = true
    ∧ (CommandKind.delete, normalize id) ∉ s.session.work.deferred.map Command.dedupKey

/-! ## Saves -/

/-- A save leaves `idIndexes` as they are, or every deferred command is acknowledged. -/
theorem idIndexes_save_or_acknowledged (h : s.Consistent) :
    s.save.2.idIndexes = s.idIndexes
      ∨ ∀ command ∈ s.session.work.deferred,
        command.dedupKey ∈ s.acknowledged.map (·.1.command.dedupKey) := by
  have hsaves := saves h
  show s.save.2.session.work.idIndexes = _ ∨ _
  generalize s.save.2.session.work = work at hsaves
  cases hsaves with
  | unsettled hplans =>
    refine Or.inl ?_
    rw [hplans.work]
    rfl
  | @settled plan w w₁ w₂ answers hplan hcommands hwork hconsistent hrun =>
    refine Or.inr ?_
    intro command hcommand
    obtain ⟨puts, hparts, -⟩ := Workspace.parts_of_planSave hplan
    have hplanned : Workspace.plannedDeferred command ∈ s.acknowledged.map Prod.fst := by
      rw [hcommands, hparts]
      exact List.mem_append_right _ (List.mem_map_of_mem hcommand)
    obtain ⟨carried, hcarried, heq⟩ := List.mem_map.mp hplanned
    refine List.mem_map.mpr ⟨carried, hcarried, ?_⟩
    rw [heq]
    rfl

/-- If a save has no DELETE for `id` acknowledged, `id` is missing afterwards only if it was before,
and then a record of `id` in `deleted` stays there. -/
theorem missing_of_save (h : s.Consistent) (hother : ¬ s.deletes id = true)
    (hmissing : s.save.2.idIndexes.missing.contains id = true) :
    s.idIndexes.missing.contains id = true
      ∧ ∀ key, s.idIndexes.identities.get? id = some key → s.idIndexes.deleted.contains key = true →
        s.save.2.idIndexes.identities.get? id = some key
          ∧ s.save.2.idIndexes.deleted.contains key = true := by
  refine preserves_save h
    (P := fun m => m.missing.contains id = true → s.idIndexes.missing.contains id = true
      ∧ ∀ key, s.idIndexes.identities.get? id = some key → s.idIndexes.deleted.contains key = true →
        m.identities.get? id = some key ∧ m.deleted.contains key = true)
    (fun hnoted => ⟨hnoted, fun key hget hdelete => ⟨hget, hdelete⟩⟩) (fun m deferred hm => hm)
    ?_ hmissing
  intro plan v v' planned result answer hv hapart hmem hcarried hsettles hbefore hafter
  have hown : planned.command.dedupKey ≠ (.delete, normalize id) := by
    intro heq
    exact hother (deletes_iff.mpr (List.mem_map.mpr ⟨(planned, result), hcarried, heq⟩))
  have hnoted : v.work.missing.contains id = true := by
    rcases hsettles.of_missing hafter with hnoted | hdeletes
    · exact hnoted
    · exfalso
      rcases hdeletes with ⟨key, r, horigin, hr, hid⟩ | ⟨-, hkind, hid⟩
      · obtain ⟨hkind, hrecord⟩ := hapart.deletes planned hmem key horigin
        exact hown (Prod.ext hkind ((hrecord r hr).2.symm.trans hid))
      · exact hown (Prod.ext hkind hid)
  obtain ⟨hearlier, hstays⟩ := hbefore hnoted
  refine ⟨hearlier, ?_⟩
  intro key hget hdelete
  obtain ⟨hget', hdelete'⟩ := hstays key hget hdelete
  exact hsettles.keepsDeletion hv hapart hmem hown hafter hget' hdelete'

/-- No identifier is wrongly missing for a save. -/
theorem not_wronglyMissing_save (h : s.Consistent) (hquiet : ¬ s.idIndexes.WronglyMissing last id) :
    ¬ s.save.2.idIndexes.WronglyMissing ((s.reportedStatus .save id).or last) id := by
  unfold reportedStatus
  by_cases hcarried : s.deletes id = true
  · simp [IdIndexes.WronglyMissing, hcarried]
  · simp only [hcarried, Bool.false_eq_true, if_false, Option.none_or]
    rintro ⟨hmissing, habsent, hdeleted, hkept⟩
    obtain ⟨hnoted, hstays⟩ := missing_of_save h hcarried hmissing
    refine hquiet ⟨hnoted, habsent, hdeleted, ?_⟩
    rintro (⟨key, hget, hdelete⟩ | hwaits)
    · obtain ⟨hget', hdelete'⟩ := hstays key hget hdelete
      exact hkept (Or.inl ⟨key, hget', hdelete'⟩)
    · rcases idIndexes_save_or_acknowledged h with hindexes | hall
      · rw [hindexes] at hkept
        exact hkept (Or.inr hwaits)
      · obtain ⟨command, hcommand, heq⟩ := List.mem_map.mp hwaits
        have hdone := hall command hcommand
        rw [heq] at hdone
        exact hcarried (deletes_iff.mpr hdone)

/-! ## Local work -/

/-- Removing the record of `own` leaves a pending deletion of another `id`, for each record has one
identifier. -/
theorem pending_forget (h : s.Consistent) {own : String} (hid : normalize own ≠ normalize id)
    (hpending : s.idIndexes.DeletionPending id) : (s.idIndexes.forget own).DeletionPending id := by
  unfold IdIndexes.forget
  cases hown : s.idIndexes.identities.get? own with
  | none => exact hpending
  | some key =>
    refine hpending.without h.workspace.identities_sorted ?_
    intro hget
    obtain ⟨r, hr, hown'⟩ := h.workspace.record_of_get? hown
    obtain ⟨r', hr', hid'⟩ := h.workspace.record_of_get? hget
    obtain rfl := Option.some.inj (hr.symm.trans hr')
    exact absurd (hown'.symm.trans hid') hid

/-- An operation that sends no request marks `id` as missing only where a deletion of `id` is
pending afterwards. -/
theorem LocalIndexChange.missing_before {m : IdIndexes} (hchange : s.LocalIndexChange operation m)
    (hmissing : m.missing.contains id = true) :
    s.idIndexes.missing.contains id = true ∨ m.DeletionPending id := by
  cases hchange with
  | rests | forgets | evicts | defers => exact Or.inl hmissing
  | attaches | tracks | awaits =>
    rw [KnownMissing.contains_remove, Bool.and_eq_true] at hmissing
    exact Or.inl hmissing.2
  | @deletes _ own key hkey =>
    rw [KnownMissing.contains_insert, Bool.or_eq_true, decide_eq_true_eq] at hmissing
    rcases hmissing with hid | hnoted
    · refine Or.inr (Or.inl ⟨key, ?_, ?_⟩)
      · exact (s.idIndexes.identities.get?_congr hid).symm.trans hkey
      · simp [Keyed.contains_insert]
    · exact Or.inl hnoted
  | @deletesId _ own deferred _ hwaits =>
    replace hmissing : ((s.idIndexes.forget own).missing.insert own).contains id = true := hmissing
    rw [KnownMissing.contains_insert, Bool.or_eq_true, decide_eq_true_eq,
      IdIndexes.missing_forget] at hmissing
    rcases hmissing with hid | hnoted
    · rw [hid] at hwaits
      exact Or.inr (Or.inr hwaits)
    · exact Or.inl hnoted
  | clears hnone =>
    rw [hnone] at hmissing
    cases hmissing

/-- A pending deletion of a missing `id` stays pending after an operation that sends no request,
unless the operation `Withdraws` it. -/
theorem LocalIndexChange.keepsDeletion {m : IdIndexes} (hchange : s.LocalIndexChange operation m)
    (h : s.Consistent) (hpending : s.idIndexes.DeletionPending id)
    (hmissing : m.missing.contains id = true) :
    m.DeletionPending id
      ∨ (∃ entity key, operation = .evict entity
          ∧ s.session.work.registry.get? entity = some key
          ∧ s.idIndexes.identities.get? id = some key ∧ s.idIndexes.deleted.contains key = true)
        ∧ (CommandKind.delete, normalize id) ∉ s.idIndexes.deferred.map Command.dedupKey := by
  have hsorted := h.workspace.identities_sorted
  cases hchange with
  | rests | attaches | awaits => exact Or.inl hpending
  | @tracks _ own hnew =>
    rcases hpending with ⟨key, hget, hdelete⟩ | hwaits
    · have hother : normalize own ≠ normalize id := by
        intro hid
        rw [s.idIndexes.identities.get?_congr hid, hget] at hnew
        cases hnew
      refine Or.inl (Or.inl ⟨key, ?_, hdelete⟩)
      rw [IdentityMap.get?_insert, if_neg hother]
      exact hget
    · exact Or.inl (Or.inr hwaits)
  | forgets hkept => exact Or.inl (hpending.without hsorted fun _ => hkept)
  | @evicts entity key hkey =>
    by_cases hwaits : (CommandKind.delete, normalize id) ∈ s.idIndexes.deferred.map Command.dedupKey
    · exact Or.inl (Or.inr hwaits)
    · obtain ⟨key', hget, hdelete⟩ := hpending.resolve_right hwaits
      by_cases hsame : key' = key
      · subst hsame
        exact Or.inr ⟨⟨entity, key', rfl, hkey, hget, hdelete⟩, hwaits⟩
      · refine Or.inl (IdIndexes.DeletionPending.without (Or.inl ⟨key', hget, hdelete⟩) hsorted ?_)
        intro hget'
        exact absurd (Option.some.inj (hget.symm.trans hget')) hsame
  | deletes hkey =>
    rcases hpending with ⟨key, hget, hdelete⟩ | hwaits
    · exact Or.inl (Or.inl ⟨key, hget, by simp [Keyed.contains_insert, hdelete]⟩)
    · exact Or.inl (Or.inr hwaits)
  | defers commands =>
    rcases hpending with hrecord | hwaits
    · exact Or.inl (Or.inl hrecord)
    · refine Or.inl (Or.inr ?_)
      rw [List.map_append]
      exact List.mem_append_left _ hwaits
  | @deletesId _ own deferred hmore hwaits =>
    by_cases hid : normalize own = normalize id
    · rw [hid] at hwaits
      exact Or.inl (Or.inr hwaits)
    · rcases pending_forget h hid hpending with hrecord | hwaits
      · exact Or.inl (Or.inl hrecord)
      · rw [IdIndexes.deferred_forget] at hwaits
        exact Or.inl (Or.inr (hmore hwaits))
  | clears hnone =>
    rw [hnone] at hmissing
    cases hmissing

/-- An identifier is wrongly missing after an operation that sends no request only if the operation
`Withdraws` a deletion. -/
theorem LocalIndexChange.withdraws {m : IdIndexes} (hchange : s.LocalIndexChange operation m)
    (h : s.Consistent) (hquiet : ¬ s.idIndexes.WronglyMissing last id)
    (hwrongly : m.WronglyMissing last id) :
    s.Withdraws operation id := by
  obtain ⟨hmissing, habsent, hdeleted, hkept⟩ := hwrongly
  have hnoted := (hchange.missing_before hmissing).resolve_right hkept
  have hpending : s.idIndexes.DeletionPending id := by
    by_contra hnot
    exact hquiet ⟨hnoted, habsent, hdeleted, hnot⟩
  obtain ⟨⟨entity, key, heq, hkey, hget, hdelete⟩, hfree⟩ :=
    (hchange.keepsDeletion h hpending hmissing).resolve_left hkept
  exact ⟨entity, key, heq, hkey, hget, hdelete, hnoted, hfree⟩

/-- After an operation that `Withdraws` the deletion of `id`, `id` is wrongly missing, unless the
`last` status is `absent` or `deleted`. -/
theorem wronglyMissing_of_withdraws (h : s.Consistent) (hwithdraws : s.Withdraws operation id)
    (habsent : last ≠ some .absent) (hdeleted : last ≠ some .deleted) :
    (s.perform operation).idIndexes.WronglyMissing last id := by
  obtain ⟨entity, key, rfl, hkey, hget, -, hmissing, hnot⟩ := hwithdraws
  have hindexes : (s.perform (.evict entity)).idIndexes = s.idIndexes.without key :=
    idIndexes_evict h hkey
  rw [hindexes]
  refine ⟨hmissing, habsent, hdeleted, ?_⟩
  rintro (⟨key', hget', -⟩ | hwaits)
  · obtain ⟨hbefore, hne⟩ := (IdentityMap.get?_removeRecord_eq_some_iff
      h.workspace.identities_sorted).mp hget'
    exact hne (Option.some.inj (hbefore.symm.trans hget))
  · exact hnot hwaits

/-! ## All operations -/

/-- If `id` is not wrongly missing, an operation makes it so if and only if it `Withdraws` a
deletion while the `last` status is neither `absent` nor `deleted`, or its reply `Disregards` a
document. -/
theorem wronglyMissing_perform_iff (h : s.Consistent)
    (hquiet : ¬ s.idIndexes.WronglyMissing last id) :
    (s.perform operation).idIndexes.WronglyMissing ((s.reportedStatus operation id).or last) id
      ↔ s.Withdraws operation id ∧ last ≠ some .absent ∧ last ≠ some .deleted
        ∨ s.Disregards operation id := by
  have hevicts : s.Withdraws operation id → ∃ entity, operation = .evict entity := by
    rintro ⟨entity, _, heq, -⟩
    exact ⟨entity, heq⟩
  by_cases hreading : Reading operation
  · have hsaves : operation ≠ .save := by
      rintro rfl
      cases hreading
    have hnot : ¬ s.Withdraws operation id := by
      intro hwithdraws
      obtain ⟨entity, rfl⟩ := hevicts hwithdraws
      cases hreading
    rw [reportedStatus_of_ne_save hsaves, idIndexes_of_reading s hreading]
    refine (IdIndexes.wronglyMissing_takeAll_iff ?_ hquiet).trans (by simp [hnot, Disregards])
    -- the next number is that of no record yet
    intro key hkey
    rw [Bool.eq_false_iff]
    intro hdelete
    obtain ⟨r, hr, -⟩ := h.workspace.deletable key hdelete
    exact Nat.not_lt.mpr hkey (h.workspace.fresh key r hr)
  · rw [or_iff_left (not_disregards_of_not_reading hreading)]
    by_cases hsaves : operation = .save
    · subst hsaves
      have hnot : ¬ s.Withdraws .save id := by
        intro hwithdraws
        obtain ⟨entity, heq⟩ := hevicts hwithdraws
        cases heq
      simp only [hnot, false_and, iff_false]
      exact not_wronglyMissing_save h hquiet
    · have hstatus : s.reportedStatus operation id = none := by
        rw [reportedStatus_of_ne_save hsaves, answerItems_of_not_reading hreading]
        rfl
      rw [hstatus, Option.none_or]
      constructor
      · intro hwrongly
        exact ⟨(localIndexChange_perform h hreading hsaves).withdraws h hquiet hwrongly,
          hwrongly.2.1, hwrongly.2.2.1⟩
      · rintro ⟨hwithdraws, habsent, hdeleted⟩
        exact wronglyMissing_of_withdraws h hwithdraws habsent hdeleted

/-! ## Runs -/

/-- The states of runs in which no reply `Disregards` a document of `id` and no operation
`Withdraws` its deletion, each with the status of `id` that was reported last. -/
inductive LastReported (id : String) : Option DocumentStatus → OpenSession → Prop where
  | opened (number : Nat) (conventions : Conventions) (options : SessionOptions) (shared : Shared)
    (connection : Connection) (deliveries : Deliveries) :
    LastReported id none
      { session := Session.new number conventions options, shared, connection, deliveries }
  | step {last : Option DocumentStatus} {s : OpenSession} (operation : Operation)
    (h : LastReported id last s)
    (hadmits : s.Admits operation) (hheeded : ¬ s.Disregards operation id)
    (hkept : s.Withdraws operation id → last = some .absent ∨ last = some .deleted) :
    LastReported id ((s.reportedStatus operation id).or last) (s.perform operation)

theorem LastReported.reachable (h : s.LastReported id last) : s.Reachable := by
  induction h with
  | opened number conventions options shared connection deliveries => exact .opened ..
  | step operation _ hadmits _ _ ih => exact ih.step operation hadmits

theorem LastReported.not_wronglyMissing (h : LastReported id last s) :
    ¬ s.idIndexes.WronglyMissing last id := by
  induction h with
  | opened number conventions options shared connection deliveries =>
    rintro ⟨hmissing, -⟩
    cases hmissing
  | step operation hbefore hadmits hheeded hkept ih =>
    rw [wronglyMissing_perform_iff hbefore.reachable.consistent ih]
    rintro (⟨hwithdraws, habsent, hdeleted⟩ | hdisregards)
    · rcases hkept hwithdraws with hlast | hlast
      · exact habsent hlast
      · exact hdeleted hlast
    · exact hheeded hdisregards

/-- In such a run `id` is in `missing` only for a reason: the status reported last is `absent` or
`deleted`, or a deletion of `id` is pending. So a load answers `none` without a request only if one
of these holds. A reply that `Disregards` a document, or an operation that `Withdraws` a deletion
which was the only reason, ends this. -/
theorem missing_with_reason (h : LastReported id last s) :
    (s.session.work.missing.contains id = true →
        last = some .absent ∨ last = some .deleted ∨ s.idIndexes.DeletionPending id)
      ∧ (∀ type includes, (s.load type id includes).1 = .ok none →
          (s.load type id includes).2.connection.sent = s.connection.sent →
          last = some .absent ∨ last = some .deleted ∨ s.idIndexes.DeletionPending id)
      ∧ ∀ operation,
          (s.perform operation).idIndexes.WronglyMissing
            ((s.reportedStatus operation id).or last) id
            ↔ s.Withdraws operation id ∧ last ≠ some .absent ∧ last ≠ some .deleted
              ∨ s.Disregards operation id := by
  have hquiet := h.not_wronglyMissing
  have hreason : s.session.work.missing.contains id = true →
      last = some .absent ∨ last = some .deleted ∨ s.idIndexes.DeletionPending id := by
    intro hmissing
    by_contra hnone
    simp only [not_or] at hnone
    exact hquiet ⟨hmissing, hnone.1, hnone.2.1, hnone.2.2⟩
  refine ⟨hreason, ?_, fun operation => wronglyMissing_perform_iff h.reachable.consistent hquiet⟩
  intro type includes hload hsent
  rcases known_of_load_none hload hsent with hmissing | hpending
  · exact hreason hmissing
  · exact Or.inr (Or.inr (Or.inl hpending))

/-- A session beside a server that has the document `users/1`. -/
def besideOneUser : OpenSession where
  session := Session.new 1 {} {}
  shared := {}
  connection :=
    { server := fun _ => .ok (.ok (.obj
        [("Results", .arr [.obj
          [("@metadata", .obj [("@id", .str "users/1")]), ("Name", .str "Al")]])])) }
  deliveries := {}

/-- That session once `users/1` is loaded and deleted. -/
def deletionToCome : OpenSession :=
  (besideOneUser.perform (.load Shop.anything "users/1" [])).perform (.delete 0)

theorem lastReported_deletionToCome : deletionToCome.LastReported "users/1" (some .present) := by
  have hloads : ¬ besideOneUser.Disregards (.load Shop.anything "users/1" []) "users/1" := by
    rintro ⟨before, own, fields, taken, after, heq, -, -, hmissing, -⟩
    have hlength : (besideOneUser.answerItems (.load Shop.anything "users/1" [])).length = 1 := by
      decide +kernel
    rw [heq] at hlength
    obtain rfl : before = [] := by
      cases before with
      | nil => rfl
      | cons first rest => simp at hlength
    cases hmissing
  have hstatus : besideOneUser.reportedStatus (.load Shop.anything "users/1" []) "users/1"
      = some .present := by
    decide +kernel
  have hopened : besideOneUser.LastReported "users/1" none := .opened ..
  have hloaded := hopened.step (.load Shop.anything "users/1" []) trivial hloads
    (by rintro ⟨_, _, heq, -⟩; cases heq)
  rw [hstatus] at hloaded
  exact hloaded.step (.delete 0) trivial (not_disregards_of_not_reading (fun hreads => hreads))
    (by rintro ⟨_, _, heq, -⟩; cases heq)

/-- `users/1` is in `missing`, and its deletion is pending. -/
theorem missing_with_reason_to_delete :
    deletionToCome.session.work.missing.contains "users/1" = true
      ∧ deletionToCome.idIndexes.DeletionPending "users/1" := by
  have hmissing : deletionToCome.session.work.missing.contains "users/1" = true := by
    decide +kernel
  have hreason := (missing_with_reason lastReported_deletionToCome).1 hmissing
  exact ⟨hmissing, by simpa using hreason⟩

/-- Once its entity is evicted, `users/1` is in `missing` for no reason: the status reported last is
`present`, no deletion is pending, and yet a load answers `none` without a request. -/
theorem evicted_user_taken_for_missing :
    let s := deletionToCome.perform (.evict 0)
    deletionToCome.LastReported "users/1" (some .present)
      ∧ deletionToCome.reportedStatus (.evict 0) "users/1" = none ∧ s.Reachable
      ∧ s.session.work.missing.contains "users/1" = true
      ∧ ¬ s.idIndexes.DeletionPending "users/1"
      ∧ s.load Shop.anything "users/1" [] = (.ok none, s) := by
  intro s
  have hmissing : s.session.work.missing.contains "users/1" = true := by decide +kernel
  have hknows : s.workspace.Knows Shop.anything "users/1" none := .missing hmissing
  refine ⟨lastReported_deletionToCome, rfl,
    lastReported_deletionToCome.reachable.step (.evict 0) trivial,
    hmissing, ?_, load_of_knows hknows (by decide) rfl []⟩
  have hnone : s.idIndexes.identities.get? "users/1" = none := by decide +kernel
  rintro (⟨key, hget, -⟩ | hwaits)
  · exact absurd (hnone.symm.trans hget) (by simp)
  · cases hwaits

end OpenSession

end DocumentSession
