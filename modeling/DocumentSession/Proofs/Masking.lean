import DocumentSession.Proofs.LocalIndexChange
import DocumentSession.Proofs.SettledIndexes
import DocumentSession.Entity.Shop

set_option autoImplicit false

/-! # Tracked documents behind a missing identifier

A look-up asks `missing` before it looks for a record. So a record that is not in `deleted` is
masked if its identifier is in `missing` (`IdIndexes.Masks`).

Local work and saves mask no record. A reply masks one if and only if it says of an identifier that
there is no document, at a point where the identifier has such a record (`OpenSession.Retracts`):
`markMissing` does not look at `identities`, and registering a document that has a record does not
change `missing`. Without such replies nothing is ever masked
(`OpenSession.unmasked_unless_retracted`). -/

namespace DocumentSession

open Identifier (normalize)

namespace IdIndexes

/-- `id` has a record that is not in `deleted`. -/
def HasLive (m : IdIndexes) (id : String) : Prop :=
  ∃ key, m.identities.get? id = some key ∧ m.deleted.contains key = false

/-- `id` is in `missing` although it has a record that is not in `deleted`. -/
def Masks (m : IdIndexes) (id : String) : Prop :=
  m.missing.contains id = true ∧ m.HasLive id

variable {m : IdIndexes} {id : String}

/-! ## Replies -/

/-- Registering one part masks `id` if and only if the part is `.nothing id` and `id` has a record
that is not in `deleted`. -/
theorem masks_take_iff (m : IdIndexes) (part : ReplyPart) (id : String) :
    (m.take part).Masks id ↔ m.Masks id
      ∨ ∃ absent, part = .nothing absent ∧ normalize absent = normalize id ∧ m.HasLive id := by
  cases part with
  | nothing absent =>
    show (m.missing.insert absent).contains id = true ∧ m.HasLive id ↔ _
    rw [KnownMissing.contains_insert, Bool.or_eq_true, decide_eq_true_eq]
    simp only [Masks, ReplyPart.nothing.injEq, exists_eq_left']
    tauto
  | document fields =>
    simp only [reduceCtorEq, false_and, exists_false, or_false]
    cases hown : documentId fields with
    | none => simp only [take, hown]
    | some own =>
      by_cases hknown : (m.identities.get? own).isSome = true
      · simp only [take, hown, hknown, if_true]
      · simp only [take, hown, hknown]
        rw [Bool.not_eq_true, Option.isSome_eq_false_iff, Option.isNone_iff_eq_none] at hknown
        by_cases hid : normalize own = normalize id
        · -- a new record takes it back that there is no document
          rw [m.identities.get?_congr hid] at hknown
          simp [Masks, HasLive, KnownMissing.contains_remove, hid, hknown]
        · simp [Masks, HasLive, KnownMissing.contains_remove, IdentityMap.get?_insert, hid]

/-- Registering `parts` masks `id` if and only if one of them is `.nothing id` where `id` has a
record that is not in `deleted`. -/
theorem masks_takeAll_iff (m : IdIndexes) (parts : List ReplyPart) (id : String) :
    (m.takeAll parts).Masks id ↔ m.Masks id
      ∨ ∃ before absent after, parts = before ++ .nothing absent :: after
        ∧ normalize absent = normalize id ∧ (m.takeAll before).HasLive id := by
  induction parts generalizing m with
  | nil => simp [takeAll]
  | cons part rest ih =>
    show ((m.take part).takeAll rest).Masks id ↔ _
    rw [ih, masks_take_iff]
    constructor
    · rintro ((hmasks | ⟨absent, rfl, hid, hlive⟩) | ⟨before, absent, after, rfl, hid, hlive⟩)
      · exact Or.inl hmasks
      · exact Or.inr ⟨[], absent, rest, rfl, hid, hlive⟩
      · exact Or.inr ⟨part :: before, absent, after, rfl, hid, hlive⟩
    · rintro (hmasks | ⟨_ | ⟨first, before⟩, absent, after, heq, hid, hlive⟩)
      · exact Or.inl (Or.inl hmasks)
      · obtain ⟨rfl, -⟩ := List.cons.inj heq
        exact Or.inl (Or.inr ⟨absent, rfl, hid, hlive⟩)
      · obtain ⟨rfl, rfl⟩ := List.cons.inj heq
        exact Or.inr ⟨before, absent, after, rfl, hid, hlive⟩

/-! ## Removed records -/

/-- A record that is left after another one is removed was there before. -/
theorem live_of_without (hsorted : m.identities.entries.Sorted) {key key' : RecordKey}
    (hget : (m.without key).identities.get? id = some key')
    (hkept : (m.without key).deleted.contains key' = false) :
    key' ≠ key ∧ m.identities.get? id = some key' ∧ m.deleted.contains key' = false := by
  obtain ⟨hbefore, hne⟩ := (IdentityMap.get?_removeRecord_eq_some_iff hsorted).mp hget
  replace hkept : Keyed.contains (m.deleted.erase key) key' = false := hkept
  rw [Keyed.contains_erase] at hkept
  exact ⟨hne, hbefore, by simpa [Ne.symm hne] using hkept⟩

theorem live_of_forget (hsorted : m.identities.entries.Sorted) {own : String} {key : RecordKey}
    (hget : (m.forget own).identities.get? id = some key)
    (hkept : (m.forget own).deleted.contains key = false) :
    m.identities.get? own ≠ some key ∧ m.identities.get? id = some key
      ∧ m.deleted.contains key = false := by
  unfold forget at hget hkept
  cases hown : m.identities.get? own with
  | none =>
    rw [hown] at hget hkept
    exact ⟨by simp, hget, hkept⟩
  | some key' =>
    rw [hown] at hget hkept
    obtain ⟨hne, hbefore⟩ := live_of_without hsorted hget hkept
    exact ⟨by simp [Ne.symm hne], hbefore⟩

end IdIndexes

/-! ## Results of a save -/

namespace Workspace

variable {w w' : Workspace} {plan : Plan} {planned : Planned} {result : Fields}
  {answer : Except Error Unit} {id : String}

/-- The result of a DELETE leaves no record under its identifier. -/
theorem Settles.get?_of_deletes (hsettles : w.Settles planned result answer w')
    (h : w.Consistent) (hapart : w.Apart plan) (hmem : planned ∈ plan)
    (hdeletes : w.Deletes planned id) : w'.work.identities.get? id = none := by
  have hforgotten : ∀ key, w.work.identities.get? id = some key →
      (w.work.identities.removeRecord key).get? id = none := by
    intro key hget
    rw [IdentityMap.get?_removeRecord h.identities_sorted, hget]
    simp
  rcases hdeletes with ⟨key, r, horigin, hr, hid⟩ | ⟨horigin, hkind, hid⟩
  · have hdelete := ((hapart.deletes planned hmem key horigin).2 r hr).1
    have hsaved := (h.deletable_of_record hr hdelete).2
    -- a record that was saved is found by its identifier
    have hindexed : w.work.identities.get? r.id = some key := by
      by_contra hnot
      rw [(h.unindexed key r hr hnot).isNew] at hsaved
      cases hsaved
    rw [w.work.identities.get?_congr hid] at hindexed
    cases hsettles with
    | goneBeforeDelete horigin' hgone =>
      obtain rfl := Origin.delete.inj (horigin.symm.trans horigin')
      rw [hr] at hgone
      cases hgone
    | deleted horigin' _ =>
      obtain rfl := Origin.delete.inj (horigin.symm.trans horigin')
      exact hforgotten key hindexed
    | unnamed horigin' | goneBeforePut horigin' | saved horigin' | replaced horigin'
    | overwritten horigin' | written horigin' | dropped horigin' | noted horigin'
    | unknown horigin' | versioned horigin' | unfit horigin' | scripted horigin' =>
      rw [horigin] at horigin'
      cases horigin'
  · cases hsettles with
    | dropped _ _ hget _ =>
      rw [w.work.identities.get?_congr hid] at hget
      exact hforgotten _ hget
    | noted _ _ hget =>
      rw [w.work.identities.get?_congr hid] at hget
      exact hget
    | unnamed horigin' | goneBeforePut horigin' | goneBeforeDelete horigin' | saved horigin'
    | replaced horigin' | deleted horigin' =>
      rw [horigin] at horigin'
      cases horigin'
    | overwritten _ hkind' | written _ hkind' | unknown _ hkind' | versioned _ hkind'
    | unfit _ hkind' | scripted _ hkind' =>
      rw [hkind] at hkind'
      cases hkind'

/-- Settling a result masks no identifier. -/
theorem Settles.masks (hsettles : w.Settles planned result answer w') (h : w.Consistent)
    (hapart : w.Apart plan) (hmem : planned ∈ plan) (hmasks : w'.idIndexes.Masks id) :
    w.idIndexes.Masks id := by
  obtain ⟨hmissing, key, hget, hkept⟩ := hmasks
  rcases hsettles.of_get? h hget with hbefore | ⟨body, metadata, given, horigin, hgiven, hid⟩
  · have hlive : w.work.isToDelete key = false := by
      rw [Bool.eq_false_iff]
      intro hdelete
      have hown : ∀ body metadata, planned.origin ≠ .put key body metadata := by
        intro body metadata horigin
        rw [hapart.puts planned hmem key body metadata horigin] at hdelete
        cases hdelete
      obtain ⟨r', hr', -⟩ := (h.settles hsettles).record_of_get? hget
      obtain ⟨-, -, -, hsame⟩ := hsettles.record_before h hown hr'
      have hdeleted := hsame.trans hdelete
      exact absurd (hdeleted.symm.trans hkept) (by simp)
    rcases hsettles.of_missing hmissing with hnoted | hdeletes
    · exact ⟨hnoted, key, hbefore, hlive⟩
    · have hnone := hsettles.get?_of_deletes h hapart hmem hdeletes
      exact absurd (hnone.symm.trans hget) (by simp)
  · rcases hsettles.missing_of_given horigin hgiven hid with rfl | hfound
    · exact ⟨hmissing, key, hget, hkept⟩
    · exact absurd (hfound.symm.trans hmissing) (by simp)

end Workspace

namespace OpenSession

variable {s : OpenSession} {operation : Operation} {id : String}

/-! ## Operations -/

/-- An operation that sends no request masks no identifier. -/
theorem LocalIndexChange.masks {m : IdIndexes} (hchange : s.LocalIndexChange operation m)
    (h : s.Consistent) (hmasks : m.Masks id) : s.idIndexes.Masks id := by
  have hsorted := h.workspace.identities_sorted
  obtain ⟨hmissing, key, hget, hkept⟩ := hmasks
  cases hchange with
  | rests | defers => exact ⟨hmissing, key, hget, hkept⟩
  | attaches own | awaits own =>
    rw [KnownMissing.contains_remove, Bool.and_eq_true] at hmissing
    exact ⟨hmissing.2, key, hget, hkept⟩
  | @tracks _ own hnew =>
    rw [KnownMissing.contains_remove, Bool.and_eq_true, decide_eq_true_eq] at hmissing
    rw [IdentityMap.get?_insert, if_neg hmissing.1] at hget
    exact ⟨hmissing.2, key, hget, hkept⟩
  | forgets | evicts =>
    obtain ⟨-, hbefore⟩ := IdIndexes.live_of_without hsorted hget hkept
    exact ⟨hmissing, key, hbefore⟩
  | @deletes _ own key' hkey =>
    replace hkept : Keyed.contains (s.idIndexes.deleted.insert key' ()) key = false := hkept
    rw [Keyed.contains_insert, Bool.or_eq_false_iff, decide_eq_false_iff_not] at hkept
    rw [KnownMissing.contains_insert, Bool.or_eq_true, decide_eq_true_eq] at hmissing
    rcases hmissing with hid | hnoted
    · rw [s.idIndexes.identities.get?_congr hid, hget] at hkey
      exact absurd (Option.some.inj hkey).symm hkept.1
    · exact ⟨hnoted, key, hget, hkept.2⟩
  | @deletesId _ own deferred _ _ =>
    replace hmissing : ((s.idIndexes.forget own).missing.insert own).contains id = true := hmissing
    rw [KnownMissing.contains_insert, Bool.or_eq_true, decide_eq_true_eq,
      IdIndexes.missing_forget] at hmissing
    obtain ⟨hne, hbefore⟩ := IdIndexes.live_of_forget hsorted hget hkept
    rcases hmissing with hid | hnoted
    · rw [s.idIndexes.identities.get?_congr hid] at hne
      exact absurd hbefore.1 hne
    · exact ⟨hnoted, key, hbefore⟩
  | clears hnone =>
    rw [hnone] at hmissing
    cases hmissing

/-- A save masks no identifier. -/
theorem masks_save (h : s.Consistent) (hmasks : s.save.2.idIndexes.Masks id) :
    s.idIndexes.Masks id := by
  refine preserves_save h (P := fun m => m.Masks id → s.idIndexes.Masks id)
    (fun hbefore => hbefore) ?_ ?_ hmasks
  · intro m deferred hm
    exact hm
  · intro plan v v' planned result answer hv hapart hmem _ hsettles hbefore hafter
    exact hbefore (hsettles.masks hv hapart hmem hafter)

/-- Some part of the reply is `.nothing id` where `id` has a record that is not in `deleted`: one
that was there before, or one that was made for a document earlier in the reply. -/
def Retracts (s : OpenSession) (operation : Operation) (id : String) : Prop :=
  ∃ before absent after,
    AnswerItem.parts (s.answerItems operation) = before ++ .nothing absent :: after
    ∧ normalize absent = normalize id ∧ (s.idIndexes.takeAll before).HasLive id

theorem not_retracts_of_answerItems_nil (hitems : s.answerItems operation = []) (id : String) :
    ¬ s.Retracts operation id := by
  rintro ⟨before, absent, after, heq, -⟩
  rw [hitems] at heq
  exact absurd heq (by simp [AnswerItem.parts])

/-- An operation that reads masks `id` if and only if its reply `Retracts` the document of `id`. -/
theorem masks_of_reading_iff (hreading : Reading operation) :
    (s.perform operation).idIndexes.Masks id ↔ s.idIndexes.Masks id ∨ s.Retracts operation id := by
  rw [idIndexes_of_reading s hreading]
  exact IdIndexes.masks_takeAll_iff ..

/-- An operation masks `id` only if its reply `Retracts` the document of `id`. -/
theorem masks_of_perform (h : s.Consistent) (hmasks : (s.perform operation).idIndexes.Masks id) :
    s.idIndexes.Masks id ∨ s.Retracts operation id := by
  by_cases hreading : Reading operation
  · exact (masks_of_reading_iff hreading).mp hmasks
  by_cases hsaves : operation = .save
  · subst hsaves
    exact Or.inl (masks_save h hmasks)
  · exact Or.inl ((localIndexChange_perform h hreading hsaves).masks h hmasks)

/-- If `id` is not masked, an operation masks it if and only if its reply `Retracts` the document of
`id`. -/
theorem masks_perform_iff (h : s.Consistent) (hclear : ¬ s.idIndexes.Masks id) :
    (s.perform operation).idIndexes.Masks id ↔ s.Retracts operation id := by
  constructor
  · intro hmasks
    exact (masks_of_perform h hmasks).resolve_left hclear
  · intro hretracts
    by_cases hreading : Reading operation
    · exact (masks_of_reading_iff hreading).mpr (Or.inr hretracts)
    · exact absurd hretracts
        (not_retracts_of_answerItems_nil (answerItems_of_not_reading hreading) id)

/-! ## Runs -/

/-- The states of runs in which no reply `Retracts` the document of `id`. -/
inductive Unretracted (id : String) : OpenSession → Prop where
  | opened (number : Nat) (conventions : Conventions) (options : SessionOptions) (shared : Shared)
    (connection : Connection) (deliveries : Deliveries) :
    Unretracted id
      { session := Session.new number conventions options, shared, connection, deliveries }
  | step {s : OpenSession} (operation : Operation) (h : Unretracted id s)
    (hadmits : s.Admits operation) (hheld : ¬ s.Retracts operation id) :
    Unretracted id (s.perform operation)

theorem Unretracted.reachable (h : s.Unretracted id) : s.Reachable := by
  induction h with
  | opened number conventions options shared connection deliveries => exact .opened ..
  | step operation _ hadmits _ ih => exact ih.step operation hadmits

theorem Unretracted.not_masks (h : s.Unretracted id) : ¬ s.idIndexes.Masks id := by
  induction h with
  | opened number conventions options shared connection deliveries =>
    rintro ⟨hmissing, -⟩
    cases hmissing
  | step operation hbefore hadmits hheld ih =>
    intro hmasks
    rcases masks_of_perform hbefore.reachable.consistent hmasks with hmasked | hretracts
    · exact ih hmasked
    · exact hheld hretracts

/-- While no reply `Retracts` the document of `id`, an `id` in `missing` has no record but one in
`deleted`. So an entity that is tracked and not in `deleted` is found by its identifier, and a load
gives it without a request. A reply that `Retracts` the document ends this, and nothing else
does. -/
theorem unmasked_unless_retracted (h : s.Unretracted id) :
    (∀ key, s.session.work.missing.contains id = true →
        s.session.work.identities.get? id = some key → s.session.work.isToDelete key = true)
      ∧ (∀ key r entity type, s.session.work.identities.get? id = some key →
          s.session.work.isToDelete key = false → s.session.work.records.find? key = some r →
          r.entity = some entity → (s.shared.entity entity).type.name = type.name →
          s.workspace.lookup type id = (.ok (.known (some entity)), s.workspace)
            ∧ (s.session.work.noTracking = false → id ≠ "" → ∀ includes,
                s.load type id includes = (.ok (some entity), s)))
      ∧ ∀ operation,
          (∃ key, (s.perform operation).session.work.missing.contains id = true
              ∧ (s.perform operation).session.work.identities.get? id = some key
              ∧ (s.perform operation).session.work.isToDelete key = false)
            ↔ s.Retracts operation id := by
  have hclear := h.not_masks
  refine ⟨?_, ?_, ?_⟩
  · intro key hmissing hget
    by_contra hkept
    exact hclear ⟨hmissing, key, hget, Bool.eq_false_iff.mpr hkept⟩
  · intro key r entity type hget hkept hr hentity htype
    have hfound : s.session.work.missing.contains id = false := by
      rw [Bool.eq_false_iff]
      intro hmissing
      exact hclear ⟨hmissing, key, hget, hkept⟩
    have hknows : s.workspace.Knows type id (some entity) :=
      .live hfound hget hkept hr hentity htype
    exact ⟨hknows.lookup_eq, fun htracking hfilled => load_of_knows hknows hfilled htracking⟩
  · intro operation
    rw [← masks_perform_iff h.reachable.consistent hclear]
    constructor
    · rintro ⟨key, hmissing, hget, hkept⟩
      exact ⟨hmissing, key, hget, hkept⟩
    · rintro ⟨hmissing, key, hget, hkept⟩
      exact ⟨key, hmissing, hget, hkept⟩

/-- A session that flushes two lazy loads of `users/1`, answered by `first` and `second`. -/
def loadsTwice (first second : Json) : OpenSession :=
  let part := fun result : Json =>
    Json.obj [("Result", .obj [("Results", .arr [result])]), ("StatusCode", .nat 200)]
  let opened : OpenSession :=
    { session := Session.new 1 {} {}
      shared := {}
      connection :=
        { server := fun _ => .ok (.ok (.obj [("Results", .arr [part first, part second])])) }
      deliveries := {} }
  (opened.perform (.lazyLoad Shop.anything ["users/1"] [])).perform
    (.lazyLoad Shop.anything ["users/1"] [])

/-- The document `users/1`. -/
def userAl : Fields :=
  [("@metadata", .obj [("@id", .str "users/1")]), ("Name", .str "Al")]

theorem unretracted_loadsTwice (first second : Json) (id : String) :
    (loadsTwice first second).Unretracted id :=
  ((Unretracted.opened 1 {} {} _ _ _).step (.lazyLoad Shop.anything ["users/1"] []) trivial
    (not_retracts_of_answerItems_nil rfl id)).step (.lazyLoad Shop.anything ["users/1"] []) trivial
    (not_retracts_of_answerItems_nil rfl id)

/-- `users/1` is missing in the first answer and present in the second: it is found afterwards. -/
theorem unmasked_unless_retracted_later :
    let s := (loadsTwice .null (.obj userAl)).perform .flush
    s.Unretracted "USERS/1"
      ∧ s.workspace.lookup Shop.anything "USERS/1" = (.ok (.known (some 0)), s.workspace)
      ∧ s.load Shop.anything "USERS/1" [] = (.ok (some 0), s) := by
  intro s
  have hitems : AnswerItem.parts ((loadsTwice .null (.obj userAl)).answerItems .flush)
      = [.nothing "users/1", .document userAl] := by
    decide +kernel
  have hheld : ¬ (loadsTwice .null (.obj userAl)).Retracts .flush "USERS/1" := by
    rintro ⟨before, absent, after, heq, -, key, hget, -⟩
    rw [hitems] at heq
    rcases before with _ | ⟨first, _ | ⟨second, before⟩⟩
    · -- there is no record yet when the user is missing
      have hnone : (loadsTwice .null (.obj userAl)).idIndexes.identities.get? "USERS/1" = none := by
        decide +kernel
      exact absurd (hnone.symm.trans hget) (by simp)
    · simp at heq
    · simp at heq
  have h : s.Unretracted "USERS/1" :=
    (unretracted_loadsTwice _ _ _).step .flush trivial hheld
  have hrecord : (s.session.work.records.find? 0).map Record.entity = some (some 0) := by
    decide +kernel
  obtain ⟨r, hr, hentity⟩ := Option.map_eq_some_iff.mp hrecord
  obtain ⟨hlookup, hload⟩ := (unmasked_unless_retracted h).2.1 0 r 0 Shop.anything
    (by decide +kernel) (by decide +kernel) hr hentity (by decide +kernel)
  exact ⟨h, hlookup, hload rfl (by decide) []⟩

/-- `users/1` is present in the first answer and missing in the second: it has a record that is not
in `deleted`, is in `missing` all the same, and a load does not find it. -/
theorem live_user_masked_by_answer :
    let s := (loadsTwice (.obj userAl) .null).perform .flush
    s.Reachable ∧ s.session.work.missing.contains "users/1" = true
      ∧ s.session.work.identities.get? "users/1" = some 0 ∧ s.session.work.isToDelete 0 = false
      ∧ (s.session.work.records.find? 0).map Record.entity = some (some 0)
      ∧ (s.load Shop.anything "users/1" []).1 = .ok none := by
  intro s
  have hreachable : s.Reachable :=
    (unretracted_loadsTwice _ _ "users/1").reachable.step .flush trivial
  refine ⟨hreachable, ?_, ?_, ?_, ?_, ?_⟩
  all_goals decide +kernel

end OpenSession

end DocumentSession
