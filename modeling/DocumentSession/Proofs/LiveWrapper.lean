import DocumentSession.Proofs.LinkedRecord
import DocumentSession.Proofs.Saved
import DocumentSession.Proofs.SentMetadata

set_option autoImplicit false

/-! # Dictionaries that stay in use

Who was given the dictionary of an entity may set metadata through it much later. Such an edit is
seen by the session, and sent with the next save, for as long as the record of the entity has this
dictionary. It does until a save settles a result that replaces the metadata of the record, for then
the record releases its dictionary; loads, queries, other edits and all other results in between
keep it (`set_is_sent`). An edit through a dictionary that was released is lost, and planning leaves
out a document for which a command is deferred (`set_is_not_sent`). -/

namespace DocumentSession

namespace Workspace

variable {w w' : Workspace} {key : RecordKey} {r : Record} {entity : EntityRef}
  {n : Metadata.NodeId}

/-- `hasChanged` of an entity whose dictionary is dirty is `true`. -/
theorem hasChanged_of_isDirty (hr : w.recordOf entity = .ok (key, r))
    (hentity : r.entity = some entity) (hn : r.dictionary = some n)
    (hdirty : w.shared.dictionaries.isDirty n = true) : w.hasChanged entity = .ok true := by
  have hchanged : w.entityChanged r = .ok true := by
    unfold entityChanged Record.isMetadataDirty
    rw [hentity, hn]
    simp only [Option.any_some, hdirty, Bool.or_true, if_true]
  unfold hasChanged
  rw [hr]
  show (if w.work.isToDelete key = true then .ok true else w.entityChanged r) = .ok true
  rw [hchanged, ite_self]

theorem linked_metadataOf (h : w.Consistent) (hr : w.recordOf entity = .ok (key, r))
    (hasked : w.metadataOf entity = (.ok n, w')) (hw' : w'.Consistent) :
    w'.Linked key r.id entity n := by
  obtain ⟨hopened, -⟩ := metadataOf_spec h hr hasked
  refine ⟨hw'.fresh key _ hopened, ?_⟩
  intro linked hlinked
  obtain rfl := Option.some.inj (hopened.symm.trans hlinked)
  exact ⟨rfl, (h.find?_of_recordOf hr).2, rfl⟩

end Workspace

namespace OpenSession

open Workspace

variable {s s₁ s₂ : OpenSession} {key : RecordKey} {id : String} {entity : EntityRef}
  {n : Metadata.NodeId}

/-- Operations are performed one after the other, none of which `SaveResets` the record. -/
inductive WithoutReset (key : RecordKey) (id : String) (s : OpenSession) : OpenSession → Prop where
  | refl : WithoutReset key id s s
  | step {s' : OpenSession} (operation : Operation) (h : WithoutReset key id s s')
    (hadmits : s'.Admits operation) (hkeeps : s'.KeepsOrder operation)
    (hresets : operation = .save → ¬ s'.SaveResets key id) :
    WithoutReset key id s (s'.perform operation)

theorem WithoutReset.orderly (hrun : s.WithoutReset key id s₁) (h : s.Orderly) : s₁.Orderly := by
  induction hrun with
  | refl => exact h
  | step operation _ hadmits hkeeps _ ih => exact ih.step operation hadmits hkeeps

/-- A record stays `Linked` as long as it is not reset. -/
theorem WithoutReset.linked (hrun : s.WithoutReset key id s₁) (h : s.Orderly)
    (hlinked : s.workspace.Linked key id entity n) : s₁.workspace.Linked key id entity n := by
  induction hrun with
  | refl => exact hlinked
  | step operation hrun _ _ hresets ih =>
    have hconsistent := (hrun.orderly h).reachable.consistent
    exact (performCases hconsistent operation).linked hconsistent hresets ih

/-- The record that tracked an entity whose metadata were asked for still has the dictionary that
was given, as long as it was not reset. -/
theorem WithoutReset.dictionary {r r₂ : Record} (hrun : s₁.WithoutReset key r.id s₂)
    (h : s.Orderly) (hr : s.workspace.recordOf entity = .ok (key, r))
    (hasked : s.metadataOf entity = (.ok n, s₁))
    (hr₂ : s₂.workspace.work.records.find? key = some r₂) : r₂.dictionary = some n := by
  have horderly₁ : s₁.Orderly := by
    obtain rfl : (s.metadataOf entity).2 = s₁ := congrArg Prod.snd hasked
    exact h.step (.metadataOf entity) trivial trivial
  have hlinked := linked_metadataOf h.reachable.consistent.workspace hr
    (workspace_metadataOf hasked) horderly₁.reachable.consistent.workspace
  exact ((hrun.linked horderly₁ hlinked).record r₂ hr₂).2.2

/-- The metadata of a tracked entity were asked for, and whatever was done since, no save has taken
in a result that resets its record, which still tracks it. Once a value is set through the
dictionary that was given then, the entity has changed; and if it is neither to be deleted nor
ignored, no command waits for its document, and no callback edits the dictionary, the next plan has
a write of the entity, which carries the value. -/
theorem set_is_sent (h : s.Orderly) {r r₂ : Record}
    (hr : s.workspace.recordOf entity = .ok (key, r))
    (hasked : s.metadataOf entity = (.ok n, s₁)) (hrun : s₁.WithoutReset key r.id s₂)
    (htracked : s₂.workspace.recordOf entity = .ok (key, r₂))
    (hsound : s₂.shared.dictionaries.Sound) (k : String) {v : Json} (hv : v.isWellFormed = true) :
    let edited := s₂.afterUses [.set n k v]
    edited.workspace.hasChanged entity = .ok true
      ∧ (edited.session.work.isToDelete key = false → r₂.ignoreChanges = false →
          edited.session.work.hasDeferred r₂.id = false → edited.session.callbacks.Spare n →
          ∀ plan, (edited.workspace.planSave edited.session.callbacks).1 = .ok plan →
            (∃ planned ∈ plan, ∃ body metadata, planned.origin = .put key body metadata)
              ∧ ∀ planned ∈ plan, ∀ body metadata, planned.origin = .put key body metadata →
                planned.command.id = r₂.id
                  ∧ planned.command.action
                      = .put (Keyed.insert body Metadata.key (.obj metadata))
                  ∧ Keyed.find? metadata k = some v) := by
  intro edited
  have horderly₂ : s₂.Orderly := by
    obtain rfl : (s.metadataOf entity).2 = s₁ := congrArg Prod.snd hasked
    exact hrun.orderly (h.step (.metadataOf entity) trivial trivial)
  obtain ⟨hr₂, hentity⟩ := horderly₂.reachable.consistent.workspace.find?_of_recordOf htracked
  have hn := hrun.dictionary h hr hasked hr₂
  have hmade := (horderly₂.inOrder.1.made key r₂ n hr₂ hn).2
  obtain ⟨hshown, hdirty⟩ := Metadata.Forest.find?_content_set hsound hmade k hv
  have horderly : edited.Orderly := horderly₂.afterUses [.set n k v]
  refine ⟨hasChanged_of_isDirty
    (recordOf_eq_ok horderly.reachable.consistent.workspace hr₂ hentity) hentity hn hdirty, ?_⟩
  intro hkept hwatched hfree hspare plan hplan
  have hspared : edited.workspace.SparesRecord key r₂ n edited.workspace :=
    .refl hr₂ horderly.inOrder.1.ordered (horderly.inOrder.1.made key r₂ n hr₂ hn).2
  refine ⟨?_, ?_⟩
  · exact exists_put_of_planSave hspared hn hspare (Prod.ext hplan rfl)
      horderly.reachable.consistent.workspace ⟨hr₂, hkept, hentity, hwatched, hfree⟩ hdirty
  · intro planned hmem body metadata horigin
    obtain ⟨w, entity', hplans, -, body', horigin', hid, haction⟩ :=
      put_of_planSave (w := edited.workspace) hr₂ hn (Prod.ext hplan rfl) hmem horigin
    rw [(hspared.plans hn hspare hplans).content_afterBeforeStore hspare] at horigin' haction
    rw [horigin] at horigin'
    obtain ⟨-, rfl, rfl⟩ := Origin.put.inj horigin'
    refine ⟨hid, haction, ?_⟩
    have hsorted : (edited.workspace.shared.dictionaries.content n).Sorted :=
      Metadata.Forest.sorted_content (hsound.set n k hv) n
    have hfound : Keyed.find? (edited.workspace.shared.dictionaries.content n) k = some v := hshown
    rw [Keyed.find?_overlay r₂.metadata hsorted, hfound]
    rfl

/-- `goldAsked` with a PATCH for another document deferred. -/
def scriptWaits : OpenSession :=
  goldAsked.perform (.defer [{ id := "users/2", action := .patch "" [] }])

/-- `scriptWaits` once the PATCH is saved. -/
def scriptSaved : OpenSession :=
  scriptWaits.perform .save

theorem scriptSaved_overJson : scriptSaved.OverJson :=
  .step .save (.step (.defer _) (.step (.metadataOf 0) goldLoaded_overJson trivial trivial trivial)
    trivial trivial trivial) trivial trivial trivial

theorem scriptWaits_orderly : scriptWaits.Orderly :=
  goldAsked_orderly.step (.defer _) trivial trivial

theorem scriptSaved_callbacks : scriptSaved.session.callbacks = {} := by
  have hwaits : scriptWaits.session.callbacks = {} := goldLoaded_callbacks
  unfold scriptSaved
  rw [scriptWaits_orderly.callbacks_save, hwaits]

/-- The result of a PATCH for another document resets nothing. -/
theorem scriptSaved_withoutReset : goldAsked.WithoutReset 0 "users/1" scriptSaved := by
  have hwaits : goldAsked.WithoutReset 0 "users/1" scriptWaits :=
    .step (.defer _) .refl trivial trivial (fun hsave => by cases hsave)
  refine hwaits.step .save trivial trivial ?_
  rintro - ⟨plan, w, response, s', results, hplan, -, -, -, pair, hmem, hresets⟩
  have hplanned : (scriptWaits.workspace.planSave {}).1.toOption
      = some [{ command := { id := "users/2", action := .patch "" [] }, origin := .deferred }] := by
    decide +kernel
  have hquiet : scriptWaits.session.callbacks = {} := goldLoaded_callbacks
  rw [hquiet] at hplan
  rw [hplan] at hplanned
  obtain rfl := Option.some.inj hplanned
  have hpair := List.mem_singleton.mp (List.of_mem_zip hmem).1
  have hother : ¬ Identifier.normalize "users/2" = Identifier.normalize "users/1" := by
    decide +kernel
  cases hresets with
  | put horigin =>
    rw [hpair] at horigin
    cases horigin
  | overwrite _ _ hid | script _ _ hid _ _ =>
    rw [hpair] at hid
    exact hother hid

/-- A `tier` that is set afterwards is sent. -/
theorem set_is_sent_scripted :
    let edited := scriptSaved.afterUses [.set 0 "tier" (.str "silver")]
    edited.workspace.hasChanged 0 = .ok true
      ∧ ∃ plan, (edited.workspace.planSave edited.session.callbacks).1 = .ok plan
        ∧ ∃ planned ∈ plan, ∃ body metadata, planned.origin = .put 0 body metadata
          ∧ Keyed.find? metadata "tier" = some (.str "silver") := by
  intro edited
  have htracked : scriptSaved.workspace.recordOf 0
      = .ok (0, { goldRecord with dictionary := some 0 }) :=
    rfl
  have hquiet : edited.session.callbacks = {} := scriptSaved_callbacks
  have hplanned : (edited.workspace.planSave {}).1.toOption.isSome = true := by
    decide +kernel
  rw [← hquiet] at hplanned
  obtain ⟨hchanged, hsent⟩ := set_is_sent goldLoaded_orderly recordOf_goldLoaded
    metadataOf_goldLoaded scriptSaved_withoutReset htracked
    scriptSaved_overJson.sound.workspace.dictionaries "tier" (v := .str "silver") rfl
  refine ⟨hchanged, ?_⟩
  obtain ⟨plan, hplan⟩ := Option.isSome_iff_exists.mp hplanned
  replace hplan := Except.eq_ok_of_toOption hplan
  obtain ⟨⟨planned, hmem, body, metadata, horigin⟩, hvalue⟩ := hsent (by decide +kernel) rfl
    (by decide +kernel) (by rw [hquiet]; exact ⟨by simp, by simp⟩) plan hplan
  exact ⟨plan, hplan, planned, hmem, body, metadata, horigin,
    (hvalue planned hmem body metadata horigin).2.2⟩

/-- `goldAsked` once another `tier` is set and saved. -/
def tierSaved : OpenSession :=
  (goldAsked.afterUses [.set 0 "tier" (.str "silver")]).perform .save

/-- `goldAsked` with a PATCH for the document deferred. -/
def tierWaits : OpenSession :=
  goldAsked.perform (.defer [{ id := "users/1", action := .patch "" [] }])

/-- Callbacks that set the `tier` of every entity that is written. -/
def levelling : Callbacks where
  beforeStore := [fun event s =>
    (.ok (), { s with dictionaries := s.dictionaries.set event.metadata "tier" (.str "plain") })]

/-- `goldAsked` with the callbacks `levelling`. -/
def tierLevelled : OpenSession :=
  goldAsked.perform (.listen levelling)

/-- Set `tier` through the dictionary that was given for the document. -/
def setTier (s : OpenSession) : OpenSession :=
  s.afterUses [.set 0 "tier" (.str "bronze")]

theorem tierSaved_orderly : tierSaved.Orderly :=
  (goldAsked_orderly.afterUses _).step .save trivial trivial

theorem tierSaved_callbacks : tierSaved.session.callbacks = {} := by
  have hasked : goldAsked.session.callbacks = {} := goldLoaded_callbacks
  unfold tierSaved
  rw [(goldAsked_orderly.afterUses _).callbacks_save, callbacks_afterUses, hasked]

/-- Once the PUT of the entity was saved, a value set through the dictionary is no change. -/
theorem setTier_tierSaved :
    (∃ r, tierSaved.setTier.workspace.recordOf 0 = .ok (0, r) ∧ r.ignoreChanges = false)
      ∧ tierSaved.setTier.session.work.isToDelete 0 = false
      ∧ tierSaved.setTier.workspace.hasChanged 0 = .ok false
      ∧ (tierSaved.setTier.workspace.planSave tierSaved.setTier.session.callbacks).1 = .ok [] := by
  have hfound : (tierSaved.setTier.workspace.work.recordForEntity? 0).map
      (fun found => (found.1, found.2.ignoreChanges)) = some (0, false) := by
    decide +kernel
  obtain ⟨⟨key, r⟩, hr, hsame⟩ := Option.map_eq_some_iff.mp hfound
  obtain ⟨rfl, hwatched⟩ := Prod.mk.inj hsame
  have hquiet : tierSaved.setTier.session.callbacks = {} := by
    unfold setTier
    rw [callbacks_afterUses, tierSaved_callbacks]
  refine ⟨⟨r, ?_, hwatched⟩, by decide +kernel, Except.eq_ok_of_toOption (by decide +kernel), ?_⟩
  · unfold recordOf
    rw [hr]
  · rw [hquiet]
    exact Except.eq_ok_of_toOption (by decide +kernel)

theorem planSave_tierWaits :
    (tierWaits.setTier.workspace.planSave tierWaits.setTier.session.callbacks).1
      = .ok [{ command := { id := "users/1", action := .patch "" [] }, origin := .deferred }] := by
  have hquiet : tierWaits.session.callbacks = {} := goldLoaded_callbacks
  unfold setTier
  rw [callbacks_afterUses, hquiet]
  exact Except.eq_ok_of_toOption (by decide +kernel)

theorem tierLevelled_orderly : tierLevelled.Orderly := by
  refine goldAsked_orderly.step (.listen levelling) ?_ ?_
  · exact ⟨by simp [levelling], by simp [levelling], by simp [levelling], by simp [levelling]⟩
  · refine ⟨?_, by simp [levelling], by simp [levelling], by simp [levelling]⟩
    intro callback hmem event shared
    obtain rfl := List.mem_singleton.mp hmem
    exact shared.dictionaries.grows_set event.metadata "tier" (.str "plain")

theorem planSave_tierLevelled :
    let metadata := Keyed.insert goldRecord.metadata "tier" (.str "plain")
    (tierLevelled.setTier.workspace.planSave tierLevelled.setTier.session.callbacks).1
      = .ok [{
          command :=
            { id := "users/1"
              action := .put (Keyed.insert [("Name", .str "Al")] Metadata.key (.obj metadata)) }
          origin := .put 0 [("Name", .str "Al")] metadata }] := by
  intro metadata
  have hlevels : tierLevelled.setTier.session.callbacks = levelling := rfl
  rw [hlevels]
  exact Except.eq_ok_of_toOption (by decide +kernel)

/-- A value that is set through the dictionary is lost if the PUT of the entity was saved before; it
is not sent while a command is deferred for the document; and callbacks may set another one. -/
theorem set_is_not_sent :
    (goldLoaded.metadataOf 0).1 = .ok 0
    ∧ (tierSaved.setTier.Orderly
      ∧ (∃ r, tierSaved.setTier.workspace.recordOf 0 = .ok (0, r) ∧ r.ignoreChanges = false)
      ∧ tierSaved.setTier.session.work.isToDelete 0 = false
      ∧ tierSaved.setTier.workspace.hasChanged 0 = .ok false
      ∧ (tierSaved.setTier.workspace.planSave tierSaved.setTier.session.callbacks).1 = .ok [])
    ∧ (tierWaits.setTier.Orderly ∧ ∃ planned,
        (tierWaits.setTier.workspace.planSave tierWaits.setTier.session.callbacks).1 = .ok [planned]
          ∧ planned.origin = .deferred)
    ∧ (tierLevelled.setTier.Orderly ∧ ∃ planned body metadata,
        (tierLevelled.setTier.workspace.planSave tierLevelled.setTier.session.callbacks).1
            = .ok [planned]
          ∧ planned.origin = .put 0 body metadata
          ∧ Keyed.find? metadata "tier" = some (.str "plain")) := by
  refine ⟨by rw [metadataOf_goldLoaded], ?_, ?_, ?_⟩
  · exact ⟨tierSaved_orderly.afterUses _, setTier_tierSaved⟩
  · exact ⟨(goldAsked_orderly.step (.defer _) trivial trivial).afterUses _, _, planSave_tierWaits,
      rfl⟩
  · exact ⟨tierLevelled_orderly.afterUses _, _, _, _, planSave_tierLevelled, rfl, rfl⟩

end OpenSession

end DocumentSession
