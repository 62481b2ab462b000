import DocumentSession.Proofs.SoundMetadata

set_option autoImplicit false

/-! # The metadata of a PUT

The PUT of an entity has the metadata of its record and, over them, the content of the dictionary
once the `beforeStore` callbacks ran (`Workspace.put_of_planSave`). So a key that was set is sent
with its value, and so is every edit inside an object, also if callbacks made it. But a key that was
removed is still among the metadata of the record, and is sent with the value that it has there
(`removed_key_sent`). What is sent is the content of the dictionary if and only if the dictionary
has every key of the metadata (`sent_metadata_eq_shown_iff`). -/

namespace DocumentSession

namespace Workspace

variable {w w' : Workspace} {key : RecordKey} {r : Record} {entity : EntityRef}
  {n : Metadata.NodeId}

/-- After `metadataOf` the record of the entity has the dictionary that was given. -/
theorem metadataOf_spec (h : w.Consistent) (hr : w.recordOf entity = .ok (key, r))
    (hasked : w.metadataOf entity = (.ok n, w')) :
    w'.work.records.find? key = some { r with dictionary := some n }
      ∧ w'.shared.dictionaries = (r.openDictionary w.shared.dictionaries).2.2.retain n := by
  unfold metadataOf openDictionary at hasked
  rw [hr] at hasked
  simp only [Prod.mk.injEq, Except.ok.injEq] at hasked
  obtain ⟨rfl, rfl⟩ := hasked
  refine ⟨?_, rfl⟩
  rw [UnitOfWork.Consistent.find?_modifyRecord (h.find?_of_recordOf hr).1, if_pos rfl,
    Record.openDictionary_record]

end Workspace

namespace OpenSession

open Workspace

variable {s s₁ : OpenSession}

/-- The session once its callers have made `uses` of dictionaries. -/
def afterUses (s : OpenSession) (uses : List Metadata.Use) : OpenSession :=
  s.perform (.outside { s.shared with dictionaries := s.shared.dictionaries.run uses }
    s.connection s.deliveries)

theorem Orderly.afterUses (h : s.Orderly) (uses : List Metadata.Use) : (s.afterUses uses).Orderly :=
  h.step (.outside _ _ _) (Nat.le_refl _) (s.shared.dictionaries.grows_run uses)

theorem workspace_metadataOf {entity : EntityRef} {n : Metadata.NodeId}
    (hasked : s.metadataOf entity = (.ok n, s₁)) :
    s.workspace.metadataOf entity = (.ok n, s₁.workspace) := by
  have hanswer : (s.workspace.metadataOf entity).1 = .ok n := congrArg Prod.fst hasked
  obtain rfl : (s.metadataOf entity).2 = s₁ := congrArg Prod.snd hasked
  exact Prod.ext hanswer rfl

@[simp] theorem callbacks_afterUses (s : OpenSession) (uses : List Metadata.Use) :
    (s.afterUses uses).session.callbacks = s.session.callbacks := rfl

/-- Metadata of a tracked entity were asked for, and dictionaries were used in any way. The write
of the entity in the next plan carries under each key what the dictionary shows once the callbacks
were told of the write, or else what was last known: all it carries is what the dictionary shows if
and only if the dictionary shows every key last known. Callbacks that leave the dictionary alone
change nothing of what it shows, and if it is marked as edited there is such a write, unless the
entity is to be deleted or ignored or a command waits for its document. -/
theorem sent_metadata_eq_shown_iff (h : s.Orderly) (hsound : s.workspace.Sound)
    (hkeep : s.session.callbacks.KeepSound) {entity : EntityRef} {key : RecordKey} {r : Record}
    (hr : s.workspace.recordOf entity = .ok (key, r)) {n : Metadata.NodeId}
    (hasked : s.metadataOf entity = (.ok n, s₁)) {uses : List Metadata.Use}
    (huses : s₁.shared.dictionaries.AdmitsAll uses) {plan : Plan}
    (hplan : ((s₁.afterUses uses).workspace.planSave s.session.callbacks).1 = .ok plan) :
    let edited := s₁.afterUses uses
    (∀ planned ∈ plan, ∀ body metadata, planned.origin = .put key body metadata →
      planned.command.id = r.id
        ∧ planned.command.action = .put (Keyed.insert body Metadata.key (.obj metadata))
        ∧ ∃ w, edited.workspace.Plans s.session.callbacks w ∧
          let shown := (w.afterBeforeStore s.session.callbacks r n entity).dictionaries.content n
          (∀ k, Keyed.find? metadata k = (Keyed.find? shown k).or (Keyed.find? r.metadata k))
            ∧ (metadata = shown
                ↔ ∀ k, Keyed.contains r.metadata k = true → Keyed.contains shown k = true)
            ∧ (s.session.callbacks.Spare n → shown = edited.shared.dictionaries.content n))
      ∧ (s.session.callbacks.Spare n → edited.shared.dictionaries.isDirty n = true →
          edited.session.work.isToDelete key = false → r.ignoreChanges = false →
          edited.session.work.hasDeferred r.id = false →
          ∃ planned ∈ plan, ∃ body metadata, planned.origin = .put key body metadata) := by
  intro edited
  have hconsistent := h.reachable.consistent.workspace
  obtain ⟨hfound, hentity⟩ := hconsistent.find?_of_recordOf hr
  obtain ⟨hopened, -⟩ := metadataOf_spec hconsistent hr (workspace_metadataOf hasked)
  obtain rfl : (s.metadataOf entity).2 = s₁ := congrArg Prod.snd hasked
  have horderly : edited.Orderly := (h.step (.metadataOf entity) trivial trivial).afterUses uses
  have hsound₁ : (s.metadataOf entity).2.workspace.Sound := hsound.metadataOf hconsistent hr
  have hedited : edited.workspace.Sound := ⟨hsound₁.dictionaries.run huses, hsound₁.known⟩
  have hspares : edited.workspace.SparesRecord key { r with dictionary := some n } n
      edited.workspace :=
    .refl hopened horderly.inOrder.1.ordered (horderly.inOrder.1.made key _ n hopened rfl).2
  refine ⟨?_, ?_⟩
  · intro planned hmem body metadata horigin
    obtain ⟨w, entity', hplans, hentity', body', horigin', hid, haction⟩ :=
      put_of_planSave (w := edited.workspace) hopened rfl (Prod.ext hplan rfl) hmem horigin
    obtain rfl := Option.some.inj (hentity.symm.trans hentity')
    rw [horigin] at horigin'
    obtain ⟨-, rfl, rfl⟩ := Origin.put.inj horigin'
    have hsorted := Metadata.Forest.sorted_content
      ((hedited.plans hkeep hplans).afterBeforeStore hkeep { r with dictionary := some n } n
        entity) n
    exact ⟨hid, haction, w, hplans, Keyed.find?_overlay r.metadata hsorted,
      Keyed.overlay_eq_upper_iff (Json.sorted_of_isWellFormed (hsound.known key r hfound)) hsorted,
      fun hspare => (hspares.plans rfl hspare hplans).content_afterBeforeStore hspare⟩
  · intro hspare hdirty hkept hwatched hfree
    exact exists_put_of_planSave hspares rfl hspare (Prod.ext hplan rfl)
      horderly.reachable.consistent.workspace ⟨hopened, hkept, hentity, hwatched, hfree⟩ hdirty

/-- A session whose server has a document with a `tier` among its metadata, and then stores it. -/
def besideGold : OpenSession where
  session := Session.new 1 {} {}
  shared := {}
  connection := { server := fun requests => .ok (.ok (.obj [("Results", .arr [.obj
    (if requests.length = 1 then
      [("@metadata", .obj [("@change-vector", .str "A:1"), ("@id", .str "users/1"),
        ("tier", .str "gold")]), ("Name", .str "Al")]
    else [("@change-vector", .str "A:2"), ("@id", .str "users/1"), ("Type", .str "PUT")])])])) }
  deliveries := {}

/-- `besideGold` once the document is loaded. -/
def goldLoaded : OpenSession :=
  besideGold.perform (.load Shop.anything "users/1" [])

/-- The record of the document in `goldLoaded`. -/
def goldRecord : Record where
  id := "users/1"
  changeVector := some "A:1"
  metadata := [("@change-vector", .str "A:1"), ("@id", .str "users/1"), ("tier", .str "gold")]
  body := some [("Name", .str "Al")]
  entity := some 0

/-- `goldLoaded` once the metadata of the document were asked for. -/
def goldAsked : OpenSession :=
  goldLoaded.perform (.metadataOf 0)

/-- The server of `besideGold` answers in JSON, and nothing is cached. -/
theorem goldLoaded_overJson : goldLoaded.OverJson := by
  have hordered : besideGold.shared.dictionaries.Ordered := by
    intro n node hnode
    cases hnode
  have hanswers : besideGold.connection.AnswersJson := by
    refine ⟨fun requests response hresponse body hbody => ?_, fun _ hcache => by cases hcache⟩
    obtain rfl := Except.ok.inj hresponse
    obtain rfl := Option.some.inj hbody
    split <;> decide
  exact .step (.load Shop.anything "users/1" [])
    (.opened 1 {} {} _ _ _ hordered Metadata.Forest.sound_empty hanswers) trivial trivial trivial

theorem goldLoaded_orderly : goldLoaded.Orderly :=
  goldLoaded_overJson.orderly

theorem goldAsked_orderly : goldAsked.Orderly :=
  goldLoaded_orderly.step (.metadataOf 0) trivial trivial

theorem goldLoaded_callbacks : goldLoaded.session.callbacks = {} :=
  (reads_load (s := besideGold) (Prod.eta _).symm).callbacks

theorem recordOf_goldLoaded : goldLoaded.workspace.recordOf 0 = .ok (0, goldRecord) :=
  rfl

theorem metadataOf_goldLoaded : goldLoaded.metadataOf 0 = (.ok 0, goldAsked) :=
  rfl

/-- `tier` is set, an object is added and emptied through its own dictionary, and a key is set and
removed again. -/
def goldEdits : List Metadata.Use :=
  [.set 0 "tier" (.str "silver"), .set 0 "tags" (.obj [("source", .str "import")]), .child 0 "tags",
    .remove 1 "source", .set 0 "vip" (.bool true), .remove 0 "vip"]

/-- All these edits are sent. -/
theorem sent_metadata_eq_shown_iff_gold :
    ∃ plan, ((goldAsked.afterUses goldEdits).workspace.planSave
        goldLoaded.session.callbacks).1 = .ok plan
      ∧ ∃ planned ∈ plan, ∃ body, planned.origin
          = .put 0 body ((goldAsked.afterUses goldEdits).shared.dictionaries.content 0) := by
  have hspare : goldLoaded.session.callbacks.Spare 0 := by
    rw [goldLoaded_callbacks]
    exact ⟨by simp, by simp⟩
  have hkeep : goldLoaded.session.callbacks.KeepSound := by
    rw [goldLoaded_callbacks]
    exact ⟨by simp, by simp⟩
  have hplanned :
      ((goldAsked.afterUses goldEdits).workspace.planSave {}).1.toOption.isSome = true := by
    decide +kernel
  rw [← goldLoaded_callbacks] at hplanned
  obtain ⟨plan, hplan⟩ := Option.isSome_iff_exists.mp hplanned
  replace hplan := Except.eq_ok_of_toOption hplan
  obtain ⟨hsent, hwritten⟩ := sent_metadata_eq_shown_iff goldLoaded_orderly
    goldLoaded_overJson.sound.workspace hkeep recordOf_goldLoaded metadataOf_goldLoaded
    (by decide +kernel : goldAsked.shared.dictionaries.AdmitsAll goldEdits) hplan
  obtain ⟨planned, hmem, body, metadata, horigin⟩ :=
    hwritten hspare (by decide +kernel) (by decide +kernel) rfl (by decide +kernel)
  obtain ⟨-, -, w, -, -, hshown, hsame⟩ := hsent planned hmem body metadata horigin
  rw [hsame hspare] at hshown
  have hkeys : ∀ k ∈ Keyed.keys goldRecord.metadata, Keyed.contains
      ((goldAsked.afterUses goldEdits).shared.dictionaries.content 0) k = true := by
    decide +kernel
  obtain rfl := hshown.mpr (fun k hk => hkeys k (Keyed.contains_iff_mem_keys.mp hk))
  exact ⟨plan, hplan, planned, hmem, body, horigin⟩

/-- `tier` is removed, and sent as it was. -/
theorem removed_key_sent :
    let removed := goldAsked.afterUses [.remove 0 "tier"]
    removed.Orderly ∧ (goldLoaded.metadataOf 0).1 = .ok 0
      ∧ goldAsked.shared.dictionaries.AdmitsAll [.remove 0 "tier"]
      ∧ Keyed.find? (removed.shared.dictionaries.content 0) "tier" = none
      ∧ ∃ plan, (removed.workspace.planSave removed.session.callbacks).1 = .ok plan
        ∧ ∃ planned ∈ plan, ∃ body metadata, planned.origin = .put 0 body metadata
          ∧ planned.command.action = .put (Keyed.insert body Metadata.key (.obj metadata))
          ∧ Keyed.find? metadata "tier" = some (.str "gold") := by
  intro removed
  refine ⟨goldAsked_orderly.afterUses _, by rw [metadataOf_goldLoaded], by decide +kernel,
    by decide +kernel, ?_⟩
  have hcallbacks : removed.session.callbacks = {} := goldLoaded_callbacks
  have hplanned : (removed.workspace.planSave {}).1.toOption
      = some [{
        command :=
          { id := "users/1"
            action := .put
              (Keyed.insert [("Name", .str "Al")] Metadata.key (.obj goldRecord.metadata)) }
        origin := .put 0 [("Name", .str "Al")] goldRecord.metadata }] := by
    decide +kernel
  rw [← hcallbacks] at hplanned
  exact ⟨_, Except.eq_ok_of_toOption hplanned, _, List.mem_singleton_self _, _, _, rfl, rfl,
    by decide +kernel⟩

end OpenSession

end DocumentSession
