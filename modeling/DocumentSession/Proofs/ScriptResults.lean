import DocumentSession.Entity.Shop
import DocumentSession.Proofs.Batch
import DocumentSession.Proofs.PlannedCommands

set_option autoImplicit false

/-! # The result of a deferred PATCH

The result of a deferred PATCH has the new version of the document, and it may have the document
itself (`ModifiedDocument`). Where the instance can be materialized from that document, the record
takes over both, and the instance is replaced (`Workspace.Shows`). Where it cannot
(`Workspace.Unreadable`) the save fails, and everything stays as it was but the version of the
record: the next PUT of the entity depends on the new one. So a result is taken over as a whole or
not at all if and only if it does not fail, or has no other version
(`OpenSession.script_result_whole_iff`). -/

namespace DocumentSession

namespace Workspace

variable {w w' : Workspace} {planned : Planned} {result : Fields} {key : RecordKey} {r : Record}

/-- `planned` is a deferred PATCH for the document of the record at `key`, which is `r`. -/
structure Scripts (w : Workspace) (planned : Planned) (key : RecordKey) (r : Record) : Prop where
  origin : planned.origin = .deferred
  kind : planned.command.kind = .patch
  found : w.work.recordForId? planned.command.id = some (key, r)

/-- The instance of `r` cannot be materialized from the document in `result`. -/
def Unreadable (w : Workspace) (r : Record) (result : Fields) : Prop :=
  ∃ document entity e, resultDocument result = some document ∧ r.entity = some entity
    ∧ (w.shared.entity entity).type.materialize (Metadata.split document).1 r.id
        w.work.conventions.identityProperty = .error e

/-- The record at `key` is `r` with `document` at `version`, and its instance is materialized from
the body of `document`. Metadata keys that `document` lacks are kept. -/
structure Shows (w : Workspace) (key : RecordKey) (r : Record) (document : Fields)
    (version : Option String) : Prop where
  record : ∃ r', w.work.records.find? key = some r' ∧ r'.id = r.id
    ∧ r'.body = some (Metadata.split document).1
    ∧ r'.changeVector = (Record.changeVectorOf (Metadata.split document).2).or version
    ∧ r'.metadata =
        if (Metadata.split document).2 = [] then r.metadata else (Metadata.split document).2
  entity : ∀ entity, r.entity = some entity →
    (w.shared.entity entity).type.materialize (Metadata.split document).1 r.id
      w.work.conventions.identityProperty = .ok (w.shared.entity entity)

/-- Every PUT of the record in the next save depends on `version`, whatever becomes of instances and
dictionaries before. -/
def WritesAt (w : Workspace) (key : RecordKey) (version : Option String) : Prop :=
  ∀ (u : Workspace) (callbacks : Callbacks) (plan : Plan), u.work = w.work →
    (u.planSave callbacks).1 = .ok plan → ∀ planned ∈ plan, ∀ body metadata,
      planned.origin = .put key body metadata → planned.command.changeVector = version

theorem writesAt_of_record (hr : w.work.records.find? key = some r) :
    w.WritesAt key (versionToPut w.work.conventions r) := by
  intro u callbacks plan hwork hplan planned hmem body metadata horigin
  rcases cases_of_planSave (Prod.ext hplan rfl) hmem with ⟨k, -, hdelete⟩ | hwrites | hwaited
  · obtain ⟨_, -, -, rfl⟩ := plannedDelete_eq_some_iff.mp hdelete
    cases horigin
  · obtain ⟨k, r', b, m, hr', -, rfl⟩ := hwrites
    obtain ⟨rfl, -, -⟩ := Origin.put.inj horigin
    rw [hwork, hr] at hr'
    obtain rfl := Option.some.inj hr'
    rw [hwork]
  · obtain ⟨command, -, rfl⟩ := hwaited
    cases horigin

/-- `atVersion` keeps the record if and only if it has that version already. -/
theorem keepsRecord_atVersion_iff (hr : w.work.records.find? key = some r)
    {version : Option String} :
    w.KeepsRecord { w with work := w.work.modifyRecord key (·.atVersion version) } key
      ↔ version.or r.changeVector = r.changeVector := by
  have hchanged := Keyed.find?_modify_self hr (·.atVersion version)
  constructor
  · intro hkeeps
    have hsame : some (r.atVersion version) = some r :=
      hchanged.symm.trans (hkeeps.record.trans hr)
    exact congrArg Record.changeVector (Option.some.inj hsame)
  · intro hversion
    have hsame : r.atVersion version = r := by
      unfold Record.atVersion
      rw [hversion]
    refine ⟨?_, fun _ => Iff.rfl, rfl, fun _ _ _ _ => rfl, fun _ => rfl, rfl⟩
    rw [hr]
    exact hchanged.trans (congrArg some hsame)

/-! ## The three ways of settling a PATCH -/

namespace Scripts

theorem settleResult_eq (h : w.Scripts planned key r) (result : Fields) :
    w.settleResult planned result = w.settleDeferredPatch planned.command.id result := by
  unfold settleResult
  rw [h.origin]
  dsimp only
  rw [h.kind]

theorem find? (h : w.Scripts planned key r) : w.work.records.find? key = some r :=
  (UnitOfWork.recordForId?_eq_some_iff.mp h.found).2

/-- A result without document changes the version only. -/
theorem settles_versioned (h : w.Scripts planned key r) (hdocument : resultDocument result = none) :
    w.settleResult planned result
      = (.ok (),
        { w with work := w.work.modifyRecord key (·.atVersion (resultVersion result)) }) := by
  unfold resultDocument at hdocument
  rw [h.settleResult_eq]
  unfold settleDeferredPatch
  rw [h.found]
  dsimp only
  rw [hdocument]
  rfl

/-- `settleResult` changes the version before it puts the document into the record. -/
theorem settles_document (h : w.Scripts planned key r) {document : Fields}
    (hdocument : resultDocument result = some document) :
    w.settleResult planned result
      = settleModified
          { w with work := w.work.modifyRecord key (·.atVersion (resultVersion result)) } key r
          document := by
  unfold resultDocument at hdocument
  rw [h.settleResult_eq]
  unfold settleDeferredPatch
  rw [h.found]
  dsimp only
  rw [hdocument]
  rfl

/-- After an unreadable document the record has the new version, and nothing else has changed. -/
theorem settles_unreadable (h : w.Scripts planned key r) (hunreadable : w.Unreadable r result) :
    ∃ e, w.settleResult planned result
      = (.error e,
        { w with work := w.work.modifyRecord key (·.atVersion (resultVersion result)) }) := by
  obtain ⟨document, entity, e, hdocument, hentity, hmade⟩ := hunreadable
  refine ⟨e, ?_⟩
  rw [h.settles_document hdocument]
  unfold settleModified UnitOfWork.modifyRecord
  simp only [hentity, hmade]
  rfl

/-- A readable document is taken over. -/
theorem settles_readable (h : w.Scripts planned key r) {document : Fields}
    (hdocument : resultDocument result = some document) (hreadable : ¬ w.Unreadable r result) :
    ∃ shared, w.Renews r (Metadata.split document).1 shared
      ∧ w.settleResult planned result
        = (.ok (),
          { work :=
              (w.work.modifyRecord key (·.atVersion (resultVersion result))).modifyRecord key
                (·.scripted (Metadata.split document).1 (Metadata.split document).2)
            shared := if (Metadata.split document).2 = [] then shared else shared.release r }) := by
  rw [h.settles_document hdocument]
  unfold settleModified UnitOfWork.modifyRecord Renews
  cases hentity : r.entity with
  | none => exact ⟨w.shared, Or.inl ⟨rfl, rfl⟩, rfl⟩
  | some entity =>
    cases hmade : (w.shared.entity entity).type.materialize (Metadata.split document).1 r.id
        w.work.conventions.identityProperty with
    | error e => exact absurd ⟨document, entity, e, hdocument, hentity, hmade⟩ hreadable
    | ok e =>
      refine ⟨w.shared.setEntity entity e, Or.inr ⟨entity, e, rfl, hmade, rfl⟩, ?_⟩
      simp only [hmade]
      rfl

/-- After a readable document the record and its instance show it. -/
theorem shows_readable (h : w.Scripts planned key r) (hw : w.Consistent) {document : Fields}
    (hdocument : resultDocument result = some document) (hreadable : ¬ w.Unreadable r result) :
    (w.settleResult planned result).1 = .ok ()
      ∧ (w.settleResult planned result).2.Shows key r document
          ((resultVersion result).or r.changeVector) := by
  obtain ⟨shared, hrenews, hsettled⟩ := h.settles_readable hdocument hreadable
  rw [hsettled]
  refine ⟨rfl, ⟨?_, ?_⟩⟩
  · have hversioned := Keyed.find?_modify_self h.find? (·.atVersion (resultVersion result))
    refine ⟨_, Keyed.find?_modify_self hversioned
      (·.scripted (Metadata.split document).1 (Metadata.split document).2), ?_⟩
    unfold Record.scripted
    split
    · next hempty =>
      rw [hempty]
      exact ⟨rfl, rfl, rfl, rfl⟩
    · exact ⟨rfl, rfl, rfl, rfl⟩
  · intro entity hentity
    have hshared : (if (Metadata.split document).2 = [] then shared
        else shared.release r).entity entity = shared.entity entity := by
      split <;> rfl
    rcases hrenews with ⟨hnone, -⟩ | ⟨entity', e, hentity', hmade, rfl⟩
    · rw [hnone] at hentity
      cases hentity
    · obtain rfl := Option.some.inj (hentity.symm.trans hentity')
      have hknown : entity < w.shared.entities.length :=
        hw.known entity key ((hw.held entity key).mpr ⟨r, h.find?, hentity⟩)
      show EntityType.materialize (Shared.entity (if _ then _ else _) entity).type _ _
        w.work.conventions.identityProperty = .ok (Shared.entity (if _ then _ else _) entity)
      rw [hshared, Shared.entity_setEntity_self _ hknown, EntityType.type_of_materialize hmade]
      exact hmade

/-- Settling a PATCH fails if and only if the document is unreadable. -/
theorem error_iff (h : w.Scripts planned key r) :
    (∃ e, (w.settleResult planned result).1 = .error e) ↔ w.Unreadable r result := by
  constructor
  · rintro ⟨e, herror⟩
    by_contra hreadable
    have hok : (w.settleResult planned result).1 = .ok () := by
      cases hdocument : resultDocument result with
      | none => rw [h.settles_versioned hdocument]
      | some document =>
        obtain ⟨shared, -, hsettled⟩ := h.settles_readable hdocument hreadable
        rw [hsettled]
    rw [hok] at herror
    cases herror
  · intro hunreadable
    obtain ⟨e, hsettled⟩ := h.settles_unreadable hunreadable
    exact ⟨e, by rw [hsettled]⟩

/-- Whatever the result is, the record stays and keeps its identifier. -/
theorem record_settled (h : w.Scripts planned key r) (hw : w.Consistent) (result : Fields) :
    ∃ r', (w.settleResult planned result).2.work.records.find? key = some r' ∧ r'.id = r.id := by
  have hversioned := Keyed.find?_modify_self h.find? (·.atVersion (resultVersion result))
  by_cases hunreadable : w.Unreadable r result
  · obtain ⟨e, hsettled⟩ := h.settles_unreadable hunreadable
    rw [hsettled]
    exact ⟨_, hversioned, rfl⟩
  · cases hdocument : resultDocument result with
    | none =>
      rw [h.settles_versioned hdocument]
      exact ⟨_, hversioned, rfl⟩
    | some document =>
      obtain ⟨r', hr', hid, -⟩ := (h.shows_readable hw hdocument hunreadable).2.record
      exact ⟨r', hr', hid⟩

/-- An unreadable document changes nothing but the version of the record. -/
theorem unreadable_spec (h : w.Scripts planned key r) (hunreadable : w.Unreadable r result) :
    let settled := (w.settleResult planned result).2
    let newVersion := (resultVersion result).or r.changeVector
    settled.work.records.find? key = some { r with changeVector := newVersion }
      ∧ settled.shared = w.shared
      ∧ (w.KeepsRecord settled key ↔ newVersion = r.changeVector) := by
  obtain ⟨e, hsettled⟩ := h.settles_unreadable hunreadable
  rw [hsettled]
  exact ⟨Keyed.find?_modify_self h.find? (·.atVersion (resultVersion result)), rfl,
    keepsRecord_atVersion_iff h.find?⟩

/-- A result that does not fail is taken over, with the document if there is one. -/
theorem readable_spec (h : w.Scripts planned key r) (hw : w.Consistent)
    (hreadable : ¬ w.Unreadable r result) :
    let settled := (w.settleResult planned result).2
    let newVersion := (resultVersion result).or r.changeVector
    match resultDocument result with
    | some document => settled.Shows key r document newVersion
    | none =>
      settled.work.records.find? key = some { r with changeVector := newVersion }
        ∧ settled.shared = w.shared := by
  intro settled newVersion
  cases hdocument : resultDocument result with
  | none =>
    have hsettled : settled = _ := congrArg Prod.snd (h.settles_versioned hdocument)
    rw [hsettled]
    exact ⟨Keyed.find?_modify_self h.find? (·.atVersion (resultVersion result)), rfl⟩
  | some document => exact (h.shows_readable hw hdocument hreadable).2

end Scripts

/-! ## A PATCH among other commands -/

/-- Where the other results keep the record of a PATCH, it is settled as it was at first, and is at
last as its result left it. -/
theorem Scripts.keepsRecord_others {before after : List (Planned × Fields)}
    (h : (w.afterResults before).Scripts planned key r) (hw : w.Consistent)
    (hspares : ∀ pair ∈ before ++ after, ∀ r₀, w.work.records.find? key = some r₀ →
      Spares pair.1 pair.2 key r₀.id) :
    w.KeepsRecord (w.afterResults before) key
      ∧ ((w.afterResults before).settleResult planned result).2.KeepsRecord
          (w.afterResults (before ++ (planned, result) :: after)) key := by
  have hv := hw.afterResults before
  obtain ⟨r₀, hr₀⟩ : ∃ r₀, w.work.records.find? key = some r₀ := by
    rw [← Option.ne_none_iff_exists']
    intro hnone
    have hr := h.find?
    rw [absent_afterResults hw hnone before] at hr
    cases hr
  have hbefore : w.KeepsRecord (w.afterResults before) key := keepsRecord_afterResults hw
    (fun pair hmem => hspares pair (List.mem_append_left _ hmem)) hr₀
  obtain rfl : r₀ = r :=
    Option.some.inj (hr₀.symm.trans (hbefore.record.symm.trans h.find?))
  obtain ⟨r', hr', hid⟩ := h.record_settled hv result
  refine ⟨hbefore, ?_⟩
  rw [afterResults_append, afterResults_cons]
  refine keepsRecord_afterResults (hv.settles (settleResult_settles hv planned result))
    (fun pair hmem r'' hr'' => ?_) hr'
  obtain rfl := Option.some.inj (hr'.symm.trans hr'')
  rw [hid]
  exact hspares pair (List.mem_append_right _ hmem) _ hr₀

/-- Where the other results keep the record of a PATCH whose document is unreadable, the answer
changes nothing of it but the version, and the next PUT depends on that version. -/
theorem Scripts.unreadable_among_others {plan : Plan} {answer : Option Json}
    {results : List Fields} {before after : List (Planned × Fields)}
    (h : (w.afterResults before).Scripts planned key r) (hw : w.Consistent)
    (hunreadable : (w.afterResults before).Unreadable r result)
    (hresults : resultsFor plan answer = .ok results)
    (hsplit : plan.zip results = before ++ (planned, result) :: after)
    (hspares : ∀ pair ∈ before ++ after, ∀ r₀, w.work.records.find? key = some r₀ →
      Spares pair.1 pair.2 key r₀.id) :
    let newVersion := (resultVersion result).or r.changeVector
    (w.KeepsRecord (w.settle {} plan answer).2 key ↔ newVersion = r.changeVector)
      ∧ ∀ callbacks, (w.settle callbacks plan answer).2.WritesAt key
          (versionToPut w.work.conventions { r with changeVector := newVersion }) := by
  intro newVersion
  obtain ⟨hbefore, hafter⟩ := h.keepsRecord_others hw hspares
  rw [← hsplit] at hafter
  obtain ⟨hrecord, -, hkeeps⟩ := h.unreadable_spec hunreadable
  refine ⟨?_, fun callbacks => ?_⟩
  · rw [settle_quiet w hresults]
    constructor
    · intro hkept
      have hsame := (hafter.record.symm.trans hkept.record).trans hbefore.record.symm
      rw [hrecord, h.find?] at hsame
      exact congrArg Record.changeVector (Option.some.inj hsame)
    · intro hsame
      exact ((hbefore.trans (hkeeps.mpr hsame)).trans hafter).setDeferred []
  · have hwork := work_settle w callbacks hresults
    have hnow : (w.settle callbacks plan answer).2.work.records.find? key
        = some { r with changeVector := newVersion } := by
      rw [hwork]
      exact hafter.record.trans hrecord
    have hconventions : (w.settle callbacks plan answer).2.work.conventions
        = w.work.conventions := by
      have hsettled := (settleResult_settles (hw.afterResults before) planned result).conventions
      rw [hwork]
      exact hafter.conventions.trans (hsettled.trans hbefore.conventions)
    rw [← hconventions]
    exact writesAt_of_record hnow

end Workspace

namespace OpenSession

open Workspace

variable {s : OpenSession} {w : Workspace} {plan : Plan} {answer : Option Json}
  {results : List Fields} {before after : List (Planned × Fields)} {planned : Planned}
  {result : Fields} {key : RecordKey} {r : Record}

/-- Settling a PATCH fails if and only if its document is unreadable. Then the record has the
version of the result, and all else is as before: the record is as before if and only if the result
has no other version. A result that does not fail is taken over, with the document if there is one.
Where the other results in the answer keep the record, that is how the record is after the save,
compared with how it was before, and the next PUT of the entity depends on the version. -/
theorem script_result_whole_iff (h : s.Reachable) (hawaits : s.Awaits w)
    (hresults : resultsFor plan answer = .ok results)
    (hsplit : plan.zip results = before ++ (planned, result) :: after)
    (hscripts : (w.afterResults before).Scripts planned key r) :
    let v := w.afterResults before
    let settled := v.settleResult planned result
    let newVersion := (resultVersion result).or r.changeVector
    ((∃ e, settled.1 = .error e) ↔ v.Unreadable r result)
      ∧ (v.Unreadable r result →
          settled.2.work.records.find? key = some { r with changeVector := newVersion }
            ∧ settled.2.shared = v.shared
            ∧ (v.KeepsRecord settled.2 key ↔ newVersion = r.changeVector))
      ∧ (¬ v.Unreadable r result →
          match resultDocument result with
          | some document => settled.2.Shows key r document newVersion
          | none =>
            settled.2.work.records.find? key = some { r with changeVector := newVersion }
              ∧ settled.2.shared = v.shared)
      ∧ ((∀ pair ∈ before ++ after, ∀ r₀, w.work.records.find? key = some r₀ →
            Spares pair.1 pair.2 key r₀.id) →
          w.KeepsRecord v key ∧ settled.2.KeepsRecord (w.settle {} plan answer).2 key
            ∧ (v.Unreadable r result →
                (w.KeepsRecord (w.settle {} plan answer).2 key ↔ newVersion = r.changeVector)
                ∧ ∀ callbacks, (w.settle callbacks plan answer).2.WritesAt key
                    (versionToPut w.work.conventions { r with changeVector := newVersion }))) := by
  intro v settled newVersion
  have hw : w.Consistent := hawaits.consistent h.consistent
  refine ⟨hscripts.error_iff, hscripts.unreadable_spec,
    hscripts.readable_spec (hw.afterResults before), fun hspares => ?_⟩
  obtain ⟨hbefore, hafter⟩ := hscripts.keepsRecord_others hw hspares
  rw [← hsplit] at hafter
  refine ⟨hbefore, ?_, fun hunreadable =>
    hscripts.unreadable_among_others hw hunreadable hresults hsplit hspares⟩
  rw [settle_quiet w hresults]
  exact hafter.setDeferred []

/-- A session with optimistic concurrency, whose server has `users/1`. -/
def besideNameless : OpenSession where
  session := Session.new 1 { optimistic := true } {}
  shared := {}
  connection := { server := fun _ => .ok (.ok (.obj [("Results", .arr [.obj
    [("@metadata", .obj [("@change-vector", .str "A:1"), ("@id", .str "users/1")]),
      ("name", .str "Al")]])])) }
  deliveries := {}

/-- `besideNameless` once the user is loaded and a PATCH is deferred. -/
def namelessScripted : OpenSession :=
  (besideNameless.perform (.load Shop.user "users/1" [])).perform
    (.defer [{ id := "users/1", action := .patch "this.name = null" [] }])

/-- The result of the PATCH, which has set `name` to `null`. -/
def namelessResult : Fields :=
  [("ChangeVector", .str "A:2"), ("ModifiedDocument", .obj [("name", .null)]),
    ("Type", .str "PATCH")]

/-- The record of the user in `namelessScripted`. -/
def namelessRecord : Record where
  id := "users/1"
  changeVector := some "A:1"
  metadata := [("@change-vector", .str "A:1"), ("@id", .str "users/1")]
  body := some [("name", .str "Al")]
  entity := some 0

theorem namelessScripted_reachable : namelessScripted.Reachable :=
  .step (.defer _) (.step (.load Shop.user "users/1" []) (.opened 1 _ _ _ _ _) trivial) trivial

theorem namelessScripted_scripts :
    namelessScripted.workspace.Scripts
      (plannedDeferred { id := "users/1", action := .patch "this.name = null" [] }) 0
      namelessRecord :=
  ⟨rfl, rfl, by decide +kernel⟩

theorem namelessScripted_unreadable :
    namelessScripted.workspace.Unreadable namelessRecord namelessResult := by
  have hfails : ((namelessScripted.workspace.shared.entity 0).type.materialize
      (Metadata.split [("name", .null)]).1 "users/1" "id").toOption.isNone = true := by
    decide +kernel
  cases hmade : (namelessScripted.workspace.shared.entity 0).type.materialize
      (Metadata.split [("name", .null)]).1 "users/1" "id" with
  | error e => exact ⟨[("name", .null)], 0, e, rfl, rfl, hmade⟩
  | ok e =>
    rw [hmade] at hfails
    cases hfails

/-- The plan of the PATCH alone, and the answer to it. -/
def namelessPlan : Plan :=
  [plannedDeferred { id := "users/1", action := .patch "this.name = null" [] }]

def namelessAnswer : Option Json :=
  some (.obj [("Results", .arr [.obj namelessResult])])

/-- The save of the PATCH fails, and the next PUT of the user depends on the version in its
result. -/
theorem script_result_whole_iff_nameless :
    (namelessScripted.workspace.settle {} namelessPlan namelessAnswer).1.toOption = none
      ∧ ¬ namelessScripted.workspace.KeepsRecord
          (namelessScripted.workspace.settle {} namelessPlan namelessAnswer).2 0
      ∧ (namelessScripted.workspace.settle {} namelessPlan namelessAnswer).2.WritesAt 0
          (some "A:2") := by
  have hresults : resultsFor namelessPlan namelessAnswer = .ok [namelessResult] := by
    decide +kernel
  have hawaits : namelessScripted.Awaits namelessScripted.workspace :=
    ⟨_, .refl, rfl, Nat.le_refl _⟩
  have hsplit : namelessPlan.zip [namelessResult]
      = [] ++ (plannedDeferred { id := "users/1", action := .patch "this.name = null" [] },
          namelessResult) :: [] := rfl
  obtain ⟨-, -, -, hbatch⟩ := script_result_whole_iff namelessScripted_reachable hawaits hresults
    hsplit namelessScripted_scripts
  obtain ⟨-, -, hfails⟩ := hbatch (by simp)
  obtain ⟨hkeeps, hwrites⟩ := hfails namelessScripted_unreadable
  have hversion : versionToPut namelessScripted.workspace.work.conventions
      { namelessRecord with changeVector := some "A:2" } = some "A:2" := by
    decide +kernel
  have hother : some "A:2" ≠ namelessRecord.changeVector := by decide
  exact ⟨by decide +kernel, fun hkept => hother (hkeeps.mp hkept), hversion ▸ hwrites {}⟩

/-- A PATCH whose document is unreadable is planned, and settling its result fails. Afterwards the
record has the version of the result, with the body and the instance that it had. -/
theorem unreadable_script_leaves_version :
    namelessScripted.Reachable
      ∧ (namelessScripted.workspace.planSave namelessScripted.session.callbacks).1.toOption
          = some namelessPlan
      ∧ resultsFor namelessPlan namelessAnswer = .ok [namelessResult]
      ∧ namelessScripted.workspace.Unreadable namelessRecord namelessResult
      ∧ namelessScripted.workspace.work.recordForId? "users/1" = some (0, namelessRecord)
      ∧ (namelessScripted.workspace.settle {} namelessPlan namelessAnswer).1.toOption = none
      ∧ (namelessScripted.workspace.settle {} namelessPlan namelessAnswer).2.work.recordForId?
          "users/1" = some (0, { namelessRecord with changeVector := some "A:2" }) := by
  refine ⟨namelessScripted_reachable, ?_, by decide +kernel, namelessScripted_unreadable,
    by decide +kernel, by decide +kernel, by decide +kernel⟩
  have hcallbacks : namelessScripted.session.callbacks = {} :=
    (reads_load (s := besideNameless) (Prod.eta _).symm).callbacks
  rw [hcallbacks]
  decide +kernel

end OpenSession

end DocumentSession
