import DocumentSession.Proofs.PlannedCommands
import DocumentSession.Proofs.Settings
import DocumentSession.Proofs.Refusals
import DocumentSession.Entity.Shop

set_option autoImplicit false

/-! # The version a command depends on

The `check` of a record says when a command for its document depends on its version: always
(`.forced`), never (`.disabled`), or as the conventions say (`.auto`); see `Record.Demands`. PUT
commands follow it. DELETE commands do not in two cases: with optimistic concurrency every DELETE
has the version, also under `.disabled`; and without it, `deleteId` gives none, also under
`.forced`. These are all cases (`OpenSession.versions_follow_checks_iff`). -/

namespace DocumentSession

/-! ## What a record demands -/

/-- `version` is what a command of `kind` has to have for a record. The version of a PUT is the
empty one if the document has none. -/
def Record.Demands (r : Record) (conventions : Conventions) (kind : CommandKind)
    (version : Option String) : Prop :=
  match r.check with
  | .disabled => version = none
  | .forced => ∀ known, r.changeVector = some known → version = some known
  | .auto =>
    version =
      if conventions.optimistic then
        if kind = .put then some (r.changeVector.getD "") else r.changeVector
      else none

namespace Workspace

variable {conventions : Conventions} {r : Record}

theorem demands_versionToPut (conventions : Conventions) (r : Record) :
    r.Demands conventions .put (versionToPut conventions r) := by
  unfold Record.Demands versionToPut
  cases r.check with
  | auto => cases conventions.optimistic <;> rfl
  | disabled => cases conventions.optimistic <;> rfl
  | forced =>
    intro known hknown
    cases conventions.optimistic <;> simp [hknown]

/-- The DELETE of a record has what the record demands, unless its check is `.disabled`, optimistic
concurrency is on, and there is a version. -/
theorem demands_versionToDelete_iff :
    r.Demands conventions .delete (versionToDelete conventions r)
      ↔ ¬ (r.check = .disabled ∧ conventions.optimistic = true ∧ r.changeVector ≠ none) := by
  unfold Record.Demands versionToDelete
  cases r.check <;> cases conventions.optimistic <;> cases r.changeVector <;> simp

/-- The version of the DELETE of `deleteId`, if the caller gave none. -/
def versionToDeleteId (conventions : Conventions) (r : Record) : Option String :=
  if conventions.optimistic then r.changeVector else none

/-- The DELETE of `deleteId` has what the record demands, unless its check is `.disabled` with
optimistic concurrency on, or `.forced` with it off, and there is a version. -/
theorem demands_versionToDeleteId_iff :
    r.Demands conventions .delete (versionToDeleteId conventions r)
      ↔ ¬ (r.check = .disabled ∧ conventions.optimistic = true ∧ r.changeVector ≠ none)
        ∧ ¬ (r.check = .forced ∧ conventions.optimistic = false ∧ r.changeVector ≠ none) := by
  unfold Record.Demands versionToDeleteId
  cases r.check <;> cases conventions.optimistic <;> cases r.changeVector <;> simp

/-! ## `deleteId` -/

/-- The command that `deleteId` defers for a tracked document, if it defers one. -/
theorem deferred_deleteId {w : Workspace} {id : String} {key : RecordKey} {c : Command}
    (hr : w.work.recordForId? id = some (key, r))
    (hc : (w.deleteId id none).2.work.deferred = w.work.deferred ++ [c]) :
    c = { id, action := .delete, changeVector := versionToDeleteId w.work.conventions r } := by
  have hsame : ∀ w' : Workspace, w'.work.deferred = w.work.deferred →
      w'.work.deferred = w.work.deferred ++ [c] → False := by
    intro w' hleft hgrown
    have hlength := congrArg List.length (hleft.symm.trans hgrown)
    rw [List.length_append] at hlength
    exact absurd hlength (Nat.ne_of_lt (Nat.lt_succ_self _))
  unfold deleteId at hc
  split at hc
  · exact (hsame w rfl hc).elim
  · rw [hr] at hc
    dsimp only at hc
    split at hc
    · exact (hsame w rfl hc).elim
    · exact (hsame w rfl hc).elim
    · have hremoved : (w.removeRecord key).2.work.deferred = w.work.deferred :=
        deferred_removeRecord w key
      have hconventions : (w.removeRecord key).2.work.conventions = w.work.conventions :=
        congrArg Prod.fst (settings_removeRecord w key)
      unfold deferDelete at hc
      dsimp only at hc
      rw [hconventions] at hc
      unfold defer at hc
      split at hc
      · exact (hsame _ hremoved hc).elim
      · change (w.removeRecord key).2.work.deferred ++ _ = _ at hc
        rw [hremoved] at hc
        exact (List.singleton_inj.mp (List.append_cancel_left hc)).symm

end Workspace

namespace OpenSession

open Workspace

variable {s : OpenSession} {r : Record} {c : Command}

/-- `c` is in `deferred` since `deleteId` was called without a version for the document of the
record `r`. -/
inductive DeletesById (r : Record) (c : Command) : OpenSession → Prop where
  | asked {s : OpenSession} {id : String} {key : RecordKey} (h : s.Reachable)
    (hr : s.session.work.recordForId? id = some (key, r))
    (hc : (s.perform (.deleteId id none)).session.work.deferred
      = s.session.work.deferred ++ [c]) :
    DeletesById r c (s.perform (.deleteId id none))
  | waits {s : OpenSession} (operation : Operation) (h : DeletesById r c s)
    (hadmits : s.Admits operation)
    (hwaits : c ∈ (s.perform operation).session.work.deferred) :
    DeletesById r c (s.perform operation)

namespace DeletesById

theorem reachable (h : s.DeletesById r c) : s.Reachable := by
  induction h with
  | asked h _ _ => exact h.step (.deleteId _ none) trivial
  | waits operation _ hadmits _ ih => exact ih.step operation hadmits

theorem mem_deferred (h : s.DeletesById r c) : c ∈ s.session.work.deferred := by
  cases h with
  | asked _ _ hc =>
    rw [hc]
    exact List.mem_append_right _ (List.mem_singleton_self c)
  | waits _ _ _ hwaits => exact hwaits

/-- The version of `c` follows from the conventions, which a session keeps. -/
theorem changeVector (h : s.DeletesById r c) :
    c.changeVector = versionToDeleteId s.session.work.conventions r := by
  induction h with
  | @asked s id key h hr hc =>
    have hsettings := settings_perform h.consistent (.deleteId id none)
    have hconventions := congrArg (fun settings => settings.1.1) hsettings
    rw [show (s.perform (.deleteId id none)).session.work.conventions
      = s.session.work.conventions from hconventions, deferred_deleteId hr hc]
    rfl
  | @waits s operation h hadmits hwaits ih =>
    have hsettings := settings_perform h.reachable.consistent operation
    have hconventions := congrArg (fun settings => settings.1.1) hsettings
    rw [show (s.perform operation).session.work.conventions
      = s.session.work.conventions from hconventions]
    exact ih

end DeletesById

/-! ## Every command of a plan -/

/-- In every plan of every session, the PUT of an entity has the version that its record demands.
The DELETE of a record does so unless its check is `.disabled` and optimistic concurrency is on; the
DELETE of `deleteId` unless that is so, or the check is `.forced` with optimistic concurrency off;
and where there is no version at all. -/
theorem versions_follow_checks_iff {plan : Plan} {w : Workspace}
    (hplan : s.workspace.planSave s.session.callbacks = (.ok plan, w)) :
    (∀ planned ∈ plan, ∀ key body metadata, planned.origin = .put key body metadata →
        ∃ r, s.session.work.records.find? key = some r ∧ planned.command.id = r.id
          ∧ planned.command.kind = .put
          ∧ r.Demands s.session.work.conventions .put planned.command.changeVector)
      ∧ (∀ planned ∈ plan, ∀ key, planned.origin = .delete key →
        ∃ r, s.session.work.records.find? key = some r ∧ planned.command.id = r.id
          ∧ planned.command.kind = .delete
          ∧ (r.Demands s.session.work.conventions .delete planned.command.changeVector
            ↔ ¬ (r.check = .disabled ∧ s.session.work.conventions.optimistic = true
              ∧ r.changeVector ≠ none)))
      ∧ (∀ r c, s.DeletesById r c → plannedDeferred c ∈ plan
        ∧ (r.Demands s.session.work.conventions .delete c.changeVector
          ↔ ¬ (r.check = .disabled ∧ s.session.work.conventions.optimistic = true
              ∧ r.changeVector ≠ none)
            ∧ ¬ (r.check = .forced ∧ s.session.work.conventions.optimistic = false
              ∧ r.changeVector ≠ none))) := by
  refine ⟨?_, ?_, ?_⟩
  · intro planned hmem key body metadata horigin
    rcases cases_of_planSave hplan hmem with ⟨k, -, hdelete⟩ | hwrites | ⟨command, -, rfl⟩
    · obtain ⟨r, -, -, rfl⟩ := plannedDelete_eq_some_iff.mp hdelete
      cases horigin
    · obtain ⟨k, r, b, m, hr, -, rfl⟩ := hwrites
      obtain ⟨rfl, -, -⟩ := Origin.put.inj horigin
      exact ⟨r, hr, rfl, rfl, demands_versionToPut _ r⟩
    · cases horigin
  · intro planned hmem key horigin
    rcases cases_of_planSave hplan hmem with ⟨k, -, hdelete⟩ | hwrites | ⟨command, -, rfl⟩
    · obtain ⟨r, hr, -, rfl⟩ := plannedDelete_eq_some_iff.mp hdelete
      obtain rfl := Origin.delete.inj horigin
      exact ⟨r, hr, rfl, rfl, demands_versionToDelete_iff⟩
    · obtain ⟨k, r, b, m, -, -, rfl⟩ := hwrites
      cases horigin
    · cases horigin
  · intro r c hdeletes
    obtain ⟨puts, rfl, -⟩ := parts_of_planSave hplan
    refine ⟨List.mem_append_right _ (List.mem_map_of_mem hdeletes.mem_deferred), ?_⟩
    rw [hdeletes.changeVector]
    exact demands_versionToDeleteId_iff

/-- The result of a PUT in the answer to a save. -/
def writeResult (id version : String) : Json :=
  .obj [("@change-vector", .str version), ("@id", .str id), ("Type", .str "PUT")]

/-- A session with optimistic concurrency that has saved three of its instances: one over a version
that was given, one over any version, and one with the check `.auto`. -/
def threeSaved : OpenSession :=
  let opened : OpenSession :=
    { session := Session.new 1 { optimistic := true } {}
      shared := { entities := List.replicate 4 { type := Shop.anything, state := .obj [] } }
      connection :=
        { server := fun _ => .ok (.ok (.obj [("Results", .arr
            [writeResult "users/1" "A:1", writeResult "users/2" "A:2",
             writeResult "users/3" "A:3"])])) }
      deliveries := {} }
  (((opened.perform (.storeOver 0 "users/1" (some "A:0"))).perform
    (.storeOver 1 "users/2" none)).perform (.storeUnder 2 "users/3")).perform .save

theorem reachable_threeSaved : threeSaved.Reachable := by
  have hopened : Reachable
      { session := Session.new 1 { optimistic := true } {}
        shared := { entities := List.replicate 4 { type := Shop.anything, state := .obj [] } }
        connection :=
          { server := fun _ => .ok (.ok (.obj [("Results", .arr
              [writeResult "users/1" "A:1", writeResult "users/2" "A:2",
               writeResult "users/3" "A:3"])])) }
        deliveries := {} } := .opened 1 _ _ _ _ _
  have hforced := hopened.step (.storeOver 0 "users/1" (some "A:0"))
    (show 0 < List.length _ by decide +kernel)
  have hdisabled := hforced.step (.storeOver 1 "users/2" none)
    (show 1 < List.length _ by decide +kernel)
  exact (hdisabled.step (.storeUnder 2 "users/3") (show 2 < List.length _ by decide +kernel)).step
    .save trivial

/-- `threeSaved` where the second document is deleted by `deleteId`, the first by `delete`, and the
fourth instance is new. -/
def threeChanged : OpenSession :=
  ((threeSaved.perform (.deleteId "users/2" none)).perform (.delete 0)).perform
    (.storeUnder 3 "users/4")

/-- The DELETE of `delete` has the version as its record demands, and so does the PUT. The DELETE of
`deleteId` does too, although the check of its record is `.disabled`. -/
theorem versions_follow_checks_iff_mixed :
    ∃ plan w, threeChanged.workspace.planSave threeChanged.session.callbacks = (.ok plan, w)
      ∧ plan.map (fun planned => (planned.command.id, planned.command.changeVector))
        = [("users/1", some "A:1"), ("users/4", some ""), ("users/2", some "A:2")]
      ∧ (∀ planned ∈ plan, ∀ key body metadata, planned.origin = .put key body metadata →
        ∃ r, threeChanged.session.work.records.find? key = some r
          ∧ r.Demands threeChanged.session.work.conventions .put planned.command.changeVector)
      ∧ ∃ r c, threeChanged.DeletesById r c ∧ plannedDeferred c ∈ plan ∧ r.check = .disabled
        ∧ ¬ r.Demands threeChanged.session.work.conventions .delete c.changeVector := by
  have hversions : (threeChanged.workspace.planSave threeChanged.session.callbacks).1.toOption.map
      (fun plan => plan.map fun planned => (planned.command.id, planned.command.changeVector))
      = some [("users/1", some "A:1"), ("users/4", some ""), ("users/2", some "A:2")] := by
    decide +kernel
  rcases hplan : threeChanged.workspace.planSave threeChanged.session.callbacks with ⟨answer, w⟩
  rw [hplan] at hversions
  obtain ⟨plan, hanswer, hlist⟩ := Option.map_eq_some_iff.mp hversions
  obtain rfl := Except.eq_ok_of_toOption hanswer
  obtain ⟨hputs, -, hdeletes⟩ := versions_follow_checks_iff hplan
  have hfound : (threeSaved.session.work.recordForId? "users/2").map
      (fun found => (found.2.check, found.2.changeVector)) = some (.disabled, some "A:2") := by
    decide +kernel
  obtain ⟨⟨key, r⟩, hr, hknown⟩ := Option.map_eq_some_iff.mp hfound
  obtain ⟨hcheck, hversion⟩ := Prod.mk.inj hknown
  have hwaits : threeChanged.DeletesById r
      { id := "users/2", action := .delete, changeVector := some "A:2" } :=
    ((DeletesById.asked reachable_threeSaved hr (by decide +kernel)).waits (.delete 0) trivial
      (by decide +kernel)).waits (.storeUnder 3 "users/4")
      (show 3 < List.length _ by decide +kernel) (by decide +kernel)
  obtain ⟨hmem, hdemands⟩ := hdeletes r _ hwaits
  refine ⟨plan, w, rfl, hlist, ?_, r, _, hwaits, hmem, hcheck, ?_⟩
  · intro planned hplanned key body metadata horigin
    obtain ⟨r, hr, -, -, hdemanded⟩ := hputs planned hplanned key body metadata horigin
    exact ⟨r, hr, hdemanded⟩
  · intro hdemanded
    refine (hdemands.mp hdemanded).1 ⟨hcheck, by decide +kernel, ?_⟩
    rw [hversion]
    exact Option.some_ne_none _

/-- A record with the check `.disabled` is deleted under a version. -/
theorem unchecked_record_deleted_under_version :
    ∃ plan w r, (threeSaved.perform (.delete 1)).workspace.planSave
        (threeSaved.perform (.delete 1)).session.callbacks = (.ok plan, w)
      ∧ (threeSaved.perform (.delete 1)).session.work.records.find? 1 = some r
      ∧ r.check = .disabled
      ∧ ∃ planned ∈ plan, planned.origin = .delete 1
        ∧ planned.command.changeVector = some "A:2"
        ∧ ¬ r.Demands (threeSaved.perform (.delete 1)).session.work.conventions .delete
          planned.command.changeVector := by
  have hdeletes : ((threeSaved.perform (.delete 1)).workspace.planSave
      (threeSaved.perform (.delete 1)).session.callbacks).1.toOption
      = some [{ command := { id := "users/2", action := .delete, changeVector := some "A:2" }
                origin := .delete 1 }] := by
    decide +kernel
  have hfound : ((threeSaved.perform (.delete 1)).session.work.records.find? 1).map Record.check
      = some .disabled := by
    decide +kernel
  rcases hplan : (threeSaved.perform (.delete 1)).workspace.planSave
    (threeSaved.perform (.delete 1)).session.callbacks with ⟨answer, w⟩
  rw [hplan] at hdeletes
  obtain rfl := Except.eq_ok_of_toOption hdeletes
  obtain ⟨r, hr, hcheck⟩ := Option.map_eq_some_iff.mp hfound
  refine ⟨_, w, r, rfl, hr, hcheck, _, List.mem_singleton_self _, rfl, rfl, ?_⟩
  unfold Record.Demands
  rw [hcheck]
  exact Option.some_ne_none _

end OpenSession

end DocumentSession
