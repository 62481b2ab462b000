import DocumentSession.Proofs.Forest
import DocumentSession.Proofs.PerformCases

set_option autoImplicit false

/-! # Reads spare live entities

A record is live once it has an `entity`, for from then on its caller works with the instance, and
what a server sends later is not put into it. Reading refreshes records without an entity, adds new
ones, and gives a record its instance when that is first asked for. It keeps live records, all
instances and all dictionaries (`Workspace.SparesLive`), whatever the server sends and however the
operation ends.

The `beforeQuery` callbacks may edit what they are given; a read spares what they leave
(`OpenSession.reads_spare_live`). -/

namespace DocumentSession

namespace Workspace

variable {w w' w'' : Workspace}

/-- From `w` to `w'` live records, deletions, deferred commands, instances and dictionaries are
kept. There may be more instances. -/
structure SparesLive (w w' : Workspace) : Prop where
  record : ∀ key r, w.work.records.find? key = some r → r.entity.isSome = true →
    w'.work.records.find? key = some r
  deleted : w'.work.deleted = w.work.deleted
  deferred : w'.work.deferred = w.work.deferred
  entities : w.shared.entities <+: w'.shared.entities
  dictionaries : w'.shared.dictionaries.unheld = w.shared.dictionaries.unheld

namespace SparesLive

theorem refl (w : Workspace) : w.SparesLive w :=
  ⟨fun _ _ hr _ => hr, rfl, rfl, List.prefix_refl _, rfl⟩

theorem trans (h : w.SparesLive w') (h' : w'.SparesLive w'') : w.SparesLive w'' := by
  refine ⟨?_, h'.deleted.trans h.deleted, h'.deferred.trans h.deferred,
    h.entities.trans h'.entities, h'.dictionaries.trans h.dictionaries⟩
  intro key r hr hentity
  exact h'.record key r (h.record key r hr hentity) hentity

end SparesLive

theorem unheld_release (s : Shared) (r : Record) :
    (s.release r).dictionaries.unheld = s.dictionaries.unheld := by
  unfold Shared.release Record.releaseDictionary
  cases r.dictionary with
  | none => rfl
  | some n => exact s.dictionaries.unheld_release n

/-! ## One step -/

theorem sparesLive_refreshRecord (w : Workspace) (key : RecordKey) (body metadata : Fields) :
    w.SparesLive (w.refreshRecord key body metadata) := by
  unfold refreshRecord
  split
  · next r hr =>
    split
    · exact .refl w
    · next hfree =>
      refine ⟨?_, rfl, rfl, List.prefix_refl _, unheld_release w.shared r⟩
      intro k live hlive hentity
      -- the record that is refreshed is not live
      have hk : key ≠ k := by
        rintro rfl
        rw [hr] at hlive
        obtain rfl := Option.some.inj hlive
        exact hfree hentity
      exact (Keyed.find?_modify_of_ne _ hk (·.refreshed body metadata)).trans hlive
  · exact .refl w

theorem sparesLive_addLoaded (h : w.Consistent) (id : String) (body metadata : Fields) :
    w.SparesLive (w.addLoaded id body metadata).2 := by
  refine ⟨?_, rfl, rfl, List.prefix_refl _, rfl⟩
  intro k live hlive _
  have hk : w.work.nextKey ≠ k := by
    rintro rfl
    rw [h.unknown_nextKey] at hlive
    cases hlive
  exact (Keyed.find?_insert ..).trans (by rw [if_neg hk]; exact hlive)

theorem sparesLive_entityFor (w : Workspace) (type : EntityType) (key : RecordKey) :
    w.SparesLive (w.entityFor type key).2 := by
  unfold entityFor
  split
  · exact .refl w
  · next r hr =>
    split
    · dsimp only
      split <;> exact .refl w
    · exact .refl w
    · next hnone _ =>
      split
      · exact .refl w
      · refine ⟨?_, rfl, rfl, List.prefix_append _ _, rfl⟩
        intro k live hlive hentity
        have hk : key ≠ k := by
          rintro rfl
          rw [hr] at hlive
          obtain rfl := Option.some.inj hlive
          rw [hnone] at hentity
          cases hentity
        exact (Keyed.find?_modify_of_ne _ hk
          (fun r => { r with entity := some w.shared.entities.length })).trans hlive

theorem ReadStep.sparesLive {D : Fields → Prop} (h : w.Consistent) (hstep : w.ReadStep D w') :
    w.SparesLive w' := by
  cases hstep with
  | warn warning => exact ⟨fun _ _ hr _ => hr, rfl, rfl, List.prefix_refl _, rfl⟩
  | markMissing id => exact ⟨fun _ _ hr _ => hr, rfl, rfl, List.prefix_refl _, rfl⟩
  | register document _ =>
    unfold Workspace.register
    dsimp only
    split
    · exact .refl w
    · split
      · exact sparesLive_refreshRecord w _ _ _
      · exact sparesLive_addLoaded h _ _ _
  | entityFor type key => exact sparesLive_entityFor w type key
  | detached type document =>
    unfold Workspace.detached
    dsimp only
    split
    · exact .refl w
    · exact ⟨fun _ _ hr _ => hr, rfl, rfl, List.prefix_append _ _, rfl⟩

/-! ## A whole read -/

theorem Reads.sparesLive {D : Fields → Prop} (h : w.Consistent) (hreads : w.Reads D w') :
    w.SparesLive w' := by
  induction hreads with
  | refl => exact .refl w
  | tail hbefore hstep ih => exact ih.trans (hstep.sparesLive (h.reads hbefore))

end Workspace

namespace OpenSession

variable {s : OpenSession}

/-- Reads never touch a live entity: whatever the server sends and however the operation ends, a
record that held an entity is the record it was, of the same instance, and every instance and every
dictionary is as the callbacks before the read left it. Without such callbacks, that is as it
was. -/
theorem reads_spare_live (h : s.Reachable) {operation : Operation}
    (hreading : Reading operation) :
    (∀ key r entity, s.session.work.records.find? key = some r → r.entity = some entity →
      (s.perform operation).session.work.records.find? key = some r
        ∧ (s.perform operation).session.work.registry.get? entity = some key
        ∧ (s.perform operation).session.work.isToDelete key = s.session.work.isToDelete key
        ∧ (s.perform operation).shared.entity entity = (s.asked operation).shared.entity entity)
      ∧ (∀ n, (s.perform operation).shared.dictionaries.content n
            = (s.asked operation).shared.dictionaries.content n
          ∧ (s.perform operation).shared.dictionaries.isDirty n
            = (s.asked operation).shared.dictionaries.isDirty n)
      ∧ (s.session.callbacks.beforeQuery = [] → (s.asked operation).shared = s.shared) := by
  have hasked := asked_consistent h.consistent operation
  have hreads := reads_perform (s := s) hreading
  have hafter := (hasked.reads hreads).workspace
  have hspares := Workspace.Reads.sparesLive hasked.workspace hreads.workspace
  have hwork : (s.asked operation).session.work = s.session.work := by rw [session_asked]
  refine ⟨?_, ?_, ?_⟩
  · intro key r entity hr hentity
    have hrecord : (s.asked operation).workspace.work.records.find? key = some r := by
      show (s.asked operation).session.work.records.find? key = some r
      rw [hwork]
      exact hr
    have hkept := hspares.record key r hrecord (by rw [hentity]; rfl)
    have hheld := (hafter.held entity key).mpr ⟨r, hkept, hentity⟩
    have hmade : entity < (s.asked operation).shared.entities.length :=
      hasked.workspace.known entity key
        ((hasked.workspace.held entity key).mpr ⟨r, hrecord, hentity⟩)
    refine ⟨hkept, hheld, ?_, Shared.entity_of_entities hspares.entities hmade⟩
    have hdeleted := hspares.deleted
    unfold UnitOfWork.isToDelete
    rw [← hwork]
    exact congrArg (Keyed.contains · key) hdeleted
  · intro n
    have hdictionaries : (s.perform operation).shared.dictionaries.unheld
        = (s.asked operation).shared.dictionaries.unheld := hspares.dictionaries
    constructor
    · rw [← Metadata.Forest.content_unheld, hdictionaries, Metadata.Forest.content_unheld]
    · rw [← Metadata.Forest.isDirty_unheld, hdictionaries, Metadata.Forest.isDirty_unheld]
  · intro hquiet
    unfold asked
    split
    all_goals first | exact shared_freeze_quiet hquiet _ | rfl

/-- A session against a server on which `users/1` changes with every request. -/
def changing : OpenSession where
  session := Session.new 1 {} {}
  shared := {}
  connection :=
    { server := fun sent =>
        let user := fun (id name version : String) => Json.obj
          [("@metadata", .obj [("@change-vector", .str version), ("@id", .str id)]),
           ("Name", .str name)]
        if sent.length = 1 then .ok (.ok (.obj [("Results", .arr [user "users/1" "Al" "A:1"])]))
        else
          .ok (.ok (.obj
            [("Includes", .obj [("users/1", user "users/1" "Bob" "A:2")]),
             ("Results", .arr [user "users/2" "Eve" "A:3"])])) }
  deliveries := {}

/-- `changing` after `users/1` was loaded and its instance edited. -/
def changingEdited : OpenSession :=
  let loaded := changing.perform (.load Shop.anything "users/1" [])
  loaded.perform (.outside
    { loaded.shared with
      entities := [{ type := Shop.anything, state := .obj [("Name", .str "Ann")] }] }
    loaded.connection loaded.deliveries)

/-- A load that includes the newer document keeps the edited instance and its record. -/
theorem reads_spare_live_include :
    let load := Operation.load Shop.anything "users/2" ["users/1"]
    let s := changingEdited.perform load
    Reading load
      ∧ (s.session.work.records.find? 0).map (fun r => (r.changeVector, r.body))
          = some (some "A:1", some [("Name", .str "Al")])
      ∧ (s.shared.entity 0).state = .obj [("Name", .str "Ann")]
      ∧ s.connection.sent.length = 2 := by
  have hreachable : changingEdited.Reachable := by
    refine .step (.outside _ _ _) (.step (.load Shop.anything "users/1" [])
      (.opened 1 {} {} _ _ _) trivial) ?_
    exact Nat.le_refl 1
  have hreading : Reading (.load Shop.anything "users/2" ["users/1"]) := trivial
  have hspared := reads_spare_live hreachable hreading
  obtain ⟨r, hr, hentity, hseen⟩ : ∃ r, changingEdited.session.work.records.find? 0 = some r
      ∧ r.entity = some 0 ∧ (r.changeVector, r.body) = (some "A:1", some [("Name", .str "Al")]) :=
    ⟨_, rfl, by decide +kernel, by decide +kernel⟩
  obtain ⟨hkept, -, -, hstate⟩ := hspared.1 0 r 0 hr hentity
  refine ⟨hreading, ?_, ?_, by decide +kernel⟩
  · rw [hkept, Option.map_some, hseen]
  · rw [hstate]
    decide +kernel

end OpenSession

end DocumentSession
