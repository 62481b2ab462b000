import DocumentSession.Proofs.Reachable

set_option autoImplicit false

/-! # Refused operations

`store`, `delete`, `defer` and `ignoreChanges` send no request, and may be refused. What is refused
leaves the session as it was, for every reason to refuse is tested before anything is changed.

The exception is `deleteId`: it forgets the record of the document and adds the identifier to
`missing` before it defers the DELETE, and `defer` refuses a second DELETE for the document. So the
second of two deletions is refused, and the document is forgotten all the same
(`Workspace.ForgetsFirst`, `OpenSession.refused_affects_nothing_iff`). -/

namespace DocumentSession

open Identifier (normalize)

namespace Workspace

variable {w w' : Workspace} {e : Error}

/-! ## Refusals before any change -/

theorem storeAgain_of_error {key : RecordKey} {r : Record} {id version : Option String}
    {check : VersionCheck} (h : w.storeAgain key r id version check = (.error e, w')) : w' = w := by
  unfold storeAgain at h
  split at h
  · exact (Prod.mk.inj h).2.symm
  · split at h
    · exact (Prod.mk.inj h).2.symm
    · cases (Prod.mk.inj h).1

theorem store_of_error {entity : EntityRef} {id version : Option String} {check : VersionCheck}
    (h : w.store entity id version check = (.error e, w')) : w' = w := by
  unfold store at h
  split at h
  · exact (Prod.mk.inj h).2.symm
  · split at h
    · exact storeAgain_of_error h
    · dsimp only at h
      split at h
      · exact (Prod.mk.inj h).2.symm
      · split at h
        · cases (Prod.mk.inj h).1
        · split at h
          · exact (Prod.mk.inj h).2.symm
          · cases (Prod.mk.inj h).1

theorem delete_of_error {entity : EntityRef} (h : w.delete entity = (.error e, w')) : w' = w := by
  unfold delete at h
  split at h
  · exact (Prod.mk.inj h).2.symm
  · split at h <;> cases (Prod.mk.inj h).1

theorem defer_of_error {commands : List Command} (h : w.defer commands = (.error e, w')) :
    w' = w := by
  unfold defer at h
  split at h
  · exact (Prod.mk.inj h).2.symm
  · cases (Prod.mk.inj h).1

theorem ignoreChanges_of_error {entity : EntityRef}
    (h : w.ignoreChanges entity = (.error e, w')) : w' = w := by
  unfold ignoreChanges at h
  split at h
  · exact (Prod.mk.inj h).2.symm
  · cases (Prod.mk.inj h).1

/-! ## `deleteId` -/

/-- A DELETE for the document `id` is in `deferred`. -/
def DeletionWaits (w : Workspace) (id : String) : Prop :=
  (CommandKind.delete, normalize id) ∈ w.work.deferred.map Command.dedupKey

/-- `w` without the record of `id`, and with `id` in `missing`. -/
def forget (w : Workspace) (id : String) : Workspace :=
  ((w.work.recordForId? id).elim w (fun found => (w.removeRecord found.1).2)).markMissing id

/-- `deleteId` is refused for the DELETE that is deferred already, but only after it forgot
something: the record of `id`, or that `id` is not `missing`. -/
structure ForgetsFirst (w : Workspace) (id : String) : Prop where
  named : id ≠ ""
  /-- The entity of the record has not changed. -/
  unchanged : ∀ key r, w.work.recordForId? id = some (key, r) → w.entityChanged r = .ok false
  waits : w.DeletionWaits id
  known : (w.work.recordForId? id).isSome = true ∨ w.work.missing.contains id = false

/-- `defer` of one command is refused if and only if one of its kind is deferred for the document
already. -/
theorem defer_singleton (w : Workspace) (c : Command) :
    w.defer [c] = if c.dedupKey ∈ w.work.deferred.map Command.dedupKey then
        (.error (alreadyDeferred c), w)
      else (.ok (), { w with work := { w.work with deferred := w.work.deferred ++ [c] } }) := by
  unfold defer firstClash
  by_cases hclash : c.dedupKey ∈ w.work.deferred.map Command.dedupKey
  · rw [if_pos hclash, if_pos hclash]
  · rw [if_neg hclash, if_neg hclash]
    rfl

theorem deferred_removeRecord (w : Workspace) (key : RecordKey) :
    (w.removeRecord key).2.work.deferred = w.work.deferred := by
  unfold removeRecord
  split <;> rfl

/-- `deferDelete` adds the identifier to `missing` before it defers. -/
theorem deferDelete_eq (w : Workspace) (id : String) (given tracked : Option String) :
    ∃ c : Command, c.dedupKey = (.delete, normalize id)
      ∧ w.deferDelete id given tracked = (w.markMissing id).defer [c] :=
  ⟨_, rfl, rfl⟩

theorem deferDelete_of_error {id : String} {given tracked : Option String}
    (h : w.deferDelete id given tracked = (.error e, w')) :
    w.DeletionWaits id ∧ w' = w.markMissing id := by
  obtain ⟨c, hkey, hdefer⟩ := w.deferDelete_eq id given tracked
  rw [hdefer, defer_singleton, hkey] at h
  split at h
  · next hwaits => exact ⟨hwaits, (Prod.mk.inj h).2.symm⟩
  · cases (Prod.mk.inj h).1

theorem deferDelete_of_waits {id : String} (hwaits : w.DeletionWaits id)
    (given tracked : Option String) : (w.deferDelete id given tracked).2 = w.markMissing id := by
  obtain ⟨c, hkey, hdefer⟩ := w.deferDelete_eq id given tracked
  rw [hdefer, defer_singleton, hkey]
  exact congrArg Prod.snd (if_pos hwaits)

/-- After `deleteId` is refused, nothing has changed or the document is forgotten. -/
theorem deleteId_of_error {id : String} {version : Option String}
    (h : w.deleteId id version = (.error e, w')) :
    w' = w ∨ (w' = w.forget id ∧ id ≠ "" ∧ w.DeletionWaits id
      ∧ ∀ key r, w.work.recordForId? id = some (key, r) → w.entityChanged r = .ok false) := by
  unfold deleteId at h
  split at h
  · exact Or.inl (Prod.mk.inj h).2.symm
  · next hnamed =>
    split at h
    · next hnone =>
      obtain ⟨hwaits, rfl⟩ := deferDelete_of_error h
      refine Or.inr ⟨?_, hnamed, hwaits, ?_⟩
      · unfold forget
        rw [hnone]
        rfl
      · intro key r hfound
        rw [hnone] at hfound
        cases hfound
    · next key r hfound =>
      split at h
      · exact Or.inl (Prod.mk.inj h).2.symm
      · exact Or.inl (Prod.mk.inj h).2.symm
      · next hunchanged =>
        obtain ⟨hwaits, rfl⟩ := deferDelete_of_error h
        unfold DeletionWaits at hwaits
        rw [deferred_removeRecord] at hwaits
        refine Or.inr ⟨?_, hnamed, hwaits, ?_⟩
        · unfold forget
          rw [hfound]
          rfl
        · intro key' r' hfound'
          rw [hfound] at hfound'
          obtain ⟨rfl, rfl⟩ := Prod.mk.inj (Option.some.inj hfound')
          exact hunchanged

/-- Where nothing but a deferred DELETE stands against `deleteId`, the document is forgotten. -/
theorem ForgetsFirst.deleteId {id : String} (h : w.ForgetsFirst id) (version : Option String) :
    (w.deleteId id version).2 = w.forget id := by
  unfold Workspace.deleteId forget
  rw [if_neg h.named]
  cases hfound : w.work.recordForId? id with
  | none => exact deferDelete_of_waits h.waits version none
  | some found =>
    obtain ⟨key, r⟩ := found
    have hwaits : (w.removeRecord key).2.DeletionWaits id := by
      unfold DeletionWaits
      rw [deferred_removeRecord]
      exact h.waits
    dsimp only
    rw [h.unchanged key r hfound]
    exact deferDelete_of_waits hwaits version r.changeVector

end Workspace

namespace OpenSession

variable {s s' : OpenSession}

/-- An operation that sends no request is refused. -/
inductive Refuses (s : OpenSession) : Operation → Error → Prop where
  | store {entity : EntityRef} {e : Error} (h : (s.store entity).1 = .error e) :
    Refuses s (.store entity) e
  | storeUnder {entity : EntityRef} {id : String} {e : Error}
    (h : (s.storeUnder entity id).1 = .error e) : Refuses s (.storeUnder entity id) e
  | storeOver {entity : EntityRef} {id : String} {version : Option String} {e : Error}
    (h : (s.storeOver entity id version).1 = .error e) : Refuses s (.storeOver entity id version) e
  | delete {entity : EntityRef} {e : Error} (h : (s.delete entity).1 = .error e) :
    Refuses s (.delete entity) e
  | deleteId {id : String} {version : Option String} {e : Error}
    (h : (s.deleteId id version).1 = .error e) : Refuses s (.deleteId id version) e
  | defer {commands : List Command} {e : Error} (h : (s.defer commands).1 = .error e) :
    Refuses s (.defer commands) e
  | ignoreChanges {entity : EntityRef} {e : Error} (h : (s.ignoreChanges entity).1 = .error e) :
    Refuses s (.ignoreChanges entity) e

/-- The session has the same indexes and pending work, and every instance is as before. -/
structure Unaffected (s s' : OpenSession) : Prop where
  records : s'.session.work.records = s.session.work.records
  identities : s'.session.work.identities = s.session.work.identities
  registry : s'.session.work.registry = s.session.work.registry
  missing : ∀ id, s'.session.work.missing.contains id = s.session.work.missing.contains id
  deleted : s'.session.work.deleted = s.session.work.deleted
  deferred : s'.session.work.deferred = s.session.work.deferred
  entities : s'.shared.entities = s.shared.entities

theorem Unaffected.refl (s : OpenSession) : s.Unaffected s :=
  ⟨rfl, rfl, rfl, fun _ => rfl, rfl, rfl, rfl⟩

/-- Work that keeps the workspace when it is refused keeps the session. -/
theorem locally_of_error {α : Type} {f : Workspace → Except Error α × Workspace} {e : Error}
    (hf : ∀ w', f s.workspace = (.error e, w') → w' = s.workspace)
    (h : (s.locally f).1 = .error e) : (s.locally f).2 = s := by
  have hworkspace : (f s.workspace).2 = s.workspace := hf _ (Prod.ext h rfl)
  unfold locally
  dsimp only
  rw [hworkspace]
  rfl

/-- A session that forgets a document is affected. -/
theorem not_unaffected_forget {id : String} (h : s.workspace.ForgetsFirst id) :
    ¬ s.Unaffected (s.withWorkspace (s.workspace.forget id)) := by
  intro hsame
  have hmissing : (s.workspace.forget id).work.missing.contains id = true := by
    unfold Workspace.forget
    exact (KnownMissing.contains_insert ..).trans (by simp)
  rcases h.known with hrecord | hunknown
  · obtain ⟨⟨key, r⟩, hfound⟩ := Option.isSome_iff_exists.mp hrecord
    obtain ⟨-, hr⟩ := UnitOfWork.recordForId?_eq_some_iff.mp hfound
    have hgone : (s.workspace.forget id).work.records.find? key = none := by
      unfold Workspace.forget Workspace.removeRecord
      rw [hfound]
      dsimp only [Option.elim_some]
      rw [hr]
      exact (Keyed.find?_erase ..).trans (if_pos rfl)
    have hkept : (s.workspace.forget id).work.records.find? key = some r := by
      rw [show (s.workspace.forget id).work.records = s.workspace.work.records from hsame.records]
      exact hr
    rw [hgone] at hkept
    cases hkept
  · have hkept : (s.workspace.forget id).work.missing.contains id = false :=
      (hsame.missing id).trans hunknown
    rw [hmissing] at hkept
    cases hkept

/-- Where no record has the identifier, and it is `missing`, `forget` affects nothing. -/
theorem unaffected_forget {id : String} (hnone : s.workspace.work.recordForId? id = none)
    (hmissing : s.workspace.work.missing.contains id = true) :
    s.Unaffected (s.withWorkspace (s.workspace.forget id)) := by
  have hforget : s.workspace.forget id = s.workspace.markMissing id := by
    unfold Workspace.forget
    rw [hnone]
    rfl
  rw [hforget]
  refine ⟨rfl, rfl, rfl, ?_, rfl, rfl, rfl⟩
  intro id'
  refine (KnownMissing.contains_insert ..).trans ?_
  by_cases hid : normalize id = normalize id'
  · have hmissing' : s.session.work.missing.contains id' = true := by
      unfold KnownMissing.contains at hmissing ⊢
      rw [← hid]
      exact hmissing
    simp [hid, hmissing']
  · simp [hid]
    rfl

/-- Whatever is refused affects nothing, except that of two calls of `deleteId` the second one,
which is refused because the first is still deferred, has forgotten the record of the document and
added its identifier to `missing`. -/
theorem refused_affects_nothing_iff {operation : Operation} {e : Error}
    (h : s.Refuses operation e) :
    (s.Unaffected (s.perform operation)
        ↔ ¬ ∃ id version, operation = .deleteId id version ∧ s.workspace.ForgetsFirst id)
      ∧ ∀ id version, operation = .deleteId id version → s.workspace.ForgetsFirst id →
        s.perform operation = s.withWorkspace (s.workspace.forget id) := by
  have hforgets : ∀ id version, operation = .deleteId id version → s.workspace.ForgetsFirst id →
      s.perform operation = s.withWorkspace (s.workspace.forget id) := by
    rintro id version rfl hfirst
    exact congrArg s.withWorkspace (hfirst.deleteId version)
  refine ⟨⟨?_, ?_⟩, hforgets⟩
  · rintro hsame ⟨id, version, hoperation, hfirst⟩
    rw [hforgets id version hoperation hfirst] at hsame
    exact not_unaffected_forget hfirst hsame
  · intro hnot
    have hsame : s.perform operation = s → s.Unaffected (s.perform operation) := by
      intro heq
      rw [heq]
      exact .refl s
    cases h with
    | store h => exact hsame (locally_of_error (fun _ => Workspace.store_of_error) h)
    | storeUnder h => exact hsame (locally_of_error (fun _ => Workspace.store_of_error) h)
    | storeOver h => exact hsame (locally_of_error (fun _ => Workspace.store_of_error) h)
    | delete h => exact hsame (locally_of_error (fun _ => Workspace.delete_of_error) h)
    | defer h => exact hsame (locally_of_error (fun _ => Workspace.defer_of_error) h)
    | ignoreChanges h =>
      exact hsame (locally_of_error (fun _ => Workspace.ignoreChanges_of_error) h)
    | @deleteId id version e h =>
      have hrefused : s.workspace.deleteId id version
          = (.error e, (s.workspace.deleteId id version).2) := Prod.ext h rfl
      rcases Workspace.deleteId_of_error hrefused with heq | ⟨heq, hnamed, hwaits, hunchanged⟩
      · exact hsame (congrArg s.withWorkspace heq)
      · -- nothing stood against the deletion, so nothing was known of the document
        have hunknown : ¬ ((s.workspace.work.recordForId? id).isSome = true
            ∨ s.workspace.work.missing.contains id = false) :=
          fun hknown => hnot ⟨id, version, rfl, hnamed, hunchanged, hwaits, hknown⟩
        rw [not_or, Bool.not_eq_true, Option.isSome_eq_false_iff, Option.isNone_iff_eq_none,
          Bool.not_eq_false] at hunknown
        have hforgotten : s.perform (.deleteId id version)
            = s.withWorkspace (s.workspace.forget id) := congrArg s.withWorkspace heq
        rw [hforgotten]
        exact unaffected_forget hunknown.1 hunknown.2

/-- A session that has loaded a user while a DELETE of that user is deferred. -/
def deletionWaiting : OpenSession :=
  let opened : OpenSession :=
    { session := Session.new 1 {} {}
      shared := {}
      connection :=
        { server := fun _ => .ok (.ok (.obj [("Results", .arr [.obj
            [("@metadata", .obj [("@id", .str "users/1")]), ("Name", .str "Al")]])])) }
      deliveries := {} }
  (opened.perform (.load Shop.anything "users/1" [])).perform
    (.defer [{ id := "users/1", action := .delete }])

/-- `defer` of two DELETE commands is refused for the first of them and affects nothing. `deleteId`
is refused as well, but forgets the user. -/
theorem refused_affects_nothing_iff_twice :
    let deletions : Operation :=
      .defer [{ id := "USERS/1", action := .delete }, { id := "users/2", action := .delete }]
    (∃ e, deletionWaiting.Refuses deletions e)
      ∧ deletionWaiting.Unaffected (deletionWaiting.perform deletions)
      ∧ (∃ e, deletionWaiting.Refuses (.deleteId "USERS/1" none) e)
      ∧ ¬ deletionWaiting.Unaffected (deletionWaiting.perform (.deleteId "USERS/1" none)) := by
  intro deletions
  have hdeletions : deletionWaiting.Refuses deletions
      (Workspace.alreadyDeferred { id := "USERS/1", action := .delete }) :=
    .defer (by decide +kernel)
  have hdelete : deletionWaiting.Refuses (.deleteId "USERS/1" none)
      (Workspace.alreadyDeferred { id := "USERS/1", action := .delete }) :=
    .deleteId (by decide +kernel)
  have hfirst : deletionWaiting.workspace.ForgetsFirst "USERS/1" := by
    refine ⟨by decide, ?_, by unfold Workspace.DeletionWaits; decide +kernel,
      Or.inl (by decide +kernel)⟩
    intro key r hfound
    have huser : (deletionWaiting.workspace.work.recordForId? "USERS/1").map
        (fun found => deletionWaiting.workspace.entityChanged found.2) = some (.ok false) := by
      decide +kernel
    rw [hfound] at huser
    exact Option.some.inj huser
  refine ⟨⟨_, hdeletions⟩, (refused_affects_nothing_iff hdeletions).1.mpr ?_, ⟨_, hdelete⟩, ?_⟩
  · rintro ⟨id, version, hother, -⟩
    exact Operation.noConfusion hother
  · intro hsame
    exact (refused_affects_nothing_iff hdelete).1.mp hsame ⟨_, _, rfl, hfirst⟩

/-- A user whose DELETE is deferred is forgotten by a refused `deleteId`, and `missing` from then
on. -/
theorem refused_deletion_forgets :
    (deletionWaiting.deleteId "users/1" none).1
        = .error (Workspace.alreadyDeferred { id := "users/1", action := .delete })
      ∧ (deletionWaiting.session.work.records.keys,
          deletionWaiting.session.work.isDeleted "users/1") = ([0], false)
      ∧ ((deletionWaiting.deleteId "users/1" none).2.session.work.records.keys,
          (deletionWaiting.deleteId "users/1" none).2.session.work.isDeleted "users/1")
        = ([], true) := by
  decide +kernel

end OpenSession

end DocumentSession
