import DocumentSession.Proofs.Identifier
import DocumentSession.Proofs.PendingWork
import DocumentSession.Entity.Shop
import Mathlib.Data.List.Sort

set_option autoImplicit false

/-! # A plan is exactly the pending work

Without callbacks a plan has one DELETE for each record in `deleted`, one PUT for each record whose
entity has to be written, both in the order of the records and only if no command is deferred for
the document, and then every deferred command in order. Nothing is missing, and no two commands have
kind and identifier in common, unless they are PUTs under incomplete identifiers, which the server
completes (`OpenSession.plan_exact`). -/

namespace DocumentSession

open Identifier (normalize isIncomplete)

/-! ## Sorted keys -/

/-- Filtering a sorted list of keys gives the same as filtering a longer one, if the filter drops
all others. -/
theorem filterMap_eq_of_sorted {β : Type} {keys all : List Nat} (hkeys : keys.Pairwise (· < ·))
    (hall : all.Pairwise (· < ·)) (hmem : ∀ key ∈ keys, key ∈ all) {f : Nat → Option β}
    (hnone : ∀ key ∈ all, key ∉ keys → f key = none) : keys.filterMap f = all.filterMap f := by
  have hfilter : keys = all.filter (fun key => key ∈ keys) := by
    refine hkeys.eq_of_mem_iff (hall.sublist List.filter_sublist) ?_
    intro key
    simp only [List.mem_filter, decide_eq_true_eq]
    exact ⟨fun h => ⟨hmem key h, h⟩, fun h => h.2⟩
  conv_lhs => rw [hfilter]
  rw [List.filterMap_filter]
  apply List.filterMap_congr
  intro key hkey
  split
  · rfl
  · next hnot => exact (hnone key hkey (by simpa using hnot)).symm

namespace Registry

theorem sorted_insertInOrder (key : RecordKey) {keys : List RecordKey}
    (h : keys.Pairwise (· ≤ ·)) : (insertInOrder key keys).Pairwise (· ≤ ·) := by
  induction keys with
  | nil => exact List.pairwise_singleton ..
  | cons k rest ih =>
    obtain ⟨hk, hrest⟩ := List.pairwise_cons.mp h
    rw [insertInOrder]
    split
    · next hle =>
      refine List.pairwise_cons.mpr ⟨?_, h⟩
      intro k' hk'
      rcases List.mem_cons.mp hk' with rfl | hmem
      · exact hle
      · exact Nat.le_trans hle (hk k' hmem)
    · next hlt =>
      refine List.pairwise_cons.mpr ⟨?_, ih hrest⟩
      intro k' hk'
      rcases List.mem_cons.mp ((insertInOrder_perm key rest).mem_iff.mp hk') with rfl | hmem
      · exact Nat.le_of_not_le hlt
      · exact hk k' hmem

/-- The records of the registry are sorted. -/
theorem sorted_records (r : Registry) : r.records.Pairwise (· ≤ ·) := by
  unfold records
  induction r.entries.map (·.2) with
  | nil => exact .nil
  | cons key rest ih => exact sorted_insertInOrder key ih

end Registry

namespace Workspace

variable {w : Workspace}

/-! ## Due commands -/

/-- The DELETE of a record, if it is due: the record is in `deleted`, and no command is deferred for
its document. -/
def dueDelete (w : Workspace) (key : RecordKey) (r : Record) : Option Planned :=
  if w.work.isToDelete key && !w.work.hasDeferred r.id then
    some
      { command :=
          { id := r.id, action := .delete
            changeVector := versionToDelete w.work.conventions r }
        origin := .delete key }
  else none

/-- Whether an entity with the given `body` has to be written: it is new, its metadata is dirty, or
the record has no body or another one. -/
def isUnsaved (w : Workspace) (r : Record) (body : Fields) : Bool :=
  r.isNew || r.dictionary.any w.shared.dictionaries.isDirty || r.body.isNone
    || r.body.any (fun old => Change.any old body)

/-- The PUT of a record, if it is due: the record is neither in `deleted` nor ignored, no command is
deferred for its document, and its entity `isUnsaved`. Its document is the body of the entity with
the last known metadata, overlaid by what the dictionary shows. -/
def duePut (w : Workspace) (key : RecordKey) (r : Record) : Option Planned :=
  if w.work.isToDelete key || r.ignoreChanges || w.work.hasDeferred r.id then none
  else do
    let entity ← r.entity
    let body ← (w.bodyOf entity).toOption
    let metadata := Dict.overlay r.metadata (r.shownMetadata w.shared.dictionaries)
    if w.isUnsaved r body then
      some
        { command :=
            { id := r.id, action := .put (Keyed.insert body Metadata.key (.obj metadata))
              changeVector := versionToPut w.work.conventions r }
          origin := .put key body metadata }
    else none

/-- The document of a PUT that is due: under `@metadata` the last known metadata, overlaid by what
the dictionary shows, and otherwise the members of the entity but for the identity property. -/
theorem find?_of_duePut {key : RecordKey} {r : Record} {planned : Planned}
    (hdue : w.duePut key r = some planned) :
    ∃ entity members document, r.entity = some entity
      ∧ (w.shared.entity entity).state = .obj members
      ∧ planned.command.action = .put document
      ∧ ∀ name, Keyed.find? document name
        = if name = Metadata.key then
            some (.obj (Dict.overlay r.metadata (r.shownMetadata w.shared.dictionaries)))
          else if name = w.work.conventions.identityProperty then none
          else Keyed.find? members name := by
  unfold duePut at hdue
  split at hdue
  · cases hdue
  · obtain ⟨entity, hentity, hdue⟩ := Option.bind_eq_some_iff.mp hdue
    obtain ⟨body, hbody, hdue⟩ := Option.bind_eq_some_iff.mp hdue
    dsimp only at hdue
    split at hdue
    · obtain rfl := Option.some.inj hdue
      have hwritten : w.bodyOf entity = .ok body := Except.eq_ok_of_toOption hbody
      obtain ⟨members, hstate, hfound⟩ := find?_toBody hwritten
      refine ⟨entity, members, _, hentity, hstate, rfl, fun name => ?_⟩
      rw [Keyed.find?_insert, hfound]
      by_cases hmetadata : Metadata.key = name
      · rw [if_pos hmetadata, if_pos hmetadata.symm]
      · rw [if_neg hmetadata, if_neg (Ne.symm hmetadata)]
        simp only [Ne.symm hmetadata, false_or]
    · cases hdue

theorem mustWrite_eq_isUnsaved (w : Workspace) (r : Record) (body : Fields) :
    w.mustWrite r body = w.isUnsaved r body := by
  unfold mustWrite isUnsaved Record.isMetadataDirty Record.bodyDiffers
  cases r.body <;> simp

/-! ## The plan consists of the due commands -/

theorem plannedDelete_eq_dueDelete {key : RecordKey} {r : Record}
    (hr : w.work.records.find? key = some r) (hdelete : w.work.isToDelete key = true) :
    w.plannedDelete key = w.dueDelete key r := by
  unfold plannedDelete dueDelete
  rw [hr, hdelete]
  cases hfree : w.work.hasDeferred r.id <;> simp [hfree]

theorem pendingPut_eq_duePut {key : RecordKey} {r : Record} {planned : Option Planned}
    (hr : w.work.records.find? key = some r) (hput : w.pendingPut key = .ok planned) :
    planned = w.duePut key r := by
  unfold pendingPut at hput
  unfold duePut
  rw [hr] at hput
  dsimp only at hput
  cases hentity : r.entity with
  | none =>
    rw [hentity] at hput
    obtain rfl := Except.ok.inj hput
    split <;> rfl
  | some entity =>
    rw [hentity] at hput
    dsimp only at hput
    split at hput
    · next hleft =>
      obtain rfl := Except.ok.inj hput
      rw [if_pos hleft]
    · next hdue =>
      rw [if_neg hdue]
      cases hbody : w.bodyOf entity with
      | error e =>
        rw [hbody] at hput
        cases hput
      | ok body =>
        rw [hbody] at hput
        obtain rfl := Except.ok.inj hput
        simp only [mustWrite_eq_isUnsaved, Option.bind_eq_bind, Option.bind_some, hbody]
        rfl

/-- If `pendingPuts` succeeds, so does `pendingPut` for each key, and the PUTs are those that are
due. -/
theorem pendingPuts_eq_ok {keys : List RecordKey} {puts : Plan}
    (hputs : w.pendingPuts keys = .ok puts) :
    (∀ key ∈ keys, ∃ planned, w.pendingPut key = .ok planned)
      ∧ puts = keys.filterMap (fun key => (w.work.records.find? key).bind (w.duePut key)) := by
  induction keys generalizing puts with
  | nil =>
    obtain rfl := Except.ok.inj hputs
    exact ⟨by simp, rfl⟩
  | cons key rest ih =>
    rw [pendingPuts] at hputs
    cases hfirst : w.pendingPut key with
    | error e =>
      rw [hfirst] at hputs
      cases hputs
    | ok planned =>
      rw [hfirst] at hputs
      dsimp only at hputs
      cases hrest : w.pendingPuts rest with
      | error e =>
        rw [hrest] at hputs
        cases hputs
      | ok others =>
        rw [hrest] at hputs
        obtain rfl := Except.ok.inj hputs
        obtain ⟨hwritable, hothers⟩ := ih hrest
        refine ⟨?_, ?_⟩
        · intro k hk
          rcases List.mem_cons.mp hk with rfl | hk
          · exact ⟨planned, hfirst⟩
          · exact hwritable k hk
        · have hplanned : planned = (w.work.records.find? key).bind (w.duePut key) := by
            cases hr : w.work.records.find? key with
            | none =>
              unfold pendingPut at hfirst
              rw [hr] at hfirst
              exact (Except.ok.inj hfirst).symm
            | some r => exact pendingPut_eq_duePut hr hfirst
          rw [List.filterMap_cons, ← hplanned, ← hothers]
          cases planned <;> rfl

/-- Looking sorted keys up, where all others are dropped, is a walk through the sorted table. -/
theorem filterMap_find?_eq {β : Type} {t : Table Record} (ht : t.Sorted) {keys : List RecordKey}
    (hkeys : keys.Pairwise (· < ·)) (hmem : ∀ key ∈ keys, key ∈ t.keys)
    {f : RecordKey → Record → Option β}
    (hnone : ∀ key r, t.find? key = some r → key ∉ keys → f key r = none) :
    keys.filterMap (fun key => (t.find? key).bind (f key))
      = t.filterMap (fun entry => f entry.1 entry.2) := by
  rw [filterMap_eq_of_sorted hkeys ht hmem]
  · rw [Keyed.keys, List.filterMap_map]
    apply List.filterMap_congr
    rintro ⟨key, r⟩ hentry
    exact congrArg (Option.bind · (f key)) (Keyed.find?_of_mem ht hentry)
  · intro key _ hnot
    cases hr : t.find? key with
    | none => rfl
    | some r => exact hnone key r hr hnot

/-- The DELETEs of a plan are those that are due, for every record in `deleted` exists. -/
theorem plannedDeletes_eq (h : w.Consistent) :
    w.work.deleted.keys.filterMap w.plannedDelete
      = w.work.records.filterMap (fun entry => w.dueDelete entry.1 entry.2) := by
  have hdeletable : ∀ key ∈ w.work.deleted.keys, w.work.isToDelete key = true
      ∧ ∃ r, w.work.records.find? key = some r := by
    intro key hkey
    have hdelete : w.work.isToDelete key = true := Keyed.contains_iff_mem_keys.mpr hkey
    obtain ⟨r, hr, -⟩ := h.deletable key hdelete
    exact ⟨hdelete, r, hr⟩
  have hlookup : w.work.deleted.keys.filterMap w.plannedDelete
      = w.work.deleted.keys.filterMap
        (fun key => (w.work.records.find? key).bind (w.dueDelete key)) := by
    apply List.filterMap_congr
    intro key hkey
    obtain ⟨hdelete, r, hr⟩ := hdeletable key hkey
    rw [plannedDelete_eq_dueDelete hr hdelete, hr]
    rfl
  rw [hlookup]
  refine filterMap_find?_eq h.records_sorted h.deleted_sorted ?_ ?_
  · intro key hkey
    exact Keyed.contains_iff_mem_keys.mp ((Keyed.contains_iff _ _).mpr (hdeletable key hkey).2)
  · intro key r hr hnot
    have hkept : w.work.isToDelete key = false := by
      rw [← Bool.not_eq_true]
      exact fun hdelete => hnot (Keyed.contains_iff_mem_keys.mp hdelete)
    unfold dueDelete
    rw [hkept]
    rfl

/-- The PUTs for the registry are those that are due, for every record that holds an entity is
registered. -/
theorem duePuts_eq (h : w.Consistent) :
    w.work.registry.records.filterMap (fun key => (w.work.records.find? key).bind (w.duePut key))
      = w.work.records.filterMap (fun entry => w.duePut entry.1 entry.2) := by
  have hstrict : w.work.registry.records.Pairwise (· < ·) :=
    (w.work.registry.sorted_records.and h.nodup_records).imp
      fun hboth => Nat.lt_of_le_of_ne hboth.1 hboth.2
  refine filterMap_find?_eq h.records_sorted hstrict ?_ ?_
  · intro key hkey
    obtain ⟨entity, hget⟩ := (Registry.mem_records h.registry_sorted).mp hkey
    obtain ⟨r, hr, -⟩ := (h.held entity key).mp hget
    exact Keyed.contains_iff_mem_keys.mp ((Keyed.contains_iff _ _).mpr ⟨r, hr⟩)
  · intro key r hr hnot
    have hnone : r.entity = none := by
      cases hentity : r.entity with
      | none => rfl
      | some entity =>
        exact absurd ((Registry.mem_records h.registry_sorted).mpr
          ⟨entity, (h.held entity key).mpr ⟨r, hr, hentity⟩⟩) hnot
    unfold duePut
    rw [hnone]
    split <;> rfl

/-- `pendingPlan` consists of the due DELETEs, the due PUTs and the deferred commands, in the order
of the records. -/
theorem pendingPlan_eq_ok (h : w.Consistent) {plan : Plan} (hplan : w.pendingPlan = .ok plan) :
    plan = w.work.records.filterMap (fun entry => w.dueDelete entry.1 entry.2)
        ++ w.work.records.filterMap (fun entry => w.duePut entry.1 entry.2)
        ++ w.work.deferred.map plannedDeferred
      ∧ ∀ key r entity, w.Considers key r entity → ∃ body, w.bodyOf entity = .ok body := by
  unfold pendingPlan at hplan
  cases hputs : w.pendingPuts w.work.registry.records with
  | error e =>
    rw [hputs] at hplan
    cases hplan
  | ok puts =>
    rw [hputs] at hplan
    obtain rfl := Except.ok.inj hplan
    obtain ⟨hwritable, hdue⟩ := pendingPuts_eq_ok hputs
    refine ⟨by rw [plannedDeletes_eq h, ← duePuts_eq h, hdue], ?_⟩
    intro key r entity hconsiders
    obtain ⟨planned, hput⟩ := hwritable key (hconsiders.mem_records h)
    rw [pendingPut_of_considers hconsiders] at hput
    cases hbody : w.bodyOf entity with
    | error e =>
      rw [hbody] at hput
      cases hput
    | ok body => exact ⟨body, rfl⟩

/-! ## No command twice -/

/-- If two commands have kind and identifier in common, they are PUTs, one of them is under an
incomplete identifier, and both are if the separator has no case. -/
def OnlyAwaiting (separator : Char) (x y : Planned) : Prop :=
  x.command.dedupKey = y.command.dedupKey →
    x.command.kind = .put ∧ y.command.kind = .put
      ∧ (isIncomplete x.command.id separator = true ∨ isIncomplete y.command.id separator = true)
      ∧ (Text.Caseless separator →
          isIncomplete x.command.id separator = true ∧ isIncomplete y.command.id separator = true)

/-- Since `'/'` has no case, two such commands are both under incomplete identifiers. -/
theorem OnlyAwaiting.incomplete_of_slash {x y : Planned} (h : OnlyAwaiting '/' x y)
    (hsame : x.command.dedupKey = y.command.dedupKey) :
    isIncomplete x.command.id '/' = true ∧ isIncomplete y.command.id '/' = true :=
  (h hsame).2.2.2 Text.caseless_slash

theorem dueDelete_eq_some {key : RecordKey} {r : Record} {planned : Planned}
    (hdue : w.dueDelete key r = some planned) :
    w.work.isToDelete key = true ∧ w.work.hasDeferred r.id = false
      ∧ planned.command.id = r.id ∧ planned.command.kind = .delete := by
  unfold dueDelete at hdue
  split at hdue
  · next hboth =>
    rw [Bool.and_eq_true, Bool.not_eq_true'] at hboth
    obtain rfl := Option.some.inj hdue
    exact ⟨hboth.1, hboth.2, rfl, rfl⟩
  · cases hdue

theorem duePut_eq_some {key : RecordKey} {r : Record} {planned : Planned}
    (hdue : w.duePut key r = some planned) :
    w.work.isToDelete key = false ∧ w.work.hasDeferred r.id = false
      ∧ planned.command.id = r.id ∧ planned.command.kind = .put := by
  unfold duePut at hdue
  split at hdue
  · cases hdue
  · next hleft =>
    simp only [Bool.or_eq_true, not_or, Bool.not_eq_true] at hleft
    obtain ⟨entity, -, hdue⟩ := Option.bind_eq_some_iff.mp hdue
    obtain ⟨body, -, hdue⟩ := Option.bind_eq_some_iff.mp hdue
    dsimp only at hdue
    split at hdue
    · obtain rfl := Option.some.inj hdue
      exact ⟨hleft.1.1, hleft.2, rfl, rfl⟩
    · cases hdue

/-- The due commands of two records are `OnlyAwaiting`. -/
theorem onlyAwaiting_of_records (h : w.Consistent) {key key' : RecordKey} {r r' : Record}
    (hr : w.work.records.find? key = some r) (hr' : w.work.records.find? key' = some r')
    (hne : key ≠ key') {x y : Planned} (hx : x.command.id = r.id) (hy : y.command.id = r'.id)
    (hxkind : x.command.kind = .put) (hykind : y.command.kind = .put) :
    OnlyAwaiting w.work.conventions.separator x y := by
  intro hsame
  have hid : normalize r.id = normalize r'.id := by
    rw [← hx, ← hy]
    exact (Prod.mk.inj hsame).2
  rw [hx, hy]
  rcases h.toCoherent.awaitsId_of_same_id hr hr' hne hid with hawaits | hawaits
  · refine ⟨hxkind, hykind, Or.inl hawaits.incomplete, fun hcase => ⟨hawaits.incomplete, ?_⟩⟩
    rw [← Identifier.isIncomplete_congr hcase hid]
    exact hawaits.incomplete
  · refine ⟨hxkind, hykind, Or.inr hawaits.incomplete, fun hcase => ⟨?_, hawaits.incomplete⟩⟩
    rw [Identifier.isIncomplete_congr hcase hid]
    exact hawaits.incomplete

theorem not_same_of_kind {x y : Planned} (hkind : x.command.kind ≠ y.command.kind) :
    x.command.dedupKey ≠ y.command.dedupKey := by
  intro hsame
  exact hkind (Prod.mk.inj hsame).1

/-- If no command is deferred for `id`, no deferred command has kind and identifier in common with
one for `id`. -/
theorem not_same_of_deferred {x : Planned} {command : Command} {id : String}
    (hid : x.command.id = id) (hfree : w.work.hasDeferred id = false)
    (hwaits : command ∈ w.work.deferred) :
    x.command.dedupKey ≠ (plannedDeferred command).command.dedupKey := by
  intro hsame
  have hnormal : normalize command.id = normalize id := by
    rw [← hid]
    exact (Prod.mk.inj hsame).2.symm
  rw [hasDeferred_of_mem hwaits hnormal] at hfree
  cases hfree

/-- The keys of the records are distinct. -/
theorem pairwise_records (h : w.Consistent) :
    w.work.records.Pairwise (fun x y => x.1 ≠ y.1) := by
  have hkeys := h.records_sorted
  unfold Keyed.Sorted Keyed.keys at hkeys
  exact (List.pairwise_map.mp hkeys).imp fun hlt => Nat.ne_of_lt hlt

theorem onlyAwaiting_deletes (h : w.Consistent) :
    (w.work.records.filterMap (fun entry => w.dueDelete entry.1 entry.2)).Pairwise
      (OnlyAwaiting w.work.conventions.separator) := by
  refine List.pairwise_filterMap.mpr ((pairwise_records h).imp_of_mem ?_)
  rintro ⟨key, r⟩ ⟨key', r'⟩ hmem hmem' hne x hx y hy hsame
  have hr := Keyed.find?_of_mem h.records_sorted hmem
  have hr' := Keyed.find?_of_mem h.records_sorted hmem'
  obtain ⟨hdelete, -, hid, -⟩ := dueDelete_eq_some hx
  obtain ⟨hdelete', -, hid', -⟩ := dueDelete_eq_some hy
  have hnormal : normalize r.id = normalize r'.id := by
    rw [← hid, ← hid']
    exact (Prod.mk.inj hsame).2
  -- what is to be deleted was saved, and waits for no identifier
  exfalso
  rcases h.toCoherent.awaitsId_of_same_id hr hr' hne hnormal with hawaits | hawaits
  · have hsaved := (h.deletable_of_record hr hdelete).2
    rw [hawaits.isNew] at hsaved
    cases hsaved
  · have hsaved := (h.deletable_of_record hr' hdelete').2
    rw [hawaits.isNew] at hsaved
    cases hsaved

theorem onlyAwaiting_puts (h : w.Consistent) :
    (w.work.records.filterMap (fun entry => w.duePut entry.1 entry.2)).Pairwise
      (OnlyAwaiting w.work.conventions.separator) := by
  refine List.pairwise_filterMap.mpr ((pairwise_records h).imp_of_mem ?_)
  rintro ⟨key, r⟩ ⟨key', r'⟩ hmem hmem' hne x hx y hy
  obtain ⟨-, -, hid, hkind⟩ := duePut_eq_some hx
  obtain ⟨-, -, hid', hkind'⟩ := duePut_eq_some hy
  exact onlyAwaiting_of_records h (Keyed.find?_of_mem h.records_sorted hmem)
    (Keyed.find?_of_mem h.records_sorted hmem') hne hid hid' hkind hkind'

theorem onlyAwaiting_deferred (h : w.Consistent) :
    (w.work.deferred.map plannedDeferred).Pairwise
      (OnlyAwaiting w.work.conventions.separator) := by
  refine List.pairwise_map.mpr ((List.pairwise_map.mp h.distinct).imp ?_)
  intro command command' hne hsame
  exact absurd hsame hne

/-- The due commands are pairwise `OnlyAwaiting`. -/
theorem onlyAwaiting_due (h : w.Consistent) :
    (w.work.records.filterMap (fun entry => w.dueDelete entry.1 entry.2)
        ++ w.work.records.filterMap (fun entry => w.duePut entry.1 entry.2)
        ++ w.work.deferred.map plannedDeferred).Pairwise
      (OnlyAwaiting w.work.conventions.separator) := by
  refine List.pairwise_append.mpr ⟨List.pairwise_append.mpr ⟨onlyAwaiting_deletes h,
    onlyAwaiting_puts h, ?_⟩, onlyAwaiting_deferred h, ?_⟩
  · intro x hx y hy hsame
    obtain ⟨_, -, hdelete⟩ := List.mem_filterMap.mp hx
    obtain ⟨_, -, hput⟩ := List.mem_filterMap.mp hy
    obtain ⟨-, -, -, hkind⟩ := dueDelete_eq_some hdelete
    obtain ⟨-, -, -, hkind'⟩ := duePut_eq_some hput
    exact absurd hsame (not_same_of_kind (by rw [hkind, hkind']; decide))
  · intro x hx y hy hsame
    obtain ⟨command, hwaits, rfl⟩ := List.mem_map.mp hy
    rcases List.mem_append.mp hx with hx | hx
    · obtain ⟨_, -, hdelete⟩ := List.mem_filterMap.mp hx
      obtain ⟨-, hfree, hid, -⟩ := dueDelete_eq_some hdelete
      exact absurd hsame (not_same_of_deferred hid hfree hwaits)
    · obtain ⟨_, -, hput⟩ := List.mem_filterMap.mp hx
      obtain ⟨-, hfree, hid, -⟩ := duePut_eq_some hput
      exact absurd hsame (not_same_of_deferred hid hfree hwaits)

end Workspace

namespace OpenSession

open Workspace

/-- Without callbacks a plan is exactly the pending work: the due DELETEs and then the due PUTs,
each in the order of the records, and then every deferred command in order. Every entity that is
compared has a body, and no two commands have kind and identifier in common, unless they are PUTs
under incomplete identifiers. -/
theorem plan_exact {s : OpenSession} (h : s.Orderly) (hquiet : s.session.callbacks = {})
    {plan : Plan} (hplan : (s.workspace.planSave s.session.callbacks).1 = .ok plan) :
    plan = s.session.work.records.filterMap (fun entry => s.workspace.dueDelete entry.1 entry.2)
        ++ s.session.work.records.filterMap (fun entry => s.workspace.duePut entry.1 entry.2)
        ++ s.session.work.deferred.map plannedDeferred
      ∧ (∀ key r entity, s.workspace.Considers key r entity →
          ∃ body, s.workspace.bodyOf entity = .ok body)
      ∧ plan.Pairwise (OnlyAwaiting s.session.work.conventions.separator) := by
  have hconsistent := h.reachable.consistent.workspace
  rw [hquiet] at hplan
  obtain ⟨-, hfollows⟩ := planSave_follows hconsistent Callbacks.editNothing_nil h.inOrder.1 rfl
  obtain ⟨hdue, hwritable⟩ := pendingPlan_eq_ok hconsistent (hfollows.ok plan hplan)
  refine ⟨hdue, hwritable, ?_⟩
  rw [hdue]
  exact onlyAwaiting_due hconsistent

/-- A session over two entities, beside a server with three documents. -/
def besideUsers : OpenSession where
  session := Session.new 1 {} {}
  shared :=
    { entities :=
        [{ type := Shop.anything, state := .obj [("Name", .str "Ann")] },
          { type := Shop.anything, state := .obj [("Name", .str "Ben")] }] }
  connection := { server := fun _ => .ok (.ok (.obj
    [("Results", .arr (["users/1", "users/2", "users/3"].map fun id =>
      .obj [("@metadata", .obj [("@id", .str id)])]))])) }
  deliveries := {}

/-- That session once the documents are loaded. -/
def usersLoaded : OpenSession :=
  besideUsers.perform (.loadMany Shop.anything ["users/1", "users/2", "users/3"] [])

/-- That session once `users/1` and `users/3` are edited. -/
def usersEdited : OpenSession :=
  usersLoaded.perform (.outside
    { usersLoaded.shared with
      entities := usersLoaded.shared.entities.map fun e =>
        { e with state := .obj [("Name", .str "Cid")] } }
    usersLoaded.connection usersLoaded.deliveries)

/-- That session once one document is to be deleted, both instances are stored under one incomplete
identifier, and a script waits for one of the edited documents. -/
def crowded : OpenSession :=
  (((usersEdited.perform (.delete 2)).perform (.storeUnder 0 "users/")).perform
    (.storeUnder 1 "users/")).perform (.defer [{ id := "users/3", action := .patch "" [] }])

theorem crowded_orderly : crowded.Orderly := by
  have hordered : besideUsers.shared.dictionaries.Ordered := by
    intro n node hnode
    cases hnode
  have hloaded : usersLoaded.Orderly :=
    .step (.loadMany Shop.anything ["users/1", "users/2", "users/3"] [])
      (.opened 1 {} {} _ _ _ hordered) trivial trivial
  have hedited : usersEdited.Orderly :=
    .step (.outside _ _ _) hloaded (Nat.le_of_eq (List.length_map _).symm) (.refl _)
  have hdeleted := hedited.step (.delete 2) trivial trivial
  have hfirst := hdeleted.step (.storeUnder 0 "users/")
    (by show 0 < (usersEdited.perform (.delete 2)).shared.entities.length; decide +kernel) trivial
  have hsecond := hfirst.step (.storeUnder 1 "users/")
    (by
      show 1 < ((usersEdited.perform (.delete 2)).perform
        (.storeUnder 0 "users/")).shared.entities.length
      decide +kernel) trivial
  exact hsecond.step (.defer [{ id := "users/3", action := .patch "" [] }]) trivial trivial

theorem usersLoaded_callbacks : usersLoaded.session.callbacks = {} := by
  rcases hload : besideUsers.loadMany Shop.anything ["users/1", "users/2", "users/3"] []
    with ⟨answer, loaded⟩
  have hsame := (readClosed_reads.loadMany hload).callbacks
  show (besideUsers.loadMany Shop.anything ["users/1", "users/2", "users/3"] []).2.session.callbacks
    = {}
  rw [hload]
  exact hsame

theorem crowded_callbacks : crowded.session.callbacks = {} :=
  usersLoaded_callbacks

/-- The plan for that session leaves the document that the script is for to the script, and has two
writes of documents whose identifiers the server completes. Since `'/'` has no case, only such
writes can come up twice. -/
theorem plan_exact_crowded :
    ∃ plan, (crowded.workspace.planSave crowded.session.callbacks).1 = .ok plan
      ∧ plan.map (fun planned => (planned.command.kind, planned.command.id))
        = [(.delete, "users/1"), (.put, "users/2"), (.put, "users/"), (.put, "users/"),
            (.patch, "users/3")]
      ∧ plan.Pairwise (OnlyAwaiting '/')
      ∧ plan.Pairwise (fun x y => x.command.dedupKey = y.command.dedupKey →
          isIncomplete x.command.id '/' = true ∧ isIncomplete y.command.id '/' = true) := by
  have hcommands : (crowded.workspace.planSave {}).1.toOption.map
      (List.map (fun planned => (planned.command.kind, planned.command.id)))
        = some [(.delete, "users/1"), (.put, "users/2"), (.put, "users/"), (.put, "users/"),
            (.patch, "users/3")] := by
    decide +kernel
  rw [← crowded_callbacks] at hcommands
  cases hplan : (crowded.workspace.planSave crowded.session.callbacks).1 with
  | error e =>
    rw [hplan] at hcommands
    cases hcommands
  | ok plan =>
    rw [hplan] at hcommands
    have hexact := plan_exact crowded_orderly crowded_callbacks hplan
    exact ⟨plan, rfl, Option.some.inj hcommands, hexact.2.2,
      hexact.2.2.imp fun h => h.incomplete_of_slash⟩

end OpenSession

end DocumentSession
