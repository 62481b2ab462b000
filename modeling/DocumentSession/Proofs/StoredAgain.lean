import DocumentSession.Proofs.PlannedCommands
import DocumentSession.Proofs.Settings
import DocumentSession.Entity.Shop

set_option autoImplicit false

/-! # Storing an instance again

`store` of a tracked instance, under its own identifier or under none, changes nothing but the
`check` of its record, which is `.auto` from then on (`OpenSession.store_again_keeps_plan_iff`). The
next save plans the same commands in the same order, for the check of a record decides nothing but
the version that its PUT depends on (`Workspace.planSave_recheck`). That version is another one if
the record was to be written without one under optimistic concurrency, or over a given one without
it. -/

namespace DocumentSession

/-- `r` with another `check`. -/
def Record.checked (r : Record) (check : VersionCheck) : Record :=
  { r with check }

/-- The PUT of the record at `key` with another version. Other commands stay. -/
def Planned.over (key : RecordKey) (version : Option String) (planned : Planned) : Planned :=
  match planned.origin with
  | .put k _ _ =>
    if k = key then { planned with command := { planned.command with changeVector := version } }
    else planned
  | .delete _ | .deferred => planned

namespace Workspace

variable {w w' : Workspace} {c : Callbacks} {key k : RecordKey} {r : Record} {check : VersionCheck}
  {version : Option String}

/-- `w` with another `check` for the record at `key`. -/
def recheck (w : Workspace) (key : RecordKey) (check : VersionCheck) : Workspace :=
  { w with work := w.work.modifyRecord key (·.checked check) }

/-- The record of `w.recheck key check` at `k`, if that of `w` is `r`. -/
def rechecked (key : RecordKey) (check : VersionCheck) (k : RecordKey) (r : Record) : Record :=
  if k = key then r.checked check else r

theorem rechecked_self (key : RecordKey) (check : VersionCheck) (r : Record) :
    rechecked key check key r = r.checked check :=
  if_pos rfl

theorem rechecked_of_ne (hk : k ≠ key) (check : VersionCheck) (r : Record) :
    rechecked key check k r = r :=
  if_neg hk

theorem find?_recheck (w : Workspace) (key : RecordKey) (check : VersionCheck) (k : RecordKey) :
    (w.recheck key check).work.records.find? k
      = (w.work.records.find? k).map (rechecked key check k) := by
  refine (Keyed.find?_modify w.work.records key (·.checked check) k).trans ?_
  by_cases hk : k = key
  · subst hk
    rw [if_pos rfl]
    congr 1
    funext r
    exact (rechecked_self k check r).symm
  · rw [if_neg (Ne.symm hk)]
    cases w.work.records.find? k with
    | none => rfl
    | some r => exact congrArg some (rechecked_of_ne hk check r).symm

/-! ## What does not depend on the check

Planning reads the `check` of a record for nothing but the version. -/

theorem openDictionary_rechecked (key : RecordKey) (check : VersionCheck) (k : RecordKey)
    (r : Record) (forest : Metadata.Forest) :
    (rechecked key check k r).openDictionary forest
      = ((r.openDictionary forest).1, rechecked key check k (r.openDictionary forest).2.1,
          (r.openDictionary forest).2.2) := by
  by_cases hk : k = key
  · subst hk
    rw [rechecked_self, rechecked_self]
    obtain ⟨_, _, _, dictionary, _, _, _, _, _⟩ := r
    cases dictionary <;> rfl
  · rw [rechecked_of_ne hk, rechecked_of_ne hk]

theorem openDictionary_recheck (w : Workspace) (key : RecordKey) (check : VersionCheck)
    (k : RecordKey) (r : Record) :
    (w.recheck key check).openDictionary k (rechecked key check k r)
      = ((w.openDictionary k r).1, (w.openDictionary k r).2.recheck key check) := by
  have hrecords : ∀ r', (w.work.records.modify key (·.checked check)).modify k
        (fun _ => rechecked key check k r')
      = (w.work.records.modify k (fun _ => r')).modify key (·.checked check) := by
    intro r'
    by_cases hk : k = key
    · subst hk
      rw [Keyed.modify_modify, Keyed.modify_modify, rechecked_self]
      rfl
    · rw [rechecked_of_ne hk, Keyed.modify_comm _ (Ne.symm hk)]
  unfold openDictionary
  rw [show (w.recheck key check).shared = w.shared from rfl, openDictionary_rechecked]
  exact congrArg (fun records => (_, Workspace.mk { w.work with records } _)) (hrecords _)

theorem planDeletes_recheck {keys : List RecordKey} (w : Workspace) (hkey : key ∉ keys) :
    (w.recheck key check).planDeletes c keys
      = ((w.planDeletes c keys).1, (w.planDeletes c keys).2.recheck key check) := by
  induction keys generalizing w with
  | nil => rfl
  | cons k rest ih =>
    rw [List.mem_cons, not_or] at hkey
    obtain ⟨hne, hrest⟩ := hkey
    have hmap : (w.recheck key check).work.records.find? k = w.work.records.find? k := by
      rw [find?_recheck, show rechecked key check k = id from
        funext fun r => rechecked_of_ne (Ne.symm hne) check r, Option.map_id_apply]
    rw [planDeletes, planDeletes, hmap]
    cases w.work.records.find? k with
    | none => exact ih w hrest
    | some r =>
      dsimp only
      rw [show (w.recheck key check).work.hasDeferred r.id = w.work.hasDeferred r.id from rfl]
      split
      · exact ih w hrest
      · rw [show (w.recheck key check).shared = w.shared from rfl]
        rcases hasked : Callbacks.callEach r.id c.beforeDelete w.shared with ⟨verdict, shared⟩
        cases verdict with
        | error e => rfl
        | ok _ =>
          dsimp only
          rw [show ({ w.recheck key check with shared } : Workspace)
            = recheck { w with shared } key check from rfl, ih { w with shared } hrest]
          rcases planDeletes { w with shared } c rest with ⟨_ | plan, w'⟩ <;> rfl

theorem planDeferred_recheck (w : Workspace) (commands : List Command) :
    (w.recheck key check).planDeferred c commands
      = ((w.planDeferred c commands).1, (w.planDeferred c commands).2.recheck key check) := by
  induction commands generalizing w with
  | nil => rfl
  | cons command rest ih =>
    rw [planDeferred, planDeferred, show (w.recheck key check).shared = w.shared from rfl]
    rcases (if command.kind = .delete then
        Callbacks.callEach command.id c.beforeDelete w.shared
      else (.ok (), w.shared) : Verdict) with ⟨verdict, shared⟩
    cases verdict with
    | error e => rfl
    | ok _ =>
      dsimp only
      rw [show ({ w.recheck key check with shared } : Workspace)
        = recheck { w with shared } key check from rfl, ih { w with shared }]
      rcases planDeferred { w with shared } c rest with ⟨_ | plan, w'⟩ <;> rfl

/-! ## What depends on the check -/

/-- `version` is the one that the PUT of the record depends on under `check`. -/
def HasVersion (w : Workspace) (key : RecordKey) (check : VersionCheck) (version : Option String) :
    Prop :=
  ∀ r, w.work.records.find? key = some r →
    versionToPut w.work.conventions (r.checked check) = version

theorem HasVersion.plans (h : w.HasVersion key check version) (hplans : w.Plans c w') :
    w'.HasVersion key check version := by
  intro r' hr'
  obtain ⟨r, hr, heq⟩ := hplans.record_before hr'
  rw [hplans.work, ← h r hr, heq]
  rfl

theorem planPut_recheck (h : w.HasVersion key check version)
    (hr : w.work.records.find? k = some r) (entity : EntityRef) :
    (w.recheck key check).planPut c k (rechecked key check k r) entity
      = ((w.planPut c k r entity).1.map (Planned.over key version),
          (w.planPut c k r entity).2.recheck key check) := by
  have hparts : (rechecked key check k r).id = r.id
      ∧ (rechecked key check k r).metadata = r.metadata := by
    unfold rechecked Record.checked
    split <;> exact ⟨rfl, rfl⟩
  obtain ⟨hid, hmetadata⟩ := hparts
  have hover : ∀ body metadata,
      ({ command :=
          { id := r.id, action := .put (Keyed.insert body Metadata.key (.obj metadata))
            changeVector := versionToPut w.work.conventions (rechecked key check k r) }
         origin := .put k body metadata } : Planned)
        = Planned.over key version
          { command :=
              { id := r.id, action := .put (Keyed.insert body Metadata.key (.obj metadata))
                changeVector := versionToPut w.work.conventions r }
            origin := .put k body metadata } := by
    intro body metadata
    unfold Planned.over
    dsimp only
    split
    · next hk =>
      subst hk
      rw [rechecked_self, h r hr]
    · next hk => rw [rechecked_of_ne hk]
  unfold planPut
  rw [openDictionary_recheck, hid]
  have hconventions : (w.openDictionary k r).2.work.conventions = w.work.conventions := rfl
  generalize w.openDictionary k r = opened at hconventions ⊢
  obtain ⟨n, w₁⟩ := opened
  dsimp only at hconventions ⊢
  rw [show (w₁.recheck key check).shared = w₁.shared from rfl]
  generalize hasked : Callbacks.callEach { id := r.id, metadata := n, entity } c.beforeStore
    w₁.shared = asked
  obtain ⟨_ | _, shared⟩ := asked
  · rfl
  · dsimp only
    rw [show bodyOf { w₁.recheck key check with shared } entity
      = bodyOf { w₁ with shared } entity from rfl]
    cases bodyOf { w₁ with shared } entity with
    | error e => rfl
    | ok body =>
      simp only [Record.mergedMetadata, Option.elim_some, hmetadata]
      rw [show (w₁.recheck key check).work.conventions = w₁.work.conventions from rfl,
        hconventions, hover]
      rfl

theorem planEntity_recheck (h : w.HasVersion key check version) (k : RecordKey) :
    (w.recheck key check).planEntity c k
      = ((w.planEntity c k).1.map (Option.map (Planned.over key version)),
          (w.planEntity c k).2.recheck key check) := by
  unfold planEntity
  rw [show (w.recheck key check).work.isToDelete k = w.work.isToDelete k from rfl, find?_recheck]
  cases w.work.isToDelete k with
  | true => rfl
  | false =>
    cases hr : w.work.records.find? k with
    | none => rfl
    | some r =>
      have hparts : (rechecked key check k r).entity = r.entity
          ∧ (rechecked key check k r).ignoreChanges = r.ignoreChanges
          ∧ (rechecked key check k r).id = r.id
          ∧ ∀ body, (w.recheck key check).mustWrite (rechecked key check k r) body
            = w.mustWrite r body := by
        unfold rechecked Record.checked
        split
        · exact ⟨rfl, rfl, rfl, fun _ => rfl⟩
        · exact ⟨rfl, rfl, rfl, fun _ => rfl⟩
      obtain ⟨hentity, hignored, hid, hmust⟩ := hparts
      dsimp only [Option.map_some]
      rw [hentity, hignored, hid]
      cases r.entity with
      | none => rfl
      | some entity =>
        dsimp only
        rw [show (w.recheck key check).work.hasDeferred r.id = w.work.hasDeferred r.id from rfl,
          show (w.recheck key check).bodyOf entity = w.bodyOf entity from rfl]
        split
        · rfl
        · cases w.bodyOf entity with
          | error e => rfl
          | ok body =>
            dsimp only
            rw [hmust, planPut_recheck h hr]
            split
            · rfl
            · rcases w.planPut c k r entity with ⟨_ | planned, w'⟩ <;> rfl

theorem planPuts_recheck (h : w.HasVersion key check version) (keys : List RecordKey) :
    (w.recheck key check).planPuts c keys
      = ((w.planPuts c keys).1.map (List.map (Planned.over key version)),
          (w.planPuts c keys).2.recheck key check) := by
  induction keys generalizing w with
  | nil => rfl
  | cons k rest ih =>
    rw [planPuts, planPuts, planEntity_recheck h]
    rcases hentity : w.planEntity c k with ⟨_ | planned, w₁⟩
    · rfl
    · dsimp only [Except.map]
      rw [ih (h.plans (plans_planEntity hentity))]
      rcases w₁.planPuts c rest with ⟨_ | plan, w₂⟩
      · rfl
      · cases planned <;> rfl

theorem map_over_eq_self {plan : Plan}
    (hothers : ∀ planned ∈ plan, ∀ body metadata, planned.origin = .put key body metadata →
      planned.command.changeVector = version) : plan.map (Planned.over key version) = plan := by
  refine (List.map_congr_left fun planned hmem => ?_).trans (List.map_id plan)
  unfold Planned.over
  split
  · next k body metadata horigin =>
    split
    · next hk =>
      subst hk
      rw [← hothers planned hmem body metadata horigin]
      rfl
    · rfl
  · rfl
  · rfl

/-- The `check` of a record that is not to be deleted decides nothing in a plan but the version of
its PUT. -/
theorem planSave_recheck (h : w.HasVersion key check version)
    (hkept : w.work.isToDelete key = false) :
    (w.recheck key check).planSave c
      = ((w.planSave c).1.map (List.map (Planned.over key version)),
          (w.planSave c).2.recheck key check) := by
  have hdeletes : key ∉ w.work.deleted.keys :=
    fun hmem => absurd (Keyed.contains_iff_mem_keys.mpr hmem) (Bool.eq_false_iff.mp hkept)
  unfold planSave
  rw [show (w.recheck key check).work.deleted = w.work.deleted from rfl,
    planDeletes_recheck w hdeletes]
  rcases hplanned : w.planDeletes c w.work.deleted.keys with ⟨_ | deletes, w₁⟩
  · rfl
  · dsimp only
    rw [show (w₁.recheck key check).work.registry = w₁.work.registry from rfl,
      planPuts_recheck (h.plans (plans_planDeletes hplanned))]
    rcases w₁.planPuts c w₁.work.registry.records with ⟨_ | puts, w₂⟩
    · rfl
    · dsimp only [Except.map]
      rw [show (w₂.recheck key check).work.deferred = w₂.work.deferred from rfl,
        planDeferred_recheck]
      rcases hdeferred : w₂.planDeferred c w₂.work.deferred with ⟨_ | deferred, w₃⟩
      · rfl
      · have hdeletes : deletes.map (Planned.over key version) = deletes := by
          refine map_over_eq_self fun planned hmem body metadata horigin => ?_
          obtain ⟨k, hdelete⟩ := origin_planDeletes hplanned planned hmem
          rw [horigin] at hdelete
          cases hdelete
        have hwaited : deferred.map (Planned.over key version) = deferred := by
          refine map_over_eq_self fun planned hmem body metadata horigin => ?_
          rw [origin_planDeferred hdeferred planned hmem] at horigin
          cases horigin
        dsimp only
        rw [List.map_append, List.map_append, hdeletes, hwaited]

/-- The record has another check than the conventions: none under optimistic concurrency, or one for
a version it has without optimistic concurrency. -/
def OverridesConventions (conventions : Conventions) (r : Record) : Prop :=
  (conventions.optimistic = true ∧ r.check = .disabled)
    ∨ (conventions.optimistic = false ∧ r.check = .forced ∧ r.changeVector ≠ none)

theorem versionToPut_auto_eq_iff {conventions : Conventions} :
    versionToPut conventions (r.checked .auto) = versionToPut conventions r
      ↔ ¬ OverridesConventions conventions r := by
  unfold versionToPut OverridesConventions Record.checked
  dsimp only
  cases r.check <;> cases conventions.optimistic <;> cases r.changeVector <;> simp

/-- `plan` has a PUT of the record at `key`. -/
def HasPut (plan : Plan) (key : RecordKey) : Prop :=
  ∃ planned ∈ plan, ∃ body metadata, planned.origin = .put key body metadata

theorem hasVersion_auto (hr : w.work.records.find? key = some r) :
    w.HasVersion key .auto (versionToPut w.work.conventions (r.checked .auto)) := by
  intro r' hr'
  rw [hr] at hr'
  obtain rfl := Option.some.inj hr'
  rfl

/-- Every PUT of a record depends on the version that its `check` asks for. -/
theorem changeVector_of_planSave {plan : Plan} (hr : w.work.records.find? key = some r)
    (hplan : w.planSave c = (.ok plan, w')) {planned : Planned} (hmem : planned ∈ plan)
    {body metadata : Fields} (horigin : planned.origin = .put key body metadata) :
    planned.command.changeVector = versionToPut w.work.conventions r := by
  rcases cases_of_planSave hplan hmem with ⟨k, -, hdelete⟩ | hwrites | ⟨command, -, rfl⟩
  · obtain ⟨r', -, -, rfl⟩ := plannedDelete_eq_some_iff.mp hdelete
    cases horigin
  · obtain ⟨k, r', b, m, hr', -, rfl⟩ := hwrites
    obtain ⟨rfl, -, -⟩ := Origin.put.inj horigin
    rw [hr] at hr'
    obtain rfl := Option.some.inj hr'
    rfl
  · cases horigin

/-- With the check `.auto` a record gets the same plan, unless its entity is written and it
`OverridesConventions`. -/
theorem planSave_recheck_auto_iff (hr : w.work.records.find? key = some r)
    (hkept : w.work.isToDelete key = false) :
    ((w.recheck key .auto).planSave c).1 = (w.planSave c).1
      ↔ ∀ plan, (w.planSave c).1 = .ok plan → HasPut plan key →
        ¬ OverridesConventions w.work.conventions r := by
  have hversion := hasVersion_auto hr
  rw [planSave_recheck hversion hkept]
  rcases hplan : w.planSave c with ⟨_ | plan, w'⟩
  · simp [Except.map]
  · dsimp only [Except.map]
    constructor
    · intro hsame plan' hplan' hput hoverrides
      obtain rfl := Except.ok.inj hplan'
      obtain ⟨planned, hmem, body, metadata, horigin⟩ := hput
      have hfixed := List.map_inj_left.mp
        ((Except.ok.inj hsame).trans (List.map_id plan).symm) planned hmem
      have hchanged := congrArg (·.command.changeVector) hfixed
      unfold Planned.over at hchanged
      rw [horigin] at hchanged
      dsimp only at hchanged
      rw [if_pos rfl] at hchanged
      exact versionToPut_auto_eq_iff.mp
        (hchanged.trans (changeVector_of_planSave hr hplan hmem horigin)) hoverrides
    · intro hkeeps
      rw [map_over_eq_self]
      intro planned hmem body metadata horigin
      rw [changeVector_of_planSave hr hplan hmem horigin]
      exact (versionToPut_auto_eq_iff.mpr
        (hkeeps plan rfl ⟨planned, hmem, body, metadata, horigin⟩)).symm

theorem store_again {entity : EntityRef} (htracking : w.work.noTracking = false)
    (hr : w.work.recordForEntity? entity = some (key, r)) (hkept : w.work.isToDelete key = false)
    {id : Option String}
    (hid : ∀ given, id = some given → Identifier.normalize given = Identifier.normalize r.id) :
    w.store entity id none check = (.ok r.id, w.recheck key check) := by
  unfold store storeAgain
  rw [htracking, hr]
  dsimp only
  rw [hkept, Option.filter_eq_none_iff.mpr]
  · rfl
  · intro given hgiven
    simpa using hid given hgiven

end Workspace

namespace OpenSession

open Workspace

/-- An instance that is tracked and not to be deleted is stored again under its own identifier, up
to case, or under none: the answer is the identifier it is tracked under, and nothing changes but
that its version is checked as the conventions say. Whatever callers have done with instances and
dictionaries by the next save, and whatever callbacks do, that save plans what it would have
planned, but for the version in the write of the instance. That version stays as well if and only if
the instance need not be written or asked for nothing but what the conventions say. -/
theorem store_again_keeps_plan_iff {s : OpenSession} (hreachable : s.Reachable)
    (htracking : s.session.options.noTracking = false) {entity : EntityRef} {key : RecordKey}
    {r : Record} (hr : s.session.work.recordForEntity? entity = some (key, r))
    (hkept : s.session.work.isToDelete key = false) {id : String}
    (hid : Identifier.normalize id = Identifier.normalize r.id) :
    s.storeUnder entity id = s.store entity
      ∧ s.store entity = (.ok r.id, s.withWorkspace (s.workspace.recheck key .auto))
      ∧ ∀ shared callbacks,
        let before := planSave { work := s.session.work, shared } callbacks
        let after := planSave { work := (s.store entity).2.session.work, shared } callbacks
        after.1 = before.1.map (List.map (Planned.over key
            (versionToPut s.session.work.conventions (r.checked .auto))))
          ∧ (after.1 = before.1
            ↔ ∀ plan, before.1 = .ok plan → HasPut plan key →
              ¬ OverridesConventions s.session.work.conventions r) := by
  have htracks : s.workspace.work.noTracking = false := hreachable.noTracking.trans htracking
  have hunder : s.storeUnder entity id
      = (.ok r.id, s.withWorkspace (s.workspace.recheck key .auto)) := by
    unfold storeUnder locally
    dsimp only
    rw [store_again htracks hr hkept]
    rintro given hgiven
    obtain rfl := Option.some.inj hgiven
    exact hid
  have hstore : s.store entity
      = (.ok r.id, s.withWorkspace (s.workspace.recheck key .auto)) := by
    unfold OpenSession.store locally
    dsimp only
    rw [store_again htracks hr hkept]
    intro given hgiven
    cases hgiven
  refine ⟨hunder.trans hstore.symm, hstore, ?_⟩
  intro shared callbacks
  have hrecord :=
    (hreachable.consistent.workspace.toCoherent.recordForEntity?_eq_some_iff.mp hr).1
  rw [hstore]
  exact ⟨congrArg Prod.fst (planSave_recheck (w := { work := s.session.work, shared })
      (hasVersion_auto hrecord) hkept),
    planSave_recheck_auto_iff (w := { work := s.session.work, shared }) hrecord hkept⟩

/-- A session with two new instances: one is stored over a version, the other with the check
`.auto`. -/
def oneOver : OpenSession :=
  let opened : OpenSession :=
    { session := Session.new 1 {} {}
      shared := { entities := List.replicate 2 { type := Shop.anything, state := .obj [] } }
      connection := { server := fun _ => .ok { status := 500 } }
      deliveries := {} }
  (opened.perform (.storeOver 0 "users/1" (some "A:5"))).perform (.storeUnder 1 "users/2")

theorem reachable_oneOver : oneOver.Reachable := by
  have hopened : Reachable
      { session := Session.new 1 {} {}
        shared := { entities := List.replicate 2 { type := Shop.anything, state := .obj [] } }
        connection := { server := fun _ => .ok { status := 500 } }
        deliveries := {} } := .opened 1 _ _ _ _ _
  exact (hopened.step (.storeOver 0 "users/1" (some "A:5"))
    (show 0 < List.length _ by decide +kernel)).step (.storeUnder 1 "users/2")
      (show 1 < List.length _ by decide +kernel)

/-- The identifiers and versions in a plan. -/
def versionsOf (planned : Except Error Plan) : Option (List (String × Option String)) :=
  planned.toOption.map (List.map fun planned => (planned.command.id, planned.command.changeVector))

/-- `store` of the second instance again, under its identifier in capitals, keeps the plan. -/
theorem store_again_keeps_plan_iff_capitals :
    (oneOver.storeUnder 1 "USERS/2").1 = .ok "users/2"
      ∧ ((oneOver.storeUnder 1 "USERS/2").2.workspace.planSave {}).1
        = (oneOver.workspace.planSave {}).1
      ∧ versionsOf (oneOver.workspace.planSave {}).1
        = some [("users/1", some "A:5"), ("users/2", none)] := by
  have hfound : (oneOver.session.work.recordForEntity? 1).map
      (fun found => (found.1, found.2.id, found.2.check)) = some (1, "users/2", .auto) := by
    decide +kernel
  obtain ⟨⟨key, r⟩, hr, hknown⟩ := Option.map_eq_some_iff.mp hfound
  obtain ⟨rfl, hid, hcheck⟩ : key = 1 ∧ r.id = "users/2" ∧ r.check = .auto := by
    simpa using hknown
  have hcase : Identifier.normalize "USERS/2" = Identifier.normalize r.id := by
    rw [hid]
    decide +kernel
  obtain ⟨hunder, hstore, hplans⟩ :=
    store_again_keeps_plan_iff reachable_oneOver rfl hr (by decide +kernel) hcase
  obtain ⟨-, hplan⟩ := hplans oneOver.shared {}
  refine ⟨?_, ?_, by decide +kernel⟩
  · rw [hunder, hstore, hid]
  · rw [hunder, hstore]
    rw [hstore] at hplan
    refine hplan.mpr fun plan _ _ hoverrides => ?_
    rcases hoverrides with ⟨hoptimistic, -⟩ | ⟨-, hforced, -⟩
    · exact absurd hoptimistic (by decide +kernel)
    · rw [hcheck] at hforced
      cases hforced

/-- An instance that was stored over a version is stored again, and the next save writes it over any
version. -/
theorem store_again_drops_version :
    (oneOver.store 0).1 = .ok "users/1"
      ∧ versionsOf (oneOver.workspace.planSave {}).1
        = some [("users/1", some "A:5"), ("users/2", none)]
      ∧ versionsOf ((oneOver.store 0).2.workspace.planSave {}).1
        = some [("users/1", none), ("users/2", none)] := by
  refine ⟨?_, ?_, ?_⟩ <;> decide +kernel

end OpenSession

end DocumentSession
