import DocumentSession.Proofs.Renumbering
import DocumentSession.Workspace.Store
import DocumentSession.Workspace.Settle
import DocumentSession.Session.Load

set_option autoImplicit false

/-! # Work with other keys

Every operation of a workspace does on the renumbered workspace what it does on the workspace, and
gives the same answer; where the answer has record keys, they are raised too. There is one lemma for
each operation, from the lemmas of those that it calls. -/

namespace DocumentSession

namespace Workspace

/-- The workspace with all record keys raised by `n`. -/
def renumber (w : Workspace) (n : Nat) : Workspace :=
  { w with work := w.work.renumber n }

/-- The answer of an operation, with the workspace after it renumbered. -/
def renumbered {α : Type} (n : Nat) (done : α × Workspace) : α × Workspace :=
  (done.1, done.2.renumber n)

variable (w : Workspace) (n : Nat)

@[simp] theorem work_renumber : (w.renumber n).work = w.work.renumber n := rfl

@[simp] theorem shared_renumber : (w.renumber n).shared = w.shared := rfl

theorem modifyRecord_renumber (key : RecordKey) (change : Record → Record) (shared : Shared) :
    ({ work := (w.work.renumber n).modifyRecord (n + key) change, shared } : Workspace)
      = renumber { work := w.work.modifyRecord key change, shared } n :=
  congrArg (Workspace.mk · shared) (w.work.modifyRecord_renumber n key change)

theorem removeRecord_renumber (key : RecordKey) :
    (w.renumber n).removeRecord (n + key) = renumbered n (w.removeRecord key) := by
  simp only [removeRecord, work_renumber, UnitOfWork.find?_renumber]
  cases w.work.records.find? key with
  | none => rfl
  | some r =>
    simp only [UnitOfWork.withoutRecord_renumber]
    rfl

/-! ## Storing and deleting -/

theorem storeAgain_renumber (key : RecordKey) (r : Record) (id changeVector : Option String)
    (check : VersionCheck) :
    (w.renumber n).storeAgain (n + key) r id changeVector check
      = renumbered n (w.storeAgain key r id changeVector check) := by
  simp only [storeAgain, work_renumber, UnitOfWork.isToDelete_renumber]
  split
  · rfl
  · split
    · rfl
    · exact congrArg (Prod.mk _) (w.modifyRecord_renumber n key _ w.shared)

theorem attach_renumber (key : RecordKey) (entity : EntityRef) (id : String)
    (changeVector : Option String) (check : VersionCheck) :
    (w.renumber n).attach (n + key) entity id changeVector check
      = (w.attach key entity id changeVector check).renumber n := by
  simp only [attach, work_renumber, UnitOfWork.modifyRecord_renumber,
    UnitOfWork.registry_renumber, Registry.insert_renumber]
  rfl

theorem track_renumber (entity : EntityRef) (id : String) (incomplete : Bool)
    (changeVector : Option String) (check : VersionCheck) :
    (w.renumber n).track entity id incomplete changeVector check
      = (w.track entity id incomplete changeVector check).renumber n := by
  simp only [track, work_renumber, UnitOfWork.addRecord_renumber, UnitOfWork.registry_renumber,
    UnitOfWork.identities_renumber, Registry.insert_renumber, IdentityMap.insert_renumber]
  cases incomplete <;> rfl

theorem store_renumber (entity : EntityRef) (id changeVector : Option String)
    (check : VersionCheck) :
    (w.renumber n).store entity id changeVector check
      = renumbered n (w.store entity id changeVector check) := by
  have hid : (w.renumber n).idToStore entity id = w.idToStore entity id := rfl
  have hrefuse : ∀ id, (w.renumber n).refuseId id = w.refuseId id := fun _ => rfl
  simp only [store, work_renumber, UnitOfWork.noTracking_renumber,
    UnitOfWork.recordForEntity?_renumber, UnitOfWork.recordForId?_renumber, hid, hrefuse,
    UnitOfWork.conventions_renumber]
  split
  · rfl
  · cases w.work.recordForEntity? entity with
    | some found => exact storeAgain_renumber w n found.1 found.2 id changeVector check
    | none =>
      simp only [Option.map_none]
      cases w.refuseId (w.idToStore entity id) with
      | error e => rfl
      | ok _ =>
        simp only [track_renumber]
        cases Identifier.isIncomplete (w.idToStore entity id) w.work.conventions.separator with
        | true => rfl
        | false =>
          simp only [Bool.false_eq_true, ↓reduceIte]
          cases w.work.recordForId? (w.idToStore entity id) with
          | none => rfl
          | some found =>
            simp only [Option.map_some, attach_renumber]
            split <;> rfl

theorem delete_renumber (entity : EntityRef) :
    (w.renumber n).delete entity = renumbered n (w.delete entity) := by
  simp only [delete, work_renumber, UnitOfWork.recordForEntity?_renumber,
    UnitOfWork.deleted_renumber]
  cases w.work.recordForEntity? entity with
  | none => rfl
  | some found =>
    simp only [Option.map_some, removeRecord_renumber, Keyed.insert_shift]
    split <;> rfl

theorem defer_renumber (commands : List Command) :
    (w.renumber n).defer commands = renumbered n (w.defer commands) := by
  simp only [defer, work_renumber, UnitOfWork.deferred_renumber]
  split <;> rfl

theorem deferDelete_renumber (id : String) (given tracked : Option String) :
    (w.renumber n).deferDelete id given tracked = renumbered n (w.deferDelete id given tracked) :=
  (w.markMissing id).defer_renumber n _

theorem deleteId_renumber (id : String) (changeVector : Option String) :
    (w.renumber n).deleteId id changeVector = renumbered n (w.deleteId id changeVector) := by
  have hchanged : ∀ r, (w.renumber n).entityChanged r = w.entityChanged r := fun _ => rfl
  simp only [deleteId, work_renumber, UnitOfWork.recordForId?_renumber, hchanged,
    deferDelete_renumber]
  split
  · rfl
  · cases w.work.recordForId? id with
    | none => rfl
    | some found =>
      simp only [Option.map_some, removeRecord_renumber]
      cases w.entityChanged found.2 with
      | error e => rfl
      | ok changed =>
        cases changed with
        | true => rfl
        | false => exact deferDelete_renumber (w.removeRecord found.1).2 n id changeVector _

theorem evict_renumber (entity : EntityRef) :
    (w.renumber n).evict entity = (w.evict entity).renumber n := by
  simp only [evict, work_renumber, UnitOfWork.registry_renumber, Registry.get?_renumber]
  cases w.work.registry.get? entity with
  | none => rfl
  | some key => simp only [Option.map_some, removeRecord_renumber, renumbered]

theorem clear_renumber : (w.renumber n).clear = w.clear.renumber n := by
  have hreleased : (w.work.records.shift n).foldl (fun s entry => s.release entry.2) w.shared
      = w.work.records.foldl (fun s entry => s.release entry.2) w.shared :=
    List.foldl_map
  exact congrArg (Workspace.mk _) hreleased

/-! ## What a session says of its entities -/

theorem recordOf_renumber (entity : EntityRef) :
    (w.renumber n).recordOf entity = (w.recordOf entity).map (fun (key, r) => (n + key, r)) := by
  simp only [recordOf, work_renumber, UnitOfWork.recordForEntity?_renumber]
  cases w.work.recordForEntity? entity <;> rfl

theorem idOf_renumber (entity : EntityRef) : (w.renumber n).idOf entity = w.idOf entity := by
  rw [idOf, recordOf_renumber, idOf]
  cases w.recordOf entity <;> rfl

theorem changeVectorOf_renumber (entity : EntityRef) :
    (w.renumber n).changeVectorOf entity = w.changeVectorOf entity := by
  rw [changeVectorOf, recordOf_renumber, changeVectorOf]
  cases w.recordOf entity <;> rfl

theorem openDictionary_renumber (key : RecordKey) (r : Record) :
    (w.renumber n).openDictionary (n + key) r = renumbered n (w.openDictionary key r) :=
  congrArg (Prod.mk _) (w.modifyRecord_renumber n key _ _)

theorem metadataOf_renumber (entity : EntityRef) :
    (w.renumber n).metadataOf entity = renumbered n (w.metadataOf entity) := by
  simp only [metadataOf, recordOf_renumber]
  cases w.recordOf entity with
  | error e => rfl
  | ok found =>
    obtain ⟨key, r⟩ := found
    simp only [Except.map, openDictionary_renumber]
    rfl

theorem ignoreChanges_renumber (entity : EntityRef) :
    (w.renumber n).ignoreChanges entity = renumbered n (w.ignoreChanges entity) := by
  simp only [ignoreChanges, recordOf_renumber]
  cases w.recordOf entity with
  | error e => rfl
  | ok found => exact congrArg (Prod.mk _) (w.modifyRecord_renumber n found.1 _ w.shared)

theorem hasChanged_renumber (entity : EntityRef) :
    (w.renumber n).hasChanged entity = w.hasChanged entity := by
  simp only [hasChanged, recordOf_renumber, work_renumber]
  cases w.recordOf entity with
  | error e => rfl
  | ok found =>
    show (if (w.work.renumber n).isToDelete (n + found.1) then _ else _) = _
    rw [UnitOfWork.isToDelete_renumber]
    rfl

theorem anyChanged_renumber (keys : List RecordKey) :
    (w.renumber n).anyChanged (keys.map (n + ·)) = w.anyChanged keys := by
  have hchanged : ∀ r, (w.renumber n).entityChanged r = w.entityChanged r := fun _ => rfl
  induction keys with
  | nil => rfl
  | cons key rest ih =>
    simp only [List.map_cons, anyChanged, work_renumber, UnitOfWork.find?_renumber, ih, hchanged]

theorem hasChanges_renumber : (w.renumber n).hasChanges = w.hasChanges := by
  simp only [hasChanges, work_renumber, UnitOfWork.deleted_renumber, UnitOfWork.deferred_renumber,
    UnitOfWork.registry_renumber, Registry.records_renumber, anyChanged_renumber, Keyed.shift,
    List.isEmpty_map]

theorem collectChanges_renumber (keys : List RecordKey) (found : Dict (List Change)) :
    (w.renumber n).collectChanges found (keys.map (n + ·)) = w.collectChanges found keys := by
  have hchanges : ∀ r entity, (w.renumber n).changesOf r entity = w.changesOf r entity :=
    fun _ _ => rfl
  induction keys generalizing found with
  | nil => rfl
  | cons key rest ih =>
    simp only [List.map_cons, collectChanges, work_renumber, UnitOfWork.isToDelete_renumber,
      UnitOfWork.find?_renumber, ih, hchanges]

theorem deletions_renumber : (w.renumber n).deletions = w.deletions := by
  simp only [deletions, work_renumber, UnitOfWork.deleted_renumber, Keyed.keys_shift,
    List.foldl_map, UnitOfWork.find?_renumber]

theorem whatChanged_renumber : (w.renumber n).whatChanged = w.whatChanged := by
  simp only [whatChanged, deletions_renumber, work_renumber, UnitOfWork.registry_renumber,
    Registry.records_renumber, collectChanges_renumber]

/-! ## Documents of the server -/

theorem entityFor_renumber (type : EntityType) (key : RecordKey) :
    (w.renumber n).entityFor type (n + key) = renumbered n (w.entityFor type key) := by
  unfold entityFor
  rw [work_renumber, UnitOfWork.find?_renumber, shared_renumber, UnitOfWork.conventions_renumber]
  split
  · rfl
  · split
    · dsimp only
      split <;> rfl
    · rfl
    · split
      · rfl
      · simp only [UnitOfWork.modifyRecord_renumber, UnitOfWork.registry_renumber,
          Registry.insert_renumber]
        rfl

theorem lookup_renumber (type : EntityType) (id : String) :
    (w.renumber n).lookup type id = renumbered n (w.lookup type id) := by
  simp only [lookup, work_renumber, UnitOfWork.missing_renumber, UnitOfWork.identities_renumber,
    IdentityMap.get?_renumber]
  split
  · rfl
  · cases w.work.identities.get? id with
    | none => rfl
    | some key =>
      simp only [Option.map_some, UnitOfWork.isToDelete_renumber, entityFor_renumber]
      split
      · rfl
      · rcases w.entityFor type key with ⟨_ | _ | entity, w'⟩ <;> rfl

theorem refreshRecord_renumber (key : RecordKey) (body metadata : Fields) :
    (w.renumber n).refreshRecord (n + key) body metadata
      = (w.refreshRecord key body metadata).renumber n := by
  simp only [refreshRecord, work_renumber, UnitOfWork.find?_renumber, modifyRecord_renumber]
  split
  · split <;> rfl
  · rfl

theorem addLoaded_renumber (id : String) (body metadata : Fields) :
    (w.renumber n).addLoaded id body metadata
      = (n + (w.addLoaded id body metadata).1, (w.addLoaded id body metadata).2.renumber n) := by
  simp only [addLoaded, work_renumber, UnitOfWork.addRecord_renumber,
    UnitOfWork.identities_renumber, IdentityMap.insert_renumber]
  rfl

theorem register_renumber (document : Fields) :
    (w.renumber n).register document
      = ((w.register document).1.map (n + ·), (w.register document).2.renumber n) := by
  simp only [register, work_renumber, UnitOfWork.identities_renumber, IdentityMap.get?_renumber,
    addLoaded_renumber]
  split
  · rfl
  · next id _ =>
    cases w.work.identities.get? id with
    | none => rfl
    | some key => simp only [Option.map_some, refreshRecord_renumber]; rfl

theorem trackDocument_renumber (type : EntityType) (document : Fields) :
    (w.renumber n).trackDocument type document = renumbered n (w.trackDocument type document) := by
  simp only [trackDocument, register_renumber]
  rcases w.register document with ⟨e | key, w'⟩
  · rfl
  · simp only [Except.map, entityFor_renumber]
    rcases w'.entityFor type key with ⟨_ | _ | entity, w'⟩ <;> rfl

theorem registerAll_renumber (documents : List Fields) :
    (w.renumber n).registerAll documents = renumbered n (w.registerAll documents) := by
  induction documents generalizing w with
  | nil => rfl
  | cons document rest ih =>
    simp only [registerAll, register_renumber]
    rcases w.register document with ⟨e | key, w'⟩
    · rfl
    · exact ih w'

theorem detached_renumber (type : EntityType) (document : Fields) :
    (w.renumber n).detached type document = renumbered n (w.detached type document) := by
  simp only [detached, work_renumber, UnitOfWork.conventions_renumber]
  split <;> rfl

theorem takeDocuments_renumber (ids : List String) (results : List (Option Fields)) :
    (w.renumber n).takeDocuments ids results = renumbered n (w.takeDocuments ids results) := by
  induction ids generalizing w results with
  | nil => rfl
  | cons id ids ih =>
    rcases results with _ | ⟨_ | document, results⟩
    · rfl
    · exact ih (w.markMissing id) results
    · simp only [takeDocuments, register_renumber]
      rcases w.register document with ⟨e | key, w'⟩
      · rfl
      · exact ih w' results

theorem takeLoad_renumber (ids : List String) (reply : LoadReply) :
    (w.renumber n).takeLoad ids reply = renumbered n (w.takeLoad ids reply) := by
  simp only [takeLoad, registerAll_renumber]
  rcases w.registerAll reply.includes with ⟨e | _, w'⟩
  · rfl
  · exact w'.takeDocuments_renumber n ids reply.results

theorem markAllMissing_renumber (ids : List String) :
    (w.renumber n).markAllMissing ids = (w.markAllMissing ids).renumber n := by
  induction ids generalizing w with
  | nil => rfl
  | cons id ids ih => exact ih (w.markMissing id)

theorem unknownIds_renumber (type : EntityType) (ids : List String) :
    (w.renumber n).unknownIds type ids = renumbered n (w.unknownIds type ids) := by
  induction ids generalizing w with
  | nil => rfl
  | cons id ids ih =>
    simp only [unknownIds, lookup_renumber]
    rcases w.lookup type id with ⟨e | known, w'⟩
    · rfl
    · simp only [renumbered, ih]
      rcases w'.unknownIds type ids with ⟨e | unknown, w'⟩ <;> rfl

theorem collect_renumber (type : EntityType) (found : Dict (Option EntityRef))
    (ids : List String) :
    (w.renumber n).collect type found ids = renumbered n (w.collect type found ids) := by
  induction ids generalizing w found with
  | nil => rfl
  | cons id ids ih =>
    simp only [collect, lookup_renumber]
    rcases w.lookup type id with ⟨e | entity | _, w'⟩
    · rfl
    · exact ih w' (found.insert id entity)
    · exact ih w' (found.insert id none)

theorem makeDetached_renumber (type : EntityType) (found : Dict (Option EntityRef))
    (ids : List String) (results : List (Option Fields)) :
    OpenSession.makeDetached (w.renumber n) type found ids results
      = renumbered n (OpenSession.makeDetached w type found ids results) := by
  induction ids generalizing w found results with
  | nil => rfl
  | cons id ids ih =>
    rcases results with _ | ⟨_ | document, results⟩
    · rfl
    · exact ih w (found.insert id none) results
    · simp only [OpenSession.makeDetached, detached_renumber]
      rcases w.detached type document with ⟨e | entity, w'⟩
      · rfl
      · exact ih w' (found.insert id (some entity)) results

theorem takeResults_renumber (type : EntityType) (tracking : Bool) (results : List Json) :
    (w.renumber n).takeResults type tracking results
      = renumbered n (w.takeResults type tracking results) := by
  induction results generalizing w with
  | nil => rfl
  | cons result rest ih =>
    cases result with
    | obj document =>
      have hmade : (if tracking && QueryReply.isDocument document then
            (w.renumber n).trackDocument type document
          else (w.renumber n).detached type document)
          = renumbered n (if tracking && QueryReply.isDocument document then
            w.trackDocument type document else w.detached type document) := by
        rw [trackDocument_renumber, detached_renumber]
        split <;> rfl
      simp only [takeResults, hmade]
      rcases (if tracking && QueryReply.isDocument document then w.trackDocument type document
          else w.detached type document) with ⟨e | entity, w'⟩
      · rfl
      · simp only [renumbered, ih]
        rcases w'.takeResults type tracking rest with ⟨e | entities, w'⟩ <;> rfl
    | _ => exact ih w

theorem takeQuery_renumber (type : EntityType) (tracking : Bool) (reply : QueryReply) :
    (w.renumber n).takeQuery type tracking reply
      = renumbered n (w.takeQuery type tracking reply) := by
  simp only [takeQuery, registerAll_renumber]
  rcases w.registerAll (if tracking then reply.includes else []) with ⟨e | _, w'⟩
  · rfl
  · simp only [renumbered, takeResults_renumber]
    rcases w'.takeResults type tracking reply.results with ⟨e | entities, w'⟩ <;> rfl

/-! ## Lazy reads -/

theorem prepare_renumber (read : LazyRead) :
    read.prepare (w.renumber n) = renumbered n (read.prepare w) := by
  cases read with
  | load type ids includes requested =>
    simp only [LazyRead.prepare, unknownIds_renumber]
    rcases w.unknownIds type ids with ⟨e | _ | ⟨id, unknown⟩, w'⟩
    · rfl
    · simp only [renumbered, collect_renumber]
    · rfl
  | query type q tracking => rfl
  | count q => rfl

theorem takeLoaded_renumber (requested : List String) (response : SubResponse) :
    LazyRead.takeLoaded (w.renumber n) requested response
      = renumbered n (LazyRead.takeLoaded w requested response) := by
  simp only [LazyRead.takeLoaded, markAllMissing_renumber, takeLoad_renumber]
  split
  · rfl
  · split <;> rfl

theorem receive_renumber (read : LazyRead) (response : SubResponse) :
    read.receive (w.renumber n) response = renumbered n (read.receive w response) := by
  cases read with
  | load type ids includes requested =>
    simp only [LazyRead.receive, takeLoaded_renumber]
    rcases LazyRead.takeLoaded w requested response with ⟨e | _, w'⟩
    · rfl
    · simp only [renumbered, collect_renumber]
  | query type q tracking =>
    simp only [LazyRead.receive, takeQuery_renumber]
    split <;> rfl
  | count q => rfl

end Workspace

/-! ## Plans -/

/-- The origin with its record key raised by `n`. -/
def Origin.renumber (n : Nat) : Origin → Origin
  | .put key body metadata => .put (n + key) body metadata
  | .delete key => .delete (n + key)
  | .deferred => .deferred

/-- The planned command with its record key raised by `n`. -/
def Planned.renumber (n : Nat) (p : Planned) : Planned :=
  { p with origin := p.origin.renumber n }

/-- The plan with all record keys raised by `n`. -/
def Plan.renumber (plan : Plan) (n : Nat) : Plan :=
  plan.map (Planned.renumber n)

theorem Plan.commands_renumber (plan : Plan) (n : Nat) :
    (plan.renumber n).commands = plan.commands := by
  simp only [commands, renumber, List.map_map]
  rfl

theorem Plan.body_renumber (plan : Plan) (n : Nat) : (plan.renumber n).body = plan.body := by
  rw [body, commands_renumber, body]

namespace Workspace

variable (w : Workspace) (n : Nat) (callbacks : Callbacks)

/-- The plan that a workspace makes, with all record keys raised in it and in the workspace after
it. -/
def renumberedPlan (n : Nat) (done : Except Error Plan × Workspace) :
    Except Error Plan × Workspace :=
  (done.1.map (Plan.renumber · n), done.2.renumber n)

theorem planDeletes_renumber (keys : List RecordKey) :
    (w.renumber n).planDeletes callbacks (keys.map (n + ·))
      = renumberedPlan n (w.planDeletes callbacks keys) := by
  induction keys generalizing w with
  | nil => rfl
  | cons key rest ih =>
    rw [List.map_cons, planDeletes, planDeletes, work_renumber, UnitOfWork.find?_renumber]
    cases w.work.records.find? key with
    | none => exact ih w
    | some r =>
      dsimp only
      rw [UnitOfWork.hasDeferred_renumber, shared_renumber]
      split
      · exact ih w
      · rcases Callbacks.callEach r.id callbacks.beforeDelete w.shared with ⟨e | _, shared⟩
        · rfl
        · have hrest := ih { w with shared }
          simp only [renumber] at hrest ⊢
          rw [hrest]
          rcases planDeletes { w with shared } callbacks rest with ⟨e | plan, w'⟩ <;> rfl

theorem planPut_renumber (key : RecordKey) (r : Record) (entity : EntityRef) :
    (w.renumber n).planPut callbacks (n + key) r entity
      = ((w.planPut callbacks key r entity).1.map (Planned.renumber n),
          (w.planPut callbacks key r entity).2.renumber n) := by
  unfold planPut
  rw [openDictionary_renumber]
  rcases w.openDictionary key r with ⟨node, w'⟩
  dsimp only [renumbered, shared_renumber]
  split
  · rfl
  · next shared _ =>
    have hbody : Workspace.bodyOf { work := w'.work.renumber n, shared } entity
        = Workspace.bodyOf { w' with shared } entity := rfl
    rw [work_renumber, hbody]
    split <;> rfl

theorem planEntity_renumber (key : RecordKey) :
    (w.renumber n).planEntity callbacks (n + key)
      = ((w.planEntity callbacks key).1.map (Option.map (Planned.renumber n)),
          (w.planEntity callbacks key).2.renumber n) := by
  simp only [planEntity, work_renumber, UnitOfWork.isToDelete_renumber,
    UnitOfWork.find?_renumber, planPut_renumber]
  split
  · next r _ _ =>
    cases r.entity with
    | none => rfl
    | some entity =>
      have hbody : (w.renumber n).bodyOf entity = w.bodyOf entity := rfl
      have hdeferred : (w.work.renumber n).hasDeferred r.id = w.work.hasDeferred r.id := rfl
      have hmust : ∀ body, (w.renumber n).mustWrite r body = w.mustWrite r body := fun _ => rfl
      simp only [hbody, hdeferred, hmust]
      split
      · rfl
      · cases w.bodyOf entity with
        | error e => rfl
        | ok body =>
          dsimp only
          split
          · rfl
          · rcases w.planPut callbacks key r entity with ⟨e | planned, w'⟩ <;> rfl
  · rfl

theorem planPuts_renumber (keys : List RecordKey) :
    (w.renumber n).planPuts callbacks (keys.map (n + ·))
      = renumberedPlan n (w.planPuts callbacks keys) := by
  induction keys generalizing w with
  | nil => rfl
  | cons key rest ih =>
    simp only [List.map_cons, planPuts, planEntity_renumber]
    rcases w.planEntity callbacks key with ⟨e | planned, w'⟩
    · rfl
    · simp only [Except.map, ih]
      rcases w'.planPuts callbacks rest with ⟨e | plan, w'⟩
      · rfl
      · cases planned <;> rfl

theorem planDeferred_renumber (commands : List Command) :
    (w.renumber n).planDeferred callbacks commands
      = renumberedPlan n (w.planDeferred callbacks commands) := by
  induction commands generalizing w with
  | nil => rfl
  | cons command rest ih =>
    simp only [planDeferred, shared_renumber]
    rcases (if command.kind = .delete then
        Callbacks.callEach command.id callbacks.beforeDelete w.shared
      else (.ok (), w.shared)) with ⟨e | _, shared⟩
    · rfl
    · have hrest := ih { w with shared }
      simp only [renumber] at hrest ⊢
      rw [hrest]
      rcases planDeferred { w with shared } callbacks rest with ⟨e | plan, w'⟩ <;> rfl

theorem planSave_renumber :
    (w.renumber n).planSave callbacks = renumberedPlan n (w.planSave callbacks) := by
  simp only [planSave, work_renumber, UnitOfWork.deleted_renumber, Keyed.keys_shift,
    planDeletes_renumber]
  rcases w.planDeletes callbacks w.work.deleted.keys with ⟨e | deletes, w₁⟩
  · rfl
  · simp only [renumberedPlan, Except.map, work_renumber, UnitOfWork.registry_renumber,
      Registry.records_renumber, planPuts_renumber]
    rcases w₁.planPuts callbacks w₁.work.registry.records with ⟨e | puts, w₂⟩
    · rfl
    · simp only [renumberedPlan, Except.map, work_renumber, UnitOfWork.deferred_renumber,
        planDeferred_renumber]
      rcases w₂.planDeferred callbacks w₂.work.deferred with ⟨e | deferred, w₃⟩
      · rfl
      · simp only [Plan.renumber, List.map_append]

/-! ## Settling a save -/

theorem filter_map_add (found : Option RecordKey) (key : RecordKey) :
    (found.map (n + ·)).filter (· ≠ n + key) = (found.filter (· ≠ key)).map (n + ·) := by
  rw [Option.filter_map]
  simp only [Function.comp_def, ne_eq, Nat.add_left_cancel_iff]

theorem settleId_renumber (key : RecordKey) (oldId id : String) :
    (w.renumber n).settleId (n + key) oldId id = renumbered n (w.settleId key oldId id) := by
  unfold settleId
  have hunindexed : (if Identifier.normalize oldId = Identifier.normalize id then w.renumber n
        else { w.renumber n with
          work := { (w.renumber n).work with
            identities := (w.renumber n).work.identities.removeRecord (n + key) } })
      = (if Identifier.normalize oldId = Identifier.normalize id then w
        else { w with
          work := { w.work with
            identities := w.work.identities.removeRecord key } }).renumber n := by
    rw [work_renumber, UnitOfWork.identities_renumber, IdentityMap.removeRecord_renumber]
    split <;> rfl
  rw [hunindexed]
  generalize (if Identifier.normalize oldId = Identifier.normalize id then w
    else { w with work := { w.work with identities := w.work.identities.removeRecord key } }) = w₁
  simp only [work_renumber, UnitOfWork.identities_renumber, IdentityMap.get?_renumber,
    filter_map_add]
  cases (w₁.work.identities.get? id).filter (· ≠ key) with
  | none =>
    simp only [Option.map_none, work_renumber, UnitOfWork.identities_renumber,
      IdentityMap.insert_renumber]
    rfl
  | some other =>
    simp only [Option.map_some, removeRecord_renumber]
    rcases w₁.removeRecord other with ⟨_ | r, w₂⟩ <;>
      simp only [renumbered, work_renumber, UnitOfWork.identities_renumber,
        IdentityMap.insert_renumber] <;> rfl

theorem settlePut_renumber (key : RecordKey) (body sent result : Fields) :
    (w.renumber n).settlePut (n + key) body sent result
      = renumbered n (w.settlePut key body sent result) := by
  unfold settlePut
  rw [work_renumber, UnitOfWork.find?_renumber]
  split
  · rfl
  · split
    · rfl
    · simp only [shared_renumber, modifyRecord_renumber, settleId_renumber]

theorem settleDelete_renumber (key : RecordKey) :
    (w.renumber n).settleDelete (n + key) = (w.settleDelete key).renumber n := by
  rw [settleDelete, removeRecord_renumber, settleDelete]
  rcases w.removeRecord key with ⟨_ | r, w'⟩ <;> rfl

theorem settleDeferredPut_renumber (id : String) (result : Fields) :
    (w.renumber n).settleDeferredPut id result = (w.settleDeferredPut id result).renumber n := by
  simp only [settleDeferredPut, work_renumber, UnitOfWork.recordForId?_renumber]
  cases w.work.recordForId? id with
  | none => rfl
  | some found => simp only [Option.map_some, shared_renumber, modifyRecord_renumber]; rfl

theorem settleDeferredDelete_renumber (id : String) :
    (w.renumber n).settleDeferredDelete id = (w.settleDeferredDelete id).renumber n := by
  simp only [settleDeferredDelete, work_renumber, UnitOfWork.identities_renumber,
    IdentityMap.get?_renumber]
  cases w.work.identities.get? id with
  | none => rfl
  | some key => simp only [Option.map_some, removeRecord_renumber]; rfl

theorem settleModified_renumber (key : RecordKey) (r : Record) (document : Fields) :
    (w.renumber n).settleModified (n + key) r document
      = renumbered n (w.settleModified key r document) := by
  simp only [settleModified, work_renumber, shared_renumber, UnitOfWork.conventions_renumber,
    modifyRecord_renumber]
  split <;> rfl

theorem settleDeferredPatch_renumber (id : String) (result : Fields) :
    (w.renumber n).settleDeferredPatch id result
      = renumbered n (w.settleDeferredPatch id result) := by
  simp only [settleDeferredPatch, work_renumber, UnitOfWork.recordForId?_renumber]
  cases w.work.recordForId? id with
  | none => rfl
  | some found =>
    simp only [Option.map_some, shared_renumber, modifyRecord_renumber, settleModified_renumber]
    split <;> rfl

theorem settleResult_renumber (planned : Planned) (result : Fields) :
    (w.renumber n).settleResult (planned.renumber n) result
      = renumbered n (w.settleResult planned result) := by
  obtain ⟨command, origin⟩ := planned
  cases origin with
  | put key body metadata => exact w.settlePut_renumber n key body metadata result
  | delete key => exact congrArg (Prod.mk _) (w.settleDelete_renumber n key)
  | deferred =>
    simp only [settleResult, Planned.renumber, Origin.renumber]
    cases command.kind with
    | put => exact congrArg (Prod.mk _) (w.settleDeferredPut_renumber n command.id result)
    | delete => exact congrArg (Prod.mk _) (w.settleDeferredDelete_renumber n command.id)
    | patch => exact w.settleDeferredPatch_renumber n command.id result

theorem settleAll_renumber (failure : Option Error) (plan : Plan) (results : List Fields) :
    (w.renumber n).settleAll failure (plan.renumber n) results
      = renumbered n (w.settleAll failure plan results) := by
  induction plan generalizing w failure results with
  | nil => rfl
  | cons planned plan ih =>
    cases results with
    | nil => rfl
    | cons result results =>
      show (w.renumber n).settleAll failure (planned.renumber n :: Plan.renumber plan n) _ = _
      rw [settleAll, settleResult_renumber, settleAll]
      exact ih _ _ results

theorem savedRecords_renumber (plan : Plan) :
    savedRecords (plan.renumber n) = (savedRecords plan).map (n + ·) := by
  induction plan with
  | nil => rfl
  | cons planned plan ih =>
    obtain ⟨command, origin⟩ := planned
    cases origin with
    | put key body metadata => exact congrArg (List.cons (n + key)) ih
    | _ => exact ih

theorem announce_renumber (failure : Option Error) (keys : List RecordKey) :
    (w.renumber n).announce callbacks failure (keys.map (n + ·))
      = renumbered n (w.announce callbacks failure keys) := by
  induction keys generalizing w failure with
  | nil => rfl
  | cons key rest ih =>
    rw [List.map_cons, announce, announce, work_renumber, UnitOfWork.find?_renumber]
    cases w.work.records.find? key with
    | none => exact ih w failure
    | some r =>
      rcases hcalled : Callbacks.callEach { id := r.id, entity := r.entity } callbacks.afterSave
        w.shared with ⟨called, shared⟩
      dsimp only
      rw [shared_renumber, hcalled]
      exact ih { w with shared } (firstError failure called)

theorem settle_renumber (plan : Plan) (answer : Option Json) :
    (w.renumber n).settle callbacks (plan.renumber n) answer
      = renumbered n (w.settle callbacks plan answer) := by
  have hresults : resultsFor (plan.renumber n) answer = resultsFor plan answer := by
    simp only [resultsFor, Plan.commands_renumber]
    rw [show (plan.renumber n).length = plan.length from List.length_map ..]
  rw [settle, hresults, settle]
  cases resultsFor plan answer with
  | error e => rfl
  | ok results =>
    dsimp only
    rw [settleAll_renumber, savedRecords_renumber]
    rcases w.settleAll none plan results with ⟨failure, w'⟩
    have hcalled := announce_renumber { w' with work := { w'.work with deferred := [] } } n
      callbacks
      failure (savedRecords plan)
    exact congrArg
      (fun called : Option Error × Workspace =>
        (called.1.elim (Except.ok ()) Except.error, called.2)) hcalled

end Workspace

end DocumentSession
