import DocumentSession.Proofs.Keyed
import DocumentSession.Workspace.Basic

set_option autoImplicit false

/-! # The keys of records

A workspace gives its records the keys from `nextKey` on. Which keys these are shows in nothing that
it does: with all of them raised by the same amount (`Workspace.renumber`) every operation does the
same, gives the same answer, and leaves the renumbered workspace. Raising keeps the order, so tables
are walked in the same order too. -/

namespace DocumentSession

/-! ## Tables -/

namespace Keyed

variable {κ α β : Type} [DecidableEq κ]

/-- The same entries under keys raised by `n`. -/
def shift (t : Table α) (n : Nat) : Table α :=
  t.map (fun entry => (n + entry.1, entry.2))

/-- The same keys with changed values. -/
def mapEntries (f : α → β) (t : Keyed κ α) : Keyed κ β :=
  t.map (fun entry => (entry.1, f entry.2))

theorem find?_shift (t : Table α) (n key : Nat) : (shift t n).find? (n + key) = t.find? key := by
  induction t with
  | nil => rfl
  | cons entry rest ih =>
    show (if n + entry.1 = n + key then some entry.2 else (shift rest n).find? (n + key)) = _
    rw [ih, find?_cons]
    simp only [Nat.add_left_cancel_iff]

theorem contains_shift (t : Table α) (n key : Nat) :
    (shift t n).contains (n + key) = t.contains key := by
  rw [contains, find?_shift, contains]

theorem insert_shift (t : Table α) (n key : Nat) (value : α) :
    (shift t n).insert (n + key) value = shift (t.insert key value) n := by
  induction t with
  | nil => rfl
  | cons entry rest ih =>
    obtain ⟨k, v⟩ := entry
    show insert ((n + k, v) :: shift rest n) (n + key) value = _
    simp only [insert, Nat.add_left_cancel_iff, Nat.add_lt_add_iff_left, ih]
    split
    · rfl
    · split <;> rfl

theorem erase_shift (t : Table α) (n key : Nat) :
    (shift t n).erase (n + key) = shift (t.erase key) n := by
  simp only [erase, shift, List.filter_map, Function.comp_def, ne_eq, Nat.add_left_cancel_iff]

theorem modify_shift (t : Table α) (n key : Nat) (change : α → α) :
    (shift t n).modify (n + key) change = shift (t.modify key change) n := by
  simp only [modify, shift, List.map_map, Function.comp_def, Nat.add_left_cancel_iff]
  refine List.map_congr_left fun entry _ => ?_
  split <;> rfl

theorem keys_shift (t : Table α) (n : Nat) : (shift t n).keys = t.keys.map (n + ·) := by
  simp only [keys, shift, List.map_map, Function.comp_def]

theorem find?_mapEntries (f : α → β) (t : Keyed κ α) (key : κ) :
    (mapEntries f t).find? key = (t.find? key).map f := by
  induction t with
  | nil => rfl
  | cons entry rest ih =>
    show (if entry.1 = key then some (f entry.2) else (mapEntries f rest).find? key) = _
    rw [ih, find?_cons]
    split <;> rfl

theorem insert_mapEntries [LT κ] [DecidableLT κ] (f : α → β) (t : Keyed κ α) (key : κ)
    (value : α) : (mapEntries f t).insert key (f value) = mapEntries f (t.insert key value) := by
  induction t with
  | nil => rfl
  | cons entry rest ih =>
    obtain ⟨k, v⟩ := entry
    show insert ((k, f v) :: mapEntries f rest) key (f value) = _
    simp only [insert, ih]
    split
    · rfl
    · split <;> rfl

theorem erase_mapEntries (f : α → β) (t : Keyed κ α) (key : κ) :
    (mapEntries f t).erase key = mapEntries f (t.erase key) := by
  simp only [erase, mapEntries, List.filter_map, Function.comp_def]

end Keyed

/-! ## Indexes -/

/-- The index with all record keys raised by `n`. -/
def IdentityMap.renumber (m : IdentityMap) (n : Nat) : IdentityMap :=
  ⟨m.entries.mapEntries (n + ·)⟩

/-- The index with all record keys raised by `n`. -/
def Registry.renumber (r : Registry) (n : Nat) : Registry :=
  ⟨r.entries.mapEntries (n + ·)⟩

namespace IdentityMap

variable (m : IdentityMap) (n : Nat)

theorem get?_renumber (id : String) : (m.renumber n).get? id = (m.get? id).map (n + ·) :=
  Keyed.find?_mapEntries _ _ _

theorem insert_renumber (id : String) (key : RecordKey) :
    (m.renumber n).insert id (n + key) = (m.insert id key).renumber n :=
  congrArg IdentityMap.mk (Keyed.insert_mapEntries (n + ·) _ _ key)

theorem removeRecord_renumber (key : RecordKey) :
    (m.renumber n).removeRecord (n + key) = (m.removeRecord key).renumber n := by
  simp only [removeRecord, renumber, Keyed.mapEntries, List.filter_map, Function.comp_def, ne_eq,
    Nat.add_left_cancel_iff]

end IdentityMap

namespace Registry

variable (r : Registry) (n : Nat)

theorem get?_renumber (entity : EntityRef) :
    (r.renumber n).get? entity = (r.get? entity).map (n + ·) :=
  Keyed.find?_mapEntries _ _ _

theorem insert_renumber (entity : EntityRef) (key : RecordKey) :
    (r.renumber n).insert entity (n + key) = (r.insert entity key).renumber n :=
  congrArg Registry.mk (Keyed.insert_mapEntries (n + ·) _ _ key)

theorem remove_renumber (entity : EntityRef) :
    (r.renumber n).remove entity = (r.remove entity).renumber n :=
  congrArg Registry.mk (Keyed.erase_mapEntries _ _ _)

theorem insertInOrder_map (key : RecordKey) (keys : List RecordKey) :
    insertInOrder (n + key) (keys.map (n + ·)) = (insertInOrder key keys).map (n + ·) := by
  induction keys with
  | nil => rfl
  | cons k rest ih =>
    simp only [List.map_cons, insertInOrder, ih, Nat.add_le_add_iff_left]
    split <;> rfl

theorem records_renumber : (r.renumber n).records = r.records.map (n + ·) := by
  obtain ⟨entries⟩ := r
  simp only [records, renumber, Keyed.mapEntries]
  induction entries with
  | nil => rfl
  | cons entry rest ih =>
    simp only [List.map_cons, List.foldr_cons, ih, insertInOrder_map]

end Registry

/-! ## Units of work -/

namespace UnitOfWork

/-- The unit of work with all record keys raised by `n`. -/
def renumber (u : UnitOfWork) (n : Nat) : UnitOfWork :=
  { u with
    records := u.records.shift n
    nextKey := n + u.nextKey
    identities := u.identities.renumber n
    registry := u.registry.renumber n
    deleted := u.deleted.shift n }

variable (u : UnitOfWork) (n : Nat)

@[simp] theorem conventions_renumber : (u.renumber n).conventions = u.conventions := rfl

@[simp] theorem nextKey_renumber : (u.renumber n).nextKey = n + u.nextKey := rfl

@[simp] theorem identities_renumber : (u.renumber n).identities = u.identities.renumber n := rfl

@[simp] theorem registry_renumber : (u.renumber n).registry = u.registry.renumber n := rfl

@[simp] theorem missing_renumber : (u.renumber n).missing = u.missing := rfl

@[simp] theorem deleted_renumber : (u.renumber n).deleted = u.deleted.shift n := rfl

@[simp] theorem deferred_renumber : (u.renumber n).deferred = u.deferred := rfl

@[simp] theorem noTracking_renumber : (u.renumber n).noTracking = u.noTracking := rfl

@[simp] theorem hasDeferred_renumber (id : String) :
    (u.renumber n).hasDeferred id = u.hasDeferred id := rfl

theorem find?_renumber (key : RecordKey) :
    (u.renumber n).records.find? (n + key) = u.records.find? key :=
  Keyed.find?_shift _ _ _

theorem isToDelete_renumber (key : RecordKey) :
    (u.renumber n).isToDelete (n + key) = u.isToDelete key :=
  Keyed.contains_shift _ _ _

theorem recordForId?_renumber (id : String) :
    (u.renumber n).recordForId? id = (u.recordForId? id).map (fun (key, r) => (n + key, r)) := by
  show ((u.identities.renumber n).get? id).bind _ = _
  rw [IdentityMap.get?_renumber, recordForId?]
  cases u.identities.get? id with
  | none => rfl
  | some key =>
    show ((u.renumber n).records.find? (n + key)).bind _ = _
    rw [find?_renumber]
    show _ = ((u.records.find? key).bind _).map _
    cases u.records.find? key <;> rfl

theorem recordForEntity?_renumber (entity : EntityRef) :
    (u.renumber n).recordForEntity? entity
      = (u.recordForEntity? entity).map (fun (key, r) => (n + key, r)) := by
  show ((u.registry.renumber n).get? entity).bind _ = _
  rw [Registry.get?_renumber, recordForEntity?]
  cases u.registry.get? entity with
  | none => rfl
  | some key =>
    show ((u.renumber n).records.find? (n + key)).bind _ = _
    rw [find?_renumber]
    show _ = ((u.records.find? key).bind _).map _
    cases u.records.find? key <;> rfl

theorem addRecord_renumber (r : Record) :
    (u.renumber n).addRecord r = (n + (u.addRecord r).1, (u.addRecord r).2.renumber n) := by
  simp only [addRecord, renumber, Keyed.insert_shift, Nat.add_assoc]

theorem modifyRecord_renumber (key : RecordKey) (change : Record → Record) :
    (u.renumber n).modifyRecord (n + key) change = (u.modifyRecord key change).renumber n := by
  simp only [modifyRecord, renumber, Keyed.modify_shift]

theorem withoutRecord_renumber (key : RecordKey) (r : Record) :
    (u.renumber n).withoutRecord (n + key) r = (u.withoutRecord key r).renumber n := by
  simp only [withoutRecord, renumber, Keyed.erase_shift, IdentityMap.removeRecord_renumber]
  cases r.entity with
  | none => rfl
  | some entity => simp only [Option.elim_some, Registry.remove_renumber]

theorem isLoaded_renumber (id : String) : (u.renumber n).isLoaded id = u.isLoaded id := by
  simp only [isLoaded, recordForId?_renumber]
  cases u.recordForId? id <;> rfl

theorem pendingCounts_renumber : (u.renumber n).pendingCounts = u.pendingCounts := by
  simp only [pendingCounts, renumber, Registry.renumber, Keyed.mapEntries, Keyed.shift,
    List.length_map]

end UnitOfWork

end DocumentSession
