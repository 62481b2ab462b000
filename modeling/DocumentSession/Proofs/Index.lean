import DocumentSession.Proofs.Keyed
import DocumentSession.Index
import Mathlib.Data.List.Nodup
import Mathlib.Data.String.Basic

set_option autoImplicit false

/-! # Indexes, read through look-ups

One lemma for each operation of an index: what a look-up finds after it. The list `Registry.records`
is read through membership (`Registry.mem_records`). -/

namespace DocumentSession

open Keyed (find?_insert find?_erase find?_filter)

/-! ## Records by identifier -/

namespace IdentityMap

theorem get?_congr (m : IdentityMap) {id id' : String}
    (h : Identifier.normalize id = Identifier.normalize id') : m.get? id = m.get? id' := by
  unfold get?
  rw [h]

theorem get?_insert (m : IdentityMap) (id : String) (key : RecordKey) (id' : String) :
    (m.insert id key).get? id'
      = if Identifier.normalize id = Identifier.normalize id' then some key else m.get? id' := by
  unfold get? insert
  rw [find?_insert]

theorem get?_removeRecord {m : IdentityMap} (hm : m.entries.Sorted) (key : RecordKey)
    (id : String) : (m.removeRecord key).get? id = (m.get? id).filter (· ≠ key) := by
  unfold get? removeRecord
  rw [find?_filter hm]

theorem get?_removeRecord_eq_some_iff {m : IdentityMap} (hm : m.entries.Sorted) {key : RecordKey}
    {id : String} {key' : RecordKey} :
    (m.removeRecord key).get? id = some key' ↔ m.get? id = some key' ∧ key' ≠ key := by
  rw [get?_removeRecord hm, Option.filter_eq_some_iff, decide_eq_true_eq]

theorem removeRecord_comm (m : IdentityMap) (key key' : RecordKey) :
    (m.removeRecord key).removeRecord key' = (m.removeRecord key').removeRecord key := by
  unfold removeRecord
  rw [List.filter_filter, List.filter_filter]
  congr 1
  apply List.filter_congr
  intro entry _
  exact Bool.and_comm _ _

end IdentityMap

/-! ## Records by instance -/

namespace Registry

theorem get?_insert (r : Registry) (entity : EntityRef) (key : RecordKey) (entity' : EntityRef) :
    (r.insert entity key).get? entity' = if entity = entity' then some key else r.get? entity' :=
  find?_insert ..

theorem get?_remove (r : Registry) (entity entity' : EntityRef) :
    (r.remove entity).get? entity' = if entity = entity' then none else r.get? entity' :=
  find?_erase ..

/-! The instance of a record may be none. -/

theorem get?_elim_insert (r : Registry) (holds : Option EntityRef) (key : RecordKey)
    (entity : EntityRef) :
    (holds.elim r (r.insert · key)).get? entity
      = if holds = some entity then some key else r.get? entity := by
  cases holds with
  | none => rfl
  | some e => simp [get?_insert]

theorem get?_elim_remove (r : Registry) (holds : Option EntityRef) (entity : EntityRef) :
    (holds.elim r r.remove).get? entity = if holds = some entity then none else r.get? entity := by
  cases holds with
  | none => rfl
  | some e => simp [get?_remove]

theorem sorted_elim_insert {r : Registry} (hr : r.entries.Sorted) (holds : Option EntityRef)
    (key : RecordKey) : (holds.elim r (r.insert · key)).entries.Sorted := by
  cases holds with
  | none => exact hr
  | some e => exact Keyed.sorted_insert hr e key

theorem sorted_elim_remove {r : Registry} (hr : r.entries.Sorted) (holds : Option EntityRef) :
    (holds.elim r r.remove).entries.Sorted := by
  cases holds with
  | none => exact hr
  | some e => exact Keyed.sorted_erase hr e

theorem insertInOrder_perm (key : RecordKey) (keys : List RecordKey) :
    (insertInOrder key keys).Perm (key :: keys) := by
  induction keys with
  | nil => exact .refl _
  | cons k rest ih =>
    rw [insertInOrder]
    split
    · exact .refl _
    · exact (ih.cons k).trans (.swap ..)

theorem records_perm (r : Registry) : r.records.Perm (r.entries.map (·.2)) := by
  unfold records
  generalize r.entries.map (·.2) = keys
  induction keys with
  | nil => exact .refl _
  | cons k rest ih =>
    rw [List.foldr_cons]
    exact (insertInOrder_perm k _).trans (ih.cons k)

/-- `records` are the keys that `get?` finds for some entity. -/
theorem mem_records {r : Registry} (hr : r.entries.Sorted) {key : RecordKey} :
    key ∈ r.records ↔ ∃ entity, r.get? entity = some key := by
  rw [(records_perm r).mem_iff, List.mem_map]
  constructor
  · rintro ⟨⟨entity, k⟩, hmem, rfl⟩
    exact ⟨entity, Keyed.find?_of_mem hr hmem⟩
  · rintro ⟨entity, h⟩
    exact ⟨(entity, key), Keyed.mem_of_find? h, rfl⟩

/-- Where every record has one entity, `records` has it once. -/
theorem nodup_records {r : Registry} (hr : r.entries.Sorted)
    (hone : ∀ entity entity' key, r.get? entity = some key → r.get? entity' = some key →
      entity = entity') : r.records.Nodup := by
  rw [(records_perm r).nodup_iff]
  -- entries differ in their instances, so those with one record would too
  refine (List.Nodup.of_map Prod.fst (Keyed.nodup_keys hr)).map_on ?_
  rintro ⟨entity, key⟩ hmem ⟨entity', key'⟩ hmem' (rfl : key = key')
  have hsame := hone entity entity' key (Keyed.find?_of_mem hr hmem) (Keyed.find?_of_mem hr hmem')
  rw [hsame]

end Registry

/-! ## Identifiers without document -/

namespace KnownMissing

theorem contains_insert (m : KnownMissing) (id id' : String) :
    (m.insert id).contains id'
      = (Identifier.normalize id = Identifier.normalize id' || m.contains id') := by
  unfold contains insert Keyed.contains
  rw [find?_insert]
  by_cases h : Identifier.normalize id = Identifier.normalize id' <;> simp [h]

theorem contains_remove (m : KnownMissing) (id id' : String) :
    (m.remove id).contains id'
      = (Identifier.normalize id ≠ Identifier.normalize id' && m.contains id') := by
  unfold contains remove
  rw [Keyed.contains_erase]

end KnownMissing

end DocumentSession
