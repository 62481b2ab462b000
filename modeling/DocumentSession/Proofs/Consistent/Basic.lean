import DocumentSession.Proofs.Index
import DocumentSession.Workspace.Basic

set_option autoImplicit false

/-! # The indexes of a unit of work agree

A record is reached by its key (`records`), by its identifier (`identities`), by its entity
(`registry`), and through `deleted`. `UnitOfWork.Coherent` says that these indexes agree with each
other and with the records, and `UnitOfWork.Consistent` adds what is needed for every operation to
keep that.

There is one lemma for each kind of change to a unit of work, `Consistent.modifyRecord`,
`Consistent.giveEntity`, `Consistent.addRecord`, `Consistent.withoutRecord` and so on; every
operation of a session is a composition of these. Those that put one record in its place go through
`Consistent.place`, which asks only for the indexes of this record and that the rest is as it
was. -/

namespace DocumentSession

open Keyed (find?_insert find?_erase find?_modify)

/-- The server has to complete the identifier of the record: it has an entity that was never saved,
under an incomplete identifier. -/
structure Record.AwaitsId (r : Record) (separator : Char) : Prop where
  isNew : r.isNew = true
  entity : r.entity.isSome = true
  incomplete : Identifier.isIncomplete r.id separator = true

namespace UnitOfWork

/-- The indexes of a unit of work agree with its records. -/
structure Coherent (u : UnitOfWork) : Prop where
  /-- `identities` leads to a record with this identifier. -/
  indexed : ∀ text key, u.identities.entries.find? text = some key →
    ∃ r, u.records.find? key = some r ∧ text = Identifier.normalize r.id
  /-- `registry` leads to a record if and only if it has this entity. -/
  held : ∀ entity key, u.registry.get? entity = some key ↔
    ∃ r, u.records.find? key = some r ∧ r.entity = some entity
  /-- Only a record that `AwaitsId` is not found by its identifier. -/
  unindexed : ∀ key r, u.records.find? key = some r → u.identities.get? r.id ≠ some key →
    r.AwaitsId u.conventions.separator
  /-- A record in `deleted` has an entity that was saved. -/
  deletable : ∀ key, u.isToDelete key = true →
    ∃ r, u.records.find? key = some r ∧ r.entity.isSome = true ∧ r.isNew = false
  filled : ∀ key r, u.records.find? key = some r → r.body.isSome = true ∨ r.entity.isSome = true
  /-- No two commands in `deferred` have the same kind and document. -/
  distinct : (u.deferred.map Command.dedupKey).Nodup

/-- A coherent unit of work whose indexes are sorted, over `instances` entities. -/
structure Consistent (u : UnitOfWork) (instances : Nat) : Prop extends u.Coherent where
  records_sorted : u.records.Sorted
  identities_sorted : u.identities.entries.Sorted
  registry_sorted : u.registry.entries.Sorted
  deleted_sorted : u.deleted.Sorted
  fresh : ∀ key r, u.records.find? key = some r → key < u.nextKey
  known : ∀ entity key, u.registry.get? entity = some key → entity < instances

theorem recordForId?_eq_some_iff {u : UnitOfWork} {id : String} {key : RecordKey} {r : Record} :
    u.recordForId? id = some (key, r)
      ↔ u.identities.get? id = some key ∧ u.records.find? key = some r := by
  unfold recordForId?
  constructor
  · intro hfound
    simp only [Option.bind_eq_bind, Option.bind_eq_some_iff, Option.pure_def,
      Option.some.injEq, Prod.mk.injEq] at hfound
    obtain ⟨k, hk, r', hr', rfl, rfl⟩ := hfound
    exact ⟨hk, hr'⟩
  · rintro ⟨hk, hr⟩
    simp [hk, hr]

namespace Coherent

variable {u : UnitOfWork}

/-- No two records have the same entity. -/
theorem eq_of_entity (h : u.Coherent) {key key' : RecordKey} {r r' : Record} {entity : EntityRef}
    (hr : u.records.find? key = some r) (hr' : u.records.find? key' = some r')
    (he : r.entity = some entity) (he' : r'.entity = some entity) : key = key' := by
  have hkey := (h.held entity key).mpr ⟨r, hr, he⟩
  have hkey' := (h.held entity key').mpr ⟨r', hr', he'⟩
  exact Option.some.inj (hkey.symm.trans hkey')

/-- Of two records with one identifier, one `AwaitsId`. -/
theorem awaitsId_of_same_id (h : u.Coherent) {key key' : RecordKey} {r r' : Record}
    (hr : u.records.find? key = some r) (hr' : u.records.find? key' = some r') (hne : key ≠ key')
    (hid : Identifier.normalize r.id = Identifier.normalize r'.id) :
    r.AwaitsId u.conventions.separator ∨ r'.AwaitsId u.conventions.separator := by
  by_cases hkey : u.identities.get? r.id = some key
  · refine Or.inr (h.unindexed key' r' hr' ?_)
    rw [← u.identities.get?_congr hid, hkey]
    intro heq
    exact hne (Option.some.inj heq)
  · exact Or.inl (h.unindexed key r hr hkey)

/-- The record that `identities` finds is there, and has the identifier. -/
theorem record_of_get? (h : u.Coherent) {id : String} {key : RecordKey}
    (hkey : u.identities.get? id = some key) :
    ∃ r, u.records.find? key = some r ∧ Identifier.normalize r.id = Identifier.normalize id := by
  obtain ⟨r, hr, hid⟩ := h.indexed _ key hkey
  exact ⟨r, hr, hid.symm⟩

theorem recordForId?_eq_none_iff (h : u.Coherent) {id : String} :
    u.recordForId? id = none ↔ u.identities.get? id = none := by
  constructor
  · intro hnone
    cases hk : u.identities.get? id with
    | none => rfl
    | some key =>
      obtain ⟨r, hr, -⟩ := h.record_of_get? hk
      rw [recordForId?_eq_some_iff.mpr ⟨hk, hr⟩] at hnone
      cases hnone
  · intro hnone
    simp [recordForId?, hnone]

theorem recordForEntity?_eq_some_iff (h : u.Coherent) {entity : EntityRef} {key : RecordKey}
    {r : Record} :
    u.recordForEntity? entity = some (key, r)
      ↔ u.records.find? key = some r ∧ r.entity = some entity := by
  unfold recordForEntity?
  constructor
  · intro hfound
    simp only [Option.bind_eq_bind, Option.bind_eq_some_iff, Option.pure_def,
      Option.some.injEq, Prod.mk.injEq] at hfound
    obtain ⟨k, hk, r', hr', rfl, rfl⟩ := hfound
    obtain ⟨r'', hr'', he⟩ := (h.held entity k).mp hk
    rw [hr'] at hr''
    obtain rfl := Option.some.inj hr''
    exact ⟨hr', he⟩
  · rintro ⟨hr, he⟩
    have hk := (h.held entity key).mpr ⟨r, hr, he⟩
    simp [hk, hr]

theorem recordForEntity?_eq_none_iff (h : u.Coherent) {entity : EntityRef} :
    u.recordForEntity? entity = none ↔ u.registry.get? entity = none := by
  constructor
  · intro hnone
    cases hk : u.registry.get? entity with
    | none => rfl
    | some key =>
      obtain ⟨r, hr, he⟩ := (h.held entity key).mp hk
      rw [(h.recordForEntity?_eq_some_iff).mpr ⟨hr, he⟩] at hnone
      cases hnone
  · intro hnone
    simp [recordForEntity?, hnone]

end Coherent

namespace Consistent

variable {u : UnitOfWork} {n : Nat}

/-- Where there are no records, the indexes are empty. -/
theorem of_empty (hrecords : u.records = []) (hidentities : u.identities = {})
    (hregistry : u.registry = {}) (hdeleted : u.deleted = []) (hdeferred : u.deferred = []) :
    u.Consistent n where
  indexed := by simp [hidentities]
  held := by simp [Registry.get?, hregistry, hrecords]
  unindexed := by simp [hrecords]
  deletable := by simp [isToDelete, Keyed.contains, hdeleted]
  filled := by simp [hrecords]
  distinct := by simp [hdeferred]
  records_sorted := by rw [hrecords]; exact Keyed.sorted_nil
  identities_sorted := by rw [hidentities]; exact Keyed.sorted_nil
  registry_sorted := by rw [hregistry]; exact Keyed.sorted_nil
  deleted_sorted := by rw [hdeleted]; exact Keyed.sorted_nil
  fresh := by simp [hrecords]
  known := by simp [Registry.get?, hregistry]

/-- There may be more entities. -/
theorem mono {m : Nat} (h : u.Consistent n) (hnm : n ≤ m) : u.Consistent m :=
  { h with known := fun entity key hkey => Nat.lt_of_lt_of_le (h.known entity key hkey) hnm }

/-- `missing` leads to no record. -/
theorem setMissing (h : u.Consistent n) (missing : KnownMissing) :
    UnitOfWork.Consistent { u with missing } n :=
  { h with }

/-- `deferred` leads to no record. -/
theorem setDeferred (h : u.Consistent n) {deferred : List Command}
    (hdistinct : (deferred.map Command.dedupKey).Nodup) :
    UnitOfWork.Consistent { u with deferred } n :=
  { h with distinct := hdistinct }

/-- A record with a saved entity may be marked for deletion. -/
theorem markDeleted (h : u.Consistent n) {key : RecordKey} {r : Record}
    (hr : u.records.find? key = some r) (he : r.entity.isSome = true) (hsaved : r.isNew = false) :
    UnitOfWork.Consistent { u with deleted := u.deleted.insert key () } n := by
  refine { h with deletable := ?_, deleted_sorted := Keyed.sorted_insert h.deleted_sorted key () }
  intro k hk
  simp only [isToDelete, Keyed.contains, find?_insert] at hk
  by_cases hkey : key = k
  · subst hkey
    exact ⟨r, hr, he, hsaved⟩
  · rw [if_neg hkey] at hk
    exact h.deletable k hk

end Consistent

/-! ## A record in its place -/

/-- From `u` to `u'` the record `r` is put at `key`, where there may have been one before. The
indexes of this record agree with it, and those of other records are as they were. -/
structure Places (u : UnitOfWork) (key : RecordKey) (r : Record) (u' : UnitOfWork) : Prop where
  conventions : u'.conventions = u.conventions
  deleted : u'.deleted = u.deleted
  deferred : u'.deferred = u.deferred
  records : ∀ k, u'.records.find? k = if key = k then some r else u.records.find? k
  numbered : key < u'.nextKey ∧ u.nextKey ≤ u'.nextKey
  otherIds : ∀ text k, key ≠ k →
    (u'.identities.entries.find? text = some k ↔ u.identities.entries.find? text = some k)
  otherInstances : ∀ entity k, key ≠ k →
    (u'.registry.get? entity = some k ↔ u.registry.get? entity = some k)
  indexed : ∀ text, u'.identities.entries.find? text = some key → text = Identifier.normalize r.id
  held : ∀ entity, u'.registry.get? entity = some key ↔ r.entity = some entity
  unindexed : u'.identities.get? r.id ≠ some key → r.AwaitsId u.conventions.separator
  deletable : u.isToDelete key = true → r.entity.isSome = true ∧ r.isNew = false
  filled : r.body.isSome = true ∨ r.entity.isSome = true

/-- The indexes of a unit of work are sorted. -/
structure Ordered (u : UnitOfWork) : Prop where
  records : u.records.Sorted
  identities : u.identities.entries.Sorted
  registry : u.registry.entries.Sorted

namespace Places

variable {u u' : UnitOfWork} {key : RecordKey} {r : Record}

theorem record (h : u.Places key r u') : u'.records.find? key = some r := by
  rw [h.records, if_pos rfl]

theorem record_of_ne (h : u.Places key r u') {k : RecordKey} (hk : key ≠ k) :
    u'.records.find? k = u.records.find? k := by
  rw [h.records, if_neg hk]

end Places

/-- `Places` keeps a unit of work consistent. -/
theorem Consistent.place {u u' : UnitOfWork} {n : Nat} (h : u.Consistent n) (key : RecordKey)
    (r : Record) (hplaces : u.Places key r u') (hordered : u'.Ordered)
    (hknown : ∀ entity, r.entity = some entity → entity < n) : u'.Consistent n where
  indexed text k hk := by
    by_cases hkey : key = k
    · subst hkey
      exact ⟨r, hplaces.record, hplaces.indexed text hk⟩
    · rw [hplaces.record_of_ne hkey]
      exact h.indexed text k ((hplaces.otherIds text k hkey).mp hk)
  held entity k := by
    by_cases hkey : key = k
    · subst hkey
      simp [hplaces.held, hplaces.record]
    · rw [hplaces.otherInstances entity k hkey, hplaces.record_of_ne hkey]
      exact h.held entity k
  unindexed k r' hr' hnot := by
    rw [hplaces.conventions]
    by_cases hkey : key = k
    · subst hkey
      obtain rfl := Option.some.inj (hplaces.record.symm.trans hr')
      exact hplaces.unindexed hnot
    · rw [hplaces.record_of_ne hkey] at hr'
      exact h.unindexed k r' hr' (fun hget => hnot ((hplaces.otherIds _ k hkey).mpr hget))
  deletable k hk := by
    replace hk : u.isToDelete k = true := by
      unfold isToDelete at hk ⊢
      rwa [hplaces.deleted] at hk
    by_cases hkey : key = k
    · subst hkey
      exact ⟨r, hplaces.record, hplaces.deletable hk⟩
    · rw [hplaces.record_of_ne hkey]
      exact h.deletable k hk
  filled k r' hr' := by
    by_cases hkey : key = k
    · subst hkey
      obtain rfl := Option.some.inj (hplaces.record.symm.trans hr')
      exact hplaces.filled
    · rw [hplaces.record_of_ne hkey] at hr'
      exact h.filled k r' hr'
  distinct := by
    rw [hplaces.deferred]
    exact h.distinct
  records_sorted := hordered.records
  identities_sorted := hordered.identities
  registry_sorted := hordered.registry
  deleted_sorted := by
    rw [hplaces.deleted]
    exact h.deleted_sorted
  fresh k r' hr' := by
    obtain ⟨hnew, hnext⟩ := hplaces.numbered
    by_cases hkey : key = k
    · exact hkey ▸ hnew
    · rw [hplaces.record_of_ne hkey] at hr'
      exact Nat.lt_of_lt_of_le (h.fresh k r' hr') hnext
  known entity k hk := by
    by_cases hkey : key = k
    · subst hkey
      exact hknown entity ((hplaces.held entity).mp hk)
    · exact h.known entity k ((hplaces.otherInstances entity k hkey).mp hk)

/-! ## Records that keep their place -/

/-- The change from `r` to `r'` keeps what the indexes say of the record. Only a record that is
found by its identifier may become a saved one. -/
structure KeepsPlace (u : UnitOfWork) (key : RecordKey) (r r' : Record) : Prop where
  id : r'.id = r.id
  entity : r'.entity = r.entity
  body : r.body.isSome = true → r'.body.isSome = true
  isNew : r'.isNew = r.isNew ∨ (r'.isNew = false ∧ u.identities.get? r.id = some key)

namespace Consistent

variable {u : UnitOfWork} {n : Nat}

/-- An identifier that leads to a record is its own. -/
theorem indexed_of_record (h : u.Consistent n) {key : RecordKey} {r : Record}
    (hr : u.records.find? key = some r) {text : String}
    (hkey : u.identities.entries.find? text = some key) : text = Identifier.normalize r.id := by
  obtain ⟨r', hr', htext⟩ := h.indexed text key hkey
  obtain rfl := Option.some.inj (hr.symm.trans hr')
  exact htext

theorem held_of_record (h : u.Consistent n) {key : RecordKey} {r : Record}
    (hr : u.records.find? key = some r) {entity : EntityRef} :
    u.registry.get? entity = some key ↔ r.entity = some entity := by
  rw [h.held, hr]
  simp

theorem deletable_of_record (h : u.Consistent n) {key : RecordKey} {r : Record}
    (hr : u.records.find? key = some r) (hdelete : u.isToDelete key = true) :
    r.entity.isSome = true ∧ r.isNew = false := by
  obtain ⟨r', hr', hdeletable⟩ := h.deletable key hdelete
  obtain rfl := Option.some.inj (hr.symm.trans hr')
  exact hdeletable

theorem ordered_modifyRecord (h : u.Consistent n) (key : RecordKey) (change : Record → Record) :
    (u.modifyRecord key change).Ordered :=
  ⟨Keyed.sorted_modify h.records_sorted key change, h.identities_sorted, h.registry_sorted⟩

theorem find?_modifyRecord {key : RecordKey} {r : Record} (hr : u.records.find? key = some r)
    (change : Record → Record) (k : RecordKey) :
    (u.modifyRecord key change).records.find? k
      = if key = k then some (change r) else u.records.find? k := by
  unfold UnitOfWork.modifyRecord
  rw [find?_modify]
  split
  · next hk =>
    rw [← hk, hr]
    rfl
  · rfl

theorem modifyRecord (h : u.Consistent n) (key : RecordKey) (change : Record → Record)
    (hchange : ∀ r, u.records.find? key = some r → u.KeepsPlace key r (change r)) :
    (u.modifyRecord key change).Consistent n := by
  cases hr : u.records.find? key with
  | none =>
    have hsame : u.modifyRecord key change = u := by
      unfold UnitOfWork.modifyRecord
      rw [Keyed.modify_eq_self hr]
    rw [hsame]
    exact h
  | some r =>
    have hkeeps := hchange r hr
    have hplaces : u.Places key (change r) (u.modifyRecord key change) :=
      { conventions := rfl
        deleted := rfl
        deferred := rfl
        records := find?_modifyRecord hr change
        numbered := ⟨h.fresh key r hr, Nat.le_refl _⟩
        otherIds := fun _ _ _ => Iff.rfl
        otherInstances := fun _ _ _ => Iff.rfl
        indexed := by
          intro text hkey
          rw [hkeeps.id]
          exact h.indexed_of_record hr hkey
        held := by
          intro entity
          rw [hkeeps.entity]
          exact h.held_of_record hr
        unindexed := by
          rw [hkeeps.id]
          intro hnot
          have hawaits := h.unindexed key r hr hnot
          rcases hkeeps.isNew with hnew | ⟨-, hindexed⟩
          · exact ⟨hnew.trans hawaits.isNew, hkeeps.entity ▸ hawaits.entity,
              hkeeps.id ▸ hawaits.incomplete⟩
          · exact absurd hindexed hnot
        deletable := by
          intro hdelete
          obtain ⟨he, hsaved⟩ := h.deletable_of_record hr hdelete
          rw [hkeeps.entity]
          rcases hkeeps.isNew with hnew | ⟨hnew, -⟩
          · exact ⟨he, hnew.trans hsaved⟩
          · exact ⟨he, hnew⟩
        filled := by
          rw [hkeeps.entity]
          exact (h.filled key r hr).imp_left hkeeps.body }
    refine h.place key (change r) hplaces (h.ordered_modifyRecord key change) ?_
    intro entity he
    rw [hkeeps.entity] at he
    exact h.known entity key ((h.held_of_record hr).mpr he)

/-! ## Records that get an entity -/

/-- A record without an entity gets one that no record has. -/
theorem giveEntity (h : u.Consistent n) {key : RecordKey} {r : Record} {entity : EntityRef}
    (hr : u.records.find? key = some r) (hnone : r.entity = none)
    (hfree : u.registry.get? entity = none) (hn : entity < n) (change : Record → Record)
    (hid : (change r).id = r.id) (hentity : (change r).entity = some entity)
    (hnew : (change r).isNew = r.isNew) :
    UnitOfWork.Consistent
      { u.modifyRecord key change with registry := u.registry.insert entity key } n := by
  have hplaces : u.Places key (change r)
      { u.modifyRecord key change with registry := u.registry.insert entity key } :=
    { conventions := rfl
      deleted := rfl
      deferred := rfl
      records := find?_modifyRecord hr change
      numbered := ⟨h.fresh key r hr, Nat.le_refl _⟩
      otherIds := fun _ _ _ => Iff.rfl
      otherInstances := by
        intro e k hk
        rw [Registry.get?_insert]
        split
        · next he =>
          subst he
          simp [hfree, hk]
        · rfl
      indexed := by
        intro text hkey
        rw [hid]
        exact h.indexed_of_record hr hkey
      held := by
        intro e
        rw [Registry.get?_insert, hentity, Option.some.injEq]
        split
        · next he => simp [he]
        · next he => simp [h.held_of_record hr, hnone, he]
      unindexed := by
        rw [hid]
        intro hnot
        have hawaits := h.unindexed key r hr hnot
        exact ⟨hnew.trans hawaits.isNew, by rw [hentity]; rfl, hid ▸ hawaits.incomplete⟩
      deletable := by
        intro hdelete
        rw [hentity, hnew]
        exact ⟨rfl, (h.deletable_of_record hr hdelete).2⟩
      filled := by
        rw [hentity]
        exact Or.inr rfl }
  refine h.place key (change r) hplaces ⟨(h.ordered_modifyRecord key change).records,
    h.identities_sorted, Keyed.sorted_insert h.registry_sorted entity key⟩ ?_
  intro e he
  obtain rfl := Option.some.inj (hentity.symm.trans he)
  exact hn

/-! ## Records that come and go -/

/-- There is no record at `nextKey`. -/
theorem unknown_nextKey (h : u.Consistent n) : u.records.find? u.nextKey = none := by
  rw [Option.eq_none_iff_forall_ne_some]
  intro r hr
  exact Nat.lt_irrefl _ (h.fresh _ r hr)

/-- A new record, which is found by its identifier or `AwaitsId`. -/
theorem addRecord (h : u.Consistent n) (r : Record) (awaiting : Bool)
    (hfilled : r.body.isSome = true ∨ r.entity.isSome = true)
    (hfree : ∀ entity, r.entity = some entity → u.registry.get? entity = none ∧ entity < n)
    (hid : awaiting = false → u.identities.get? r.id = none)
    (hawaits : awaiting = true → r.AwaitsId u.conventions.separator) :
    UnitOfWork.Consistent
      { (u.addRecord r).2 with
        registry := r.entity.elim u.registry (u.registry.insert · u.nextKey)
        identities :=
          if awaiting then u.identities else u.identities.insert r.id u.nextKey } n := by
  -- nothing leads to the new number yet
  have hnone := h.unknown_nextKey
  have hunindexed : ∀ text, u.identities.entries.find? text ≠ some u.nextKey := by
    intro text hkey
    obtain ⟨r', hr', -⟩ := h.indexed text _ hkey
    rw [hnone] at hr'
    cases hr'
  have hunheld : ∀ entity, u.registry.get? entity ≠ some u.nextKey := by
    intro entity hkey
    obtain ⟨r', hr', -⟩ := (h.held entity _).mp hkey
    rw [hnone] at hr'
    cases hr'
  refine h.place u.nextKey r ?_ ⟨?_, ?_, ?_⟩ (fun entity he => (hfree entity he).2)
  · refine { conventions := rfl, deleted := rfl, deferred := rfl,
             records := fun k => find?_insert .., numbered := ⟨Nat.lt_succ_self _, Nat.le_succ _⟩,
             otherIds := ?_, otherInstances := ?_, indexed := ?_, held := ?_, unindexed := ?_,
             deletable := ?_, filled := hfilled }
    · intro text k hk
      cases awaiting with
      | true => exact Iff.rfl
      | false =>
        simp only [Bool.false_eq_true, ↓reduceIte, IdentityMap.insert, find?_insert]
        split
        · next htext =>
          subst htext
          rw [show u.identities.entries.find? (Identifier.normalize r.id) = none from hid rfl]
          simp [hk]
        · rfl
    · intro entity k hk
      dsimp only
      rw [Registry.get?_elim_insert]
      split
      · next he => simp [(hfree entity he).1, hk]
      · rfl
    · intro text hkey
      cases awaiting with
      | true => exact absurd hkey (hunindexed text)
      | false =>
        simp only [Bool.false_eq_true, ↓reduceIte, IdentityMap.insert, find?_insert] at hkey
        split at hkey
        · next htext => exact htext.symm
        · exact absurd hkey (hunindexed text)
    · intro entity
      dsimp only
      rw [Registry.get?_elim_insert]
      split
      · next he => simp [he]
      · next he => simp [hunheld entity, he]
    · intro hnot
      cases awaiting with
      | true => exact hawaits rfl
      | false => exact absurd (by simp [IdentityMap.get?_insert]) hnot
    · intro hdelete
      obtain ⟨r', hr', -⟩ := h.deletable _ hdelete
      rw [hnone] at hr'
      cases hr'
  · exact Keyed.sorted_insert h.records_sorted u.nextKey r
  · show Keyed.Sorted (if awaiting then u.identities else _).entries
    split
    · exact h.identities_sorted
    · exact Keyed.sorted_insert h.identities_sorted _ _
  · exact Registry.sorted_elim_insert h.registry_sorted r.entity u.nextKey

/-- A record is removed from all indexes. -/
theorem withoutRecord (h : u.Consistent n) {key : RecordKey} {r : Record}
    (hr : u.records.find? key = some r) : (u.withoutRecord key r).Consistent n := by
  have hold : ∀ k r', (u.records.erase key).find? k = some r' →
      key ≠ k ∧ u.records.find? k = some r' := by
    intro k r' hr'
    rw [find?_erase] at hr'
    split at hr'
    · cases hr'
    · next hk => exact ⟨hk, hr'⟩
  have hkeep : ∀ k r', u.records.find? k = some r' → key ≠ k →
      (u.records.erase key).find? k = some r' := by
    intro k r' hr' hk
    rw [find?_erase, if_neg hk]
    exact hr'
  refine { h with indexed := ?_, held := ?_, unindexed := ?_, deletable := ?_, filled := ?_,
                  records_sorted := Keyed.sorted_erase h.records_sorted key,
                  identities_sorted := Keyed.sorted_filter h.identities_sorted _,
                  registry_sorted := Registry.sorted_elim_remove h.registry_sorted r.entity,
                  deleted_sorted := Keyed.sorted_erase h.deleted_sorted key,
                  fresh := ?_, known := ?_ }
  · intro text k hk
    simp only [UnitOfWork.withoutRecord, IdentityMap.removeRecord,
      Keyed.find?_filter h.identities_sorted, Option.filter_eq_some_iff, decide_eq_true_eq] at hk
    obtain ⟨r', hr', htext⟩ := h.indexed text k hk.1
    exact ⟨r', hkeep k r' hr' (Ne.symm hk.2), htext⟩
  · intro entity k
    show (r.entity.elim u.registry _).get? entity = some k
      ↔ ∃ r', (u.records.erase key).find? k = some r' ∧ r'.entity = some entity
    -- only the instance of the record itself is forgotten
    rw [Registry.get?_elim_remove]
    split
    · next he =>
      constructor
      · intro hnone
        cases hnone
      · rintro ⟨r', hr', he'⟩
        obtain ⟨hk, hr'⟩ := hold k r' hr'
        exact absurd (h.eq_of_entity hr hr' he he') hk
    · next he =>
      refine (h.held entity k).trans ⟨?_, ?_⟩
      · rintro ⟨r', hr', he'⟩
        refine ⟨r', hkeep k r' hr' ?_, he'⟩
        rintro rfl
        rw [hr] at hr'
        obtain rfl := Option.some.inj hr'
        exact he he'
      · rintro ⟨r', hr', he'⟩
        exact ⟨r', (hold k r' hr').2, he'⟩
  · intro k r' hr' hnot
    obtain ⟨hk, hr'⟩ := hold k r' hr'
    refine h.unindexed k r' hr' ?_
    intro hget'
    exact hnot ((IdentityMap.get?_removeRecord_eq_some_iff h.identities_sorted).mpr
      ⟨hget', Ne.symm hk⟩)
  · intro k hk
    simp only [UnitOfWork.withoutRecord, isToDelete, Keyed.contains_erase, Bool.and_eq_true,
      decide_eq_true_eq] at hk
    obtain ⟨r', hr', he, hsaved⟩ := h.deletable k hk.2
    exact ⟨r', hkeep k r' hr' hk.1, he, hsaved⟩
  · intro k r' hr'
    exact h.filled k r' (hold k r' hr').2
  · intro k r' hr'
    exact h.fresh k r' (hold k r' hr').2
  · intro entity k hk
    replace hk : (r.entity.elim u.registry _).get? entity = some k := hk
    rw [Registry.get?_elim_remove] at hk
    split at hk
    · cases hk
    · exact h.known entity k hk

/-! ## Records that move -/

/-- A record gets another identifier, which no other record has, and counts as saved. -/
theorem moveRecord (h : u.Consistent n) {key : RecordKey} {r : Record}
    (hr : u.records.find? key = some r) (change : Record → Record) {id : String}
    (hid : (change r).id = id) (hentity : (change r).entity = r.entity)
    (hbody : (change r).body.isSome = true) (hsaved : (change r).isNew = false)
    (hfree : ∀ other, u.identities.get? id = some other → other = key) :
    UnitOfWork.Consistent
      { u.modifyRecord key change with
        identities :=
          (if Identifier.normalize r.id = Identifier.normalize id then u.identities
            else u.identities.removeRecord key).insert id key } n := by
  refine h.place key (change r) ?_ ⟨?_, ?_, h.registry_sorted⟩ ?_
  · refine { conventions := rfl, deleted := rfl, deferred := rfl,
             records := find?_modifyRecord hr change,
             numbered := ⟨h.fresh key r hr, Nat.le_refl _⟩, otherIds := ?_,
             otherInstances := fun _ _ _ => Iff.rfl, indexed := ?_, held := ?_, unindexed := ?_,
             deletable := ?_, filled := Or.inl hbody }
    · intro text k hk
      simp only [IdentityMap.insert, find?_insert]
      split
      · next htext =>
        subst htext
        have hnot : u.identities.get? id ≠ some k := fun hget => hk (hfree k hget).symm
        simp [hk, show u.identities.entries.find? (Identifier.normalize id) ≠ some k from hnot]
      · split
        · exact Iff.rfl
        · simp only [IdentityMap.removeRecord, Keyed.find?_filter h.identities_sorted,
            Option.filter_eq_some_iff, decide_eq_true_eq]
          exact ⟨fun hget => hget.1, fun hget => ⟨hget, Ne.symm hk⟩⟩
    · intro text hkey
      rw [hid]
      simp only [IdentityMap.insert, find?_insert] at hkey
      split at hkey
      · next htext => exact htext.symm
      · split at hkey
        · next hsame => exact (h.indexed_of_record hr hkey).trans hsame
        · simp [IdentityMap.removeRecord, Keyed.find?_filter h.identities_sorted,
            Option.filter_eq_some_iff] at hkey
    · intro entity
      rw [hentity]
      exact h.held_of_record hr
    · intro hnot
      rw [hid] at hnot
      exact absurd (by rw [IdentityMap.get?_insert, if_pos rfl]) hnot
    · intro hdelete
      rw [hentity]
      exact ⟨(h.deletable_of_record hr hdelete).1, hsaved⟩
  · exact (h.ordered_modifyRecord key change).records
  · refine Keyed.sorted_insert ?_ _ _
    split
    · exact h.identities_sorted
    · exact Keyed.sorted_filter h.identities_sorted _
  · intro entity he
    rw [hentity] at he
    exact h.known entity key ((h.held_of_record hr).mpr he)

end Consistent

end UnitOfWork

end DocumentSession
