import DocumentSession.Proofs.Plan

set_option autoImplicit false

/-! # What settling a result keeps

A result is for one record, or for none; where the server gives an entity the identifier of another
record, it touches that one too (`Touches`). All other records are kept (`Settles.keepsRecord`) and
no record is made (`Settles.absent`). An identifier leads to another record only after a result that
gives it to the record (`Settles.of_get?`); `missing` changes only for the document of a result
(`Settles.of_missing`, `Settles.stays_missing`). -/

namespace DocumentSession

open Identifier (normalize)

/-- An entity that a type materializes is of that type. -/
theorem EntityType.type_of_materialize {type : EntityType} {body : Fields}
    {id identityProperty : String} {e : Entity}
    (hmade : type.materialize body id identityProperty = .ok e) : e.type = type := by
  unfold materialize at hmade
  cases hread : type.read (withIdentity body id identityProperty) with
  | error _ =>
    rw [hread] at hmade
    cases hmade
  | ok state =>
    rw [hread] at hmade
    obtain rfl := Except.ok.inj hmade
    rfl

namespace Shared

theorem entity_mem (s : Shared) {ref : EntityRef} (href : ref < s.entities.length) :
    s.entity ref ∈ s.entities := by
  unfold entity
  rw [List.getElem?_eq_getElem href]
  exact List.getElem_mem href

theorem entity_setEntity_of_ne (s : Shared) {ref ref' : EntityRef} (hne : ref ≠ ref')
    (e : Entity) : (s.setEntity ref e).entity ref' = s.entity ref' := by
  unfold entity setEntity
  rw [List.getElem?_set_ne hne]

theorem entity_setEntity_self (s : Shared) {ref : EntityRef} (href : ref < s.entities.length)
    (e : Entity) : (s.setEntity ref e).entity ref = e := by
  unfold entity setEntity
  rw [List.getElem?_set_self href]
  rfl

/-- `setEntity` with an entity of the same type keeps all types. -/
theorem types_setEntity (s : Shared) {ref : EntityRef} {e : Entity}
    (htype : e.type = (s.entity ref).type) :
    (s.setEntity ref e).entities.map (·.type) = s.entities.map (·.type) := by
  unfold setEntity
  unfold entity at htype
  rw [List.map_set]
  refine List.ext_getElem? ?_
  intro i
  rw [List.getElem?_set]
  split
  · next hi =>
    subst hi
    rw [List.getElem?_map]
    split
    · next href =>
      rw [List.length_map] at href
      rw [htype, List.getElem?_eq_getElem href]
      rfl
    · next href =>
      rw [List.length_map] at href
      rw [List.getElem?_eq_none (Nat.le_of_not_lt href)]
      rfl
  · rfl

theorem types_savedAs (s : Shared) (r : Record) (id : String) :
    (s.savedAs r id).entities.map (·.type) = s.entities.map (·.type) := by
  unfold savedAs
  cases r.entity with
  | none => rfl
  | some entity => exact (s.release r).types_setEntity rfl

@[simp] theorem isDirty_release (s : Shared) (r : Record) (n : Metadata.NodeId) :
    (s.release r).dictionaries.isDirty n = s.dictionaries.isDirty n := by
  unfold release Record.releaseDictionary
  cases r.dictionary with
  | none => rfl
  | some m => exact s.dictionaries.isDirty_release m n

@[simp] theorem isDirty_savedAs (s : Shared) (r : Record) (id : String) (n : Metadata.NodeId) :
    (s.savedAs r id).dictionaries.isDirty n = s.dictionaries.isDirty n := by
  unfold savedAs
  cases r.entity with
  | none => exact s.isDirty_release r n
  | some e => exact s.isDirty_release r n

end Shared

namespace Workspace

variable {w w' w'' : Workspace} {key : RecordKey}

/-! ## Records that are kept -/

/-- The record at `key`, its identifiers in the index, its instance, and whether it is to be deleted
and its metadata are dirty, are the same in `w` and `w'`. -/
structure KeepsRecord (w w' : Workspace) (key : RecordKey) : Prop where
  record : w'.work.records.find? key = w.work.records.find? key
  indexed : ∀ id, w'.work.identities.get? id = some key ↔ w.work.identities.get? id = some key
  deleted : w'.work.isToDelete key = w.work.isToDelete key
  entity : ∀ r e, w.work.records.find? key = some r → r.entity = some e →
    w'.shared.entity e = w.shared.entity e
  dirty : ∀ n, w'.shared.dictionaries.isDirty n = w.shared.dictionaries.isDirty n
  conventions : w'.work.conventions = w.work.conventions

theorem KeepsRecord.refl (w : Workspace) (key : RecordKey) : w.KeepsRecord w key :=
  ⟨rfl, fun _ => Iff.rfl, rfl, fun _ _ _ _ => rfl, fun _ => rfl, rfl⟩

theorem KeepsRecord.trans (h : w.KeepsRecord w' key) (h' : w'.KeepsRecord w'' key) :
    w.KeepsRecord w'' key := by
  refine ⟨h'.record.trans h.record, fun id => (h'.indexed id).trans (h.indexed id),
    h'.deleted.trans h.deleted, ?_, fun n => (h'.dirty n).trans (h.dirty n),
    h'.conventions.trans h.conventions⟩
  intro r e hr he
  have hr' : w'.work.records.find? key = some r := h.record.trans hr
  exact (h'.entity r e hr' he).trans (h.entity r e hr he)

/-- `missing` is no part of what `KeepsRecord` keeps. -/
theorem KeepsRecord.setMissing (h : w.KeepsRecord w' key) (missing : KnownMissing) :
    w.KeepsRecord { w' with work := { w'.work with missing } } key :=
  ⟨h.record, h.indexed, h.deleted, h.entity, h.dirty, h.conventions⟩

theorem keepsRecord_withoutRecord (h : w.Consistent) {other : RecordKey} (hne : other ≠ key)
    (r : Record) :
    w.KeepsRecord { work := w.work.withoutRecord other r, shared := w.shared.release r } key := by
  refine ⟨?_, ?_, ?_, fun _ _ _ _ => rfl, fun n => w.shared.isDirty_release r n, rfl⟩
  · exact (Keyed.find?_erase ..).trans (if_neg hne)
  · intro id
    refine (IdentityMap.get?_removeRecord_eq_some_iff h.identities_sorted).trans ?_
    exact ⟨fun hget => hget.1, fun hget => ⟨hget, Ne.symm hne⟩⟩
  · show Keyed.contains (w.work.deleted.erase other) key = Keyed.contains w.work.deleted key
    rw [Keyed.contains_erase]
    simp [hne]

theorem keepsRecord_modifyRecord {other : RecordKey} (hne : other ≠ key)
    (change : Record → Record) (shared : Shared)
    (hentity : ∀ r e, w.work.records.find? key = some r → r.entity = some e →
      shared.entity e = w.shared.entity e)
    (hdirty : ∀ n, shared.dictionaries.isDirty n = w.shared.dictionaries.isDirty n) :
    w.KeepsRecord { work := w.work.modifyRecord other change, shared } key :=
  ⟨Keyed.find?_modify_of_ne _ hne _, fun _ => Iff.rfl, rfl, hentity, hdirty, rfl⟩

theorem keepsRecord_savedAs (h : w.Consistent) {other : RecordKey} (hne : other ≠ key)
    {id : String} (hid : w.work.identities.get? id ≠ some key) (r' : Record)
    (body metadata : Fields) (shared : Shared)
    (hentity : ∀ r e, w.work.records.find? key = some r → r.entity = some e →
      shared.entity e = w.shared.entity e)
    (hdirty : ∀ n, shared.dictionaries.isDirty n = w.shared.dictionaries.isDirty n) :
    w.KeepsRecord { work := w.work.savedAs other r' id body metadata, shared } key := by
  refine ⟨Keyed.find?_modify_of_ne w.work.records hne (·.saved id body metadata), ?_, rfl,
    hentity, hdirty, rfl⟩
  intro x
  show IdentityMap.get? (IdentityMap.insert _ id other) x = some key ↔ _
  rw [IdentityMap.get?_insert]
  split
  · next hx =>
    rw [← w.work.identities.get?_congr hx]
    exact ⟨fun heq => absurd (Option.some.inj heq) hne, fun hget => absurd hget hid⟩
  · split
    · exact Iff.rfl
    · refine (IdentityMap.get?_removeRecord_eq_some_iff h.identities_sorted).trans ?_
      exact ⟨fun hget => hget.1, fun hget => ⟨hget, Ne.symm hne⟩⟩

/-! ## The instances of other records -/

/-- The instance of another record is another instance. -/
theorem Consistent.ne_of_other (h : w.Consistent) {other : RecordKey} (hne : other ≠ key)
    {r r' : Record} {e e' : EntityRef} (hr : w.work.records.find? key = some r)
    (hr' : w.work.records.find? other = some r') (he : r.entity = some e)
    (he' : r'.entity = some e') : e' ≠ e := by
  rintro rfl
  exact hne (h.eq_of_entity hr' hr he' he)

/-- Setting the identifier of the instance of one record keeps the instances of others. -/
theorem Consistent.entity_savedAs (h : w.Consistent) {other : RecordKey}
    (hne : other ≠ key) {r' : Record} (hr' : w.work.records.find? other = some r') (id : String)
    {r : Record} {e : EntityRef} (hr : w.work.records.find? key = some r)
    (he : r.entity = some e) :
    (w.shared.savedAs r' id).entity e = w.shared.entity e := by
  unfold Shared.savedAs
  cases he' : r'.entity with
  | none => rfl
  | some e' =>
    exact (w.shared.release r').entity_setEntity_of_ne (h.ne_of_other hne hr hr' he he') _

/-- `Renews` of the instance of one record keeps the instances of others. -/
theorem Consistent.entity_renews (h : w.Consistent) {other : RecordKey}
    (hne : other ≠ key) {r' : Record} (hr' : w.work.records.find? other = some r')
    {body : Fields} {shared : Shared} (hrenewed : w.Renews r' body shared)
    {r : Record} {e : EntityRef} (hr : w.work.records.find? key = some r)
    (he : r.entity = some e) : shared.entity e = w.shared.entity e := by
  rcases hrenewed with ⟨-, rfl⟩ | ⟨entity, made, hentity, -, rfl⟩
  · rfl
  · exact w.shared.entity_setEntity_of_ne (h.ne_of_other hne hr hr' he hentity) made

theorem Renews.isDirty {r : Record} {body : Fields} {shared : Shared}
    (hrenewed : w.Renews r body shared) (n : Metadata.NodeId) :
    shared.dictionaries.isDirty n = w.shared.dictionaries.isDirty n := by
  rcases hrenewed with ⟨-, rfl⟩ | ⟨_, _, -, -, rfl⟩
  · rfl
  · rfl

theorem Renews.types {r : Record} {body : Fields} {shared : Shared}
    (hrenewed : w.Renews r body shared) :
    shared.entities.map (·.type) = w.shared.entities.map (·.type) := by
  rcases hrenewed with ⟨-, rfl⟩ | ⟨entity, made, -, hmade, rfl⟩
  · rfl
  · exact w.shared.types_setEntity (EntityType.type_of_materialize hmade)

/-! ## The record of a result -/

/-- `settleResult` may change the record at `key`. -/
def Touches (w : Workspace) (planned : Planned) (result : Fields) (key : RecordKey) : Prop :=
  match planned.origin with
  | .put other _ _ =>
    other = key ∨ ∃ id, resultId result = some id ∧ w.work.identities.get? id = some key
  | .delete other => other = key
  | .deferred => w.work.identities.get? planned.command.id = some key

/-- The result gives the entity of the record at `key` the identifier `id`. -/
def Gives (planned : Planned) (result : Fields) (key : RecordKey) (id : String) : Prop :=
  ∃ body metadata given, planned.origin = .put key body metadata
    ∧ resultId result = some given ∧ normalize given = normalize id

/-- `planned` is a DELETE of the document `id`. -/
def Deletes (w : Workspace) (planned : Planned) (id : String) : Prop :=
  (∃ key r, planned.origin = .delete key ∧ w.work.records.find? key = some r
    ∧ normalize r.id = normalize id)
  ∨ (planned.origin = .deferred ∧ planned.command.kind = .delete
    ∧ normalize planned.command.id = normalize id)

namespace Settles

variable {planned : Planned} {result : Fields} {answer : Except Error Unit}

/-- A deferred command that does not touch a record is for the document of another one. -/
theorem ne_of_not_touches (hnot : ¬ w.Touches planned result key)
    (horigin : planned.origin = .deferred) {other : RecordKey}
    (hget : w.work.identities.get? planned.command.id = some other) : other ≠ key := by
  rintro rfl
  unfold Touches at hnot
  rw [horigin] at hnot
  exact hnot hget

/-- `Settles` keeps every record that it does not touch. -/
theorem keepsRecord (hsettles : w.Settles planned result answer w') (h : w.Consistent)
    (hnot : ¬ w.Touches planned result key) : w.KeepsRecord w' key := by
  cases hsettles with
  | unnamed _ _ => exact .refl w key
  | goneBeforePut _ _ => exact .refl w key
  | goneBeforeDelete _ _ => exact .refl w key
  | @saved other body metadata r' id horigin hr' hid _ =>
    unfold Touches at hnot
    simp only [horigin, not_or, not_exists, not_and] at hnot
    exact keepsRecord_savedAs h hnot.1 (hnot.2 id hid) r' _ _ _
      (fun r e hr he => h.entity_savedAs hnot.1 hr' id hr he)
      (fun n => w.shared.isDirty_savedAs r' id n)
  | @replaced other body metadata r' id taken gone horigin hr' hid htaken _ hgone =>
    unfold Touches at hnot
    simp only [horigin, not_or, not_exists, not_and] at hnot
    have hne : taken ≠ key := by
      rintro rfl
      exact hnot.2 id hid htaken
    -- the record that had the identifier is forgotten first, and then the identifier is free
    have hforgotten := keepsRecord_withoutRecord h hne gone
    have hconsistent : Workspace.Consistent
        { work := w.work.withoutRecord taken gone, shared := w.shared.release gone } :=
      UnitOfWork.Consistent.withoutRecord h hgone
    have hid' : (w.work.withoutRecord taken gone).identities.get? id ≠ some key :=
      fun hget => hnot.2 id hid ((hforgotten.indexed id).mp hget)
    refine hforgotten.trans (keepsRecord_savedAs hconsistent hnot.1 hid' r' _ _ _ ?_ ?_)
    · intro r e hr he
      rw [hforgotten.record] at hr
      exact h.entity_savedAs hnot.1 hr' id hr he
    · intro n
      refine (Shared.isDirty_release (w.shared.savedAs r' id) gone n).trans ?_
      refine (w.shared.isDirty_savedAs r' id n).trans ?_
      exact (w.shared.isDirty_release gone n).symm
  | @deleted other r' horigin hr' =>
    unfold Touches at hnot
    rw [horigin] at hnot
    exact (keepsRecord_withoutRecord h hnot r').setMissing _
  | @overwritten other r' horigin _ hfound =>
    have hne := ne_of_not_touches hnot horigin (UnitOfWork.recordForId?_eq_some_iff.mp hfound).1
    have hchanged : w.KeepsRecord
        { work := w.work.modifyRecord other
            (fun r => r.overwritten (overlayResult r.metadata result))
          shared := w.shared.release r' } key :=
      keepsRecord_modifyRecord hne _ _ (fun _ _ _ _ => rfl)
        (fun n => w.shared.isDirty_release r' n)
    exact hchanged.setMissing _
  | written _ _ _ => exact (KeepsRecord.refl w key).setMissing _
  | @dropped other r' horigin _ hget hr' =>
    have hne := ne_of_not_touches hnot horigin hget
    exact (keepsRecord_withoutRecord h hne r').setMissing _
  | noted _ _ _ => exact (KeepsRecord.refl w key).setMissing _
  | unknown _ _ _ => exact .refl w key
  | @versioned other r' horigin _ hfound _ =>
    have hne := ne_of_not_touches hnot horigin (UnitOfWork.recordForId?_eq_some_iff.mp hfound).1
    exact keepsRecord_modifyRecord hne _ _ (fun _ _ _ _ => rfl) (fun _ => rfl)
  | @unfit other r' _ horigin _ hfound _ =>
    have hne := ne_of_not_touches hnot horigin (UnitOfWork.recordForId?_eq_some_iff.mp hfound).1
    exact keepsRecord_modifyRecord hne _ _ (fun _ _ _ _ => rfl) (fun _ => rfl)
  | @scripted other r' document shared horigin _ hfound _ hrenewed =>
    obtain ⟨hget, hr'⟩ := UnitOfWork.recordForId?_eq_some_iff.mp hfound
    have hne := ne_of_not_touches hnot horigin hget
    -- the record is changed twice
    have hversion : w.KeepsRecord
        { w with work := w.work.modifyRecord other (·.atVersion (resultVersion result)) } key :=
      keepsRecord_modifyRecord hne _ _ (fun _ _ _ _ => rfl) (fun _ => rfl)
    refine hversion.trans (keepsRecord_modifyRecord hne _ _ ?_ ?_)
    · intro r e hr he
      rw [hversion.record] at hr
      have hsame := h.entity_renews hne hr' hrenewed hr he
      split
      · exact hsame
      · exact hsame
    · intro n
      split
      · exact hrenewed.isDirty n
      · exact (Shared.isDirty_release shared r' n).trans (hrenewed.isDirty n)

/-- In a save that succeeds the results of other records keep a record. -/
theorem keepsRecord_of_ne (hsettles : w.Settles planned result (.ok ()) w') (h : w.Consistent)
    {other : RecordKey} (hother : planned.origin.record? = some other) (hne : other ≠ key) :
    w.KeepsRecord w' key := by
  cases hsettles with
  | goneBeforePut _ _ => exact .refl w key
  | goneBeforeDelete _ _ => exact .refl w key
  | @saved written body metadata r' id horigin hr' hid hfree =>
    rw [horigin] at hother
    obtain rfl := Option.some.inj hother
    refine (Settles.saved horigin hr' hid hfree).keepsRecord h ?_
    unfold Touches
    rw [horigin]
    rintro (heq | ⟨id', hid', hget⟩)
    · exact hne heq
    · rw [hid] at hid'
      obtain rfl := Option.some.inj hid'
      exact hne (hfree key hget).symm
  | deleted horigin hr' =>
    rw [horigin] at hother
    obtain rfl := Option.some.inj hother
    refine Settles.keepsRecord (.deleted horigin hr' : w.Settles planned result _ _) h ?_
    unfold Touches
    rw [horigin]
    exact hne
  | overwritten horigin | written horigin | dropped horigin | noted horigin | unknown horigin
  | versioned horigin | scripted horigin =>
    rw [horigin] at hother
    cases hother

/-- `Settles` makes no record. -/
theorem absent (hsettles : w.Settles planned result answer w')
    (hnone : w.work.records.find? key = none) : w'.work.records.find? key = none := by
  have hmodify : ∀ (u : UnitOfWork) (other : RecordKey) (change : Record → Record),
      u.records.find? key = none → (u.modifyRecord other change).records.find? key = none := by
    intro u other change hu
    refine (Keyed.find?_modify ..).trans ?_
    rw [hu]
    split <;> rfl
  have herase : ∀ (other : RecordKey) (r : Record),
      (w.work.withoutRecord other r).records.find? key = none := by
    intro other r
    refine (Keyed.find?_erase ..).trans ?_
    rw [hnone]
    split <;> rfl
  cases hsettles with
  | unnamed | goneBeforePut | goneBeforeDelete | written | noted | unknown => exact hnone
  | @saved other body metadata r id =>
    exact hmodify w.work other (·.saved id body (overlayResult metadata result)) hnone
  | @replaced other body metadata r id taken gone =>
    exact hmodify (w.work.withoutRecord taken gone) other
      (·.saved id body (overlayResult metadata result)) (herase taken gone)
  | @deleted other r | @dropped other r => exact herase other r
  | @overwritten other r =>
    exact hmodify w.work other (fun r => r.overwritten (overlayResult r.metadata result)) hnone
  | @versioned other r | @unfit other r =>
    exact hmodify w.work other (·.atVersion (resultVersion result)) hnone
  | @scripted other r document =>
    exact hmodify (w.work.modifyRecord other (·.atVersion (resultVersion result))) other
      (·.scripted (Metadata.split document).1 (Metadata.split document).2)
      (hmodify w.work other _ hnone)

/-- An identifier leads to a record that it led to before or was given to. -/
theorem of_get? (hsettles : w.Settles planned result answer w') (h : w.Consistent) {id : String}
    (hget : w'.work.identities.get? id = some key) :
    w.work.identities.get? id = some key ∨ Gives planned result key id := by
  have hforgotten : ∀ other : RecordKey,
      (w.work.identities.removeRecord other).get? id = some key →
        w.work.identities.get? id = some key := by
    intro other hget
    exact ((IdentityMap.get?_removeRecord_eq_some_iff h.identities_sorted).mp hget).1
  cases hsettles with
  | unnamed | goneBeforePut | goneBeforeDelete | overwritten | written | noted | unknown
  | versioned | unfit | scripted => exact Or.inl hget
  | @saved other body metadata r' given horigin hr' hid _ =>
    replace hget : IdentityMap.get? (IdentityMap.insert _ given other) id = some key := hget
    rw [IdentityMap.get?_insert] at hget
    split at hget
    · next hgiven =>
      obtain rfl := Option.some.inj hget
      exact Or.inr ⟨body, metadata, given, horigin, hid, hgiven⟩
    · split at hget
      · exact Or.inl hget
      · exact Or.inl (hforgotten other hget)
  | @replaced other body metadata r' given taken gone horigin hr' hid _ _ _ =>
    replace hget : IdentityMap.get? (IdentityMap.insert _ given other) id = some key := hget
    rw [IdentityMap.get?_insert] at hget
    split at hget
    · next hgiven =>
      obtain rfl := Option.some.inj hget
      exact Or.inr ⟨body, metadata, given, horigin, hid, hgiven⟩
    · have hsorted := Keyed.sorted_filter h.identities_sorted (fun entry => entry.2 ≠ taken)
      split at hget
      · exact Or.inl (hforgotten taken hget)
      · exact Or.inl (hforgotten taken
          ((IdentityMap.get?_removeRecord_eq_some_iff hsorted).mp hget).1)
  | deleted | dropped => exact Or.inl (hforgotten _ hget)

/-- An identifier is missing if it was before, or the result is for its deletion. -/
theorem of_missing (hsettles : w.Settles planned result answer w') {id : String}
    (hmissing : w'.work.missing.contains id = true) :
    w.work.missing.contains id = true ∨ w.Deletes planned id := by
  cases hsettles with
  | unnamed | goneBeforePut | goneBeforeDelete | unknown | versioned | unfit | scripted =>
    exact Or.inl hmissing
  | saved | replaced | overwritten | written =>
    replace hmissing : (KnownMissing.remove _ _).contains id = true := hmissing
    rw [KnownMissing.contains_remove, Bool.and_eq_true] at hmissing
    exact Or.inl hmissing.2
  | @deleted other r' horigin hr' =>
    replace hmissing : (KnownMissing.insert _ _).contains id = true := hmissing
    rw [KnownMissing.contains_insert, Bool.or_eq_true, decide_eq_true_eq] at hmissing
    exact hmissing.symm.imp_right fun hid => Or.inl ⟨other, r', horigin, hr', hid⟩
  | dropped horigin hkind | noted horigin hkind =>
    replace hmissing : (KnownMissing.insert _ _).contains id = true := hmissing
    rw [KnownMissing.contains_insert, Bool.or_eq_true, decide_eq_true_eq] at hmissing
    exact hmissing.symm.imp_right fun hid => Or.inr ⟨horigin, hkind, hid⟩

/-- An identifier stays missing until a result writes its document. -/
theorem stays_missing (hsettles : w.Settles planned result answer w') {id : String}
    (hmissing : w.work.missing.contains id = true) :
    w'.work.missing.contains id = true ∨ (∃ key, Gives planned result key id)
      ∨ (planned.origin = .deferred ∧ normalize planned.command.id = normalize id) := by
  cases hsettles with
  | unnamed | goneBeforePut | goneBeforeDelete | unknown | versioned | unfit | scripted =>
    exact Or.inl hmissing
  | @saved other body metadata r' given horigin _ hid _
  | @replaced other body metadata r' given _ _ horigin _ hid _ _ _ =>
    by_cases hgiven : normalize given = normalize id
    · exact Or.inr (Or.inl ⟨other, body, metadata, given, horigin, hid, hgiven⟩)
    · refine Or.inl ?_
      show (w.work.missing.remove given).contains id = true
      rw [KnownMissing.contains_remove]
      simp [hgiven, hmissing]
  | overwritten horigin | written horigin =>
    by_cases hid : normalize planned.command.id = normalize id
    · exact Or.inr (Or.inr ⟨horigin, hid⟩)
    · refine Or.inl ?_
      show (KnownMissing.remove _ _).contains id = true
      rw [KnownMissing.contains_remove]
      simp [hid, hmissing]
  | deleted | dropped | noted =>
    refine Or.inl ?_
    show (KnownMissing.insert _ _).contains id = true
    rw [KnownMissing.contains_insert, hmissing, Bool.or_true]

/-- `Settles` keeps the types of all instances. -/
theorem types (hsettles : w.Settles planned result answer w') :
    w'.shared.entities.map (·.type) = w.shared.entities.map (·.type) := by
  cases hsettles with
  | unnamed | goneBeforePut | goneBeforeDelete | deleted | overwritten | written | dropped | noted
  | unknown | versioned | unfit => rfl
  | @saved _ _ _ r id | @replaced _ _ _ r id => exact w.shared.types_savedAs r id
  | scripted _ _ _ _ hrenewed =>
    dsimp only
    split
    · exact hrenewed.types
    · exact hrenewed.types

theorem conventions (hsettles : w.Settles planned result answer w') :
    w'.work.conventions = w.work.conventions := by
  cases hsettles <;> rfl

end Settles

end Workspace

end DocumentSession
