import DocumentSession.Proofs.LastKnown
import DocumentSession.Proofs.PlannedCommands
import DocumentSession.Proofs.ReplyParts
import DocumentSession.Proofs.ReportedChanges
import DocumentSession.Proofs.SaveAgain
import DocumentSession.Proofs.Settings

set_option autoImplicit false

/-! # Entities that nobody touched

`materialize` reads a document of any shape as an entity that holds the identifier under the
identity property, and `toBody` leaves this member out. So nothing is lost on the way there and back
but a member that the document itself has under the identity property.

The record of the entity has the body as the server sent it, with that member. Without one, an
entity that nobody touched has not changed, and no save writes it, whatever else the session does
(`OpenSession.LeavesAlone`). With one, it has changed as soon as it is made, and the next save
writes it. So the absence of the member decides (`OpenSession.untouched_unwritten_iff`).

Callbacks may edit entities and metadata while a save is planned, so what counts is the workspace in
which the save comes to the record (`Workspace.turnOf`). -/

namespace DocumentSession

/-- `any` finds a difference between a body and the body without `key` if and only if it has
`key`. -/
theorem Change.any_erase {body : Fields} (hwell : (Json.obj body).isWellFormed = true)
    {key : String} (hkey : isIgnored key = false) :
    any body (Keyed.erase body key) = Keyed.contains body key := by
  cases hcontains : Keyed.contains body key with
  | false =>
    rw [Keyed.erase_eq_self (Keyed.contains_eq_false_iff.mp hcontains)]
    exact any_self hwell
  | true =>
    have hsorted := Json.sorted_of_isWellFormed hwell
    have hrest := Json.isWellFormed_erase hwell key
    rw [← Bool.not_eq_false, any_eq_false_iff hwell hrest,
      equal_compared_obj_iff hsorted (Keyed.sorted_erase hsorted key)]
    intro hequal
    have hfound := hequal key hkey
    rw [Keyed.find?_erase, if_pos rfl] at hfound
    cases hmember : Keyed.find? body key with
    | none =>
      rw [Keyed.contains_eq_false_iff.mpr hmember] at hcontains
      cases hcontains
    | some value =>
      rw [hmember] at hfound
      exact Json.not_equalFound_some_none hfound

namespace Workspace

variable {w w' : Workspace} {key : RecordKey} {r : Record} {entity : EntityRef} {made : Entity}
  {known current body : Fields} {c : Callbacks} {plan : Plan}

/-! ## Entities as they were made -/

/-- The entity is `made`, and the metadata of its record are not dirty. -/
structure Untouched (w : Workspace) (key : RecordKey) (entity : EntityRef) (made : Entity) :
    Prop where
  entity : w.shared.entity entity = made
  clean : ∀ r, w.work.records.find? key = some r →
    r.isMetadataDirty w.shared.dictionaries = false

theorem untouched_of_clean (hclean : (w.work.records.find? key).all
    (fun r => !r.isMetadataDirty w.shared.dictionaries) = true) :
    w.Untouched key entity (w.shared.entity entity) := by
  refine ⟨rfl, fun r hr => ?_⟩
  rw [hr, Option.all_some, Bool.not_eq_true'] at hclean
  exact hclean

/-- The body of the record, whose document was saved, is `known`, and its entity has the body
`current`. -/
structure Compares (w : Workspace) (r : Record) (entity : EntityRef) (known current : Fields) :
    Prop where
  holds : r.entity = some entity
  saved : r.isNew = false
  known : r.body = some known
  clean : r.isMetadataDirty w.shared.dictionaries = false
  written : w.bodyOf entity = .ok current

theorem Compares.entityChanged (h : w.Compares r entity known current) :
    w.entityChanged r = .ok (Change.any known current) := by
  unfold Workspace.entityChanged Record.bodyDiffers
  rw [h.holds]
  simp only [h.saved, h.clean, h.known, h.written, Bool.or_self, Bool.false_eq_true, if_false]
  rfl

theorem Compares.mustWrite (h : w.Compares r entity known current) :
    w.mustWrite r current = Change.any known current := by
  unfold Workspace.mustWrite Record.bodyDiffers
  rw [h.saved, h.clean, h.known]
  rfl

theorem Compares.planEntity_eq (h : w.Compares r entity known current)
    (hr : w.work.records.find? key = some r) (hsame : Change.any known current = false) :
    w.planEntity c key = (.ok none, w) := by
  by_cases hconsiders : ∃ r' entity', w.Considers key r' entity'
  · obtain ⟨r', entity', hconsiders⟩ := hconsiders
    obtain rfl := Option.some.inj (hr.symm.trans hconsiders.record)
    obtain rfl := Option.some.inj (h.holds.symm.trans hconsiders.holds)
    rw [planEntity_of_considers hconsiders h.written, h.mustWrite, hsame]
    rfl
  · exact planEntity_of_not_considers fun r' entity' h' => hconsiders ⟨r', entity', h'⟩

/-! ## The turn of a record in a save -/

/-- The workspace in which `planSave` comes to the record at `key`, once the deletions and the
records before it are planned. -/
def turnOf (w : Workspace) (c : Callbacks) (key : RecordKey) : Workspace :=
  ((w.planDeletes c w.work.deleted.keys).2.planPuts c
    (w.work.registry.records.takeWhile (· ≠ key))).2

theorem planPuts_append {before after : List RecordKey}
    (hplan : w.planPuts c (before ++ after) = (.ok plan, w')) :
    ∃ front w₁ back, w.planPuts c before = (.ok front, w₁) ∧ w₁.planPuts c after = (.ok back, w')
      ∧ plan = front ++ back := by
  induction before generalizing w plan with
  | nil => exact ⟨[], w, plan, rfl, hplan, rfl⟩
  | cons key rest ih =>
    obtain ⟨first, w₁, others, hfirst, hrest, rfl⟩ := planPuts_cons_eq_ok hplan
    obtain ⟨front, w₃, back, hfront, hback, rfl⟩ := ih hrest
    refine ⟨first.toList ++ front, w₃, back, ?_, hback, (List.append_assoc ..).symm⟩
    rw [planPuts, hfirst]
    dsimp only
    rw [hfront]

/-- A command that `planPuts` plans is for one of its records. -/
theorem record?_of_planPuts {keys : List RecordKey} (hplan : w.planPuts c keys = (.ok plan, w')) :
    ∀ planned ∈ plan, ∃ k ∈ keys, planned.origin.record? = some k := by
  induction keys generalizing w plan with
  | nil =>
    obtain rfl := Except.ok.inj (Prod.mk.inj hplan).1
    simp
  | cons key rest ih =>
    obtain ⟨first, w₁, others, hfirst, hrest, rfl⟩ := planPuts_cons_eq_ok hplan
    intro planned hmem
    rcases List.mem_append.mp hmem with hmem | hmem
    · obtain rfl := Option.mem_toList.mp hmem
      obtain ⟨body, metadata, horigin⟩ := origin_planEntity hfirst
      exact ⟨key, List.mem_cons_self .., by rw [horigin]; rfl⟩
    · obtain ⟨k, hk, horigin⟩ := ih hrest planned hmem
      exact ⟨k, List.mem_cons_of_mem _ hk, horigin⟩

/-- Where every record has one turn, the command of a record is the one that is planned in its
turn. -/
theorem planPuts_at_turn {before after : List RecordKey} (hbefore : key ∉ before)
    (hafter : key ∉ after) (hplan : w.planPuts c (before ++ key :: after) = (.ok plan, w')) :
    ∃ answer v, (w.planPuts c before).2.planEntity c key = (.ok answer, v)
      ∧ ∀ planned, (planned ∈ plan ∧ planned.origin.record? = some key)
          ↔ answer = some planned := by
  obtain ⟨front, w₁, back, hfront, hback, rfl⟩ := planPuts_append hplan
  obtain ⟨answer, v, others, hanswer, hothers, rfl⟩ := planPuts_cons_eq_ok hback
  refine ⟨answer, v, by rw [hfront]; exact hanswer, fun planned => ?_⟩
  have helsewhere : ∀ {keys : List RecordKey} {part : Plan} {v v' : Workspace}, key ∉ keys →
      v.planPuts c keys = (.ok part, v') → planned ∈ part →
      planned.origin.record? ≠ some key := by
    intro keys part v v' hkey hpart hmem horigin
    obtain ⟨k, hk, hown⟩ := record?_of_planPuts hpart planned hmem
    obtain rfl := Option.some.inj (hown.symm.trans horigin)
    exact hkey hk
  rw [List.mem_append, List.mem_append, Option.mem_toList]
  constructor
  · rintro ⟨hmem | hmem | hmem, horigin⟩
    · exact absurd horigin (helsewhere hbefore hfront hmem)
    · exact hmem
    · exact absurd horigin (helsewhere hafter hothers hmem)
  · rintro rfl
    obtain ⟨body, metadata, horigin⟩ := origin_planEntity hanswer
    exact ⟨Or.inr (Or.inl rfl), by rw [horigin]; rfl⟩

/-- Whether `planSave` has a command for a record that is not to be deleted is decided in `turnOf`
the record. -/
theorem planSave_at_turn (h : w.Consistent) (hplan : w.planSave c = (.ok plan, w'))
    (hr : w.work.records.find? key = some r) (hentity : r.entity = some entity)
    (hkept : w.work.isToDelete key = false) :
    ∃ answer v, (w.turnOf c key).planEntity c key = (.ok answer, v)
      ∧ ∀ planned, (planned ∈ plan ∧ planned.origin.record? = some key)
          ↔ answer = some planned := by
  have hmem : key ∈ w.work.registry.records :=
    (Registry.mem_records h.registry_sorted).mpr
      ⟨entity, (h.held entity key).mpr ⟨r, hr, hentity⟩⟩
  obtain ⟨before, after, hrecords, hbefore⟩ := List.eq_append_cons_of_mem hmem
  have hafter : key ∉ after := by
    have hnodup := h.nodup_records
    rw [hrecords] at hnodup
    exact (List.nodup_cons.mp (List.nodup_append.mp hnodup).2.1).1
  have hturn : w.turnOf c key
      = ((w.planDeletes c w.work.deleted.keys).2.planPuts c before).2 := by
    unfold turnOf
    rw [hrecords, List.takeWhile_append_of_pos]
    · simp
    · intro k hk
      exact decide_eq_true fun heq => hbefore (heq ▸ hk)
  obtain ⟨deletes, w₁, puts, w₂, deferred, hdeletes, hputs, hdeferred, rfl⟩ :=
    planSave_eq_append hplan
  obtain ⟨rfl, hwork⟩ := planDeletes_eq_ok hdeletes
  rw [hwork, hrecords] at hputs
  rw [hturn, hdeletes]
  obtain ⟨answer, v, hanswer, hown⟩ := planPuts_at_turn hbefore hafter hputs
  refine ⟨answer, v, hanswer, fun planned => ?_⟩
  rw [← hown, List.mem_append, List.mem_append]
  refine and_congr_left fun horigin => ?_
  -- it is neither a deletion nor a command that waited
  constructor
  · rintro ((hdelete | hput) | hwaited)
    · obtain ⟨k, hk, hdelete⟩ := List.mem_filterMap.mp hdelete
      obtain ⟨_, _, _, rfl⟩ := plannedDelete_eq_some_iff.mp hdelete
      obtain rfl := Option.some.inj horigin
      rw [show w.work.isToDelete k = true from Keyed.contains_iff_mem_keys.mpr hk] at hkept
      cases hkept
    · exact hput
    · rw [origin_planDeferred hdeferred planned hwaited] at horigin
      cases horigin
  · exact fun hput => Or.inl (Or.inr hput)

theorem plans_turnOf (w : Workspace) (c : Callbacks) (key : RecordKey) :
    w.Plans c (w.turnOf c key) :=
  (plans_planDeletes rfl).trans (plans_planPuts rfl)

/-- Without callbacks, an entity that is untouched is so in `turnOf` its record. -/
theorem Untouched.turnOf (h : w.Untouched key entity made)
    (hplan : w.planSave {} = (.ok plan, w')) : (w.turnOf {} key).Untouched key entity made := by
  have hopened : w.Opened (w.turnOf {} key) := by
    obtain ⟨deletes, w₁, puts, w₂, deferred, hdeletes, hputs, -, -⟩ := planSave_eq_append hplan
    unfold Workspace.turnOf
    rw [planDeletes_eq] at hdeletes ⊢
    obtain ⟨-, rfl⟩ := Prod.mk.inj hdeletes
    rw [← List.takeWhile_append_dropWhile (p := (· ≠ key)) (l := w.work.registry.records)]
      at hputs
    obtain ⟨front, w₃, back, hfront, -, -⟩ := planPuts_append hputs
    rw [hfront]
    exact (planPuts_spec hfront).1
  refine ⟨(hopened.entity_eq entity).trans h.entity, fun r' hr' => ?_⟩
  obtain ⟨r, hr, -, hdirty⟩ := hopened.record_before hr'
  rw [hdirty]
  exact h.clean r hr

/-! ## What is planned for an untouched entity -/

/-- The record at `key` was saved and has this identifier, instance and body, or it is gone for
good. -/
structure KnowsBody (w : Workspace) (key : RecordKey) (id : String) (entity : EntityRef)
    (known : Fields) : Prop where
  numbered : key < w.work.nextKey
  record : ∀ r, w.work.records.find? key = some r →
    r.id = id ∧ r.entity = some entity ∧ r.body = some known ∧ r.isNew = false

theorem KnowsBody.remembers {id : String} {renewed : RecordKey → String → Prop}
    (h : w.KnowsBody key id entity known) (hremembers : w.work.Remembers renewed w'.work)
    (hkept : ¬ renewed key id) : w'.KnowsBody key id entity known := by
  refine ⟨Nat.lt_of_lt_of_le h.numbered hremembers.next, fun r' hr' => ?_⟩
  rcases hremembers.record key r' hr' with ⟨r, hr, hrecord⟩ | ⟨hnumber, -⟩
  · obtain ⟨hid, hentity, hbody, hsaved⟩ := h.record r hr
    have hholds : r.entity.isSome = true := by
      rw [hentity]
      rfl
    obtain ⟨hid', hbody'⟩ := hrecord.known (by rwa [hid]) hholds
    refine ⟨hid'.trans hid, (hrecord.held hholds).trans hentity, hbody'.trans hbody, ?_⟩
    cases hnew : r'.isNew with
    | false => rfl
    | true => rw [← hrecord.saved hnew, hsaved]
  · exact absurd h.numbered (Nat.not_lt_of_le hnumber)

theorem Untouched.compares {id : String} (h : w.Untouched key entity made)
    (hknows : w.KnowsBody key id entity known) (hr : w.work.records.find? key = some r)
    (hwritten : made.toBody w.work.conventions.identityProperty = .ok current) :
    w.Compares r entity known current := by
  obtain ⟨-, hentity, hbody, hsaved⟩ := hknows.record r hr
  refine ⟨hentity, hsaved, hbody, h.clean r hr, ?_⟩
  unfold Workspace.bodyOf
  rw [h.entity]
  exact hwritten

/-- `hasChanged` of an untouched entity is `true` if and only if its body is not the one that its
record knows. -/
theorem hasChanged_of_untouched {id : String} (h : w.Consistent)
    (hknows : w.KnowsBody key id entity known) (huntouched : w.Untouched key entity made)
    (hwritten : made.toBody w.work.conventions.identityProperty = .ok current)
    (hr : w.recordOf entity = .ok (key, r)) (hkept : w.work.isToDelete key = false) :
    w.hasChanged entity = .ok (Change.any known current) := by
  have hfound := (h.find?_of_recordOf hr).1
  rw [hasChanged_eq hr, hkept, if_neg Bool.false_ne_true]
  exact (huntouched.compares hknows hfound hwritten).entityChanged

theorem compares_turnOf {id : String} (hknows : w.KnowsBody key id entity known)
    (hturn : (w.turnOf c key).Untouched key entity made)
    (hwritten : made.toBody w.work.conventions.identityProperty = .ok current)
    (hr : w.work.records.find? key = some r) :
    ∃ dictionary, (w.turnOf c key).work.records.find? key = some { r with dictionary }
      ∧ (w.turnOf c key).Compares { r with dictionary } entity known current := by
  have hplans := w.plans_turnOf c key
  obtain ⟨dictionary, hfound⟩ := hplans.record_after hr
  have hconventions : (w.turnOf c key).work.conventions = w.work.conventions := by
    rw [hplans.work]
  have hremembers : w.work.Remembers (fun _ _ => False) (w.turnOf c key).work := hplans.remembers
  rw [← hconventions] at hwritten
  exact ⟨dictionary, hfound,
    hturn.compares (hknows.remembers hremembers not_false) hfound hwritten⟩

/-- An entity that is untouched in its turn, and whose body is the one that its record knows, has no
command in the plan. -/
theorem unplanned_of_same {id : String} (h : w.Consistent)
    (hknows : w.KnowsBody key id entity known)
    (hturn : (w.turnOf c key).Untouched key entity made)
    (hwritten : made.toBody w.work.conventions.identityProperty = .ok current)
    (hsame : Change.any known current = false) (hkept : w.work.isToDelete key = false)
    (hplan : w.planSave c = (.ok plan, w')) :
    ∀ planned ∈ plan, planned.origin.record? ≠ some key := by
  intro planned hmem horigin
  rcases cases_of_planSave hplan hmem with ⟨k, hdelete, hplanned⟩ | hwrites | ⟨_, _, rfl⟩
  · obtain ⟨_, _, _, rfl⟩ := plannedDelete_eq_some_iff.mp hplanned
    obtain rfl := Option.some.inj horigin
    rw [hdelete] at hkept
    cases hkept
  · obtain ⟨k, r, _, _, hr, -, rfl⟩ := hwrites
    obtain rfl := Option.some.inj horigin
    obtain ⟨answer, v, hanswer, hown⟩ :=
      planSave_at_turn h hplan hr (hknows.record r hr).2.1 hkept
    obtain ⟨_, hfound, hcompares⟩ := compares_turnOf hknows hturn hwritten hr
    rw [hcompares.planEntity_eq hfound hsame] at hanswer
    obtain rfl := Except.ok.inj (Prod.mk.inj hanswer).1
    cases (hown _).mp ⟨hmem, horigin⟩
  · cases horigin

/-- An entity that the next save considers, that is untouched in its turn, and whose body is not the
one that its record knows, has a command in the plan. -/
theorem planned_of_other {id : String} (h : w.Consistent) (hknows : w.KnowsBody key id entity known)
    (hturn : (w.turnOf c key).Untouched key entity made)
    (hwritten : made.toBody w.work.conventions.identityProperty = .ok current)
    (hother : Change.any known current = true) (hconsiders : w.Considers key r entity)
    (hplan : w.planSave c = (.ok plan, w')) :
    ∃ planned ∈ plan, planned.origin.record? = some key := by
  obtain ⟨answer, v, hanswer, hown⟩ :=
    planSave_at_turn h hplan hconsiders.record hconsiders.holds hconsiders.kept
  obtain ⟨dictionary, hfound, hcompares⟩ := compares_turnOf hknows hturn hwritten hconsiders.record
  have hplans := w.plans_turnOf c key
  have hturned : (w.turnOf c key).Considers key { r with dictionary } entity := by
    refine ⟨hfound, ?_, hconsiders.holds, hconsiders.watched, ?_⟩
    · rw [hplans.work]
      exact hconsiders.kept
    · rw [hplans.work]
      exact hconsiders.free
  rw [planEntity_of_considers hturned hcompares.written, hcompares.mustWrite, hother] at hanswer
  simp only [Bool.not_true, Bool.false_eq_true, if_false] at hanswer
  split at hanswer
  · cases (Prod.mk.inj hanswer).1
  · next planned _ _ =>
    exact ⟨planned, (hown planned).mpr (Except.ok.inj (Prod.mk.inj hanswer).1).symm⟩

/-! ## A document that becomes an entity -/

/-- `register` of a document for which there is no instance puts its body into the record. -/
theorem register_vacant (h : w.Consistent)
    (hvacant : ∀ key r, w.work.records.find? key = some r → r.entity = none → r.isNew = false)
    {document : Fields} {id : String} (hid : documentId document = some id)
    (hfree : ∀ key r, w.work.recordForId? id = some (key, r) → r.entity = none) :
    ∃ key r w₁, w.register document = (.ok key, w₁) ∧ w₁.work.records.find? key = some r
      ∧ r.entity = none ∧ r.body = some (Metadata.split document).1 ∧ r.isNew = false
      ∧ r.dictionary = none := by
  cases hget : w.work.identities.get? id with
  | none =>
    refine ⟨w.work.nextKey, .loaded id (Metadata.split document).1 (Metadata.split document).2, _,
      register_of_new hid hget, ?_, rfl, rfl, rfl, rfl⟩
    exact (Keyed.find?_insert ..).trans (if_pos rfl)
  | some key =>
    obtain ⟨r, hr, -⟩ := h.toCoherent.record_of_get? hget
    have hnone := hfree key r (UnitOfWork.recordForId?_eq_some_iff.mpr ⟨hget, hr⟩)
    refine ⟨key, r.refreshed (Metadata.split document).1 (Metadata.split document).2, _,
      register_of_known hid hget, ?_, hnone, rfl, hvacant key r hr hnone, rfl⟩
    rw [find?_refreshRecord, if_pos rfl, hr, Option.map_some, Record.renewed, List.foldl_cons,
      List.foldl_nil, hnone, if_neg (by simp)]

/-- `entityFor` makes the instance of a record that has none from the body of the record. -/
theorem entityFor_of_vacant {type : EntityType} (hr : w.work.records.find? key = some r)
    (hnone : r.entity = none) (hbody : r.body = some body)
    (hmade : type.materialize body r.id w.work.conventions.identityProperty = .ok made) :
    ∃ w₁, w.entityFor type key = (.ok (some w.shared.entities.length), w₁)
      ∧ w₁.work.records.find? key = some { r with entity := some w.shared.entities.length }
      ∧ w₁.work.deleted = w.work.deleted
      ∧ w₁.shared.entity w.shared.entities.length = made := by
  have hentity : w.entityFor type key
      = (.ok (some w.shared.entities.length),
        { work :=
            { w.work.modifyRecord key
                (fun r => { r with entity := some w.shared.entities.length }) with
              registry := w.work.registry.insert w.shared.entities.length key }
          shared := (w.shared.addEntity made).2 }) := by
    unfold entityFor
    rw [hr]
    dsimp only
    rw [hnone, hbody]
    dsimp only
    rw [hmade]
    rfl
  refine ⟨_, hentity, ?_, rfl, ?_⟩
  · exact Keyed.find?_modify_self hr (fun r => { r with entity := some w.shared.entities.length })
  · show ((w.shared.entities ++ [made])[w.shared.entities.length]?).getD default = made
    rw [List.getElem?_concat_length]
    rfl

/-- `trackDocument` makes a new entity of any shape from a document for which there is no instance.
Its record has the body of the document and is not to be deleted. -/
theorem trackDocument_vacant (h : w.Consistent)
    (hvacant : ∀ key r, w.work.records.find? key = some r → r.entity = none → r.isNew = false)
    {document : Fields} {id : String} (hid : documentId document = some id)
    (hfree : ∀ key r, w.work.recordForId? id = some (key, r) → r.entity = none) :
    ∃ key r entity w₁, w.trackDocument Shop.anything document = (.ok entity, w₁)
      ∧ w₁.recordOf entity = .ok (key, r)
      ∧ w₁.work.isToDelete key = false
      ∧ w₁.KnowsBody key r.id entity (Metadata.split document).1
      ∧ w₁.Untouched key entity (w₁.shared.entity entity)
      ∧ Shop.anything.materialize (Metadata.split document).1 r.id
          w.work.conventions.identityProperty = .ok (w₁.shared.entity entity) := by
  obtain ⟨key, r, w₀, hregister, hr, hnone, hbody, hsaved, hclosed⟩ :=
    register_vacant h hvacant hid hfree
  have hregistered : w₀.Consistent := by
    have hconsistent := h.register document
    rwa [hregister] at hconsistent
  have hconventions : w₀.work.conventions = w.work.conventions := by
    have hsettings := settings_register w document
    rw [hregister] at hsettings
    exact congrArg Prod.fst hsettings
  obtain ⟨state, hread⟩ : ∃ made, Shop.anything.materialize (Metadata.split document).1 r.id
      w₀.work.conventions.identityProperty = .ok made := ⟨_, rfl⟩
  obtain ⟨w₁, hentity, hmade, hdeleted, hstate⟩ := entityFor_of_vacant hr hnone hbody hread
  have hconsistent : w₁.Consistent := by
    have hafter := hregistered.entityFor Shop.anything key
    rwa [hentity] at hafter
  have htracked : w.trackDocument Shop.anything document
      = (.ok w₀.shared.entities.length, w₁) := by
    unfold trackDocument
    rw [hregister]
    dsimp only
    rw [hentity]
  refine ⟨key, _, _, w₁, htracked, recordOf_eq_ok hconsistent hmade rfl, ?_, ?_, ?_, ?_⟩
  · -- a record to delete has an instance
    rw [show w₁.work.isToDelete key = w₀.work.isToDelete key from
      congrArg (Keyed.contains · key) hdeleted, ← Bool.not_eq_true]
    intro hdelete
    obtain ⟨r', hr', hholds, -⟩ := hregistered.deletable key hdelete
    obtain rfl := Option.some.inj (hr.symm.trans hr')
    rw [hnone] at hholds
    cases hholds
  · refine ⟨hconsistent.fresh key _ hmade, fun r' hr' => ?_⟩
    obtain rfl := Option.some.inj (hmade.symm.trans hr')
    exact ⟨rfl, rfl, hbody, hsaved⟩
  · refine ⟨rfl, fun r' hr' => ?_⟩
    obtain rfl := Option.some.inj (hmade.symm.trans hr')
    unfold Record.isMetadataDirty
    rw [hclosed]
    rfl
  · rw [hstate, ← hconventions]
    exact hread

/-- A record whose entity is written is not to be deleted. -/
theorem kept_of_put (hplan : w.planSave c = (.ok plan, w')) {planned : Planned}
    (hmem : planned ∈ plan) {body metadata : Fields}
    (horigin : planned.origin = .put key body metadata) : w.work.isToDelete key = false := by
  rcases cases_of_planSave hplan hmem with ⟨k, -, hplanned⟩ | hwrites | ⟨_, _, rfl⟩
  · obtain ⟨_, _, _, rfl⟩ := plannedDelete_eq_some_iff.mp hplanned
    cases horigin
  · obtain ⟨k, _, _, _, -, hkept, rfl⟩ := hwrites
    obtain ⟨rfl, -, -⟩ := Origin.put.inj horigin
    exact hkept
  · cases horigin

end Workspace

namespace OpenSession

open Workspace

variable {s s₀ s' : OpenSession} {key : RecordKey} {id : String} {entity : EntityRef}
  {made : Entity} {known current : Fields}

/-! ## Sessions that leave an entity alone -/

/-- What the server acknowledges was planned. -/
theorem planned_of_acknowledged {pair : Planned × Fields} (hmem : pair ∈ s.acknowledged) :
    ∃ plan w, s.workspace.planSave s.session.callbacks = (.ok plan, w) ∧ pair.1 ∈ plan := by
  unfold acknowledged at hmem
  split at hmem
  · cases hmem
  · next plan w hplan =>
    refine ⟨plan, w, hplan, ?_⟩
    split at hmem
    · cases hmem
    · split at hmem
      · exact (List.of_mem_zip hmem).1
      · cases hmem

/-- The session goes on, from the middle of an operation that reads or not, and leaves an entity
alone: every save finds it untouched in its turn, and no PATCH result in an answer to a save has its
document. -/
inductive LeavesAlone (key : RecordKey) (id : String) (entity : EntityRef) (made : Entity)
    (s : OpenSession) : OpenSession → Prop where
  | refl : LeavesAlone key id entity made s s
  | reads {s' s'' : OpenSession} (h : LeavesAlone key id entity made s s')
    (hreads : s'.Reads s'') : LeavesAlone key id entity made s s''
  | step {s' : OpenSession} (operation : Operation) (h : LeavesAlone key id entity made s s')
    (hadmits : s'.Admits operation)
    (hsave : operation = .save →
      (s'.workspace.turnOf s'.session.callbacks key).Untouched key entity made
        ∧ ∀ pair ∈ s'.acknowledged, renewsBody id pair = false) :
    LeavesAlone key id entity made s (s'.perform operation)

/-- After every operation the record knows the same body, for no save writes the entity. -/
theorem LeavesAlone.knowsBody (hrun : s.LeavesAlone key id entity made s') (h : s.Consistent)
    (hknows : s.workspace.KnowsBody key id entity known)
    (hwritten : made.toBody s.session.work.conventions.identityProperty = .ok current)
    (hsame : Change.any known current = false) :
    s'.Consistent ∧ s'.session.work.conventions = s.session.work.conventions
      ∧ s'.workspace.KnowsBody key id entity known := by
  induction hrun with
  | refl => exact ⟨h, rfl, hknows⟩
  | reads _ hreads ih =>
    obtain ⟨hconsistent, hconventions, hbefore⟩ := ih
    refine ⟨hconsistent.reads hreads, ?_, ?_⟩
    · exact (congrArg (·.1.1) hreads.settings).trans hconventions
    · have hremembers : UnitOfWork.Remembers (fun _ _ => False) _ _ := hreads.remembers
      exact hbefore.remembers hremembers not_false
  | @step s' operation _ hadmits hsave ih =>
    obtain ⟨hconsistent, hconventions, hbefore⟩ := ih
    refine ⟨hconsistent.perform operation hadmits, ?_, ?_⟩
    · exact (congrArg (·.1.1) (settings_perform hconsistent operation)).trans hconventions
    · refine hbefore.remembers ((performCases hconsistent operation).remembers hconsistent) ?_
      rintro ⟨rfl, pair, hmem, ⟨body, metadata, horigin⟩ | hscript⟩
      · -- a write of the entity would have been planned
        obtain ⟨plan, w, hplan, hplanned⟩ := planned_of_acknowledged hmem
        rw [← hconventions] at hwritten
        refine unplanned_of_same hconsistent.workspace hbefore (hsave rfl).1 hwritten hsame
          (kept_of_put hplan hplanned horigin) hplan pair.1 hplanned ?_
        rw [horigin]
        rfl
      · rw [(hsave rfl).2 pair hmem] at hscript
        cases hscript

/-- As long as the entity of a record is tracked, not to be deleted, and untouched, it has not
changed, and the next save has no command for it if the entity is untouched in its turn. -/
def LeavesUnwritten (s : OpenSession) (key : RecordKey) (entity : EntityRef) (made : Entity) :
    Prop :=
  ∀ r, s.workspace.recordOf entity = .ok (key, r) → s.session.work.isToDelete key = false →
    s.workspace.Untouched key entity made →
    s.workspace.hasChanged entity = .ok false
      ∧ ((s.workspace.turnOf s.session.callbacks key).Untouched key entity made →
          ∀ plan, (s.workspace.planSave s.session.callbacks).1 = .ok plan →
            ∀ planned ∈ plan, planned.origin.record? ≠ some key)

/-- A document for which there is no instance yet is registered, and becomes an entity of any shape.
However the session goes on, as long as nobody touches the entity it has not changed and no save has
a command for it, if and only if the document has no member under the identity property. With such a
member it has changed as soon as it is made, and if it is neither ignored nor left out for a
deferred command, the next save has a command for it. -/
theorem untouched_unwritten_iff (h : s.Reachable) (hreads : s.Reads s₀)
    (hproperty : s₀.session.work.conventions.identityProperty = "id") {document : Fields}
    (hwell : (Json.obj document).isWellFormed = true) (hid : documentId document = some id)
    (hfree : ∀ key r, s₀.session.work.recordForId? id = some (key, r) → r.entity = none) :
    ∃ key r entity w, s₀.workspace.trackDocument Shop.anything document = (.ok entity, w)
      ∧ w.recordOf entity = .ok (key, r)
      ∧ ((∀ s₁, (s₀.withWorkspace w).LeavesAlone key r.id entity (w.shared.entity entity) s₁ →
            s₁.LeavesUnwritten key entity (w.shared.entity entity))
          ↔ Keyed.contains (Metadata.split document).1 "id" = false)
      ∧ (Keyed.contains (Metadata.split document).1 "id" = true →
          w.hasChanged entity = .ok true
            ∧ (w.Considers key r entity →
                (w.turnOf s₀.session.callbacks key).Untouched key entity
                  (w.shared.entity entity) →
                ∀ plan, (w.planSave s₀.session.callbacks).1 = .ok plan →
                  ∃ planned ∈ plan, planned.origin.record? = some key)) := by
  have hbefore := h.consistent.reads hreads
  have hremembers : UnitOfWork.Remembers (fun _ _ => False) _ _ := hreads.remembers
  obtain ⟨key, r, entity, w, htracked, hr, hkept, hknows, huntouched, hmade⟩ :=
    trackDocument_vacant hbefore.workspace (hremembers.saved_of_vacant h.saved_of_vacant) hid hfree
  have hread : s₀.workspace.Reads (fun _ => True) w :=
    Workspace.readClosed_reads.trackDocument trivial htracked
  have hconsistent : (s₀.withWorkspace w).Consistent :=
    hbefore.withWorkspace (hbefore.workspace.reads hread)
  have hconventions : w.work.conventions = s₀.session.work.conventions :=
    congrArg Prod.fst hread.settings
  -- the entity is written without the member that holds the identifier
  have hwritten : (w.shared.entity entity).toBody w.work.conventions.identityProperty
      = .ok (Keyed.erase (Metadata.split document).1 "id") := by
    have hmetadata : Keyed.find? (Metadata.split document).1 Metadata.key = none :=
      (Keyed.find?_erase ..).trans (if_pos rfl)
    rw [show s₀.workspace.work.conventions.identityProperty = "id" from hproperty] at hmade
    rw [hconventions, hproperty]
    exact Shop.anything_toBody hmetadata hmade
  have hdiffers : Change.any (Metadata.split document).1
      (Keyed.erase (Metadata.split document).1 "id")
        = Keyed.contains (Metadata.split document).1 "id" :=
    Change.any_erase (Json.isWellFormed_erase hwell Metadata.key) (by decide +kernel)
  have hchanged := hasChanged_of_untouched hconsistent.workspace hknows huntouched hwritten hr hkept
  rw [hdiffers] at hchanged
  refine ⟨key, r, entity, w, htracked, hr, ⟨fun hspares => ?_, fun hwithout => ?_⟩, fun hwith => ?_⟩
  · have hsame := (hspares _ .refl r hr hkept huntouched).1
    exact Except.ok.inj (hchanged.symm.trans hsame)
  · rw [hwithout] at hdiffers
    intro s₁ hrun r₁ hr₁ hkept₁ huntouched₁
    obtain ⟨hconsistent₁, hconventions₁, hknows₁⟩ :=
      hrun.knowsBody hconsistent hknows hwritten hdiffers
    have hwritten₁ : (w.shared.entity entity).toBody s₁.session.work.conventions.identityProperty
        = .ok (Keyed.erase (Metadata.split document).1 "id") := by
      rw [hconventions₁]
      exact hwritten
    refine ⟨?_, fun hturn plan hplan => ?_⟩
    · rw [hasChanged_of_untouched hconsistent₁.workspace hknows₁ huntouched₁ hwritten₁ hr₁ hkept₁,
        hdiffers]
    · exact unplanned_of_same hconsistent₁.workspace hknows₁ hturn hwritten₁ hdiffers hkept₁
        (Prod.ext hplan rfl)
  · rw [hwith] at hchanged hdiffers
    refine ⟨hchanged, fun hconsiders hturn plan hplan => ?_⟩
    exact planned_of_other hconsistent.workspace hknows hturn hwritten hdiffers hconsiders
      (Prod.ext hplan rfl)

/-- The document of a user with more `members`. -/
def alDocument (members : Fields) : Fields :=
  ("@metadata", .obj [("@id", .str "users/1")]) :: ("Name", .str "Al") :: members

/-- A session against a server that answers every load with `alDocument members`. -/
def besideAl (members : Fields) : OpenSession where
  session := Session.new 1 {} {}
  shared := {}
  connection :=
    { server := fun _ => .ok (.ok (.obj [("Results", .arr [.obj (alDocument members)])])) }
  deliveries := {}

/-- `besideAl` once the document is tracked, and its metadata were asked for. -/
def alAsked : OpenSession :=
  ((besideAl []).withWorkspace
    ((besideAl []).workspace.trackDocument Shop.anything (alDocument [])).2).perform (.metadataOf 0)

/-- `alAsked` once it was saved. -/
def alSaved : OpenSession :=
  alAsked.perform .save

theorem planSave_alAsked :
    (alAsked.workspace.planSave alAsked.session.callbacks).1 = .ok [] := by
  show (alAsked.workspace.planSave {}).1 = .ok []
  exact Except.eq_ok_of_toOption (by decide +kernel)

/-- An entity whose metadata were asked for, and that was saved with the rest of its session, has
not changed, and there is no command for it. -/
theorem untouched_unwritten_iff_saved :
    alSaved.workspace.hasChanged 0 = .ok false
      ∧ ∀ plan, (alSaved.workspace.planSave alSaved.session.callbacks).1 = .ok plan →
        ∀ planned ∈ plan, planned.origin.record? ≠ some 0 := by
  have hwell : (Json.obj (alDocument [])).isWellFormed = true := by decide +kernel
  have hid : documentId (alDocument []) = some "users/1" := by decide +kernel
  obtain ⟨key, r, entity, w, htracked, hr, hiff, -⟩ :=
    untouched_unwritten_iff (.opened 1 {} {} _ _ _) (.refl (besideAl [])) rfl hwell hid
      (fun key r hr => by cases hr)
  obtain rfl : entity = 0 := by
    have hentity : ((besideAl []).workspace.trackDocument Shop.anything
        (alDocument [])).1.toOption = some 0 := by
      decide +kernel
    rw [htracked] at hentity
    exact Option.some.inj hentity
  obtain rfl : ((besideAl []).workspace.trackDocument Shop.anything (alDocument [])).2 = w :=
    congrArg Prod.snd htracked
  obtain rfl : key = 0 := by
    have hkey : (((besideAl []).workspace.trackDocument Shop.anything
        (alDocument [])).2.recordOf 0).toOption.map (·.1) = some 0 := by
      decide +kernel
    rw [hr] at hkey
    exact Option.some.inj hkey
  have hasked : alAsked.workspace.Untouched 0 0 (alAsked.shared.entity 0) :=
    untouched_of_clean (by decide +kernel)
  have hsaved : alSaved.workspace.Untouched 0 0 (alSaved.shared.entity 0) :=
    untouched_of_clean (by decide +kernel)
  have hleft := hiff.mpr (by decide +kernel) alSaved
    (.step .save (.step (.metadataOf 0) .refl trivial (fun hsave => by cases hsave)) trivial
      (fun _ => ⟨hasked.turnOf (Prod.ext planSave_alAsked rfl), fun pair hmem => by
        obtain ⟨plan, w, hplan, hplanned⟩ := planned_of_acknowledged hmem
        obtain rfl := Except.ok.inj ((congrArg Prod.fst hplan).symm.trans planSave_alAsked)
        cases hplanned⟩))
  obtain ⟨⟨_, r'⟩, hr', hkey⟩ := Option.map_eq_some_iff.mp
    (show (alSaved.workspace.recordOf 0).toOption.map (·.1) = some 0 by decide +kernel)
  obtain rfl := hkey
  obtain ⟨hchanged, hplan⟩ := hleft r' (Except.eq_ok_of_toOption hr') (by decide +kernel) hsaved
  exact ⟨hchanged, fun plan h => hplan (hsaved.turnOf (Prod.ext h rfl)) plan h⟩

/-- An entity that was made from a document with an `id` of its own, and that nobody touched, has
changed, and the next save writes it. -/
theorem identified_document_rewritten :
    let loaded := (besideAl [("id", .str "users/1")]).perform (.load Shop.anything "users/1" [])
    loaded.Reachable ∧ loaded.session.work.conventions.identityProperty = "id"
      ∧ Shop.anything.materialize [("Name", .str "Al"), ("id", .str "users/1")] "users/1" "id"
          = .ok (loaded.shared.entity 0)
      ∧ loaded.workspace.Untouched 0 0 (loaded.shared.entity 0)
      ∧ loaded.workspace.hasChanged 0 = .ok true
      ∧ ∃ plan, (loaded.workspace.planSave loaded.session.callbacks).1 = .ok plan
        ∧ plan.map (fun planned => (planned.command.id, planned.origin.record?))
          = [("users/1", some 0)] := by
  intro loaded
  refine ⟨.step (.load Shop.anything "users/1" []) (.opened 1 {} {} _ _ _) trivial, rfl, rfl,
    untouched_of_clean (by decide +kernel), by decide +kernel, ?_⟩
  have hplanned : (loaded.workspace.planSave {}).1.toOption.map
      (List.map fun planned => (planned.command.id, planned.origin.record?))
        = some [("users/1", some 0)] := by
    decide +kernel
  obtain ⟨plan, hplan, hcommands⟩ := Option.map_eq_some_iff.mp hplanned
  exact ⟨plan, Except.eq_ok_of_toOption hplan, hcommands⟩

end OpenSession

end DocumentSession
