import DocumentSession.Proofs.Saves
import DocumentSession.Proofs.Waiting

set_option autoImplicit false

/-! # What a session remembers of documents

A record with an entity keeps the entity, the identifier and the body, and a document that was saved
never counts as new again (`UnitOfWork.Remembers`). Only `settle` can replace the body: with the
result of the PUT of the entity, and with that of a deferred PATCH that has a document
(`RenewsBody`). Everything else that a session does keeps it (`OpenSession.PerformCases.remembers`).

A record without an entity is for a document of the server, so it is never new
(`OpenSession.Reachable.saved_of_vacant`). -/

namespace DocumentSession

open Identifier (normalize)

/-- The result replaces the body of the record at `key`: that of the PUT of its entity does, and
that of a deferred PATCH with a document. -/
def RenewsBody (key : RecordKey) (id : String) (pair : Planned × Fields) : Prop :=
  (∃ body metadata, pair.1.origin = .put key body metadata) ∨ Workspace.renewsBody id pair = true

/-- What `r'` keeps of `r`, whose body may be `renewed`. -/
structure Record.Remembers (renewed : Prop) (r r' : Record) : Prop where
  saved : r'.isNew = true → r.isNew = true
  held : r.entity.isSome = true → r'.entity = r.entity
  known : ¬ renewed → r.entity.isSome = true → r'.id = r.id ∧ r'.body = r.body

namespace Record.Remembers

variable {renewed renewed' : Prop} {r r' r'' : Record}

theorem of_eq (hid : r'.id = r.id) (hentity : r'.entity = r.entity) (hbody : r'.body = r.body)
    (hnew : r'.isNew = true → r.isNew = true) : r.Remembers renewed r' :=
  ⟨hnew, fun _ => hentity, fun _ _ => ⟨hid, hbody⟩⟩

/-- A record whose body is renewed keeps its entity. -/
theorem of_renewed (h : renewed) (hentity : r'.entity = r.entity)
    (hnew : r'.isNew = true → r.isNew = true) : r.Remembers renewed r' :=
  ⟨hnew, fun _ => hentity, fun hkept => absurd h hkept⟩

/-- A record without an entity may get any body. -/
theorem of_vacant (hvacant : r.entity = none) (hnew : r'.isNew = r.isNew) :
    r.Remembers renewed r' := by
  refine ⟨fun h => hnew ▸ h, fun hsome => ?_, fun _ hsome => ?_⟩
  all_goals
    rw [hvacant] at hsome
    cases hsome

theorem mono (h : r.Remembers renewed r') (himp : renewed → renewed') :
    r.Remembers renewed' r' :=
  ⟨h.saved, h.held, fun hkept => h.known fun hrenewed => hkept (himp hrenewed)⟩

/-- A record without an entity is not new, if that held before. -/
theorem saved_of_vacant (h : r.Remembers renewed r') (hsaved : r.entity = none → r.isNew = false)
    (hvacant : r'.entity = none) : r'.isNew = false := by
  have hbefore : r.entity = none := by
    cases hentity : r.entity with
    | none => rfl
    | some entity =>
      rw [h.held (by rw [hentity]; rfl), hentity] at hvacant
      cases hvacant
  cases hnew : r'.isNew with
  | false => rfl
  | true => rw [← h.saved hnew, hsaved hbefore]

theorem trans (h : r.Remembers renewed r') (h' : r'.Remembers renewed' r'')
    (himp : ¬ renewed → r'.id = r.id → ¬ renewed') : r.Remembers renewed r'' := by
  refine ⟨fun hnew => h.saved (h'.saved hnew), fun hsome => ?_, fun hkept hsome => ?_⟩
  · rw [h'.held (by rw [h.held hsome]; exact hsome), h.held hsome]
  · obtain ⟨hid, hbody⟩ := h.known hkept hsome
    obtain ⟨hid', hbody'⟩ :=
      h'.known (himp hkept hid) (by rw [h.held hsome]; exact hsome)
    exact ⟨hid'.trans hid, hbody'.trans hbody⟩

end Record.Remembers

namespace UnitOfWork

/-- What `u'` keeps of the records of `u`, where the bodies of some may be `renewed`. A record that
is not one of `u` has a new key, and it is new only if it has an entity. -/
structure Remembers (renewed : RecordKey → String → Prop) (u u' : UnitOfWork) : Prop where
  next : u.nextKey ≤ u'.nextKey
  record : ∀ key r', u'.records.find? key = some r' →
    (∃ r, u.records.find? key = some r ∧ r.Remembers (renewed key r.id) r')
      ∨ (u.nextKey ≤ key ∧ (r'.entity = none → r'.isNew = false))

namespace Remembers

variable {renewed renewed' : RecordKey → String → Prop} {u u' u'' : UnitOfWork}

/-- No record changes. -/
theorem of_same (hnext : u'.nextKey = u.nextKey) (hrecords : u'.records = u.records) :
    u.Remembers renewed u' := by
  refine ⟨Nat.le_of_eq hnext.symm, fun key r hr => Or.inl ⟨r, hrecords ▸ hr, ?_⟩⟩
  exact .of_eq rfl rfl rfl id

theorem refl (u : UnitOfWork) : u.Remembers renewed u :=
  .of_same rfl rfl

theorem trans (h : u.Remembers renewed u') (h' : u'.Remembers renewed u'') :
    u.Remembers renewed u'' := by
  refine ⟨Nat.le_trans h.next h'.next, fun key r'' hr'' => ?_⟩
  rcases h'.record key r'' hr'' with ⟨r', hr', hlater⟩ | ⟨hnumber, hsaved⟩
  · rcases h.record key r' hr' with ⟨r, hr, hearlier⟩ | ⟨hnumber, hsaved⟩
    · refine Or.inl ⟨r, hr, hearlier.trans hlater ?_⟩
      intro hkept hid
      rwa [hid]
    · exact Or.inr ⟨hnumber, hlater.saved_of_vacant hsaved⟩
  · exact Or.inr ⟨Nat.le_trans h.next hnumber, hsaved⟩

/-- A record is removed. -/
theorem of_erase (hnext : u'.nextKey = u.nextKey) {other : RecordKey}
    (hrecords : u'.records = u.records.erase other) : u.Remembers renewed u' := by
  refine ⟨Nat.le_of_eq hnext.symm, fun key r hr => ?_⟩
  rw [hrecords, Keyed.find?_erase] at hr
  split at hr
  · cases hr
  · exact Or.inl ⟨r, hr, .of_eq rfl rfl rfl id⟩

/-- A record is made. -/
theorem of_insert (hnext : u'.nextKey = u.nextKey + 1) {made : Record}
    (hrecords : u'.records = u.records.insert u.nextKey made)
    (hsaved : made.entity = none → made.isNew = false) : u.Remembers renewed u' := by
  refine ⟨Nat.le_of_lt (Nat.lt_of_succ_le (Nat.le_of_eq hnext.symm)), fun key r hr => ?_⟩
  rw [hrecords, Keyed.find?_insert] at hr
  split at hr
  · next hkey =>
    obtain rfl := Option.some.inj hr
    exact Or.inr ⟨Nat.le_of_eq hkey, hsaved⟩
  · exact Or.inl ⟨r, hr, .of_eq rfl rfl rfl id⟩

/-- A record changes. -/
theorem of_modify (other : RecordKey) (change : Record → Record)
    (hnext : u'.nextKey = u.nextKey) (hrecords : u'.records = u.records.modify other change)
    (hchange : ∀ r, u.records.find? other = some r →
      r.Remembers (renewed other r.id) (change r)) : u.Remembers renewed u' := by
  refine ⟨Nat.le_of_eq hnext.symm, fun key r' hr' => ?_⟩
  rw [hrecords, Keyed.find?_modify] at hr'
  split at hr'
  · next hkey =>
    subst hkey
    obtain ⟨r, hr, rfl⟩ := Option.map_eq_some_iff.mp hr'
    exact Or.inl ⟨r, hr, hchange r hr⟩
  · exact Or.inl ⟨r', hr', .of_eq rfl rfl rfl id⟩

/-- A record without an entity changes. -/
theorem of_vacant {other : RecordKey} {r : Record} (hr : u.records.find? other = some r)
    (hvacant : r.entity = none) (change : Record → Record) (hnext : u'.nextKey = u.nextKey)
    (hrecords : u'.records = u.records.modify other change)
    (hnew : (change r).isNew = r.isNew) : u.Remembers renewed u' := by
  refine .of_modify other change hnext hrecords fun found hfound => ?_
  obtain rfl := Option.some.inj (hr.symm.trans hfound)
  exact .of_vacant hvacant hnew

theorem mono (h : u.Remembers renewed u')
    (himp : ∀ key id, renewed key id → renewed' key id) : u.Remembers renewed' u' := by
  refine ⟨h.next, fun key r' hr' => (h.record key r' hr').imp_left ?_⟩
  rintro ⟨r, hr, hremembers⟩
  exact ⟨r, hr, hremembers.mono (himp key r.id)⟩

/-- As long as records without an entity are not new, they stay so. -/
theorem saved_of_vacant (h : u.Remembers renewed u')
    (hsaved : ∀ key r, u.records.find? key = some r → r.entity = none → r.isNew = false)
    (key : RecordKey) (r' : Record) (hr' : u'.records.find? key = some r')
    (hvacant : r'.entity = none) : r'.isNew = false := by
  rcases h.record key r' hr' with ⟨r, hr, hremembers⟩ | ⟨-, hmade⟩
  · exact hremembers.saved_of_vacant (hsaved key r hr) hvacant
  · exact hmade hvacant

end Remembers

end UnitOfWork

namespace Workspace

variable {w w' : Workspace} {renewed : RecordKey → String → Prop}

theorem remembers_openDictionary {key : RecordKey} {r : Record}
    (hr : w.work.records.find? key = some r) :
    w.work.Remembers renewed (w.openDictionary key r).2.work := by
  refine .of_modify key (fun _ => (r.openDictionary w.shared.dictionaries).2.1) rfl rfl ?_
  intro found hfound
  obtain rfl := Option.some.inj (hr.symm.trans hfound)
  rw [r.openDictionary_record w.shared.dictionaries]
  exact .of_eq rfl rfl rfl id

/-! ## Local work -/

theorem LocalStep.remembers {given : Option String} (hstep : w.LocalStep given w') :
    w.work.Remembers renewed w'.work := by
  cases hstep with
  | index hrecords hnext => exact .of_same hnext hrecords
  | removeRecord other =>
    unfold Workspace.removeRecord
    split
    · exact .refl w.work
    · exact .of_erase rfl rfl
  | track entity id incomplete check => exact .of_insert rfl rfl (fun hvacant => by cases hvacant)
  | @attach other r hr hvacant entity id check =>
    exact .of_vacant hr hvacant
      (fun r => { r with entity := some entity, check, changeVector := given.or r.changeVector })
      rfl rfl rfl
  | storeAgain other check =>
    exact .of_modify other (fun r => { r with changeVector := given.or r.changeVector, check }) rfl
      rfl (fun _ _ => .of_eq rfl rfl rfl id)
  | ignoreChanges other =>
    exact .of_modify other (fun r => { r with ignoreChanges := true }) rfl rfl
      (fun _ _ => .of_eq rfl rfl rfl id)
  | openDictionary hr _ => exact remembers_openDictionary hr
  | retain _ => exact .of_same rfl rfl
  | clear => exact ⟨Nat.le_refl _, fun _ _ hr => by cases hr⟩

theorem LocalSteps.remembers {given : Option String} (hlocal : w.LocalSteps given w') :
    w.work.Remembers renewed w'.work := by
  induction hlocal with
  | refl => exact .refl w.work
  | tail _ hstep ih => exact ih.trans hstep.remembers

/-! ## Reading -/

theorem remembers_register (w : Workspace) (document : Fields) :
    w.work.Remembers renewed (w.register document).2.work := by
  unfold Workspace.register
  dsimp only
  split
  · exact .refl w.work
  · split
    · unfold refreshRecord
      split
      · next r hr =>
        split
        · exact .refl w.work
        · next hnone =>
          exact .of_vacant hr (by simpa using hnone)
            (·.refreshed (Metadata.split document).1 (Metadata.split document).2) rfl rfl rfl
      · exact .refl w.work
    · exact .of_insert rfl rfl (fun _ => rfl)

theorem remembers_entityFor (w : Workspace) (type : EntityType) (key : RecordKey) :
    w.work.Remembers renewed (w.entityFor type key).2.work := by
  unfold Workspace.entityFor
  split
  · exact .refl w.work
  · next r hr =>
    split
    · dsimp only
      split <;> exact .refl w.work
    · exact .refl w.work
    · next hnone _ =>
      split
      · exact .refl w.work
      · exact .of_vacant hr hnone
          (fun r => { r with entity := some w.shared.entities.length }) rfl rfl rfl

theorem ReadStep.remembers {D : Fields → Prop} (hstep : w.ReadStep D w') :
    w.work.Remembers renewed w'.work := by
  cases hstep with
  | warn _ => exact .refl w.work
  | markMissing _ => exact .of_same rfl rfl
  | register document _ => exact remembers_register w document
  | entityFor type key => exact remembers_entityFor w type key
  | detached type document =>
    unfold Workspace.detached
    dsimp only
    split <;> exact .refl w.work

theorem Reads.remembers {D : Fields → Prop} (hreads : w.Reads D w') :
    w.work.Remembers renewed w'.work := by
  induction hreads with
  | refl => exact .refl w.work
  | tail _ hstep ih => exact ih.trans hstep.remembers

/-! ## Saving -/

theorem Plans.remembers {callbacks : Callbacks} (hplans : w.Plans callbacks w') :
    w.work.Remembers renewed w'.work := by
  induction hplans with
  | refl => exact .refl w.work
  | tail _ hstep ih =>
    cases hstep with
    | beforeDelete _ => exact ih
    | beforeStore _ => exact ih
    | opens hr _ => exact ih.trans (remembers_openDictionary hr)

theorem Settles.remembers {planned : Planned} {result : Fields} {answer : Except Error Unit}
    (hsettles : w.Settles planned result answer w') (hw : w.Consistent) :
    w.work.Remembers (fun key id => RenewsBody key id (planned, result)) w'.work := by
  have hversioned : ∀ other, w.work.Remembers (fun key id => RenewsBody key id (planned, result))
      (w.work.modifyRecord other (·.atVersion (resultVersion result))) :=
    fun other => .of_modify other (·.atVersion (resultVersion result)) rfl rfl
      (fun _ _ => .of_eq rfl rfl rfl id)
  cases hsettles with
  | unnamed | goneBeforePut | goneBeforeDelete | unknown => exact .refl w.work
  | written | noted => exact .of_same rfl rfl
  | deleted | dropped => exact .of_erase rfl rfl
  | @saved other body metadata _ id horigin =>
    refine .of_modify other (·.saved id body (overlayResult metadata result)) rfl rfl ?_
    exact fun _ _ => .of_renewed (Or.inl ⟨body, metadata, horigin⟩) rfl (fun h => by cases h)
  | @replaced other body metadata _ id taken gone horigin =>
    have hforgotten : w.work.Remembers (fun key id => RenewsBody key id (planned, result))
        (w.work.withoutRecord taken gone) := .of_erase rfl rfl
    refine hforgotten.trans
      (.of_modify other (·.saved id body (overlayResult metadata result)) rfl rfl ?_)
    exact fun _ _ => .of_renewed (Or.inl ⟨body, metadata, horigin⟩) rfl (fun h => by cases h)
  | @overwritten other =>
    exact .of_modify other (fun r => r.overwritten (overlayResult r.metadata result)) rfl rfl
      (fun _ _ => .of_eq rfl rfl rfl (fun hnew => by cases hnew))
  | @versioned other | @unfit other => exact hversioned other
  | @scripted other r document _ horigin hkind hfound hdocument =>
    refine (hversioned other).trans (.of_modify other
      (·.scripted (Metadata.split document).1 (Metadata.split document).2) rfl rfl ?_)
    intro r' hr'
    have hentity : (r'.scripted (Metadata.split document).1 (Metadata.split document).2).entity
        = r'.entity := by
      unfold Record.scripted
      split <;> rfl
    have hnew : (r'.scripted (Metadata.split document).1 (Metadata.split document).2).isNew
        = r'.isNew := by
      unfold Record.scripted
      split <;> rfl
    refine .of_renewed (Or.inr ?_) hentity (fun h => hnew ▸ h)
    -- the command leads to the record, so it has its identifier
    obtain ⟨hget, hr⟩ := UnitOfWork.recordForId?_eq_some_iff.mp hfound
    obtain ⟨before, hbefore, hid⟩ := hw.toCoherent.record_of_get? hget
    obtain rfl := Option.some.inj (hr.symm.trans hbefore)
    have hsame : r'.id = r.id := by
      have hversion := Keyed.find?_modify_self hr (·.atVersion (resultVersion result))
      obtain rfl := Option.some.inj (hversion.symm.trans hr')
      rfl
    unfold renewsBody waited
    rw [hsame]
    simp [horigin, hkind, hid, hdocument]

/-- A run over results replaces only the bodies that one of them renews. -/
theorem SettlesAll.remembers {pairs : List (Planned × Fields)} {answers : List (Except Error Unit)}
    (hrun : w.SettlesAll pairs answers w') (hw : w.Consistent) :
    w.work.Remembers (fun key id => ∃ pair ∈ pairs, RenewsBody key id pair) w'.work := by
  refine hrun.preserves (P := fun v => w.work.Remembers _ v.work) hw ?_ (.refl w.work)
  intro v v' planned result answer hmem _ hv hsettles hremembers
  exact hremembers.trans ((hsettles.remembers hv).mono
    fun key id hrenews => ⟨(planned, result), hmem, hrenews⟩)

end Workspace

namespace OpenSession

open Workspace

variable {s s' : OpenSession} {renewed : RecordKey → String → Prop}

/-! ## All operations -/

theorem Saves.remembers {u : UnitOfWork} (h : s.Saves u) :
    s.session.work.Remembers (fun key id => ∃ pair ∈ s.acknowledged, RenewsBody key id pair) u := by
  cases h with
  | unsettled hplans => exact hplans.remembers
  | settled hplan _ hwork hconsistent hrun =>
    have hplanned : s.session.work.Remembers
        (fun key id => ∃ pair ∈ s.acknowledged, RenewsBody key id pair) _ :=
      (plans_planSave hplan).remembers
    rw [← hwork] at hplanned
    exact (hplanned.trans (hrun.remembers hconsistent)).trans (.of_same rfl rfl)

theorem Reads.remembers (h : s.Reads s') : s.session.work.Remembers renewed s'.session.work :=
  Workspace.Reads.remembers h.workspace

/-- Every operation keeps what is remembered, unless it is a save whose results renew bodies. -/
theorem PerformCases.remembers {operation : Operation} (hcases : s.PerformCases operation s')
    (h : s.Consistent) :
    s.session.work.Remembers
      (fun key id => operation = .save ∧ ∃ pair ∈ s.acknowledged, RenewsBody key id pair)
      s'.session.work := by
  cases hcases with
  | localSteps hlocal _ _ => exact LocalSteps.remembers hlocal
  | reads _ hreads =>
    rw [← session_asked s operation]
    exact hreads.remembers
  | saves => exact (OpenSession.saves h).remembers.mono fun _ _ hrenews => ⟨rfl, hrenews⟩
  | listens _ => exact .refl _
  | outside _ _ _ => exact .refl _

/-- A record without an entity is not new. -/
theorem Reachable.saved_of_vacant (h : s.Reachable) :
    ∀ key r, s.session.work.records.find? key = some r → r.entity = none → r.isNew = false := by
  induction h with
  | opened => exact fun _ _ hr => by cases hr
  | step operation h _ ih =>
    exact ((performCases h.consistent operation).remembers h.consistent).saved_of_vacant ih

end OpenSession

end DocumentSession
