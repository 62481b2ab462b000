import DocumentSession.Proofs.Consistent.Reads
import DocumentSession.Proofs.Planning
import DocumentSession.Proofs.LocalSteps

set_option autoImplicit false

/-! # The versions of documents

A record shows a body and a change vector side by side (`Record.Shows`), and operations write the
two at different places. Whether they belong together is asked of a relation `V` of bodies and
change vectors that documents have had (`Versions`): a step may only bring in pairs that are in `V`
(`Workspace.Learns`).

Local steps without a given change vector bring in no pairs, and neither does planning. Reading
brings in those of the documents that are registered (`IsVersion`). -/

namespace DocumentSession

open Identifier (normalize)

/-- The bodies that documents have had, each with its change vector. A document is named by its
normalized identifier. -/
abbrev Versions := String → Fields → String → Prop

/-! ## What records show -/

/-- The record of the document `id` has `body` and `version`. -/
structure Record.Shows (r : Record) (id : String) (body : Fields) (version : String) : Prop where
  id : normalize r.id = id
  body : r.body = some body
  version : r.changeVector = some version

/-- What the record shows is in `V`. -/
def Record.IsTrue (V : Versions) (r : Record) : Prop :=
  ∀ id body version, r.Shows id body version → V id body version

/-- What `r'` shows is shown by `r`, or is in `V`. -/
def Record.Learns (V : Versions) (r r' : Record) : Prop :=
  ∀ id body version, r'.Shows id body version → r.Shows id body version ∨ V id body version

namespace Record

variable {V V' : Versions} {r r' : Record}

instance : Std.Refl (Record.Learns V) :=
  ⟨fun _ _ _ _ hshows => Or.inl hshows⟩

instance : IsTrans Record (Record.Learns V) where
  trans := by
    intro r r' r'' h h' id body version hshows
    rcases h' id body version hshows with hbefore | htrue
    · exact h id body version hbefore
    · exact Or.inr htrue

theorem IsTrue.learns (h : r'.IsTrue V) : r.Learns V r' :=
  fun id body version hshows => Or.inr (h id body version hshows)

theorem Learns.isTrue (h : r.Learns V r') (hr : r.IsTrue V) : r'.IsTrue V := by
  intro id body version hshows
  rcases h id body version hshows with hbefore | htrue
  · exact hr id body version hbefore
  · exact htrue

theorem IsTrue.mono (h : r.IsTrue V)
    (himp : ∀ id body version, V id body version → V' id body version) : r.IsTrue V' :=
  fun id body version hshows => himp _ _ _ (h id body version hshows)

theorem IsTrue.of_version {version : String} (hversion : r.changeVector = some version)
    (htrue : ∀ body, r.body = some body → V (normalize r.id) body version) : r.IsTrue V := by
  rintro id body version' ⟨rfl, hbody, hversion'⟩
  obtain rfl := Option.some.inj (hversion.symm.trans hversion')
  exact htrue body hbody

theorem IsTrue.of_body {body : Fields} {version : String} (hbody : r.body = some body)
    (hversion : r.changeVector = some version) (htrue : V (normalize r.id) body version) :
    r.IsTrue V := by
  refine .of_version hversion fun body' hbody' => ?_
  obtain rfl := Option.some.inj (hbody.symm.trans hbody')
  exact htrue

theorem changeVector_withMetadata (r : Record) {metadata : Fields} {version : String}
    (hversion : changeVectorOf metadata = some version) :
    (r.withMetadata metadata).changeVector = some version := by
  unfold withMetadata
  rw [hversion]
  rfl

/-- A record without a body shows nothing. -/
theorem IsTrue.of_no_body (hbody : r.body = none) : r.IsTrue V := by
  intro id body version hshows
  rw [hshows.body] at hbody
  cases hbody

/-- A record with the same identifier, body and change vector shows the same. -/
theorem Learns.of_same (hid : r'.id = r.id) (hbody : r'.body = r.body)
    (hversion : r'.changeVector = r.changeVector) : r.Learns V r' := by
  intro id body version hshows
  exact Or.inl ⟨hid ▸ hshows.id, hbody ▸ hshows.body, hversion ▸ hshows.version⟩

end Record

namespace Workspace

variable {V V' : Versions} {w w' w'' : Workspace}

/-- What the records of `w'` show is shown by those of `w`, or is in `V`. -/
def Learns (V : Versions) (w w' : Workspace) : Prop :=
  Keyed.Develops (Record.IsTrue V) (Record.Learns V) w.work.records w'.work.records

namespace Learns

theorem of_records (h : w'.work.records = w.work.records) : w.Learns V w' := by
  unfold Learns
  rw [h]
  exact .refl _

theorem refl (w : Workspace) : w.Learns V w :=
  .of_records rfl

theorem trans (h : w.Learns V w') (h' : w'.Learns V w'') : w.Learns V w'' :=
  Keyed.Develops.trans (fun _ _ htrue hlearns => hlearns.isTrue htrue) h h'

theorem mono (h : w.Learns V w') (himp : ∀ id body version, V id body version →
    V' id body version) : w.Learns V' w' := by
  refine Keyed.Develops.mono h ?_ ?_
  · exact fun r htrue => htrue.mono himp
  · exact fun r r' hlearns id body version hshows =>
      (hlearns id body version hshows).imp_right (himp _ _ _)

theorem modify {key : RecordKey} {r : Record} (hr : w.work.records.find? key = some r)
    (change : Record → Record)
    (hrecords : w'.work.records = w.work.records.modify key change)
    (hchange : r.Learns V (change r)) : w.Learns V w' := by
  unfold Learns
  rw [hrecords]
  refine .modify _ key change fun r' hr' => ?_
  obtain rfl := Option.some.inj (hr.symm.trans hr')
  exact Or.inr hchange

theorem modify_any (key : RecordKey) (change : Record → Record)
    (hrecords : w'.work.records = w.work.records.modify key change)
    (hchange : ∀ r : Record, r.Learns V (change r)) : w.Learns V w' := by
  unfold Learns
  rw [hrecords]
  exact .modify _ key change fun r _ => Or.inr (hchange r)

theorem removeRecord (w : Workspace) (key : RecordKey) : w.Learns V (w.removeRecord key).2 := by
  unfold Workspace.removeRecord
  split
  · exact .refl w
  · exact Keyed.Develops.erase _ key

end Learns

/-! ## Local steps -/

theorem learns_openDictionary (w : Workspace) {key : RecordKey} {r : Record}
    (hr : w.work.records.find? key = some r) : w.Learns V (w.openDictionary key r).2 := by
  refine .modify hr (fun _ => (r.openDictionary w.shared.dictionaries).2.1) rfl ?_
  unfold Record.openDictionary
  cases r.dictionary <;> exact .of_same rfl rfl rfl

/-- Local steps without a given change vector bring in nothing. -/
theorem LocalStep.learns (h : w.LocalStep none w') : w.Learns V w' := by
  cases h with
  | index hrecords _ => exact .of_records hrecords
  | removeRecord key => exact .removeRecord w key
  | track entity id incomplete check =>
    exact Keyed.Develops.insert _ w.work.nextKey (Record.IsTrue.of_no_body rfl)
  | @attach key _ _ _ entity id check =>
    exact .modify_any key
      (fun r => { r with entity := some entity, check, changeVector := none.or r.changeVector })
      rfl (fun _ => .of_same rfl rfl rfl)
  | storeAgain key check =>
    exact .modify_any key (fun r => { r with changeVector := none.or r.changeVector, check }) rfl
      (fun _ => .of_same rfl rfl rfl)
  | ignoreChanges key =>
    exact .modify_any key (fun r => { r with ignoreChanges := true }) rfl
      (fun _ => .of_same rfl rfl rfl)
  | openDictionary hr _ => exact learns_openDictionary w hr
  | retain n => exact .of_records rfl
  | clear =>
    intro key r hr
    cases hr

theorem LocalSteps.learns (h : w.LocalSteps none w') : w.Learns V w' := by
  induction h with
  | refl => exact .refl w
  | tail _ hstep ih => exact ih.trans hstep.learns

theorem Plans.learns {callbacks : Callbacks} (h : w.Plans callbacks w') : w.Learns V w' := by
  induction h with
  | refl => exact .refl w
  | tail _ hstep ih =>
    refine ih.trans ?_
    cases hstep with
    | beforeDelete id => exact .of_records rfl
    | beforeStore event => exact .of_records rfl
    | opens hr _ => exact learns_openDictionary _ hr

end Workspace

/-! ## Reading -/

/-- If the document has an identifier, it has a change vector, and its body at this change vector is
in `V`. -/
def IsVersion (V : Versions) (document : Fields) : Prop :=
  ∀ id, (Keyed.find? (Metadata.split document).2 Metadata.idKey).bind Json.str? = some id →
    ∃ version, Record.changeVectorOf (Metadata.split document).2 = some version
      ∧ V (normalize id) (Metadata.split document).1 version

namespace Workspace

variable {V : Versions} {w w' : Workspace}

theorem learns_register (h : w.Consistent) {document : Fields} (hdocument : IsVersion V document) :
    w.Learns V (w.register document).2 := by
  unfold register
  dsimp only
  split
  · exact .refl w
  · next id hid =>
    obtain ⟨version, hversion, htrue⟩ := hdocument id hid
    split
    · next key hget =>
      obtain ⟨r, hr, hsame⟩ := h.toCoherent.record_of_get? hget
      unfold refreshRecord
      rw [hr]
      dsimp only
      split
      · exact .refl w
      · rw [← hsame] at htrue
        -- the record is refreshed with the version that came with the body
        have hrefreshed : (r.refreshed (Metadata.split document).1
            (Metadata.split document).2).IsTrue V :=
          .of_body rfl (r.changeVector_withMetadata hversion) htrue
        exact .modify hr (·.refreshed (Metadata.split document).1 (Metadata.split document).2) rfl
          hrefreshed.learns
    · exact Keyed.Develops.insert _ w.work.nextKey (Record.IsTrue.of_body rfl hversion htrue)

theorem learns_entityFor (w : Workspace) (type : EntityType) (key : RecordKey) :
    w.Learns V (w.entityFor type key).2 := by
  unfold entityFor
  split
  · exact .refl w
  · split
    · dsimp only
      split <;> exact .refl w
    · exact .refl w
    · split
      · exact .refl w
      · exact .modify_any key (fun r => { r with entity := some w.shared.entities.length }) rfl
          (fun _ => .of_same rfl rfl rfl)

theorem ReadStep.learns (h : w.Consistent) (hstep : w.ReadStep (IsVersion V) w') :
    w.Learns V w' := by
  cases hstep with
  | warn warning => exact .of_records rfl
  | markMissing id => exact .of_records rfl
  | register document hdocument => exact learns_register h hdocument
  | entityFor type key => exact learns_entityFor w type key
  | detached type document =>
    unfold Workspace.detached
    dsimp only
    split <;> exact .of_records rfl

/-- Reading brings in what the registered documents tell. -/
theorem Reads.learns (h : w.Consistent) (hreads : w.Reads (IsVersion V) w') : w.Learns V w' := by
  induction hreads with
  | refl => exact .refl w
  | tail hbefore hstep ih => exact ih.trans (hstep.learns (h.reads hbefore))

end Workspace

end DocumentSession
