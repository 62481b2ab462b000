import DocumentSession.Proofs.Change
import DocumentSession.Proofs.Reachable
import DocumentSession.Proofs.Plan
import DocumentSession.Proofs.Run

set_option autoImplicit false

/-! # The session after a save that succeeds

If the reply to a save is well-formed (`Answers`) and assigns every entity an identifier that no
other record has (`FreeIds`), every entity that was sent is saved with the identifier, the change
vector and the metadata of its result (`SavedAs`), every record in `deleted` is gone, and no command
is deferred (`OpenSession.batch_settled`).

The proof does not depend on the order of the commands: every other result spares the record of a
PUT and both of its identifiers, the old one and the assigned one (`IsPlan.spares_of_put`). -/

namespace DocumentSession

open Identifier (normalize)

/-- The body of an entity with a well-formed state is well-formed. -/
theorem Entity.isWellFormed_of_toBody {e : Entity} {identityProperty : String} {body : Fields}
    (hstate : e.state.isWellFormed = true) (hbody : e.toBody identityProperty = .ok body) :
    (Json.obj body).isWellFormed = true := by
  unfold toBody at hbody
  split at hbody
  · next fields hfields =>
    rw [hfields] at hstate
    obtain rfl := Except.ok.inj hbody
    exact Json.isWellFormed_erase (Json.isWellFormed_erase hstate _) _
  · cases hbody

namespace Workspace

variable {w w' : Workspace} {plan puts : Plan} {due : List RecordKey}

/-! ## Well-formed answers -/

/-- A well-formed reply to `plan`: it lists one object for each command, and that of a PUT has an
`@id` and a `@change-vector`. -/
structure Answers (plan : Plan) (answer : Option Json) (results : List Fields) : Prop where
  listed : answer.bind (fun body => (body.get? "Results").bind Json.items?)
    = some (results.map .obj)
  named : List.Forall₂ (fun (planned : Planned) result => planned.command.kind = .put →
    (resultId result).isSome = true ∧ (Record.changeVectorOf result).isSome = true) plan results
  wellFormed : ∀ result ∈ results, (Json.obj result).isWellFormed = true

theorem checkResult_eq_ok {command : Command} {result : Fields}
    (hnamed : command.kind = .put →
      (resultId result).isSome = true ∧ (Record.changeVectorOf result).isSome = true) :
    checkResult command (.obj result) = .ok result := by
  unfold checkResult
  cases hkind : command.kind with
  | put =>
    obtain ⟨hid, hversion⟩ := hnamed hkind
    unfold resultId at hid
    unfold Record.changeVectorOf at hversion
    have hlacking : requiredKeys.find?
        (fun key => ((Keyed.find? result key).bind Json.str?).isNone) = none := by
      rw [List.find?_eq_none]
      intro key hkey
      rw [Option.isNone_iff_eq_none, ← ne_eq, ← Option.isSome_iff_ne_none]
      rcases List.mem_pair.mp hkey with rfl | rfl
      · exact hid
      · exact hversion
    dsimp only
    rw [hlacking]
  | delete => rfl
  | patch => rfl

theorem resultsFor_eq_ok {answer : Option Json} {results : List Fields}
    (h : Answers plan answer results) : resultsFor plan answer = .ok results := by
  have hchecked : ∀ {plan : Plan} {results : List Fields},
      List.Forall₂ (fun (planned : Planned) result => planned.command.kind = .put →
        (resultId result).isSome = true ∧ (Record.changeVectorOf result).isSome = true)
        plan results →
      checkResults plan.commands (results.map .obj) = .ok results := by
    intro plan results hnamed
    induction hnamed with
    | nil => rfl
    | cons hfirst _ ih =>
      unfold Plan.commands at ih ⊢
      rw [List.map_cons, List.map_cons, checkResults, checkResult_eq_ok hfirst, ih]
      rfl
  obtain ⟨body, rfl, hitems⟩ := Option.bind_eq_some_iff.mp h.listed
  have hbody : body ≠ .null := by
    rintro rfl
    cases hitems
  have hlength : (results.map Json.obj).length = plan.length := by
    rw [List.length_map, h.named.length_eq]
  unfold resultsFor
  rw [Option.filter_some, if_pos (by simpa using hbody)]
  dsimp only
  rw [hitems]
  dsimp only
  rw [if_neg (by simpa using hlength), hchecked h.named]

/-- The identifiers that the results of PUTs assign, each with its record. -/
def given (pairs : List (Planned × Fields)) : List (RecordKey × String) :=
  pairs.filterMap fun (planned, result) =>
    match planned.origin with
    | .put key _ _ => (resultId result).map (key, ·)
    | _ => none

/-- Every PUT is assigned an identifier of its own. -/
structure FreeIds (w : Workspace) (pairs : List (Planned × Fields)) : Prop where
  /-- No two PUTs are assigned the same identifier. -/
  distinct : ((given pairs).map (fun g => Identifier.normalize g.2)).Nodup
  /-- No other record has the identifier. -/
  free : ∀ g ∈ given pairs, ∀ key r, w.work.records.find? key = some r →
    normalize r.id = Identifier.normalize g.2 → key = g.1
  /-- No command is deferred for the identifier. -/
  unclaimed : ∀ g ∈ given pairs, w.work.hasDeferred g.2 = false

theorem mem_given {pairs : List (Planned × Fields)} {pair : Planned × Fields}
    (hmem : pair ∈ pairs) {key : RecordKey} {id : String} (hgives : Gives pair.1 pair.2 key id) :
    ∃ text, (key, text) ∈ given pairs ∧ normalize text = normalize id := by
  obtain ⟨body, metadata, text, horigin, hid, htext⟩ := hgives
  refine ⟨text, List.mem_filterMap.mpr ⟨pair, hmem, ?_⟩, htext⟩
  simp only [horigin, hid]
  rfl

namespace FreeIds

variable {pairs : List (Planned × Fields)}

theorem pairwise (hfree : w.FreeIds pairs) :
    pairs.Pairwise (fun x y => ∀ key key' id, Gives x.1 x.2 key id → ¬ Gives y.1 y.2 key' id) := by
  have hdistinct := hfree.distinct
  unfold given at hdistinct
  rw [List.Nodup, List.pairwise_map, List.pairwise_filterMap] at hdistinct
  refine hdistinct.imp ?_
  rintro x y hne key key' id ⟨_, _, text, horigin, hid, htext⟩ ⟨_, _, text', horigin', hid', htext'⟩
  refine hne (key, text) ?_ (key', text') ?_ (htext.trans htext'.symm)
  · simp only [horigin, hid]
    rfl
  · simp only [horigin', hid']
    rfl

theorem eq_of_record (hfree : w.FreeIds pairs) {pair : Planned × Fields} (hmem : pair ∈ pairs)
    {key : RecordKey} {id : String} (hgives : Gives pair.1 pair.2 key id) {other : RecordKey}
    {r : Record} (hr : w.work.records.find? other = some r) (hid : normalize r.id = normalize id) :
    other = key := by
  obtain ⟨text, hgiven, htext⟩ := mem_given hmem hgives
  exact hfree.free _ hgiven other r hr (hid.trans htext.symm)

theorem not_waited (hfree : w.FreeIds pairs) {pair : Planned × Fields} (hmem : pair ∈ pairs)
    {key : RecordKey} {id : String} (hgives : Gives pair.1 pair.2 key id) :
    w.work.hasDeferred id = false := by
  obtain ⟨text, hgiven, htext⟩ := mem_given hmem hgives
  have hunclaimed := hfree.unclaimed _ hgiven
  unfold UnitOfWork.hasDeferred at hunclaimed ⊢
  rw [← htext]
  exact hunclaimed

end FreeIds

/-! ## Other results -/

section Others

variable {pairs before after : List (Planned × Fields)} {planned : Planned} {result : Fields}
  {key : RecordKey} {r : Record}

/-- No other planned command comes from the same record. -/
theorem IsPlan.others_apart (hplan : w.IsPlan plan w' due puts) (h : w.Consistent)
    (hpairs : pairs.map Prod.fst = plan) (hsplit : pairs = before ++ (planned, result) :: after)
    (horigin : planned.origin.record? = some key) :
    ∀ pair ∈ before ++ after, pair.1.origin.record? ≠ some key := by
  have hnodup := hplan.records_nodup h
  rw [← hpairs, hsplit, List.filterMap_map, List.filterMap_append, List.filterMap_cons] at hnodup
  simp only [Function.comp_apply, horigin] at hnodup
  -- no record comes up twice, so this one is not among the others
  have hnot := (List.nodup_middle.mp hnodup).notMem
  intro pair hmem heq
  refine hnot ?_
  rw [← List.filterMap_append]
  exact List.mem_filterMap.mpr ⟨pair, hmem, heq⟩

/-- Every other result spares a record in `deleted` and its identifier. -/
theorem IsPlan.spares_of_delete (hplan : w.IsPlan plan w' due puts) (h : w.Consistent)
    (hpairs : pairs.map Prod.fst = plan) (hfree : w.FreeIds pairs)
    (hsplit : pairs = before ++ (planned, result) :: after)
    (horigin : planned.origin.record? = some key) (hr : w.work.records.find? key = some r)
    (hunclaimed : w.work.hasDeferred r.id = false) :
    ∀ pair ∈ before ++ after, Spares pair.1 pair.2 key r.id := by
  have hapart := hplan.others_apart h hpairs hsplit horigin
  intro pair hmem
  have hmem' : pair ∈ pairs := by
    rw [hsplit]
    exact List.mem_append.mpr ((List.mem_append.mp hmem).imp_right (List.mem_cons_of_mem _))
  refine ⟨hapart pair hmem, ?_, ?_⟩
  · intro other hgives
    obtain rfl := hfree.eq_of_record hmem' hgives hr rfl
    obtain ⟨body, metadata, given, hput, -⟩ := hgives
    refine hapart pair hmem ?_
    rw [hput]
    rfl
  · intro hdeferred hid
    have hwaits := hplan.waited_of_origin (hpairs ▸ List.mem_map_of_mem hmem') hdeferred
    rw [hasDeferred_of_mem hwaits hid] at hunclaimed
    cases hunclaimed

/-- Every other result spares the record of a PUT and the identifier that it is assigned. -/
theorem IsPlan.spares_of_put (hplan : w.IsPlan plan w' due puts) (h : w.Consistent)
    (hpairs : pairs.map Prod.fst = plan) (hfree : w.FreeIds pairs)
    (hsplit : pairs = before ++ (planned, result) :: after) {id : String}
    (hgives : Gives planned result key id) :
    ∀ pair ∈ before ++ after, Spares pair.1 pair.2 key id := by
  have hgives' := hgives
  obtain ⟨body, metadata, given, horigin, -⟩ := hgives'
  have hself : (planned, result) ∈ pairs := by
    rw [hsplit]
    exact List.mem_append_right _ (List.mem_cons_self ..)
  have hapart := hplan.others_apart h hpairs hsplit (by rw [horigin]; rfl)
  have hdistinct := hfree.pairwise
  rw [hsplit, List.pairwise_append, List.pairwise_cons] at hdistinct
  obtain ⟨-, ⟨hafter, -⟩, hbefore⟩ := hdistinct
  intro pair hmem
  refine ⟨hapart pair hmem, ?_, ?_⟩
  · intro other hother
    rcases List.mem_append.mp hmem with hmem | hmem
    · exact hbefore pair hmem _ (List.mem_cons_self ..) other key id hother hgives
    · exact hafter pair hmem key other id hgives hother
  · intro hdeferred hid
    have hmem' : pair ∈ pairs := by
      rw [hsplit]
      exact List.mem_append.mpr ((List.mem_append.mp hmem).imp_right (List.mem_cons_of_mem _))
    have hwaits := hplan.waited_of_origin (hpairs ▸ List.mem_map_of_mem hmem') hdeferred
    have hunclaimed := hfree.not_waited hself hgives
    rw [hasDeferred_of_mem hwaits hid] at hunclaimed
    cases hunclaimed

end Others

/-! ## Saved entities -/

/-- In `w'` the entity of `r` is saved under `id`, with `body` and `metadata`. -/
structure SavesEntity (w : Workspace) (key : RecordKey) (r : Record) (id : String)
    (body metadata : Fields) (w' : Workspace) : Prop where
  record : w'.work.records.find? key = some (r.saved id body metadata)
  indexed : w'.work.identities.get? id = some key
  kept : w'.work.isToDelete key = w.work.isToDelete key
  state : ∀ entity, r.entity = some entity →
    w'.shared.entity entity = (w.shared.entity entity).setId id
  conventions : w'.work.conventions = w.work.conventions

section SavesEntity

variable {key : RecordKey} {r : Record} {id : String} {body metadata : Fields}

theorem savesEntity_savedAs (h : w.Consistent) (hr : w.work.records.find? key = some r) :
    w.SavesEntity key r id body metadata
      { work := w.work.savedAs key r id body metadata, shared := w.shared.savedAs r id } := by
  refine ⟨Keyed.find?_modify_self hr (·.saved id body metadata), ?_, rfl, ?_, rfl⟩
  · exact (IdentityMap.get?_insert ..).trans (if_pos rfl)
  · intro entity he
    have hknown : entity < w.shared.entities.length :=
      h.known entity key ((h.held entity key).mpr ⟨r, hr, he⟩)
    unfold Shared.savedAs
    rw [he]
    exact (w.shared.release r).entity_setEntity_self hknown _

theorem KeepsRecord.savesEntity {v : Workspace} (hkeeps : w.KeepsRecord v key)
    (hr : w.work.records.find? key = some r) (hsaves : v.SavesEntity key r id body metadata w') :
    w.SavesEntity key r id body metadata w' := by
  refine ⟨hsaves.record, hsaves.indexed, hsaves.kept.trans hkeeps.deleted, ?_,
    hsaves.conventions.trans hkeeps.conventions⟩
  intro entity he
  rw [hsaves.state entity he, hkeeps.entity r entity hr he]

theorem SavesEntity.keepsRecord {v : Workspace} (hsaves : w.SavesEntity key r id body metadata v)
    (hkeeps : v.KeepsRecord w' key) : w.SavesEntity key r id body metadata w' := by
  refine ⟨hkeeps.record.trans hsaves.record, (hkeeps.indexed id).mpr hsaves.indexed,
    hkeeps.deleted.trans hsaves.kept, ?_, hkeeps.conventions.trans hsaves.conventions⟩
  intro entity he
  rw [hkeeps.entity _ entity hsaves.record he, hsaves.state entity he]

theorem SavesEntity.setDeferred (hsaves : w.SavesEntity key r id body metadata w')
    (deferred : List Command) :
    w.SavesEntity key r id body metadata { w' with work := { w'.work with deferred } } :=
  ⟨hsaves.record, hsaves.indexed, hsaves.kept, hsaves.state, hsaves.conventions⟩

/-- Settling the result of a PUT finds its record, and under a free identifier it saves the
entity. -/
theorem Settles.savesEntity {planned : Planned} {result sent : Fields} {answer : Except Error Unit}
    (hsettles : w.Settles planned result answer w') (h : w.Consistent)
    (hr : w.work.records.find? key = some r)
    (horigin : planned.origin = .put key body sent) (hid : resultId result = some id)
    (hfree : ∀ other, w.work.identities.get? id = some other → other = key) :
    w.SavesEntity key r id body (overlayResult sent result) w'
      ∧ w'.work.missing.contains id = false := by
  cases hsettles with
  | unnamed _ hunnamed =>
    rw [hid] at hunnamed
    cases hunnamed
  | goneBeforePut horigin' hgone =>
    obtain ⟨rfl, -, -⟩ := Origin.put.inj (horigin.symm.trans horigin')
    rw [hr] at hgone
    cases hgone
  | saved horigin' hr' hid' _ =>
    obtain ⟨rfl, rfl, rfl⟩ := Origin.put.inj (horigin.symm.trans horigin')
    obtain rfl := Option.some.inj (hr.symm.trans hr')
    obtain rfl := Option.some.inj (hid.symm.trans hid')
    refine ⟨savesEntity_savedAs h hr, (KnownMissing.contains_remove ..).trans ?_⟩
    simp
  | replaced horigin' _ hid' hother hne _ =>
    obtain ⟨rfl, rfl, rfl⟩ := Origin.put.inj (horigin.symm.trans horigin')
    obtain rfl := Option.some.inj (hid.symm.trans hid')
    exact absurd (hfree _ hother) hne
  | goneBeforeDelete horigin' | deleted horigin' | overwritten horigin' | written horigin'
  | dropped horigin' | noted horigin' | unknown horigin' | versioned horigin' | unfit horigin'
  | scripted horigin' =>
    rw [horigin] at horigin'
    cases horigin'

/-- A run of results saves the entity of a PUT that all other results spare. -/
theorem SettlesAll.savesEntity {before after : List (Planned × Fields)} {planned : Planned}
    {result sent : Fields} {answers : List (Except Error Unit)}
    (hrun : w.SettlesAll (before ++ (planned, result) :: after) answers w') (h : w.Consistent)
    (hr : w.work.records.find? key = some r)
    (horigin : planned.origin = .put key body sent) (hid : resultId result = some id)
    (hfree : ∀ other, w.work.identities.get? id = some other → other = key)
    (hspares : ∀ pair ∈ before, Spares pair.1 pair.2 key r.id)
    (hgiven : ∀ pair ∈ before ++ after, Spares pair.1 pair.2 key id)
    (hdeletes : ∀ pair ∈ after, ∀ other, pair.1.origin ≠ .delete other) :
    w.SavesEntity key r id body (overlayResult sent result) w'
      ∧ w'.work.missing.contains id = false := by
  -- until its own result the record keeps its identifier, afterwards the one it was given
  obtain ⟨v, v', _, answer, _, -, hbefore, hsettles, hafter⟩ := hrun.of_mem
  have hkeeps := hbefore.keepsRecord h hr hspares
  have hv := hbefore.consistent h
  have hfree' := hbefore.stays_free h
    (fun pair hmem => hgiven pair (List.mem_append_left _ hmem)) hfree
  obtain ⟨hsaves, hknown⟩ := hsettles.savesEntity hv (hkeeps.record.trans hr) horigin hid hfree'
  have hgiven' : ∀ pair ∈ after, Spares pair.1 pair.2 key id :=
    fun pair hmem => hgiven pair (List.mem_append_right _ hmem)
  have hv' := hv.settles hsettles
  exact ⟨hkeeps.savesEntity hr (hsaves.keepsRecord (hafter.keepsRecord hv' hsaves.record hgiven')),
    hafter.stays_known hv' hgiven' hdeletes hknown⟩

end SavesEntity

/-- A run of results removes the record of a DELETE that all other results spare. -/
theorem SettlesAll.deleted {before after : List (Planned × Fields)} {planned : Planned}
    {result : Fields} {answers : List (Except Error Unit)} {key : RecordKey} {r : Record}
    (hrun : w.SettlesAll (before ++ (planned, result) :: after) answers w') (h : w.Consistent)
    (hr : w.work.records.find? key = some r) (horigin : planned.origin = .delete key)
    (hspares : ∀ pair ∈ before ++ after, Spares pair.1 pair.2 key r.id) :
    w'.work.records.find? key = none ∧ w'.work.missing.contains r.id = true := by
  obtain ⟨v, v', _, answer, _, -, hbefore, hsettles, hafter⟩ := hrun.of_mem
  have hkeeps := hbefore.keepsRecord h hr
    (fun pair hmem => hspares pair (List.mem_append_left _ hmem))
  have hv := hbefore.consistent h
  have hrv : v.work.records.find? key = some r := hkeeps.record.trans hr
  have hdone : v'.work.records.find? key = none ∧ v'.work.missing.contains r.id = true := by
    cases hsettles with
    | goneBeforeDelete horigin' hgone =>
      obtain rfl := Origin.delete.inj (horigin.symm.trans horigin')
      rw [hrv] at hgone
      cases hgone
    | deleted horigin' hr' =>
      obtain rfl := Origin.delete.inj (horigin.symm.trans horigin')
      obtain rfl := Option.some.inj (hrv.symm.trans hr')
      refine ⟨(Keyed.find?_erase ..).trans (if_pos rfl), ?_⟩
      refine (KnownMissing.contains_insert ..).trans ?_
      simp
    | unnamed horigin' | goneBeforePut horigin' | saved horigin' | replaced horigin'
    | overwritten horigin' | written horigin' | dropped horigin' | noted horigin'
    | unknown horigin' | versioned horigin' | unfit horigin' | scripted horigin' =>
      rw [horigin] at horigin'
      cases horigin'
  have hv' := hv.settles hsettles
  exact ⟨hafter.absent hv' hdone.1, hafter.stays_missing hv'
    (fun pair hmem => hspares pair (List.mem_append_right _ hmem)) hdone.2⟩

/-! ## What a session shows of a saved entity -/

/-- What the session shows of a saved entity: its identifier, change vector and metadata, and that a
look-up of the identifier gives it. -/
structure SavedAs (w : Workspace) (entity : EntityRef) (id version : String)
    (metadata : Fields) : Prop where
  idOf : w.idOf entity = .ok id
  changeVectorOf : w.changeVectorOf entity = .ok (some version)
  metadata : ∃ key r, w.recordOf entity = .ok (key, r) ∧ r.metadata = metadata
  known : ∀ (type : EntityType) id', type.name = (w.shared.entity entity).type.name →
    normalize id' = normalize id → w.lookup type id' = (.ok (.known (some entity)), w)

theorem recordOf_eq_ok (h : w.Consistent) {key : RecordKey} {r : Record} {entity : EntityRef}
    (hr : w.work.records.find? key = some r) (he : r.entity = some entity) :
    w.recordOf entity = .ok (key, r) := by
  unfold recordOf
  rw [h.toCoherent.recordForEntity?_eq_some_iff.mpr ⟨hr, he⟩]

section SavedAs

variable {key : RecordKey} {r : Record} {id : String} {body metadata : Fields} {entity : EntityRef}

theorem SavesEntity.savedAs (hsaves : w.SavesEntity key r id body metadata w') (h' : w'.Consistent)
    (hknown : w'.work.missing.contains id = false) (he : r.entity = some entity)
    (hkept : w.work.isToDelete key = false) {version : String}
    (hversion : Record.changeVectorOf metadata = some version) :
    w'.SavedAs entity id version metadata := by
  have hrecord := recordOf_eq_ok h' hsaves.record he
  refine ⟨?_, ?_, ⟨key, _, hrecord, rfl⟩, ?_⟩
  · unfold idOf
    rw [hrecord]
    rfl
  · unfold changeVectorOf
    rw [hrecord]
    show Except.ok ((Record.changeVectorOf metadata).or r.changeVector) = _
    rw [hversion]
    rfl
  · intro type id' htype hid
    have hmissing : w'.work.missing.contains id' = false := by
      unfold KnownMissing.contains at hknown ⊢
      rw [hid]
      exact hknown
    have hfor : w'.entityFor type key = (.ok (some entity), w') := by
      have hentity : (r.saved id body metadata).entity = some entity := he
      unfold entityFor
      rw [hsaves.record]
      dsimp only
      rw [hentity]
      dsimp only
      rw [if_pos htype.symm]
    unfold lookup
    rw [hmissing, w'.work.identities.get?_congr hid, hsaves.indexed]
    simp only [hsaves.kept, hkept, hfor, Bool.false_eq_true, if_false]

/-- If the assigned identifier is the only change of the entity since it was sent, `entityChanged`
says no. -/
theorem SavesEntity.entityChanged (hsaves : w.SavesEntity key r id body metadata w')
    (he : r.entity = some entity) (hbody : w.bodyOf entity = .ok body)
    (hwell : (Json.obj body).isWellFormed = true)
    (hsame : ((w.shared.entity entity).setId id).toBody w.work.conventions.identityProperty
      = (w.shared.entity entity).toBody w.work.conventions.identityProperty) :
    w'.entityChanged (r.saved id body metadata) = .ok false := by
  have hentity : (r.saved id body metadata).entity = some entity := he
  have hbody' : w'.bodyOf entity = .ok body := by
    unfold bodyOf
    rw [hsaves.state entity he, hsaves.conventions, hsame]
    exact hbody
  have hmust : w'.mustWrite (r.saved id body metadata) body = false :=
    Change.any_self hwell
  rw [entityChanged_eq_mustWrite hentity hbody', hmust]

theorem SavesEntity.hasChanged (hsaves : w.SavesEntity key r id body metadata w')
    (h' : w'.Consistent)
    (he : r.entity = some entity) (hkept : w.work.isToDelete key = false)
    (hunchanged : w'.entityChanged (r.saved id body metadata) = .ok false) :
    w'.hasChanged entity = .ok false := by
  unfold Workspace.hasChanged
  rw [recordOf_eq_ok h' hsaves.record he]
  show (if w'.work.isToDelete key = true then _ else _) = _
  rw [hsaves.kept, hkept]
  exact hunchanged

end SavedAs

/-! ## A settled plan -/

section Parts

variable {w₀ : Workspace} {pairs : List (Planned × Fields)} {answers : List (Except Error Unit)}

/-- Planning keeps every record, up to its dictionary. -/
theorem IsPlan.record_after (hplan : w₀.IsPlan plan w due puts) {key : RecordKey} {r : Record}
    (hr : w₀.work.records.find? key = some r) :
    ∃ dictionary, w.work.records.find? key = some { r with dictionary } := by
  obtain ⟨dictionary, hopened, -⟩ := hplan.opened.record key r hr
  exact ⟨dictionary, hopened⟩

/-- Every entity that the plan writes is saved as its result says. -/
theorem IsPlan.savesEntity (hplan : w₀.IsPlan plan w due puts) (h₀ : w₀.Consistent)
    (h : w.Consistent)
    (hpairs : pairs.map Prod.fst = plan) (hfree : w₀.FreeIds pairs)
    (hrun : w.SettlesAll pairs answers w') {planned : Planned} {result : Fields}
    (hmem : (planned, result) ∈ pairs) {key : RecordKey} {body sent : Fields}
    (horigin : planned.origin = .put key body sent) {id : String}
    (hid : resultId result = some id) {r : Record} {entity : EntityRef}
    (hwrites : w₀.Writes key r entity body) :
    ∃ dictionary,
      w.SavesEntity key { r with dictionary } id body (overlayResult sent result) w'
        ∧ w'.work.missing.contains id = false := by
  obtain ⟨before, after, hsplit⟩ := List.append_of_mem hmem
  have hgives : Gives planned result key id := ⟨body, sent, id, horigin, hid, rfl⟩
  have hrecord : planned.origin.record? = some key := by
    rw [horigin]
    rfl
  obtain ⟨dictionary, hr⟩ := hplan.record_after hwrites.record
  refine ⟨dictionary, ?_⟩
  -- planning gives no identifier away
  have hfree' : ∀ other, w.work.identities.get? id = some other → other = key := by
    intro other hget
    obtain ⟨r', hr', hid'⟩ := h.toCoherent.record_of_get? hget
    obtain ⟨r₀, hr₀, heq, -⟩ := hplan.opened.record_before hr'
    rw [heq] at hid'
    exact hfree.eq_of_record hmem hgives hr₀ hid'
  have hspares := hplan.spares_of_delete h₀ hpairs hfree hsplit hrecord hwrites.record hwrites.free
  have hgiven := hplan.spares_of_put h₀ hpairs hfree hsplit hgives
  -- all deletions are settled before
  have hdeletes : ∀ pair ∈ after, ∀ other, pair.1.origin ≠ .delete other := by
    have hfirst := hplan.deletes_first
    rw [← hpairs, hsplit, List.map_append, List.map_cons, List.pairwise_append,
      List.pairwise_cons] at hfirst
    intro pair hpair
    exact hfirst.2.1.1 pair.1 (List.mem_map_of_mem hpair) key body sent horigin
  rw [hsplit] at hrun
  exact hrun.savesEntity h hr horigin hid hfree'
    (fun pair hpair => hspares pair (List.mem_append_left _ hpair)) hgiven hdeletes

/-- Every record in `deleted` is gone, and its identifier is missing. -/
theorem IsPlan.deleted (hplan : w₀.IsPlan plan w due puts) (h₀ : w₀.Consistent)
    (h : w.Consistent) (hpairs : pairs.map Prod.fst = plan) (hfree : w₀.FreeIds pairs)
    (hrun : w.SettlesAll pairs answers w') {planned : Planned} (hmem : planned ∈ plan)
    {key : RecordKey} (horigin : planned.origin = .delete key) :
    ∃ r, w₀.work.records.find? key = some r ∧ w'.work.records.find? key = none
      ∧ w'.work.missing.contains r.id = true := by
  obtain ⟨-, r, hr₀, hunclaimed, -⟩ := hplan.delete_of_origin hmem horigin
  rw [← hpairs, List.mem_map] at hmem
  obtain ⟨⟨planned, result⟩, hpair, rfl⟩ := hmem
  obtain ⟨before, after, hsplit⟩ := List.append_of_mem hpair
  have hrecord : planned.origin.record? = some key := by
    rw [horigin]
    rfl
  obtain ⟨dictionary, hr⟩ := hplan.record_after hr₀
  have hspares := hplan.spares_of_delete h₀ hpairs hfree hsplit hrecord hr₀ hunclaimed
  rw [hsplit] at hrun
  have hdone := hrun.deleted h hr horigin hspares
  exact ⟨r, hr₀, hdone⟩

end Parts

end Workspace

namespace OpenSession

open Workspace

/-- If the reply to a save is well-formed and every PUT is assigned a free identifier, all results
are settled. Every entity that was sent has the identifier, the change vector and the metadata of
its result, a look-up of the identifier gives it, and `entityChanged` says no unless the assigned
identifier changes more of the entity than its identity property. Every record in `deleted` is gone
and its identifier is missing. No command is deferred. -/
theorem batch_settled {s : OpenSession} (hreach : s.Reachable) (hquiet : s.session.callbacks = {})
    {plan : Plan} {w : Workspace}
    (hplan : s.workspace.planSave s.session.callbacks = (.ok plan, w)) {answer : Option Json}
    {results : List Fields} (hanswers : Answers plan answer results)
    (hfree : s.workspace.FreeIds (plan.zip results)) :
    let w' := (w.settle s.session.callbacks plan answer).2
    (∀ planned result, (planned, result) ∈ plan.zip results →
      ∀ key body sent, planned.origin = .put key body sent →
        planned.command.action = .put (Keyed.insert body Metadata.key (.obj sent))
        ∧ ∃ r entity id version, s.workspace.work.records.find? key = some r
          ∧ r.entity = some entity ∧ resultId result = some id
          ∧ Record.changeVectorOf result = some version
          ∧ w'.SavedAs entity id version (overlayResult sent result)
          ∧ ((s.shared.entity entity).state.isWellFormed = true →
              ((s.shared.entity entity).setId id).toBody s.session.work.conventions.identityProperty
                = (s.shared.entity entity).toBody s.session.work.conventions.identityProperty →
              w'.hasChanged entity = .ok false))
    ∧ (∀ planned ∈ plan, ∀ key, planned.origin = .delete key →
        ∃ r, s.workspace.work.records.find? key = some r
          ∧ w'.work.records.find? key = none ∧ w'.work.missing.contains r.id = true)
    ∧ w'.work.deferred = [] := by
  have h₀ := hreach.consistent.workspace
  have h : w.Consistent := by
    have hplanned := h₀.planSave hreach.consistent.callbacks
    rw [hplan] at hplanned
    exact hplanned
  rw [hquiet] at hplan ⊢
  obtain ⟨due, puts, hparts⟩ := planSave_eq_ok h₀ hplan
  obtain ⟨answers, w₁, hrun, hsettle⟩ := settle_eq_ok h (resultsFor_eq_ok hanswers)
  have hpairs : (plan.zip results).map Prod.fst = plan :=
    List.map_fst_zip (Nat.le_of_eq hanswers.named.length_eq)
  rw [hsettle]
  have h' : Workspace.Consistent { w₁ with work := { w₁.work with deferred := [] } } :=
    UnitOfWork.Consistent.setDeferred (hrun.consistent h) List.nodup_nil
  refine ⟨?_, ?_, rfl⟩
  · intro planned result hmem key body sent horigin
    obtain ⟨r, entity, hwrites, -, haction⟩ :=
      hparts.put_of_origin (List.of_mem_zip hmem).1 horigin
    have hkind : planned.command.kind = .put := by
      unfold Command.kind
      rw [haction]
    obtain ⟨hid, hversion⟩ := (List.forall₂_iff_zip.mp hanswers.named).2 hmem hkind
    obtain ⟨id, hid⟩ := Option.isSome_iff_exists.mp hid
    obtain ⟨version, hversion⟩ := Option.isSome_iff_exists.mp hversion
    have hwell := hanswers.wellFormed result (List.of_mem_zip hmem).2
    obtain ⟨dictionary, hsaves, hknown⟩ :=
      hparts.savesEntity h₀ h hpairs hfree hrun hmem horigin hid hwrites
    have hkept : w.work.isToDelete key = false :=
      (hparts.opened.isToDelete_eq key).trans hwrites.kept
    replace hsaves := hsaves.setDeferred []
    refine ⟨haction, r, entity, id, version, hwrites.record, hwrites.holds, hid, hversion, ?_, ?_⟩
    · exact hsaves.savedAs h' hknown hwrites.holds hkept
        (changeVectorOf_overlayResult hwell hversion)
    · intro hstate hsame
      have hbody : w.bodyOf entity = .ok body :=
        (hparts.opened.bodyOf_eq entity).trans hwrites.written
      have hentity : w.shared.entity entity = s.shared.entity entity :=
        hparts.opened.entity_eq entity
      have hconventions : w.work.conventions = s.session.work.conventions :=
        hparts.opened.conventions_eq
      rw [← hentity, ← hconventions] at hsame
      exact hsaves.hasChanged h' hwrites.holds hkept (hsaves.entityChanged hwrites.holds hbody
        (Entity.isWellFormed_of_toBody hstate hwrites.written) hsame)
  · intro planned hmem key horigin
    exact hparts.deleted h₀ h hpairs hfree hrun hmem horigin

/-- A session over one entity, beside a server with one document. -/
def besideUser : OpenSession where
  session := Session.new 1 {} {}
  shared := { entities := [{ type := Shop.anything, state := .obj [("Name", .str "Ann")] }] }
  connection := { server := fun _ => .ok (.ok (.obj
    [("Results", .arr [.obj [("@metadata", .obj [("@id", .str "users/2")])]])])) }
  deliveries := {}

/-- That session once `users/2` is loaded and to be deleted, the entity is stored under the
incomplete identifier `users/`, and a PATCH is deferred. -/
def mixed : OpenSession :=
  (((besideUser.perform (.load Shop.anything "users/2" [])).perform (.delete 1)).perform
    (.storeUnder 0 "users/")).perform (.defer [{ id := "users/9", action := .patch "" [] }])

/-- The metadata of the stored entity. -/
def mixedMetadata : Fields :=
  (mixed.session.work.records.find? 1).elim [] (·.metadata)

/-- The PUT of that entity. -/
def mixedPut : Planned where
  command :=
    { id := "users/"
      action := .put [("@metadata", .obj mixedMetadata), ("Name", .str "Ann")] }
  origin := .put 1 [("Name", .str "Ann")] mixedMetadata

/-- The plan for that session. -/
def mixedPlan : Plan :=
  [{ command := { id := "users/2", action := .delete }, origin := .delete 0 }, mixedPut,
    { command := { id := "users/9", action := .patch "" [] }, origin := .deferred }]

/-- Results for that plan. -/
def mixedResults : List Fields :=
  [[], [("@change-vector", .str "A:2"), ("@id", .str "users/1"), ("Type", .str "PUT")], []]

theorem mixed_reachable : mixed.Reachable := by
  have hopened : besideUser.Reachable := .opened 1 {} {} _ _ _
  have hmarked := (hopened.step (.load Shop.anything "users/2" []) trivial).step
    (.delete 1) trivial
  have hinstance : 0 < ((besideUser.perform (.load Shop.anything "users/2" [])).perform
      (.delete 1)).shared.entities.length := by
    decide +kernel
  have hstored := hmarked.step (.storeUnder 0 "users/") hinstance
  exact hstored.step (.defer [{ id := "users/9", action := .patch "" [] }]) trivial

theorem mixed_callbacks : mixed.session.callbacks = {} := by
  rcases hload : besideUser.load Shop.anything "users/2" [] with ⟨answer, loaded⟩
  have hsame := (reads_load hload).callbacks
  show (besideUser.load Shop.anything "users/2" []).2.session.callbacks = {}
  rw [hload]
  exact hsame

theorem mixed_planSave : mixed.workspace.planSave mixed.session.callbacks
    = (.ok mixedPlan, (mixed.workspace.planSave {}).2) := by
  have hplan : (mixed.workspace.planSave {}).1.toOption = some mixedPlan := by decide +kernel
  rw [mixed_callbacks]
  rcases hplanned : mixed.workspace.planSave {} with ⟨_ | plan, w⟩
  · rw [hplanned] at hplan
    cases hplan
  · rw [hplanned] at hplan
    rw [Option.some.inj hplan]

theorem mixed_answers :
    Answers mixedPlan (some (.obj [("Results", .arr (mixedResults.map .obj))])) mixedResults := by
  refine ⟨rfl, ?_, by decide +kernel⟩
  exact .cons (by decide) (.cons (by decide) (.cons (by decide) .nil))

theorem mixed_freeIds : mixed.workspace.FreeIds (mixedPlan.zip mixedResults) := by
  have hgiven : given (mixedPlan.zip mixedResults) = [(1, "users/1")] := by decide +kernel
  refine ⟨by rw [hgiven]; decide +kernel, ?_, by rw [hgiven]; decide +kernel⟩
  rw [hgiven]
  intro g hg key r hr hid
  have hnone : ∀ entry ∈ mixed.workspace.work.records,
      normalize entry.2.id ≠ normalize "users/1" := by
    decide +kernel
  obtain rfl := List.mem_singleton.mp hg
  exact absurd hid (hnone (key, r) (Keyed.mem_of_find? hr))

/-- Once these results are settled, the entity has the identifier `users/1` that it was assigned,
`users/2` is gone, and no command is deferred. -/
theorem batch_settled_mixed :
    ∃ w, mixed.workspace.planSave mixed.session.callbacks = (.ok mixedPlan, w)
      ∧ (let w' := (w.settle mixed.session.callbacks mixedPlan
          (some (.obj [("Results", .arr (mixedResults.map .obj))]))).2
        w'.idOf 0 = .ok "users/1" ∧ w'.changeVectorOf 0 = .ok (some "A:2")
          ∧ w'.hasChanged 0 = .ok false ∧ w'.work.records.find? 0 = none
          ∧ w'.work.deferred = []) := by
  obtain ⟨hputs, hdeletes, hdeferred⟩ :=
    batch_settled mixed_reachable mixed_callbacks mixed_planSave mixed_answers mixed_freeIds
  obtain ⟨-, r, entity, id, version, hr, he, hid, hversion, hsaved, hunchanged⟩ :=
    hputs mixedPut (mixedResults[1]) (by decide +kernel) 1 _ _ rfl
  obtain ⟨-, -, hgone, -⟩ := hdeletes mixedPlan[0] (by decide +kernel) 0 rfl
  obtain rfl : "users/1" = id := Option.some.inj hid
  obtain rfl : "A:2" = version := Option.some.inj hversion
  have hheld : mixed.workspace.work.registry.get? 0 = some 1 := by decide +kernel
  have hentity : entity = 0 := by
    obtain ⟨r', hr', he'⟩ := (mixed_reachable.consistent.workspace.held 0 1).mp hheld
    obtain rfl := Option.some.inj (hr.symm.trans hr')
    exact Option.some.inj (he.symm.trans he')
  subst hentity
  exact ⟨_, mixed_planSave, hsaved.idOf, hsaved.changeVectorOf,
    hunchanged (by decide +kernel) (by decide +kernel), hgone, hdeferred⟩

end OpenSession

end DocumentSession
