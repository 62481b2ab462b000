import DocumentSession.Proofs.Metadata.Uses
import DocumentSession.Proofs.Orderly
import DocumentSession.Proofs.PlannedPut
import DocumentSession.Proofs.Sends

set_option autoImplicit false

/-! # Metadata stay JSON

What a session knows of its records, and what their dictionaries hold, is well-formed JSON
(`Workspace.Sound`): metadata come from the documents and results that the server sends, from
`newMetadata`, and from what callers set. So where the server and the cache answer in well-formed
JSON (`Connection.AnswersJson`), and callers and callbacks put in nothing else, `Workspace.Sound`
holds in every state of a session (`OpenSession.OverJson.sound`).

Each kind of step keeps it: work without the server (`Sound.localSteps`), reading (`Sound.reads`),
planning (`Sound.plans`), settling a result (`Sound.settles`) and the callbacks after a save
(`Sound.announce`). -/

namespace DocumentSession

/-! ## Callbacks -/

/-- Callbacks that keep dictionaries sound while a save is planned. -/
structure Callbacks.KeepSound (c : Callbacks) : Prop where
  beforeStore : ∀ callback ∈ c.beforeStore, ∀ event (s : Shared),
    s.dictionaries.Sound → (callback event s).2.dictionaries.Sound
  beforeDelete : ∀ callback ∈ c.beforeDelete, ∀ id (s : Shared),
    s.dictionaries.Sound → (callback id s).2.dictionaries.Sound

/-- Callbacks that keep dictionaries sound whenever they are called. -/
structure Callbacks.AlwaysKeepSound (c : Callbacks) : Prop extends c.KeepSound where
  afterSave : ∀ callback ∈ c.afterSave, ∀ event (s : Shared),
    s.dictionaries.Sound → (callback event s).2.dictionaries.Sound
  beforeQuery : ∀ callback ∈ c.beforeQuery, ∀ q (s : Shared),
    s.dictionaries.Sound → (callback q s).2.2.dictionaries.Sound

theorem Callbacks.AlwaysKeepSound.none : ({} : Callbacks).AlwaysKeepSound :=
  ⟨⟨by simp, by simp⟩, by simp, by simp⟩

/-- `Metadata.split` gives the metadata of a well-formed document as a well-formed object. -/
theorem Metadata.isWellFormed_split {document : Fields}
    (h : (Json.obj document).isWellFormed = true) :
    (Json.obj (Metadata.split document).2).isWellFormed = true := by
  unfold Metadata.split
  dsimp only
  cases hmembers : (Keyed.find? document Metadata.key).bind Json.fields? with
  | none => rfl
  | some members =>
    exact Json.isWellFormed_of_fields? (fun v hv => Json.isWellFormed_of_find? h hv) hmembers

/-- The members make up a well-formed object. -/
abbrev IsJson (members : Fields) : Prop :=
  (Json.obj members).isWellFormed = true

/-- Dictionaries are sound, and what is known of records is JSON metadata. -/
structure Workspace.Sound (w : Workspace) : Prop where
  dictionaries : w.shared.dictionaries.Sound
  known : ∀ key r, w.work.records.find? key = some r → (Json.obj r.metadata).isWellFormed = true

/-- The metadata that a planned write carries are well-formed. -/
def Planned.CarriesJson (planned : Planned) : Prop :=
  ∀ key body metadata, planned.origin = .put key body metadata → IsJson metadata

/-- Every record has well-formed metadata, or those that it had before. -/
def KeepsMetadata (t t' : Table Record) : Prop :=
  Keyed.Develops (fun r => IsJson r.metadata) (fun r r' => r'.metadata = r.metadata) t t'

instance : Std.Refl (fun r r' : Record => r'.metadata = r.metadata) :=
  ⟨fun _ => rfl⟩

namespace KeepsMetadata

theorem modify (t : Table Record) (key : RecordKey) (change : Record → Record)
    (hchange : ∀ r, t.find? key = some r →
      IsJson (change r).metadata ∨ (change r).metadata = r.metadata) :
    KeepsMetadata t (t.modify key change) :=
  Keyed.Develops.modify t key change hchange

theorem erase (t : Table Record) (key : RecordKey) : KeepsMetadata t (t.erase key) :=
  Keyed.Develops.erase t key

theorem insert (t : Table Record) (key : RecordKey) {r : Record} (hr : IsJson r.metadata) :
    KeepsMetadata t (t.insert key r) :=
  Keyed.Develops.insert t key hr

end KeepsMetadata

/-- The metadata of a new document are made of texts. -/
theorem Workspace.isWellFormed_newMetadata (w : Workspace) (type : EntityType) :
    (Json.obj (w.newMetadata type)).isWellFormed = true := by
  refine Json.isWellFormed_ofList ?_
  intro key value hmem
  simp only [List.mem_cons, Prod.mk.injEq, List.not_mem_nil, or_false] at hmem
  rcases hmem with ⟨-, rfl⟩ | ⟨-, rfl⟩ <;> rfl

namespace Workspace.Sound

variable {w w' : Workspace} {c : Callbacks} {key : RecordKey} {r : Record} {entity : EntityRef}

theorem develops (h : w.Sound) (hforest : w'.shared.dictionaries.Sound)
    (hrecords : KeepsMetadata w.work.records w'.work.records) : w'.Sound := by
  refine ⟨hforest, ?_⟩
  intro key r' hr'
  rcases hrecords key r' hr' with hnew | ⟨r, hr, hsame⟩
  · exact hnew
  · rw [hsame]
    exact h.known key r hr

/-- A change of what is known of records that leaves the records as they are. -/
theorem of_records (h : w.Sound) (hforest : w'.shared.dictionaries.Sound)
    (hrecords : w'.work.records = w.work.records) : w'.Sound :=
  ⟨hforest, by rw [hrecords]; exact h.known⟩

theorem release (h : w.Sound) (r : Record) : (w.shared.release r).dictionaries.Sound := by
  unfold Shared.release Record.releaseDictionary
  cases r.dictionary with
  | none => exact h.dictionaries
  | some n => exact h.dictionaries.holders n (· - 1)

theorem callEach {Event : Type} {callbacks : List (Event → Shared → Verdict)}
    (hkeep : ∀ callback ∈ callbacks, ∀ event (s : Shared),
      s.dictionaries.Sound → (callback event s).2.dictionaries.Sound)
    (h : w.Sound) (event : Event) :
    Workspace.Sound { w with shared := (Callbacks.callEach event callbacks w.shared).2 } := by
  have hcalled := Callbacks.relates_callEach
    (R := fun s s' => s.dictionaries.Sound → s'.dictionaries.Sound) (fun _ => id)
    (fun h₁ h₂ hs => h₂ (h₁ hs)) hkeep event w.shared
  exact ⟨hcalled h.dictionaries, h.known⟩

/-! ## Work without the server -/

theorem openDictionary (h : w.Sound) (hr : w.work.records.find? key = some r) :
    (w.openDictionary key r).2.Sound := by
  refine ⟨?_, ?_⟩
  · show (r.openDictionary w.shared.dictionaries).2.2.Sound
    unfold Record.openDictionary
    cases r.dictionary with
    | some n => exact h.dictionaries
    | none => exact h.dictionaries.create (h.known key r hr) (by simp)
  · intro key' r' hr'
    rw [Consistent.find?_openDictionary hr] at hr'
    split at hr'
    · obtain rfl := Option.some.inj hr'
      rw [Record.openDictionary_record]
      exact h.known key r hr
    · exact h.known key' r' hr'

theorem metadataOf (h : w.Sound) (hconsistent : w.Consistent)
    (hr : w.recordOf entity = .ok (key, r)) : (w.metadataOf entity).2.Sound := by
  have hopened := h.openDictionary (hconsistent.find?_of_recordOf hr).1
  unfold Workspace.metadataOf
  rw [hr]
  exact ⟨hopened.dictionaries.holders _ (· + 1), hopened.known⟩

theorem removeRecord (h : w.Sound) (key : RecordKey) : (w.removeRecord key).2.Sound := by
  unfold Workspace.removeRecord
  split
  · exact h
  · next r _ => exact h.develops (h.release r) (.erase _ key)

theorem clear (h : w.Sound) : w.clear.Sound := by
  refine ⟨?_, fun _ _ hr => by cases hr⟩
  have hreleased : ∀ (records : Table Record) (shared : Shared), shared.dictionaries.Sound →
      (records.foldl (fun s entry => s.release entry.2) shared).dictionaries.Sound := by
    intro records
    induction records with
    | nil => exact fun _ hshared => hshared
    | cons entry rest ih =>
      intro shared hshared
      exact ih _ (release (w := { w with shared }) ⟨hshared, h.known⟩ entry.2)
  exact hreleased w.work.records w.shared h.dictionaries

theorem localStep {given : Option String} (h : w.Sound) (hstep : w.LocalStep given w') :
    w'.Sound := by
  have hmodify : ∀ (key : RecordKey) (change : Record → Record),
      (∀ r, (change r).metadata = r.metadata) →
      KeepsMetadata w.work.records (w.work.records.modify key change) :=
    fun key change hchange => .modify _ key change fun r _ => Or.inr (hchange r)
  cases hstep with
  | index hrecords _ => exact h.of_records h.dictionaries hrecords
  | removeRecord key => exact h.removeRecord key
  | track entity id incomplete check =>
    refine h.develops ?_
      (.insert _ w.work.nextKey (isWellFormed_newMetadata w _))
    show (if incomplete then w.shared else w.shared.setId entity id).dictionaries.Sound
    split <;> exact h.dictionaries
  | @attach key _ _ _ entity id check =>
    exact h.develops h.dictionaries (hmodify key
      (fun r => { r with entity := some entity, check, changeVector := given.or r.changeVector })
      fun _ => rfl)
  | storeAgain key check =>
    exact h.develops h.dictionaries
      (hmodify key
        (fun r => { r with changeVector := given.or r.changeVector, check }) fun _ => rfl)
  | ignoreChanges key =>
    exact h.develops h.dictionaries
      (hmodify key (fun r => { r with ignoreChanges := true }) fun _ => rfl)
  | openDictionary hr _ => exact h.openDictionary hr
  | retain n => exact ⟨h.dictionaries.holders n (· + 1), h.known⟩
  | clear => exact h.clear

theorem localSteps {given : Option String} (h : w.Sound) (hlocal : w.LocalSteps given w') :
    w'.Sound := by
  induction hlocal with
  | refl => exact h
  | tail _ hstep ih => exact ih.localStep hstep

/-! ## Reading -/

theorem register (h : w.Sound) {document : Fields} (hdocument : IsJson document) :
    (w.register document).2.Sound := by
  have hmetadata := Metadata.isWellFormed_split hdocument
  unfold Workspace.register
  dsimp only
  split
  · exact h
  · split
    · unfold refreshRecord
      split
      · next r _ =>
        split
        · exact h
        · exact h.develops (h.release r) (.modify _ _
            (·.refreshed (Metadata.split document).1 (Metadata.split document).2)
            fun _ _ => Or.inl hmetadata)
      · exact h
    · exact h.develops h.dictionaries (.insert _ w.work.nextKey hmetadata)

theorem readStep (h : w.Sound) (hstep : w.ReadStep IsJson w') : w'.Sound := by
  cases hstep with
  | warn warning => exact h.of_records h.dictionaries rfl
  | markMissing id => exact h.of_records h.dictionaries rfl
  | register document hdocument => exact h.register hdocument
  | entityFor type key =>
    unfold Workspace.entityFor
    split
    · exact h
    · split
      · dsimp only
        split <;> exact h
      · exact h
      · split
        · exact h
        · exact h.develops h.dictionaries (.modify _ key
            (fun r => { r with entity := some w.shared.entities.length }) fun _ _ => Or.inr rfl)
  | detached type document =>
    unfold Workspace.detached
    dsimp only
    split
    · exact h
    · exact h.of_records h.dictionaries rfl

theorem reads (h : w.Sound) (hreads : w.Reads IsJson w') : w'.Sound := by
  induction hreads with
  | refl => exact h
  | tail _ hstep ih => exact ih.readStep hstep

/-! ## Planning -/

theorem plans (h : w.Sound) (hkeep : c.KeepSound) (hplans : w.Plans c w') : w'.Sound := by
  induction hplans with
  | refl => exact h
  | tail _ hstep ih =>
    cases hstep with
    | beforeDelete id => exact ih.callEach hkeep.beforeDelete id
    | beforeStore event => exact ih.callEach hkeep.beforeStore event
    | opens hr _ => exact ih.openDictionary hr

theorem afterBeforeStore (h : w.Sound) (hkeep : c.KeepSound) (r : Record) (n : Metadata.NodeId)
    (entity : EntityRef) : (w.afterBeforeStore c r n entity).dictionaries.Sound :=
  (h.callEach hkeep.beforeStore { id := r.id, metadata := n, entity }).dictionaries

theorem mergedMetadata (h : w.Sound) (hr : w.work.records.find? key = some r)
    {forest : Metadata.Forest} (hforest : forest.Sound) (n : Metadata.NodeId) :
    IsJson (Record.mergedMetadata { r with dictionary := some n } forest) :=
  Json.isWellFormed_overlay (h.known key r hr)
    fun _ _ hmem => Json.isWellFormed_of_mem (Metadata.Forest.isWellFormed_content hforest n) hmem

theorem carriesJson_planEntity (h : w.Sound) (hkeep : c.KeepSound) {planned : Planned}
    (hplan : w.planEntity c key = (.ok (some planned), w')) : planned.CarriesJson := by
  obtain ⟨r, entity, _, hwrites, hput⟩ := planPut_of_planEntity hplan
  obtain ⟨shared, body, metadata, htold, -, -, hmerged, rfl⟩ := planPut_eq_ok hput
  have hshared := ((h.openDictionary hwrites.record).callEach hkeep.beforeStore
    { id := r.id, metadata := (w.openDictionary key r).1, entity }).dictionaries
  rw [htold] at hshared
  intro key' body' metadata' horigin
  obtain ⟨-, -, rfl⟩ := Origin.put.inj horigin
  rw [hmerged]
  exact h.mergedMetadata hwrites.record hshared _

theorem carriesJson_planSave (h : w.Sound) (hkeep : c.KeepSound) {plan : Plan}
    (hplan : w.planSave c = (.ok plan, w')) : ∀ planned ∈ plan, planned.CarriesJson := by
  obtain ⟨deletes, w₁, puts, w₂, deferred, hdeletes, hputs, hdeferred, rfl⟩ :=
    planSave_eq_append hplan
  intro planned hmem
  rw [List.mem_append, List.mem_append] at hmem
  rcases hmem with (hmem | hmem) | hmem
  · intro key body metadata horigin
    obtain ⟨key', hdelete⟩ := origin_planDeletes hdeletes planned hmem
    rw [hdelete] at horigin
    cases horigin
  · obtain ⟨key, v, v', hplans, hentity⟩ := planEntity_of_mem hputs hmem
    exact ((h.plans hkeep (plans_planDeletes hdeletes)).plans hkeep hplans).carriesJson_planEntity
      hkeep hentity
  · intro key body metadata horigin
    rw [origin_planDeferred hdeferred planned hmem] at horigin
    cases horigin

/-! ## Settling -/

theorem isJson_overlayResult {metadata result : Fields} (hmetadata : IsJson metadata)
    (hresult : IsJson result) : IsJson (overlayResult metadata result) :=
  Json.isWellFormed_overlay hmetadata
    fun _ _ hmem => Json.isWellFormed_of_mem (Json.isWellFormed_erase hresult "Type") hmem

theorem savedAs (h : w.Sound) (r : Record) (id : String) :
    (w.shared.savedAs r id).dictionaries.Sound := by
  unfold Shared.savedAs
  cases r.entity with
  | none => exact h.release r
  | some entity => exact h.release r

theorem settles (h : w.Sound) {planned : Planned} {result : Fields} {answer : Except Error Unit}
    (hplanned : planned.CarriesJson) (hresult : IsJson result)
    (hsettles : w.Settles planned result answer w') : w'.Sound := by
  have hversioned : ∀ key, KeepsMetadata w.work.records
      (w.work.records.modify key (·.atVersion (resultVersion result))) :=
    fun key => .modify _ key _ fun _ _ => Or.inr rfl
  cases hsettles with
  | unnamed _ _ | goneBeforePut _ _ | goneBeforeDelete _ _ | unknown _ _ _ => exact h
  | @saved key body metadata r id horigin _ _ _ =>
    exact h.develops (h.savedAs r id) (.modify _ key
      (·.saved id body (overlayResult metadata result))
      fun _ _ => Or.inl (isJson_overlayResult (hplanned _ _ _ horigin) hresult))
  | @replaced key body metadata r id other replaced horigin _ _ _ _ _ =>
    have hforgotten : Workspace.Sound { w with work := w.work.withoutRecord other replaced } :=
      h.develops h.dictionaries (.erase _ other)
    have hsaved : Workspace.Sound { w with shared := w.shared.savedAs r id } :=
      h.of_records (h.savedAs r id) rfl
    exact hforgotten.develops (hsaved.release replaced) (.modify _ key
      (·.saved id body (overlayResult metadata result))
      fun _ _ => Or.inl (isJson_overlayResult (hplanned _ _ _ horigin) hresult))
  | @deleted key r _ _ => exact h.develops (h.release r) (.erase _ key)
  | @overwritten key r _ _ _ =>
    exact h.develops (h.release r) (.modify _ key
      (fun r => r.overwritten (overlayResult r.metadata result))
      fun r hr => Or.inl (isJson_overlayResult (h.known key r hr) hresult))
  | written _ _ _ | noted _ _ _ => exact h.of_records h.dictionaries rfl
  | @dropped key r _ _ _ _ => exact h.develops (h.release r) (.erase _ key)
  | @versioned key r _ _ _ _ | @unfit key r e _ _ _ _ =>
    exact h.develops h.dictionaries (hversioned key)
  | @scripted key r document shared _ _ _ hdocument hrenewed =>
    have hmetadata : IsJson (Metadata.split document).2 :=
      Metadata.isWellFormed_split
        (Json.isWellFormed_of_fields? (fun v hv => Json.isWellFormed_of_find? hresult hv) hdocument)
    have hsame : shared.dictionaries = w.shared.dictionaries := by
      rcases hrenewed with ⟨-, rfl⟩ | ⟨entity, e, -, -, rfl⟩ <;> rfl
    have hshared : Workspace.Sound { w with shared } :=
      h.of_records (hsame ▸ h.dictionaries) rfl
    have hat : Workspace.Sound
        { work := w.work.modifyRecord key (·.atVersion (resultVersion result)), shared } :=
      hshared.develops hshared.dictionaries (hversioned key)
    refine hat.develops ?_ (.modify _ key
      (·.scripted (Metadata.split document).1 (Metadata.split document).2) fun r _ => ?_)
    · dsimp only
      split
      · exact hshared.dictionaries
      · exact hshared.release r
    · unfold Record.scripted
      split
      · exact Or.inr rfl
      · exact Or.inl hmetadata

theorem settlesAll (h : w.Sound) {pairs : List (Planned × Fields)}
    {answers : List (Except Error Unit)}
    (hpairs : ∀ pair ∈ pairs, pair.1.CarriesJson ∧ IsJson pair.2)
    (hrun : w.SettlesAll pairs answers w') : w'.Sound := by
  induction hrun with
  | nil => exact h
  | cons first _ ih =>
    obtain ⟨⟨hplanned, hresult⟩, hrest⟩ := List.forall_mem_cons.mp hpairs
    exact ih (h.settles hplanned hresult first) hrest

theorem announce (h : w.Sound) (hkeep : c.AlwaysKeepSound) (failure : Option Error)
    (keys : List RecordKey) : (w.announce c failure keys).2.Sound := by
  induction keys generalizing w failure with
  | nil => exact h
  | cons key rest ih =>
    rw [Workspace.announce]
    split
    · exact ih h failure
    · exact ih (h.callEach hkeep.afterSave _) _

/-- The results in a well-formed answer are well-formed. -/
theorem isJson_of_resultsFor {plan : Plan} {answer : Option Json} {results : List Fields}
    (hanswer : ∀ body, answer = some body → body.isWellFormed = true)
    (h : resultsFor plan answer = .ok results) : ∀ result ∈ results, IsJson result := by
  obtain ⟨body, rfl, hitems⟩ := Option.bind_eq_some_iff.mp (eq_ok_of_resultsFor h).1
  have hwell := Json.isWellFormed_of_items?
    (fun v hv => Json.isWellFormed_of_get? (hanswer body rfl) hv) hitems
  exact fun result hmem => hwell _ (List.mem_map_of_mem hmem)

theorem settle (h : w.Sound) (hconsistent : w.Consistent) (hkeep : c.AlwaysKeepSound) {plan : Plan}
    (hplan : ∀ planned ∈ plan, planned.CarriesJson) {answer : Option Json}
    (hanswer : ∀ body, answer = some body → body.isWellFormed = true) :
    (w.settle c plan answer).2.Sound := by
  unfold Workspace.settle
  split
  · exact h
  · next results hresults =>
    obtain ⟨answers, hrun, -⟩ := settleAll_settlesAll hconsistent none plan results
    rcases hall : w.settleAll none plan results with ⟨failure, w₁⟩
    rw [hall] at hrun
    have hdone := h.settlesAll (fun pair hmem => ⟨hplan _ (List.of_mem_zip hmem).1,
      isJson_of_resultsFor hanswer hresults _ (List.of_mem_zip hmem).2⟩) hrun
    have hended : Workspace.Sound { w₁ with work := { w₁.work with deferred := [] } } :=
      hdone.of_records hdone.dictionaries rfl
    exact hended.announce hkeep failure _

end Workspace.Sound

/-! ## Connections -/

/-- An answer in well-formed JSON lists well-formed documents. -/
theorem Discloses.isJson {whole : Prop} {answer : Option Json}
    (h : ∀ body, answer = some body → body.isWellFormed = true) :
    Discloses IsJson whole answer := by
  have hmember : ∀ {key value}, answer.bind (·.get? key) = some value →
      value.isWellFormed = true := by
    intro key value hvalue
    obtain ⟨body, hbody, hget⟩ := Option.bind_eq_some_iff.mp hvalue
    exact Json.isWellFormed_of_get? (h body hbody) hget
  refine ⟨?_, ?_⟩
  · intro document hmem
    unfold includedDocuments at hmem
    obtain ⟨value, hvalue, hfields⟩ := List.mem_filterMap.mp hmem
    cases hmembers : (answer.bind (·.get? "Includes")).bind Json.fields? with
    | none =>
      rw [hmembers] at hvalue
      cases hvalue
    | some members =>
      rw [hmembers] at hvalue
      obtain ⟨⟨key, value⟩, hentry, rfl⟩ := List.mem_map.mp hvalue
      have hwell := Json.isWellFormed_of_mem
        (Json.isWellFormed_of_fields? (fun _ => hmember) hmembers) hentry
      cases value with
      | obj members =>
        obtain rfl := Option.some.inj hfields
        exact hwell
      | _ => cases hfields
  · intro items document hitems hmem _
    obtain ⟨body, hbody, hlisted⟩ := Option.bind_eq_some_iff.mp hitems
    exact Json.isWellFormed_of_items?
      (fun v hv => Json.isWellFormed_of_get? (h body hbody) hv) hlisted _ hmem

/-- The `server` answers in well-formed JSON, and what is cached lists well-formed documents. -/
structure Connection.AnswersJson (c : Connection) : Prop where
  server : ∀ requests response, c.server requests = .ok response →
    ∀ body, response.body = some body → body.isWellFormed = true
  cached : c.Holds (fun url body => Discloses IsJson (IsLoadUrl url) (some body))

theorem Connection.AnswersJson.tells {c : Connection} (h : c.AnswersJson) : c.Tells IsJson := by
  refine ⟨⟨?_, ?_⟩, h.cached⟩
  · exact fun _ _ _ hresponse => .isJson (h.server _ _ hresponse)
  · intro sent r response requests items i request item part hresponse _ hitems _ hitem hread
    obtain ⟨body, hbody, hlisted⟩ := Option.bind_eq_some_iff.mp hitems
    have hwell : item.isWellFormed = true :=
      Json.isWellFormed_of_items?
        (fun v hv => Json.isWellFormed_of_get? (h.server _ _ hresponse body hbody) hv) hlisted _
        (List.mem_of_getElem? hitem)
    refine .isJson fun result hresult => ?_
    unfold SubResponse.ofJson at hread
    split at hread
    · cases hread
    · obtain rfl := Except.ok.inj hread
      exact Json.isWellFormed_of_get? hwell (Option.filter_eq_some_iff.mp hresult).1

/-! ## Sessions -/

namespace OpenSession

variable {s s' : OpenSession}

/-- An operation registers only callbacks that keep dictionaries sound, and leaves a connection that
answers in JSON. -/
def KeepsSound (s : OpenSession) : Operation → Prop
  | .listen callbacks => callbacks.AlwaysKeepSound
  | .outside shared connection _ =>
    (s.shared.dictionaries.Sound → shared.dictionaries.Sound) ∧ connection.AnswersJson
  | _ => True

/-- All that keeps the metadata of a session sound. -/
structure SoundMetadata (s : OpenSession) : Prop where
  workspace : s.workspace.Sound
  callbacks : s.session.callbacks.AlwaysKeepSound
  connection : s.connection.AnswersJson

theorem SoundMetadata.withWorkspace (h : s.SoundMetadata) {w : Workspace} (hw : w.Sound) :
    (s.withWorkspace w).SoundMetadata :=
  ⟨hw, h.callbacks, h.connection⟩

theorem SoundMetadata.reads (h : s.SoundMetadata) (hreads : s.Reads s') : s'.SoundMetadata := by
  obtain ⟨htells, hworkspace⟩ := hreads.tells IsJson h.connection.tells
  refine ⟨h.workspace.reads hworkspace, ?_, ?_, htells.cached⟩
  · rw [hreads.callbacks]
    exact h.callbacks
  · rw [hreads.server]
    exact h.connection.server

theorem SoundMetadata.freeze (h : s.SoundMetadata) (q : Query) : (s.freeze q).2.SoundMetadata := by
  have hcalled := Callbacks.relates_callEachOnQuery
    (R := fun s s' => s.dictionaries.Sound → s'.dictionaries.Sound) (fun _ => id)
    (fun h₁ h₂ hs => h₂ (h₁ hs)) h.callbacks.beforeQuery q s.shared
  rw [freeze_eq]
  exact ⟨⟨hcalled h.workspace.dictionaries, h.workspace.known⟩, h.callbacks, h.connection⟩

theorem SoundMetadata.asked (h : s.SoundMetadata) (operation : Operation) :
    (s.asked operation).SoundMetadata := by
  unfold OpenSession.asked
  split
  all_goals first | exact h.freeze _ | exact h

theorem SoundMetadata.save (h : s.SoundMetadata) (hconsistent : s.Consistent) :
    s.save.2.SoundMetadata := by
  have hplanned : ∀ {planned w}, s.workspace.planSave s.session.callbacks = (planned, w) →
      (s.withWorkspace w).SoundMetadata ∧ (s.withWorkspace w).Consistent := by
    intro planned w hplan
    have hw := hconsistent.workspace.planSave hconsistent.callbacks
    rw [hplan] at hw
    have hplans := h.workspace.plans h.callbacks.toKeepSound (Workspace.plans_planSave hplan)
    exact ⟨h.withWorkspace hplans, hconsistent.withWorkspace hw⟩
  rcases hsave : s.save with ⟨answer, s'⟩
  cases saveEnds hsave with
  | refused hplan | idle hplan => exact (hplanned hplan).1
  | unanswered hplan _ hsend | failed hplan _ hsend =>
    exact (hplanned hplan).1.reads (reads_send hsend)
  | conflict hplan _ hsend =>
    exact ((hplanned hplan).1.reads (reads_send hsend)).reads (.warn _ .batchRejected)
  | @settled plan w response s₁ hplan _ hsend _ =>
    obtain ⟨hsound, hconsistent⟩ := hplanned hplan
    have hreads := reads_send hsend
    have hsent := hsound.reads hreads
    exact hsent.withWorkspace (hsent.workspace.settle (hconsistent.reads hreads).workspace
      hsent.callbacks (h.workspace.carriesJson_planSave h.callbacks.toKeepSound hplan)
      (hsent.connection.server _ _ (server_of_send hsend)))

theorem PerformCases.soundMetadata {operation : Operation} (hcases : s.PerformCases operation s')
    (h : s.SoundMetadata) (hconsistent : s.Consistent) (hkeeps : s.KeepsSound operation) :
    s'.SoundMetadata := by
  cases hcases with
  | localSteps hlocal hconnection hcallbacks =>
    exact ⟨h.workspace.localSteps hlocal, hcallbacks ▸ h.callbacks, hconnection ▸ h.connection⟩
  | reads _ hreads => exact (h.asked operation).reads hreads
  | saves => exact h.save hconsistent
  | listens callbacks => exact ⟨h.workspace, hkeeps, h.connection⟩
  | outside shared connection deliveries =>
    exact ⟨⟨hkeeps.1 h.workspace.dictionaries, h.workspace.known⟩, h.callbacks, hkeeps.2⟩

/-- The states of orderly sessions over servers that answer in JSON, in which callers and callbacks
set no metadata but JSON. -/
inductive OverJson : OpenSession → Prop where
  | opened (id : Nat) (conventions : Conventions) (options : SessionOptions) (shared : Shared)
    (connection : Connection) (deliveries : Deliveries)
    (hordered : shared.dictionaries.Ordered) (hsound : shared.dictionaries.Sound)
    (hanswers : connection.AnswersJson) :
    OverJson { session := Session.new id conventions options, shared, connection, deliveries }
  | step {s : OpenSession} (operation : Operation) (h : OverJson s) (hadmits : s.Admits operation)
    (hkeeps : s.KeepsOrder operation) (hsound : s.KeepsSound operation) :
    OverJson (s.perform operation)

theorem OverJson.orderly (h : s.OverJson) : s.Orderly := by
  induction h with
  | opened id conventions options shared connection deliveries hordered _ _ =>
    exact .opened id conventions options shared connection deliveries hordered
  | step operation _ hadmits hkeeps _ ih => exact ih.step operation hadmits hkeeps

/-- In every state of such a session the metadata are sound. -/
theorem OverJson.sound (h : s.OverJson) : s.SoundMetadata := by
  induction h with
  | opened id conventions options shared connection deliveries _ hsound hanswers =>
    exact ⟨⟨hsound, fun _ _ hr => by cases hr⟩, .none, hanswers⟩
  | step operation h _ _ hsound ih =>
    have hconsistent := h.orderly.reachable.consistent
    exact (performCases hconsistent operation).soundMetadata ih hconsistent hsound

end OpenSession

end DocumentSession
