import DocumentSession.Proofs.Orderly
import DocumentSession.Proofs.Plan

set_option autoImplicit false

/-! # The pending work of a workspace

`Workspace.pendingPlan` says what the next save would send, as a function of the workspace alone: a
DELETE for each record to delete, a PUT for each record whose entity has to be written, and the
`deferred` commands.

Planning a save opens dictionaries and calls `beforeStore` callbacks. As long as the callbacks edit
nothing, the workspace looks as before (`Workspace.Undisturbed`), `pendingPlan` is the same, and the
plan is `pendingPlan`, unless a callback refuses (`planSave_follows`). -/

namespace DocumentSession

/-! ## What stays when dictionaries are opened -/

/-- The metadata that the record shows: the content of its dictionary, if it has opened one. -/
def Record.shownMetadata (r : Record) (forest : Metadata.Forest) : Fields :=
  r.dictionary.elim r.metadata forest.content

/-- `r'` may have opened its dictionary, and is otherwise as `r`. -/
structure Record.Resembles (forest : Metadata.Forest) (r : Record) (forest' : Metadata.Forest)
    (r' : Record) : Prop where
  same : r' = { r with dictionary := r'.dictionary }
  kept : ∀ n, r.dictionary = some n → r'.dictionary = some n
  /-- A dictionary that was opened is none of those of `forest`. -/
  made : ∀ n, r.dictionary = none → r'.dictionary = some n → forest.nodes.length ≤ n
  metadata : r'.shownMetadata forest' = r.shownMetadata forest
  dirty : r'.isMetadataDirty forest' = r.isMetadataDirty forest

theorem Record.Resembles.refl (forest : Metadata.Forest) (r : Record) :
    Record.Resembles forest r forest r := by
  refine ⟨rfl, fun _ h => h, ?_, rfl, rfl⟩
  intro n hnone hn
  rw [hnone] at hn
  cases hn

theorem Record.Resembles.trans {forest forest' forest'' : Metadata.Forest} {r r' r'' : Record}
    (h : Record.Resembles forest r forest' r') (h' : Record.Resembles forest' r' forest'' r'')
    (hlength : forest.nodes.length ≤ forest'.nodes.length) :
    Record.Resembles forest r forest'' r'' := by
  refine ⟨?_, ?_, ?_, h'.metadata.trans h.metadata, h'.dirty.trans h.dirty⟩
  · rw [h'.same, h.same]
  · intro n hn
    exact h'.kept n (h.kept n hn)
  · intro n hnone hn
    cases hd : r'.dictionary with
    | none => exact Nat.le_trans hlength (h'.made n hd hn)
    | some m =>
      have hm := h'.kept m hd
      rw [hn] at hm
      obtain rfl := Option.some.inj hm
      exact h.made n hnone hd

/-- What is shared is as before, up to notes and warnings, and instances and dictionaries that were
made. -/
structure Shared.Undisturbed (s s' : Shared) : Prop where
  entities : s.entities <+: s'.entities
  dictionaries : s.dictionaries.Undisturbed s'.dictionaries

namespace Shared.Undisturbed

variable {s s' s'' : Shared}

theorem refl (s : Shared) : s.Undisturbed s :=
  ⟨List.prefix_refl _, .refl _⟩

theorem trans (h : s.Undisturbed s') (h' : s'.Undisturbed s'') : s.Undisturbed s'' :=
  ⟨h.entities.trans h'.entities, h.dictionaries.trans h'.dictionaries⟩

/-- A record whose dictionary was made before looks the same from both. -/
theorem resembles (h : s.Undisturbed s') {r : Record}
    (hmade : ∀ n, r.dictionary = some n → n < s.dictionaries.nodes.length) :
    Record.Resembles s.dictionaries r s'.dictionaries r := by
  have hrefl := Record.Resembles.refl s.dictionaries r
  refine ⟨rfl, hrefl.kept, hrefl.made, ?_, ?_⟩
  · unfold Record.shownMetadata
    cases hd : r.dictionary with
    | none => rfl
    | some n => exact h.dictionaries.content n (hmade n hd)
  · unfold Record.isMetadataDirty
    cases hd : r.dictionary with
    | none => rfl
    | some n => exact h.dictionaries.isDirty n (hmade n hd)

end Shared.Undisturbed

namespace Workspace

variable {w w' w'' : Workspace}

/-- `w'` looks as `w`: records may have opened their dictionaries, instances and dictionaries may
have been made, and notes and warnings been left. -/
structure Undisturbed (w w' : Workspace) : Prop where
  inOrder : w'.InOrder
  work : w'.work = { w.work with records := w'.work.records }
  record : ∀ key r, w.work.records.find? key = some r → ∃ r',
    w'.work.records.find? key = some r'
      ∧ Record.Resembles w.shared.dictionaries r w'.shared.dictionaries r'
  absent : ∀ key, w.work.records.find? key = none → w'.work.records.find? key = none
  shared : w.shared.Undisturbed w'.shared

namespace Undisturbed

theorem refl (h : w.InOrder) : w.Undisturbed w :=
  ⟨h, rfl, fun _ r hr => ⟨r, hr, .refl _ r⟩, fun _ hnone => hnone, .refl _⟩

theorem trans (h : w.Undisturbed w') (h' : w'.Undisturbed w'') : w.Undisturbed w'' := by
  refine ⟨h'.inOrder, ?_, ?_, ?_, h.shared.trans h'.shared⟩
  · rw [h'.work, h.work]
  · intro key r hr
    obtain ⟨r', hr', hresembles⟩ := h.record key r hr
    obtain ⟨r'', hr'', hresembles'⟩ := h'.record key r' hr'
    exact ⟨r'', hr'', hresembles.trans hresembles' h.shared.dictionaries.length⟩
  · intro key hnone
    exact h'.absent key (h.absent key hnone)

/-- Where what is shared is `Undisturbed`, so is the workspace. -/
theorem of_shared (hinOrder : w.InOrder) {shared : Shared} (h : w.shared.Undisturbed shared) :
    w.Undisturbed { w with shared } := by
  refine ⟨⟨h.dictionaries.ordered hinOrder.ordered, ?_⟩, rfl, ?_, fun _ hnone => hnone, h⟩
  · intro key r n hr hn
    obtain ⟨hentity, hlt⟩ := hinOrder.made key r n hr hn
    exact ⟨hentity, Nat.lt_of_lt_of_le hlt h.dictionaries.length⟩
  · intro key r hr
    exact ⟨r, hr, h.resembles fun n hn => (hinOrder.made key r n hr hn).2⟩

/-- `openDictionary` disturbs nothing. -/
theorem openDictionary (hinOrder : w.InOrder) {key : RecordKey} {r : Record}
    (hr : w.work.records.find? key = some r) (hentity : r.entity.isSome = true) :
    w.Undisturbed (w.openDictionary key r).2 := by
  have hinOrder' := (retains_openDictionary hr hentity).inOrder hinOrder
  have hrecords := Consistent.find?_openDictionary hr
  have hshared : w.shared.Undisturbed (w.openDictionary key r).2.shared := by
    refine ⟨List.prefix_refl _, ?_⟩
    unfold Workspace.openDictionary Record.openDictionary
    cases r.dictionary with
    | some n => exact .refl _
    | none => exact Metadata.Forest.undisturbed_create hinOrder.ordered r.metadata
  refine ⟨hinOrder', rfl, ?_, ?_, hshared⟩
  · intro k before hbefore
    rw [hrecords]
    split
    · next hk =>
      subst hk
      rw [hr] at hbefore
      obtain rfl := Option.some.inj hbefore
      refine ⟨_, rfl, ?_⟩
      unfold Workspace.openDictionary Record.openDictionary
      cases hd : r.dictionary with
      | some n => exact .refl _ r
      | none =>
        refine ⟨rfl, ?_, ?_, ?_, ?_⟩
        · intro n hn
          rw [hd] at hn
          cases hn
        · intro n _ hn
          exact Nat.le_of_eq (Option.some.inj hn)
        · unfold Record.shownMetadata
          rw [hd]
          exact w.shared.dictionaries.content_created r.metadata
        · unfold Record.isMetadataDirty
          rw [hd]
          exact w.shared.dictionaries.isDirty_created r.metadata
    · exact ⟨before, hbefore, hshared.resembles fun n hn =>
        (hinOrder.made k before n hbefore hn).2⟩
  · intro k hnone
    rw [hrecords]
    split
    · next hk =>
      subst hk
      rw [hr] at hnone
      cases hnone
    · exact hnone

theorem conventions (h : w.Undisturbed w') : w'.work.conventions = w.work.conventions := by
  rw [h.work]

theorem hasDeferred (h : w.Undisturbed w') (id : String) :
    w'.work.hasDeferred id = w.work.hasDeferred id := by
  rw [h.work]
  rfl

theorem isToDelete (h : w.Undisturbed w') (key : RecordKey) :
    w'.work.isToDelete key = w.work.isToDelete key := by
  rw [h.work]
  rfl

theorem bodyOf (h : w.Undisturbed w') {entity : EntityRef}
    (hmade : entity < w.shared.entities.length) : w'.bodyOf entity = w.bodyOf entity := by
  unfold Workspace.bodyOf
  rw [Shared.entity_of_entities h.shared.entities hmade, h.conventions]

end Undisturbed

/-! ## The pending work -/

/-- The PUT that is planned for an entity with this `body`. -/
def plannedPut (w : Workspace) (key : RecordKey) (r : Record) (body : Fields) : Planned :=
  let metadata := Dict.overlay r.metadata (r.shownMetadata w.shared.dictionaries)
  { command :=
      { id := r.id, action := .put (Keyed.insert body Metadata.key (.obj metadata))
        changeVector := versionToPut w.work.conventions r }
    origin := .put key body metadata }

/-- The PUT that is planned for the entity of the record at `key`, if it has to be written. -/
def pendingPut (w : Workspace) (key : RecordKey) : Except Error (Option Planned) :=
  match w.work.records.find? key with
  | none => .ok none
  | some r =>
    match r.entity with
    | none => .ok none
    | some entity =>
      if w.work.isToDelete key || r.ignoreChanges || w.work.hasDeferred r.id then .ok none
      else
        (w.bodyOf entity).map
          (fun body => if w.mustWrite r body then some (w.plannedPut key r body) else none)

theorem pendingPut_of_not_considers {key : RecordKey} (h : ∀ r entity, ¬ w.Considers key r entity) :
    w.pendingPut key = .ok none := by
  unfold pendingPut
  split
  · rfl
  · next r hr =>
    split
    · rfl
    · next entity hentity =>
      split
      · rfl
      · next hleft =>
        simp only [Bool.or_eq_true, not_or, Bool.not_eq_true] at hleft
        exact absurd ⟨hr, hleft.1.1, hentity, hleft.1.2, hleft.2⟩ (h r entity)

theorem pendingPut_of_considers {key : RecordKey} {r : Record} {entity : EntityRef}
    (h : w.Considers key r entity) :
    w.pendingPut key
      = (w.bodyOf entity).map
        (fun body => if w.mustWrite r body then some (w.plannedPut key r body) else none) := by
  unfold pendingPut
  simp only [h.record, h.holds, h.kept, h.watched, h.free, Bool.or_self, Bool.false_eq_true,
    if_false]

/-- The PUT commands that are planned for the records at some keys. -/
def pendingPuts (w : Workspace) : List RecordKey → Except Error Plan
  | [] => .ok []
  | key :: rest =>
    match w.pendingPut key with
    | .error e => .error e
    | .ok planned => (pendingPuts w rest).map (planned.toList ++ ·)

/-- The plan of the next save, if no callback had a say. -/
def pendingPlan (w : Workspace) : Except Error Plan :=
  (w.pendingPuts w.work.registry.records).map (fun puts =>
    w.work.deleted.keys.filterMap w.plannedDelete ++ puts ++ w.work.deferred.map plannedDeferred)

namespace Undisturbed

/-- The instance of a record of `w'` is there. -/
theorem made_of_record (h : w.Undisturbed w') (hw : w.Consistent) {key : RecordKey} {r' : Record}
    {entity : EntityRef} (hr' : w'.work.records.find? key = some r')
    (hentity : r'.entity = some entity) : entity < w'.shared.entities.length := by
  cases hr : w.work.records.find? key with
  | none =>
    rw [h.absent key hr] at hr'
    cases hr'
  | some r =>
    obtain ⟨_, hfound, hresembles⟩ := h.record key r hr
    rw [hr'] at hfound
    obtain rfl := Option.some.inj hfound
    rw [hresembles.same] at hentity
    have hlt := hw.known entity key ((hw.held entity key).mpr ⟨r, hr, hentity⟩)
    exact Nat.lt_of_lt_of_le hlt h.shared.entities.length_le

theorem plannedDelete (h : w.Undisturbed w') (key : RecordKey) :
    w'.plannedDelete key = w.plannedDelete key := by
  unfold Workspace.plannedDelete
  cases hr : w.work.records.find? key with
  | none => rw [h.absent key hr]
  | some r =>
    obtain ⟨r', hr', hresembles⟩ := h.record key r hr
    rw [hr', hresembles.same, h.conventions]
    dsimp only
    rw [h.hasDeferred]
    rfl

theorem plannedPut (h : w.Undisturbed w') {r r' : Record}
    (hresembles : Record.Resembles w.shared.dictionaries r w'.shared.dictionaries r')
    (key : RecordKey) (body : Fields) : w'.plannedPut key r' body = w.plannedPut key r body := by
  unfold Workspace.plannedPut
  rw [hresembles.metadata, hresembles.same, h.conventions]
  rfl

theorem mustWrite {r r' : Record}
    (hresembles : Record.Resembles w.shared.dictionaries r w'.shared.dictionaries r')
    (body : Fields) : w'.mustWrite r' body = w.mustWrite r body := by
  unfold Workspace.mustWrite
  rw [hresembles.dirty, hresembles.same]
  rfl

theorem pendingPut (h : w.Undisturbed w') (hw : w.Consistent) (key : RecordKey) :
    w'.pendingPut key = w.pendingPut key := by
  unfold Workspace.pendingPut
  cases hr : w.work.records.find? key with
  | none => rw [h.absent key hr]
  | some r =>
    obtain ⟨r', hr', hresembles⟩ := h.record key r hr
    have hentity : r'.entity = r.entity := by rw [hresembles.same]
    have hignored : r'.ignoreChanges = r.ignoreChanges := by rw [hresembles.same]
    have hid : r'.id = r.id := by rw [hresembles.same]
    rw [hr']
    dsimp only
    rw [hentity, hignored, hid, h.hasDeferred, h.isToDelete]
    cases he : r.entity with
    | none => rfl
    | some entity =>
      have hmade : entity < w.shared.entities.length :=
        hw.known entity key ((hw.held entity key).mpr ⟨r, hr, he⟩)
      dsimp only
      rw [h.bodyOf hmade]
      congr 2
      funext body
      rw [mustWrite hresembles, h.plannedPut hresembles]

theorem pendingPuts (h : w.Undisturbed w') (hw : w.Consistent) (keys : List RecordKey) :
    w'.pendingPuts keys = w.pendingPuts keys := by
  induction keys with
  | nil => rfl
  | cons key rest ih =>
    rw [Workspace.pendingPuts, Workspace.pendingPuts, h.pendingPut hw, ih]

/-- `Undisturbed` keeps `pendingPlan`. -/
theorem pendingPlan (h : w.Undisturbed w') (hw : w.Consistent) :
    w'.pendingPlan = w.pendingPlan := by
  unfold Workspace.pendingPlan
  have hdelete : w'.plannedDelete = w.plannedDelete := funext h.plannedDelete
  rw [h.pendingPuts hw, hdelete, h.work]

end Undisturbed

end Workspace

/-! ## Callbacks that edit nothing -/

namespace Callbacks

/-- Callbacks that may refuse a save and leave notes, but edit nothing. -/
structure EditNothing (c : Callbacks) : Prop where
  beforeStore : ∀ callback ∈ c.beforeStore, ∀ event (s : Shared), s.dictionaries.Ordered →
    s.Undisturbed (callback event s).2
  beforeDelete : ∀ callback ∈ c.beforeDelete, ∀ id (s : Shared), s.dictionaries.Ordered →
    s.Undisturbed (callback id s).2

/-- Callbacks that refuse no save. -/
structure Agree (c : Callbacks) : Prop where
  beforeStore : ∀ callback ∈ c.beforeStore, ∀ event s, (callback event s).1 = .ok ()
  beforeDelete : ∀ callback ∈ c.beforeDelete, ∀ id s, (callback id s).1 = .ok ()

theorem undisturbed_callEach {Event : Type} {callbacks : List (Event → Shared → Verdict)}
    (hcallback : ∀ callback ∈ callbacks, ∀ event (s : Shared), s.dictionaries.Ordered →
      s.Undisturbed (callback event s).2) (event : Event) {s : Shared}
    (hordered : s.dictionaries.Ordered) : s.Undisturbed (callEach event callbacks s).2 := by
  refine relates_callEach
    (R := fun s s' => s.dictionaries.Ordered → Shared.Undisturbed s s')
    (fun s _ => .refl s) ?_ hcallback event s hordered
  intro s s' s'' h h' hordered
  have hfirst := h hordered
  exact hfirst.trans (h' (hfirst.dictionaries.ordered hordered))

theorem callEach_agrees {Event : Type} {callbacks : List (Event → Shared → Verdict)}
    (hagree : ∀ callback ∈ callbacks, ∀ event s, (callback event s).1 = .ok ()) (event : Event)
    (s : Shared) : (callEach event callbacks s).1 = .ok () := by
  induction callbacks generalizing s with
  | nil => rfl
  | cons callback rest ih =>
    have hfirst := hagree callback (List.mem_cons_self ..) event s
    rw [callEach]
    split
    · exact ih (fun c hc => hagree c (List.mem_cons_of_mem _ hc)) _
    · exact hfirst

theorem editNothing_nil : EditNothing {} :=
  ⟨by simp, by simp⟩

theorem agree_nil : Agree {} :=
  ⟨by simp, by simp⟩

/-- `answer` is `expected`, unless a callback of `c` refuses. -/
structure Follows {α : Type} (c : Callbacks) (answer expected : Except Error α) : Prop where
  ok : ∀ a, answer = .ok a → expected = .ok a
  agreed : c.Agree → answer = expected

namespace Follows

variable {α β : Type} {c : Callbacks} {answer expected : Except Error α}

theorem rfl : c.Follows answer answer :=
  ⟨fun _ h => h, fun _ => Eq.refl _⟩

/-- Where a callback refuses, nothing is expected. -/
theorem refused {e : Error} (h : ¬ c.Agree) : c.Follows (.error e) expected :=
  ⟨fun _ hok => (by cases hok), fun hagree => absurd hagree h⟩

theorem map (h : c.Follows answer expected) (f : α → β) :
    c.Follows (answer.map f) (expected.map f) := by
  refine ⟨?_, fun hagree => by rw [h.agreed hagree]⟩
  intro b hb
  cases answer with
  | error e => cases hb
  | ok a =>
    rw [h.ok a (Eq.refl _)]
    exact hb

end Follows

end Callbacks

/-! ## Planning follows the pending work -/

namespace Workspace

variable {w w₁ w₂ : Workspace} {c : Callbacks}

/-- `callEach` disturbs nothing, and agrees if all callbacks do. -/
theorem Undisturbed.callEach {Event : Type} {callbacks : List (Event → Shared → Verdict)}
    (h : w.Undisturbed w₁)
    (hcallback : ∀ callback ∈ callbacks, ∀ event (s : Shared), s.dictionaries.Ordered →
      s.Undisturbed (callback event s).2) {event : Event} {answer : Except Error Unit}
    {shared : Shared}
    (hcalled : Callbacks.callEach event callbacks w₁.shared = (answer, shared)) :
    w.Undisturbed { w₁ with shared } := by
  have hshared := Callbacks.undisturbed_callEach hcallback event h.inOrder.ordered
  rw [hcalled] at hshared
  exact h.trans (.of_shared h.inOrder hshared)

theorem not_agreed {Event : Type} {callbacks : List (Event → Shared → Verdict)}
    (hagree : c.Agree → ∀ callback ∈ callbacks, ∀ event s, (callback event s).1 = .ok ())
    {event : Event} {s shared : Shared} {e : Error}
    (hcalled : Callbacks.callEach event callbacks s = (.error e, shared)) : ¬ c.Agree := by
  intro h
  have hok := Callbacks.callEach_agrees (hagree h) event s
  rw [hcalled] at hok
  cases hok

theorem planDeletes_follows (hc : c.EditNothing) (h : w.Undisturbed w₁) {keys : List RecordKey}
    {answer : Except Error Plan} (hplan : w₁.planDeletes c keys = (answer, w₂)) :
    w.Undisturbed w₂ ∧ c.Follows answer (.ok (keys.filterMap w.plannedDelete)) := by
  induction keys generalizing w₁ w₂ answer with
  | nil =>
    obtain ⟨rfl, rfl⟩ := Prod.mk.inj hplan
    exact ⟨h, .rfl⟩
  | cons key rest ih =>
    have hkey := h.plannedDelete key
    rw [planDeletes] at hplan
    unfold plannedDelete at hkey
    rw [List.filterMap_cons]
    unfold plannedDelete
    rw [← hkey]
    cases hr : w₁.work.records.find? key with
    | none =>
      rw [hr] at hplan
      exact ih h hplan
    | some r =>
      rw [hr] at hplan
      dsimp only at hplan ⊢
      split
      · next hdeferred =>
        split at hdeferred
        · next hfree =>
          rw [if_pos hfree] at hplan
          exact ih h hplan
        · cases hdeferred
      · next planned hplanned =>
        split at hplanned
        · cases hplanned
        · next hfree =>
          rw [if_neg hfree] at hplan
          obtain rfl := Option.some.inj hplanned
          split at hplan
          · next hcalled =>
            obtain ⟨rfl, rfl⟩ := Prod.mk.inj hplan
            exact ⟨h.callEach hc.beforeDelete hcalled,
              .refused (not_agreed Callbacks.Agree.beforeDelete hcalled)⟩
          · next shared hcalled =>
            have hasked := h.callEach hc.beforeDelete hcalled
            rcases hrest : planDeletes { w₁ with shared } c rest with ⟨answer', w₃⟩
            obtain ⟨hundisturbed, hfollows⟩ := ih hasked hrest
            rw [hrest] at hplan
            cases answer' with
            | error e =>
              obtain ⟨rfl, rfl⟩ := Prod.mk.inj hplan
              exact ⟨hundisturbed, hfollows.map _⟩
            | ok plan =>
              obtain ⟨rfl, rfl⟩ := Prod.mk.inj hplan
              exact ⟨hundisturbed, hfollows.map _⟩

theorem planPut_follows (hc : c.EditNothing) (hinOrder : w.InOrder) {key : RecordKey} {r : Record}
    (hr : w.work.records.find? key = some r) {entity : EntityRef} (hentity : r.entity = some entity)
    (hmade : entity < w.shared.entities.length) {body : Fields}
    (hbody : w.bodyOf entity = .ok body) {answer : Except Error Planned}
    (hplan : w.planPut c key r entity = (answer, w₂)) :
    w.Undisturbed w₂ ∧ c.Follows answer (.ok (w.plannedPut key r body)) := by
  have hopened := Undisturbed.openDictionary hinOrder hr (by rw [hentity]; rfl)
  have hrecord : (w.openDictionary key r).2.work.records.find? key
      = some { r with dictionary := some (w.openDictionary key r).1 } := by
    refine (Keyed.find?_modify_self hr
      (fun _ => (r.openDictionary w.shared.dictionaries).2.1)).trans ?_
    rw [Record.openDictionary_record]
    rfl
  unfold planPut at hplan
  rcases hopen : w.openDictionary key r with ⟨n, w₁⟩
  rw [hopen] at hplan hopened hrecord
  dsimp only at hplan hrecord
  split at hplan
  · next hcalled =>
    obtain ⟨rfl, rfl⟩ := Prod.mk.inj hplan
    exact ⟨hopened.callEach hc.beforeStore hcalled,
      .refused (not_agreed Callbacks.Agree.beforeStore hcalled)⟩
  · next shared hcalled =>
    have hasked := hopened.callEach hc.beforeStore hcalled
    rw [hasked.bodyOf hmade, hbody] at hplan
    obtain ⟨rfl, rfl⟩ := Prod.mk.inj hplan
    refine ⟨hasked, ?_⟩
    -- the record that opened its dictionary looks as before, whatever the callbacks did
    obtain ⟨r', hr', hresembles⟩ := hasked.record key r hr
    rw [show w₁.work.records.find? key = some r' from hr'] at hrecord
    obtain rfl := Option.some.inj hrecord
    rw [← hasked.plannedPut hresembles]
    exact .rfl

theorem planEntity_follows (hw : w.Consistent) (hc : c.EditNothing) (h : w.Undisturbed w₁)
    {key : RecordKey} {answer : Except Error (Option Planned)}
    (hplan : w₁.planEntity c key = (answer, w₂)) :
    w.Undisturbed w₂ ∧ c.Follows answer (w.pendingPut key) := by
  rw [← h.pendingPut hw]
  by_cases hconsidered : ∃ r entity, w₁.Considers key r entity
  · obtain ⟨r, entity, hconsiders⟩ := hconsidered
    rw [pendingPut_of_considers hconsiders]
    cases hbody : w₁.bodyOf entity with
    | error e =>
      rw [planEntity_of_unwritable hconsiders hbody] at hplan
      obtain ⟨rfl, rfl⟩ := Prod.mk.inj hplan
      exact ⟨h, .rfl⟩
    | ok body =>
      rw [planEntity_of_considers hconsiders hbody] at hplan
      cases hmust : w₁.mustWrite r body with
      | false =>
        rw [hmust] at hplan
        obtain ⟨rfl, rfl⟩ := Prod.mk.inj hplan
        exact ⟨h, by rw [Except.map, hmust]; exact .rfl⟩
      | true =>
        rcases hput : w₁.planPut c key r entity with ⟨answer', w₃⟩
        obtain ⟨hundisturbed, hfollows⟩ := planPut_follows hc h.inOrder hconsiders.record
          hconsiders.holds (h.made_of_record hw hconsiders.record hconsiders.holds) hbody hput
        have hfollows' := hfollows.map some
        rw [hmust, hput] at hplan
        rw [Except.map, hmust, if_pos rfl]
        cases answer' with
        | error e =>
          obtain ⟨rfl, rfl⟩ := Prod.mk.inj hplan
          exact ⟨h.trans hundisturbed, hfollows'⟩
        | ok planned =>
          obtain ⟨rfl, rfl⟩ := Prod.mk.inj hplan
          exact ⟨h.trans hundisturbed, hfollows'⟩
  · have hnone : ∀ r entity, ¬ w₁.Considers key r entity :=
      fun r entity hconsiders => hconsidered ⟨r, entity, hconsiders⟩
    rw [planEntity_of_not_considers hnone] at hplan
    obtain ⟨rfl, rfl⟩ := Prod.mk.inj hplan
    exact ⟨h, by rw [pendingPut_of_not_considers hnone]; exact .rfl⟩

theorem planPuts_follows (hw : w.Consistent) (hc : c.EditNothing) (h : w.Undisturbed w₁)
    {keys : List RecordKey} {answer : Except Error Plan}
    (hplan : w₁.planPuts c keys = (answer, w₂)) :
    w.Undisturbed w₂ ∧ c.Follows answer (w.pendingPuts keys) := by
  induction keys generalizing w₁ w₂ answer with
  | nil =>
    obtain ⟨rfl, rfl⟩ := Prod.mk.inj hplan
    exact ⟨h, .rfl⟩
  | cons key rest ih =>
    rw [planPuts] at hplan
    rw [pendingPuts]
    split at hplan
    · next e w₃ hentity =>
      obtain ⟨rfl, rfl⟩ := Prod.mk.inj hplan
      obtain ⟨hundisturbed, hfollows⟩ := planEntity_follows hw hc h hentity
      refine ⟨hundisturbed, ⟨fun _ hok => (by cases hok), ?_⟩⟩
      intro hagree
      rw [← hfollows.agreed hagree]
    · next planned w₃ hentity =>
      obtain ⟨hundisturbed, hfollows⟩ := planEntity_follows hw hc h hentity
      rw [hfollows.ok planned rfl]
      dsimp only
      rcases hrest : w₃.planPuts c rest with ⟨answer', w₄⟩
      obtain ⟨hundisturbed', hfollows'⟩ := ih hundisturbed hrest
      rw [hrest] at hplan
      cases answer' with
      | error e =>
        obtain ⟨rfl, rfl⟩ := Prod.mk.inj hplan
        exact ⟨hundisturbed', hfollows'.map _⟩
      | ok plan =>
        obtain ⟨rfl, rfl⟩ := Prod.mk.inj hplan
        exact ⟨hundisturbed', hfollows'.map _⟩

theorem planDeferred_follows (hc : c.EditNothing) (h : w.Undisturbed w₁) {commands : List Command}
    {answer : Except Error Plan} (hplan : w₁.planDeferred c commands = (answer, w₂)) :
    w.Undisturbed w₂ ∧ c.Follows answer (.ok (commands.map plannedDeferred)) := by
  induction commands generalizing w₁ w₂ answer with
  | nil =>
    obtain ⟨rfl, rfl⟩ := Prod.mk.inj hplan
    exact ⟨h, .rfl⟩
  | cons command rest ih =>
    rw [planDeferred] at hplan
    rcases hasked : (if command.kind = .delete then
        Callbacks.callEach command.id c.beforeDelete w₁.shared
      else (.ok (), w₁.shared) : Verdict) with ⟨verdict, shared⟩
    rw [hasked] at hplan
    -- only a deletion is asked for
    have hverdict : w.Undisturbed { w₁ with shared }
        ∧ ∀ e, verdict = .error e → ¬ c.Agree := by
      split at hasked
      · refine ⟨h.callEach hc.beforeDelete hasked, ?_⟩
        rintro e rfl
        exact not_agreed Callbacks.Agree.beforeDelete hasked
      · obtain ⟨rfl, rfl⟩ := Prod.mk.inj hasked
        exact ⟨h, fun e herror => (by cases herror)⟩
    cases verdict with
    | error e =>
      obtain ⟨rfl, rfl⟩ := Prod.mk.inj hplan
      exact ⟨hverdict.1, .refused (hverdict.2 e rfl)⟩
    | ok _ =>
      dsimp only at hplan
      rcases hrest : planDeferred { w₁ with shared } c rest with ⟨answer', w₃⟩
      obtain ⟨hundisturbed, hfollows⟩ := ih hverdict.1 hrest
      rw [hrest] at hplan
      cases answer' with
      | error e =>
        obtain ⟨rfl, rfl⟩ := Prod.mk.inj hplan
        exact ⟨hundisturbed, hfollows.map _⟩
      | ok plan =>
        obtain ⟨rfl, rfl⟩ := Prod.mk.inj hplan
        exact ⟨hundisturbed, hfollows.map _⟩

/-- If the callbacks edit nothing, `planSave` disturbs nothing, and its plan is `pendingPlan`,
unless a callback refuses. -/
theorem planSave_follows (hw : w.Consistent) (hc : c.EditNothing) (hinOrder : w.InOrder)
    {answer : Except Error Plan} (hplan : w.planSave c = (answer, w₂)) :
    w.Undisturbed w₂ ∧ c.Follows answer w.pendingPlan := by
  unfold planSave at hplan
  rcases hdeletes : w.planDeletes c w.work.deleted.keys with ⟨deletes, w₁⟩
  obtain ⟨h₁, hfollows₁⟩ := planDeletes_follows hc (.refl hinOrder) hdeletes
  rw [hdeletes] at hplan
  cases deletes with
  | error e =>
    obtain ⟨rfl, rfl⟩ := Prod.mk.inj hplan
    exact ⟨h₁, .refused fun hagree => by cases hfollows₁.agreed hagree⟩
  | ok deletes =>
    dsimp only at hplan
    obtain rfl := Except.ok.inj (hfollows₁.ok deletes rfl)
    rcases hputs : w₁.planPuts c w₁.work.registry.records with ⟨puts, w₃⟩
    obtain ⟨h₃, hfollows₃⟩ := planPuts_follows hw hc h₁ hputs
    rw [hputs] at hplan
    have hregistry : w₁.work.registry.records = w.work.registry.records := by rw [h₁.work]
    rw [hregistry] at hfollows₃
    unfold pendingPlan
    cases puts with
    | error e =>
      obtain ⟨rfl, rfl⟩ := Prod.mk.inj hplan
      exact ⟨h₃, hfollows₃.map _⟩
    | ok puts =>
      dsimp only at hplan
      rw [hfollows₃.ok puts rfl]
      rcases hdeferred : w₃.planDeferred c w₃.work.deferred with ⟨deferred, w₄⟩
      obtain ⟨h₄, hfollows₄⟩ := planDeferred_follows hc h₃ hdeferred
      rw [hdeferred] at hplan
      have hcommands : w₃.work.deferred = w.work.deferred := by rw [h₃.work]
      rw [hcommands] at hfollows₄
      cases deferred with
      | error e =>
        obtain ⟨rfl, rfl⟩ := Prod.mk.inj hplan
        exact ⟨h₄, .refused fun hagree => by cases hfollows₄.agreed hagree⟩
      | ok deferred =>
        obtain ⟨rfl, rfl⟩ := Prod.mk.inj hplan
        obtain rfl := Except.ok.inj (hfollows₄.ok deferred rfl)
        exact ⟨h₄, .rfl⟩

end Workspace

end DocumentSession
