import DocumentSession.Proofs.LiveEntities
import DocumentSession.Proofs.Rounds

set_option autoImplicit false

/-! # Loading again

A session that tracks documents asks the server about an identifier once. After a load that succeeds
the workspace has an answer for each identifier of the load (`Workspace.Knows`): the identifier is
in `missing`, its record is in `deleted`, or its record holds an entity. So a second load of any of
them sends nothing, changes nothing, and gives the same answer (`OpenSession.loadMany_again`).

For this the result at the position of an identifier has to be a document with this identifier, or
none (`AnswersEach`). -/

namespace DocumentSession

open Identifier (normalize)

/-- The identifier in the metadata of a document. -/
def documentId (document : Fields) : Option String :=
  (Keyed.find? (Metadata.split document).2 Metadata.idKey).bind Json.str?

/-- The identifiers that a load request asks for. -/
def Request.askedIds (r : Request) : List String :=
  r.query.filterMap (fun (name, value) => if name = "id" then some value else none)

theorem askedIds_loadRequest (o : SessionOptions) (ids includes : List String) :
    (o.scope (loadRequest ids includes)).askedIds = ids := by
  have hquery : (o.scope (loadRequest ids includes)).query = (loadRequest ids includes).query := by
    unfold SessionOptions.scope
    split <;> rfl
  unfold Request.askedIds
  rw [hquery]
  simp [loadRequest, List.filterMap_map]

/-- The result at the position of each of `ids` is a document with this identifier, if it is a
document. -/
def AnswersEach (ids : List String) (answer : Option Json) : Prop :=
  ∀ items, resultItems answer = some items →
    ∀ id document, (id, Json.obj document) ∈ ids.zip items →
      (documentId document).map normalize = some (normalize id)

/-- The result for `id` is a document with this identifier, if it is a document. -/
def IsOwn (id : String) (result : Option Fields) : Prop :=
  ∀ document, result = some document → (documentId document).map normalize = some (normalize id)

theorem AnswersEach.isOwn {ids : List String} {answer : Option Json}
    (h : AnswersEach ids answer) {reply : LoadReply}
    (hreply : LoadReply.ofBody answer ids.length = .ok reply) :
    List.Forall₂ IsOwn ids reply.results := by
  obtain ⟨items, hitems, hlength, rfl⟩ := LoadReply.eq_of_ofBody hreply
  refine List.forall₂_map_right_iff.mpr (List.forall₂_iff_zip.mpr ⟨hlength.symm, ?_⟩)
  intro id item hmem document hdocument
  cases item with
  | obj fields =>
    obtain rfl := Option.some.inj hdocument
    exact h items hitems id fields hmem
  | _ => cases hdocument

namespace Workspace

variable {w w' w'' : Workspace} {type : EntityType} {id : String}

/-! ## Look-ups -/

/-- `lookup` of `id` gives `found`, and makes no entity for it. -/
inductive Knows (w : Workspace) (type : EntityType) (id : String) : Option EntityRef → Prop where
  | missing (hmissing : w.work.missing.contains id = true) : Knows w type id none
  | toDelete {key : RecordKey} (hmissing : w.work.missing.contains id = false)
    (hkey : w.work.identities.get? id = some key) (hdelete : w.work.isToDelete key = true) :
    Knows w type id none
  | live {key : RecordKey} {r : Record} {entity : EntityRef}
    (hmissing : w.work.missing.contains id = false)
    (hkey : w.work.identities.get? id = some key) (hkept : w.work.isToDelete key = false)
    (hr : w.work.records.find? key = some r) (hentity : r.entity = some entity)
    (htype : (w.shared.entity entity).type.name = type.name) : Knows w type id (some entity)

theorem Knows.lookup_eq {found : Option EntityRef} (h : w.Knows type id found) :
    w.lookup type id = (.ok (.known found), w) := by
  unfold lookup
  cases h with
  | missing hmissing => rw [if_pos hmissing]
  | toDelete hmissing hkey hdelete =>
    rw [hmissing, hkey]
    simp only [hdelete, Bool.false_eq_true, if_false, if_true]
  | live hmissing hkey hkept hr hentity htype =>
    rename_i key r entity
    have hfor : w.entityFor type key = (.ok (some entity), w) := by
      unfold entityFor
      rw [hr]
      dsimp only
      rw [hentity]
      dsimp only
      rw [if_pos htype]
    rw [hmissing, hkey]
    simp only [hkept, hfor, Bool.false_eq_true, if_false]

theorem Knows.unique {found found' : Option EntityRef} (h : w.Knows type id found)
    (h' : w.Knows type id found') : found = found' := by
  have heq := h.lookup_eq.symm.trans h'.lookup_eq
  simpa using heq

/-- `materialize` makes an entity of its own type. -/
theorem type_of_materialize {body : Fields} {identityProperty : String} {e : Entity}
    (h : type.materialize body id identityProperty = .ok e) : e.type = type := by
  unfold EntityType.materialize at h
  cases hread : type.read (withIdentity body id identityProperty) with
  | error error =>
    rw [hread] at h
    cases h
  | ok state =>
    rw [hread] at h
    obtain rfl := Except.ok.inj h
    rfl

/-- After `entityFor` gives an entity, the record holds it. -/
theorem entityFor_eq_some {key : RecordKey} {entity : EntityRef}
    (h : w.entityFor type key = (.ok (some entity), w')) :
    ∃ r, w'.work.records.find? key = some r ∧ r.entity = some entity
      ∧ (w'.shared.entity entity).type.name = type.name := by
  unfold entityFor at h
  split at h
  · cases (Prod.mk.inj h).1
  · next r hr =>
    split at h
    · next tracked _ hentity =>
      dsimp only at h
      split at h
      · next htype =>
        obtain ⟨hfound, rfl⟩ := Prod.mk.inj h
        obtain rfl := Option.some.inj (Except.ok.inj hfound)
        exact ⟨r, hr, hentity, htype⟩
      · cases (Prod.mk.inj h).1
    · cases (Prod.mk.inj h).1
    · split at h
      · cases (Prod.mk.inj h).1
      · next e hmade =>
        obtain ⟨hfound, rfl⟩ := Prod.mk.inj h
        obtain rfl := Option.some.inj (Except.ok.inj hfound)
        refine ⟨_, Keyed.find?_modify_self hr
          (fun r => { r with entity := some w.shared.entities.length }), rfl, ?_⟩
        show (((w.shared.entities ++ [e])[w.shared.entities.length]?).getD default).type.name = _
        rw [List.getElem?_concat_length, Option.getD_some, type_of_materialize hmade]

/-! ## Frames -/

/-- `w'` comes from `w` by look-ups: the indexes are the same, and records keep their entities. -/
structure LooksUp (w w' : Workspace) : Prop where
  missing : w'.work.missing = w.work.missing
  identities : w'.work.identities = w.work.identities
  spares : w.SparesLive w'

theorem LooksUp.refl (w : Workspace) : w.LooksUp w :=
  ⟨rfl, rfl, .refl w⟩

theorem LooksUp.trans (h : w.LooksUp w') (h' : w'.LooksUp w'') : w.LooksUp w'' :=
  ⟨h'.missing.trans h.missing, h'.identities.trans h.identities, h.spares.trans h'.spares⟩

theorem looksUp_entityFor {key : RecordKey} {answer : Except Error (Option EntityRef)}
    (h : w.entityFor type key = (answer, w')) : w.LooksUp w' := by
  have hspares := sparesLive_entityFor w type key
  rw [h] at hspares
  refine ⟨?_, ?_, hspares⟩
  all_goals
    unfold entityFor at h
    split at h
    · obtain ⟨-, rfl⟩ := Prod.mk.inj h
      rfl
    · split at h
      · dsimp only at h
        split at h <;> (obtain ⟨-, rfl⟩ := Prod.mk.inj h; rfl)
      · obtain ⟨-, rfl⟩ := Prod.mk.inj h
        rfl
      · split at h <;> (obtain ⟨-, rfl⟩ := Prod.mk.inj h; rfl)

/-- `lookup` keeps the indexes, and what it finds is known afterwards. -/
theorem lookup_cases {answer : Except Error Lookup} (h : w.lookup type id = (answer, w')) :
    w.LooksUp w' ∧ ∀ found, answer = .ok (.known found) → w'.Knows type id found := by
  unfold lookup at h
  split at h
  · next hmissing =>
    obtain ⟨rfl, rfl⟩ := Prod.mk.inj h
    refine ⟨.refl w, ?_⟩
    rintro found ⟨⟩
    exact .missing hmissing
  · next hmissing =>
    rw [Bool.not_eq_true] at hmissing
    split at h
    · obtain ⟨rfl, rfl⟩ := Prod.mk.inj h
      exact ⟨.refl w, by simp⟩
    · next key hkey =>
      split at h
      · next hdelete =>
        obtain ⟨rfl, rfl⟩ := Prod.mk.inj h
        refine ⟨.refl w, ?_⟩
        rintro found ⟨⟩
        exact .toDelete hmissing hkey hdelete
      · next hkept =>
        rw [Bool.not_eq_true] at hkept
        split at h
        · next hentity =>
          obtain ⟨rfl, rfl⟩ := Prod.mk.inj h
          exact ⟨looksUp_entityFor hentity, by simp⟩
        · next hentity =>
          obtain ⟨rfl, rfl⟩ := Prod.mk.inj h
          exact ⟨looksUp_entityFor hentity, by simp⟩
        · next entity _ hentity =>
          obtain ⟨rfl, rfl⟩ := Prod.mk.inj h
          have hup := looksUp_entityFor hentity
          obtain ⟨r, hr, hheld, htype⟩ := entityFor_eq_some hentity
          refine ⟨hup, ?_⟩
          rintro found ⟨⟩
          refine .live (by rw [hup.missing]; exact hmissing) (by rw [hup.identities]; exact hkey) ?_
            hr hheld htype
          unfold UnitOfWork.isToDelete
          rw [hup.spares.deleted]
          exact hkept

theorem Knows.looksUp {found : Option EntityRef} (h : w.Knows type id found) (hw : w.Consistent)
    (hup : w.LooksUp w') : w'.Knows type id found := by
  have hdeleted : ∀ key, w'.work.isToDelete key = w.work.isToDelete key := by
    intro key
    unfold UnitOfWork.isToDelete
    rw [hup.spares.deleted]
  cases h with
  | missing hmissing => exact .missing (by rw [hup.missing]; exact hmissing)
  | toDelete hmissing hkey hdelete =>
    exact .toDelete (by rw [hup.missing]; exact hmissing) (by rw [hup.identities]; exact hkey)
      (by rw [hdeleted]; exact hdelete)
  | live hmissing hkey hkept hr hentity htype =>
    have hmade := hw.known _ _ ((hw.held _ _).mpr ⟨_, hr, hentity⟩)
    refine .live (by rw [hup.missing]; exact hmissing) (by rw [hup.identities]; exact hkey)
      (by rw [hdeleted]; exact hkept) (hup.spares.record _ _ hr (by rw [hentity]; rfl)) hentity ?_
    rw [Shared.entity_of_entities hup.spares.entities hmade]
    exact htype

/-! ## Identifiers that need no request -/

/-- `id` is in `missing`, or has a record. -/
def Covers (w : Workspace) (id : String) : Prop :=
  w.work.missing.contains id = true ∨ (w.work.identities.get? id).isSome = true

theorem Knows.covers {found : Option EntityRef} (h : w.Knows type id found) : w.Covers id := by
  cases h with
  | missing hmissing => exact Or.inl hmissing
  | toDelete _ hkey _ => exact Or.inr (by rw [hkey]; rfl)
  | live _ hkey _ _ _ _ => exact Or.inr (by rw [hkey]; rfl)

theorem LooksUp.covers_iff (hup : w.LooksUp w') : w'.Covers id ↔ w.Covers id := by
  unfold Covers
  rw [hup.missing, hup.identities]

theorem Covers.looksUp (h : w.Covers id) (hup : w.LooksUp w') : w'.Covers id :=
  hup.covers_iff.mpr h

/-- `lookup` never answers `unknown` for a covered identifier. -/
theorem Covers.lookup_ne_unknown (h : w.Covers id) (hw : w.Consistent)
    (hlookup : w.lookup type id = (.ok .unknown, w')) : False := by
  unfold lookup at hlookup
  split at hlookup
  · cases (Prod.mk.inj hlookup).1
  · next hmissing =>
    split at hlookup
    · next hkey =>
      rcases h with h | h
      · exact hmissing h
      · rw [hkey] at h
        cases h
    · next key hkey =>
      split at hlookup
      · cases (Prod.mk.inj hlookup).1
      · split at hlookup
        · cases (Prod.mk.inj hlookup).1
        · next hentity =>
          obtain ⟨r, hr, -⟩ := hw.record_of_get? hkey
          have hfilled := hw.filled key r hr
          unfold entityFor at hentity
          rw [hr] at hentity
          dsimp only at hentity
          split at hentity
          · split at hentity <;> cases (Prod.mk.inj hentity).1
          · next hnone hempty =>
            rw [hnone, hempty] at hfilled
            simp at hfilled
          · split at hentity <;> cases (Prod.mk.inj hentity).1
        · cases (Prod.mk.inj hlookup).1

/-- `w` knows `answer` for `id`, or the answer is `none` and `id` is not covered. -/
def AnswersWith (w : Workspace) (type : EntityType) (id : String) (answer : Option EntityRef) :
    Prop :=
  w.Knows type id answer ∨ answer = none ∧ ¬ w.Covers id

theorem AnswersWith.knows {answer : Option EntityRef} (h : w.AnswersWith type id answer)
    (hcovers : w.Covers id) : w.Knows type id answer :=
  h.resolve_right (fun hunheard => hunheard.2 hcovers)

theorem AnswersWith.looksUp {answer : Option EntityRef} (h : w.AnswersWith type id answer)
    (hw : w.Consistent) (hup : w.LooksUp w') : w'.AnswersWith type id answer :=
  h.imp (fun hknows => hknows.looksUp hw hup) (And.imp_right (mt hup.covers_iff.mp))

theorem Covers.refreshRecord (h : w.Covers id) (key : RecordKey) (body metadata : Fields) :
    (w.refreshRecord key body metadata).Covers id := by
  unfold Workspace.refreshRecord
  split
  · split <;> exact h
  · exact h

theorem covers_addLoaded (w : Workspace) {own : String} (hid : normalize own = normalize id)
    (body metadata : Fields) : (w.addLoaded own body metadata).2.Covers id := by
  refine Or.inr ?_
  show ((w.work.identities.insert own w.work.nextKey).get? id).isSome = true
  rw [IdentityMap.get?_insert, if_pos hid]
  rfl

/-- Adding a loaded record uncovers no identifier. -/
theorem Covers.addLoaded (h : w.Covers id) (own : String) (body metadata : Fields) :
    (w.addLoaded own body metadata).2.Covers id := by
  by_cases hid : normalize own = normalize id
  · exact covers_addLoaded w hid body metadata
  · refine h.imp ?_ ?_
    · intro hmissing
      show (w.work.missing.remove own).contains id = true
      rw [KnownMissing.contains_remove, hmissing]
      simpa using hid
    · intro hkey
      show ((w.work.identities.insert own w.work.nextKey).get? id).isSome = true
      rw [IdentityMap.get?_insert, if_neg hid]
      exact hkey

theorem Covers.register (h : w.Covers id) (document : Fields) :
    (w.register document).2.Covers id := by
  unfold Workspace.register
  dsimp only
  split
  · exact h
  · split
    · exact h.refreshRecord _ _ _
    · exact h.addLoaded _ _ _

theorem covers_register {document : Fields} {own : String} (hown : documentId document = some own)
    (hid : normalize own = normalize id) : (w.register document).2.Covers id := by
  unfold documentId at hown
  unfold Workspace.register
  dsimp only
  rw [hown]
  dsimp only
  split
  · next key hkey =>
    have hcovers : w.Covers id :=
      Or.inr (by rw [← w.work.identities.get?_congr hid, hkey]; rfl)
    exact hcovers.refreshRecord _ _ _
  · exact covers_addLoaded w hid _ _

theorem Covers.markMissing (h : w.Covers id) (id' : String) : (w.markMissing id').Covers id := by
  refine h.imp_left ?_
  intro hmissing
  exact (KnownMissing.contains_insert ..).trans (by rw [hmissing, Bool.or_true])

theorem covers_markMissing (w : Workspace) (id : String) : (w.markMissing id).Covers id :=
  Or.inl ((KnownMissing.contains_insert ..).trans (by simp))

theorem Covers.reads {D : Fields → Prop} (h : w.Covers id) (hreads : w.Reads D w') :
    w'.Covers id := by
  induction hreads with
  | refl => exact h
  | tail _ hstep ih =>
    cases hstep with
    | warn warning => exact ih
    | markMissing id' => exact ih.markMissing id'
    | register document _ => exact ih.register document
    | entityFor type key => exact ih.looksUp (looksUp_entityFor rfl)
    | detached type document =>
      unfold Workspace.detached
      dsimp only
      split <;> exact ih

/-! ## Registering a reply -/

/-- After `markAllMissing` each of `ids` is missing, and so is every identifier that was before. -/
theorem contains_markAllMissing (w : Workspace) (ids : List String) (id : String)
    (h : w.work.missing.contains id = true ∨ id ∈ ids) :
    (w.markAllMissing ids).work.missing.contains id = true := by
  induction ids generalizing w with
  | nil => exact h.resolve_right (List.not_mem_nil)
  | cons first rest ih =>
    refine ih (w.markMissing first) ?_
    have hmarked : (w.markMissing first).work.missing.contains id
        = (normalize first = normalize id || w.work.missing.contains id) :=
      KnownMissing.contains_insert ..
    rw [hmarked]
    rcases h with hmissing | hmem
    · exact Or.inl (by rw [hmissing, Bool.or_true])
    · rcases List.mem_cons.mp hmem with rfl | hmem
      · exact Or.inl (by simp)
      · exact Or.inr hmem

theorem covers_takeDocuments {ids : List String} {results : List (Option Fields)}
    (hown : List.Forall₂ IsOwn ids results)
    (h : w.takeDocuments ids results = (.ok (), w')) (hid : id ∈ ids) : w'.Covers id := by
  have hlater : ∀ {w₁ : Workspace} {ids results}, w₁.Covers id →
      w₁.takeDocuments ids results = (.ok (), w') → w'.Covers id :=
    fun hcovers htaken =>
      hcovers.reads (D := fun _ => True)
        (readClosed_reads.takeDocuments (fun _ _ => trivial) htaken)
  induction hown generalizing w with
  | nil => cases hid
  | @cons first result ids results hfirst _ ih =>
    cases result with
    | none =>
      simp only [takeDocuments] at h
      rcases List.mem_cons.mp hid with rfl | hid
      · exact hlater (covers_markMissing w id) h
      · exact ih h hid
    | some document =>
      simp only [takeDocuments] at h
      split at h
      · cases (Prod.mk.inj h).1
      · next key w₁ hregister =>
        rcases List.mem_cons.mp hid with rfl | hid
        · obtain ⟨own, hown, hsame⟩ := Option.map_eq_some_iff.mp (hfirst document rfl)
          have hcovers := covers_register (w := w) hown hsame
          rw [hregister] at hcovers
          exact hlater hcovers h
        · exact ih h hid

theorem covers_takeLoad {ids : List String} {reply : LoadReply}
    (hown : List.Forall₂ IsOwn ids reply.results)
    (h : w.takeLoad ids reply = (.ok (), w')) (hid : id ∈ ids) : w'.Covers id := by
  unfold takeLoad at h
  split at h
  · cases (Prod.mk.inj h).1
  · exact covers_takeDocuments hown h hid

/-! ## Looking up several identifiers -/

theorem unknownIds_cases {ids unknown : List String}
    (h : w.unknownIds type ids = (.ok unknown, w')) :
    w.LooksUp w' ∧ ∀ id ∈ ids, id ∈ unknown ∨ w'.Covers id := by
  induction ids generalizing w unknown with
  | nil =>
    obtain ⟨-, rfl⟩ := Prod.mk.inj h
    exact ⟨.refl w, by simp⟩
  | cons first rest ih =>
    rw [unknownIds] at h
    split at h
    · cases (Prod.mk.inj h).1
    · next known w₁ hlookup =>
      obtain ⟨hup, hknows⟩ := lookup_cases hlookup
      split at h
      · next ids w₂ hrest =>
        obtain ⟨hunknown, rfl⟩ := Prod.mk.inj h
        obtain rfl := Except.ok.inj hunknown
        obtain ⟨hups, hcovers⟩ := ih hrest
        refine ⟨hup.trans hups, List.forall_mem_cons.mpr ⟨?_, ?_⟩⟩
        · cases known with
          | unknown => exact Or.inl (by simp)
          | known found => exact Or.inr ((hknows found rfl).covers.looksUp hups)
        · intro id hid
          refine (hcovers id hid).imp_left ?_
          intro hmem
          split
          · exact List.mem_cons_of_mem _ hmem
          · exact hmem
      · next hfailed =>
        cases hrest : w₁.unknownIds type rest with
        | mk answer w₂ =>
          rw [hrest] at h
          obtain ⟨rfl, rfl⟩ := Prod.mk.inj h
          exact absurd hrest (hfailed _ _)

/-- If each of `ids` is known, `unknownIds` is empty. -/
theorem unknownIds_of_knows {ids : List String} (h : ∀ id ∈ ids, ∃ found, w.Knows type id found) :
    w.unknownIds type ids = (.ok [], w) := by
  induction ids with
  | nil => rfl
  | cons first rest ih =>
    obtain ⟨⟨found, hfound⟩, hrest⟩ := List.forall_mem_cons.mp h
    rw [unknownIds, hfound.lookup_eq]
    dsimp only
    rw [ih hrest]
    rfl

/-- Inserting the answer to one look-up keeps that every answer found is what the workspace says. -/
theorem answersWith_insert (hw : w.Consistent) {first : String} {answer : Option EntityRef}
    {found : Dict (Option EntityRef)} (hup : w.LooksUp w')
    (hfirst : w'.AnswersWith type first answer)
    (hfound : ∀ id answer, found.find? id = some answer → w.AnswersWith type id answer) :
    ∀ id answer', (found.insert first answer).find? id = some answer' →
      w'.AnswersWith type id answer' := by
  intro id answer' hentry
  rw [Keyed.find?_insert] at hentry
  split at hentry
  · next hid =>
    subst hid
    obtain rfl := Option.some.inj hentry
    exact hfirst
  · exact (hfound id answer' hentry).looksUp hw hup

theorem looksUp_collect {ids : List String} {found : Dict (Option EntityRef)}
    {answer : Except Error (Dict (Option EntityRef))}
    (h : w.collect type found ids = (answer, w')) : w.LooksUp w' := by
  induction ids generalizing w found with
  | nil =>
    obtain ⟨-, rfl⟩ := Prod.mk.inj h
    exact .refl w
  | cons first rest ih =>
    rw [collect] at h
    split at h
    · next hlookup =>
      obtain ⟨-, rfl⟩ := Prod.mk.inj h
      exact (lookup_cases hlookup).1
    all_goals
      next hlookup => exact (lookup_cases hlookup).1.trans (ih h)

/-- `collect` gives an answer for each of `ids` and for no other identifier, and the workspace says
this answer afterwards. -/
theorem collect_cases (hw : w.Consistent) {ids : List String}
    {found all : Dict (Option EntityRef)}
    (hfound : ∀ id answer, found.find? id = some answer → w.AnswersWith type id answer)
    (h : w.collect type found ids = (.ok all, w')) :
    (∀ id answer, all.find? id = some answer → w'.AnswersWith type id answer)
      ∧ ∀ id, (all.find? id).isSome = true ↔ id ∈ ids ∨ (found.find? id).isSome = true := by
  induction ids generalizing w found with
  | nil =>
    obtain ⟨hall, rfl⟩ := Prod.mk.inj h
    obtain rfl := Except.ok.inj hall
    exact ⟨hfound, by simp⟩
  | cons first rest ih =>
    have hnext : ∀ {answer : Option EntityRef} {w₁ : Workspace}, w.LooksUp w₁ → w₁.Consistent →
        w₁.AnswersWith type first answer →
          w₁.collect type (found.insert first answer) rest = (.ok all, w') →
        (∀ id answer, all.find? id = some answer → w'.AnswersWith type id answer)
          ∧ ∀ id, (all.find? id).isSome = true
            ↔ id ∈ first :: rest ∨ (found.find? id).isSome = true := by
      intro answer w₁ hup hw₁ hfirst h
      obtain ⟨hall, hpresent⟩ := ih hw₁ (answersWith_insert hw hup hfirst hfound) h
      refine ⟨hall, fun id => (hpresent id).trans ?_⟩
      rw [Keyed.find?_insert, List.mem_cons]
      by_cases heq : first = id
      · simp [heq]
      · rw [if_neg heq, or_iff_right (Ne.symm heq)]
    rw [collect] at h
    split at h
    · cases (Prod.mk.inj h).1
    · next answer w₁ hlookup =>
      obtain ⟨hup, hknows⟩ := lookup_cases hlookup
      exact hnext hup (hw.reads (D := fun _ => True) (readClosed_reads.lookup hlookup))
        (Or.inl (hknows answer rfl)) h
    · next w₁ hlookup =>
      obtain ⟨hup, -⟩ := lookup_cases hlookup
      have hunheard : ¬ w.Covers first := fun hcovers => hcovers.lookup_ne_unknown hw hlookup
      exact hnext hup (hw.reads (D := fun _ => True) (readClosed_reads.lookup hlookup))
        (Or.inr ⟨rfl, mt hup.covers_iff.mp hunheard⟩) h

/-- If each of `ids` is known, `collect` changes nothing. -/
theorem collect_of_knows {ids : List String} (found : Dict (Option EntityRef))
    (h : ∀ id ∈ ids, ∃ answer, w.Knows type id answer) :
    ∃ all, w.collect type found ids = (.ok all, w) := by
  induction ids generalizing found with
  | nil => exact ⟨found, rfl⟩
  | cons first rest ih =>
    obtain ⟨⟨answer, hfirst⟩, hrest⟩ := List.forall_mem_cons.mp h
    rw [collect, hfirst.lookup_eq]
    exact ih _ hrest

end Workspace

namespace OpenSession

variable {s s₁ s₂ : OpenSession} {type : EntityType}

theorem eq_ok_of_attempt {α : Type} {f : Workspace → Except Error α × Workspace} {a : α}
    (h : s.attempt f = (.ok a, s₁)) :
    f s.workspace = (.ok a, s₁.workspace) ∧ s₁.connection = s.connection := by
  unfold attempt locally at h
  obtain ⟨hanswer, rfl⟩ := Prod.mk.inj h
  exact ⟨Prod.ext (Except.eq_ok_of_mapError hanswer) rfl, rfl⟩

/-- `attempt` with a function that keeps the workspace keeps the session. -/
theorem attempt_of_eq {α : Type} {f : Workspace → Except Error α × Workspace} {a : α}
    (h : f s.workspace = (.ok a, s.workspace)) : s.attempt f = (.ok a, s) := by
  unfold attempt locally
  rw [h]
  rfl

/-- Reading does not change `noTracking`. -/
theorem Reads.noTracking (h : s.Reads s₁) :
    s₁.session.work.noTracking = s.session.work.noTracking :=
  congrArg Prod.snd h.workspace.settings

/-- A load of a known identifier answers without a request. -/
theorem load_of_knows {id : String} {found : Option EntityRef}
    (hknows : s.workspace.Knows type id found) (hfilled : id ≠ "")
    (htracking : s.session.work.noTracking = false) (includes : List String) :
    s.load type id includes = (.ok found, s) := by
  have hlookup := hknows.lookup_eq
  have hunknown : s.workspace.unknownIds type [id] = (.ok [], s.workspace) := by
    simp [Workspace.unknownIds, hlookup]
  have hcollect : s.workspace.collect type [] [id] = (.ok [(id, found)], s.workspace) := by
    simp [Workspace.collect, hlookup, Keyed.insert]
  have hnamed : [id].contains "" = false := by simpa using Ne.symm hfilled
  have hmany : s.loadMany type [id] includes = (.ok [(id, found)], s) := by
    unfold loadMany loadTracked
    rw [hnamed, htracking, attempt_of_eq (f := (·.unknownIds type [id])) hunknown]
    exact attempt_of_eq (f := (·.collect type [] [id])) hcollect
  unfold load
  rw [hmany]
  simp [Except.map, Keyed.find?]

/-- After `fetch` succeeds, each of `ids` is covered. -/
theorem covers_fetch {ids includes : List String} (h : s.fetch ids includes = (.ok (), s₁))
    (hanswers : ∀ r response, s₁.connection.sent = s.connection.sent ++ [r] →
      s.connection.server s₁.connection.sent = .ok response →
      AnswersEach r.askedIds response.body)
    {id : String} (hid : id ∈ ids) : s₁.workspace.Covers id := by
  have hserver := (readClosed_reads.fetch h).server
  unfold fetch at h
  split at h
  · cases (Prod.mk.inj h).1
  · next response s₂ hsend =>
    obtain ⟨budget, warnings, sent, rfl, ⟨-, halt, hhalt⟩ | rfl⟩ := send_eq hsend
    · cases hhalt
    · have hresponse := server_of_send hsend
      split at h
      · obtain ⟨-, rfl⟩ := Prod.mk.inj h
        exact Or.inl (Workspace.contains_markAllMissing _ _ _ (Or.inr hid))
      · split at h
        · cases (Prod.mk.inj h).1
        · split at h
          · cases (Prod.mk.inj h).1
          · next reply hreply =>
            obtain ⟨htaken, hconnection⟩ := eq_ok_of_attempt h
            have hsent := congrArg Connection.sent hconnection
            have hown := hanswers _ response hsent (by rw [hsent]; exact hresponse)
            rw [askedIds_loadRequest] at hown
            exact Workspace.covers_takeLoad (hown.isOwn hreply) htaken hid

/-- After the request of a load, if there is one, each of `ids` is covered. -/
theorem covers_fetchUnknown (hconsistent : s.Consistent) {ids unknown includes : List String}
    (hcovers : ∀ id ∈ ids, id ∈ unknown ∨ s.workspace.Covers id)
    (h : (if unknown = [] then (.ok (), s) else s.fetch unknown.eraseDups includes) = (.ok (), s₁))
    (hanswers : ∀ r response, s₁.connection.sent = s.connection.sent ++ [r] →
      s.connection.server s₁.connection.sent = .ok response →
      AnswersEach r.askedIds response.body) :
    s₁.Consistent ∧ ∀ id ∈ ids, s₁.workspace.Covers id := by
  split at h
  · next hnone =>
    obtain rfl := (Prod.mk.inj h).2
    refine ⟨hconsistent, ?_⟩
    intro id hid
    exact (hcovers id hid).resolve_left (by rw [hnone]; exact List.not_mem_nil)
  · have hreads := readClosed_reads.fetch h
    refine ⟨hconsistent.reads hreads, ?_⟩
    intro id hid
    rcases hcovers id hid with hasked | hknown
    · exact covers_fetch h hanswers (List.mem_eraseDups.mpr hasked)
    · exact hknown.reads hreads.workspace

/-- What `loadMany` answers is known afterwards. -/
theorem knows_loadMany (hconsistent : s.Consistent)
    (htracking : s.session.work.noTracking = false) {ids includes : List String}
    {found : Dict (Option EntityRef)} (h : s.loadMany type ids includes = (.ok found, s₁))
    (hanswers : ∀ r response, s₁.connection.sent = s.connection.sent ++ [r] →
      s.connection.server s₁.connection.sent = .ok response →
      AnswersEach r.askedIds response.body) :
    ids.contains "" = false
      ∧ ∀ id ∈ ids, ∃ answer, found.find? id = some answer ∧ s₁.workspace.Knows type id answer := by
  unfold loadMany at h
  split at h
  · cases (Prod.mk.inj h).1
  · next hempty =>
    rw [Bool.not_eq_true] at hempty
    rw [htracking, if_neg Bool.false_ne_true] at h
    unfold loadTracked at h
    split at h
    · cases (Prod.mk.inj h).1
    · next unknown s₂ hunknown =>
      have hreadsUnknown := readClosed_reads.attempt (fun _ _ _ hQ => hQ.unknownIds) hunknown
      obtain ⟨hunknown, hconnection⟩ := eq_ok_of_attempt hunknown
      obtain ⟨-, hcovers⟩ := Workspace.unknownIds_cases hunknown
      rcases hfetch : (if unknown = [] then (.ok (), s₂) else s₂.fetch unknown.eraseDups includes :
        Except Halt Unit × OpenSession) with ⟨fetched, s₃⟩
      rw [hfetch] at h
      dsimp only at h
      split at h
      · cases (Prod.mk.inj h).1
      · obtain ⟨hcollect, hlast⟩ := eq_ok_of_attempt h
        obtain ⟨hconsistent₃, hall⟩ := covers_fetchUnknown (hconsistent.reads hreadsUnknown) hcovers
          hfetch (by rw [← hlast, hconnection]; exact hanswers)
        have hup := Workspace.looksUp_collect hcollect
        obtain ⟨heach, hpresent⟩ :=
          Workspace.collect_cases hconsistent₃.workspace (by simp [Keyed.find?]) hcollect
        refine ⟨hempty, ?_⟩
        intro id hid
        obtain ⟨answer, hanswer⟩ := Option.isSome_iff_exists.mp ((hpresent id).mpr (Or.inl hid))
        exact ⟨answer, hanswer, (heach id answer hanswer).knows ((hall id hid).looksUp hup)⟩

/-- After a load that succeeds, loading any of its identifiers again sends nothing, changes nothing,
and gives the same entity or `none` for each, if the server answers no identifier with the document
of another one. -/
theorem loadMany_again (hreachable : s.Reachable) (htracking : s.session.work.noTracking = false)
    {ids includes : List String} {found : Dict (Option EntityRef)}
    (hload : s.loadMany type ids includes = (.ok found, s₁))
    (hanswers : ∀ r response, s₁.connection.sent = s.connection.sent ++ [r] →
      s.connection.server s₁.connection.sent = .ok response →
      AnswersEach r.askedIds response.body)
    {again : List String} (hagain : again ⊆ ids) (includes' : List String) :
    ∃ found', s₁.loadMany type again includes' = (.ok found', s₁)
      ∧ ∀ id ∈ again, ∃ answer, found.find? id = some answer ∧ found'.find? id = some answer := by
  obtain ⟨hempty, hknows⟩ := knows_loadMany hreachable.consistent htracking hload hanswers
  have hreads := readClosed_reads.loadMany hload
  have hconsistent := hreachable.consistent.reads hreads
  have hknown : ∀ id ∈ again, ∃ answer, s₁.workspace.Knows type id answer := by
    intro id hid
    obtain ⟨answer, -, hanswer⟩ := hknows id (hagain hid)
    exact ⟨answer, hanswer⟩
  obtain ⟨found', hcollect⟩ := Workspace.collect_of_knows [] hknown
  refine ⟨found', ?_, ?_⟩
  · have hfilled : again.contains "" = false := by
      rw [List.contains_eq_mem, decide_eq_false_iff_not] at hempty ⊢
      exact fun hmem => hempty (hagain hmem)
    have hunknown : s₁.attempt (·.unknownIds type again) = (.ok [], s₁) :=
      attempt_of_eq (Workspace.unknownIds_of_knows hknown)
    unfold loadMany loadTracked
    rw [hfilled, hreads.noTracking, htracking, hunknown]
    have hcollected : s₁.attempt (·.collect type [] again) = (.ok found', s₁) :=
      attempt_of_eq hcollect
    exact hcollected
  · obtain ⟨heach, hpresent⟩ := Workspace.collect_cases hconsistent.workspace
      (by simp [Keyed.find?]) hcollect
    intro id hid
    obtain ⟨answer, hanswer, hbefore⟩ := hknows id (hagain hid)
    obtain ⟨answer', hanswer'⟩ := Option.isSome_iff_exists.mp ((hpresent id).mpr (Or.inl hid))
    obtain rfl := hbefore.unique ((heach id answer' hanswer').knows hbefore.covers)
    exact ⟨answer, hanswer, hanswer'⟩

/-- A session in which `users/2` is missing, beside a server that has `users/1` and includes it in
every reply. -/
def withFriend : OpenSession :=
  let user := Json.obj [("@metadata", .obj [("@id", .str "users/1")]), ("Name", .str "Al")]
  let opened : OpenSession :=
    { session := Session.new 1 {} {}
      shared := {}
      connection :=
        { server := fun sent =>
            if sent.length = 1 then .ok (.ok (.obj [("Results", .arr [.null])]))
            else
              .ok (.ok (.obj
                [("Includes", .obj [("users/1", user)]), ("Results", .arr [user, user, .null])])) }
      deliveries := {} }
  opened.perform (.load Shop.anything "users/9" [])

/-- The second load is answered without a request for all kinds of identifiers: one that came as a
result under two spellings and as an included document, one that was missing before, and one that
the reply says is missing. -/
theorem loadMany_again_spellings :
    let ids := ["users/1", "USERS/1", "users/2", "users/1", "users/9"]
    let loaded := withFriend.loadMany Shop.anything ids ["friend"]
    loaded.2.connection.sent.map Request.askedIds = [["users/9"], ["users/1", "USERS/1", "users/2"]]
      ∧ ∃ found found', loaded.1 = .ok found
        ∧ loaded.2.loadMany Shop.anything ["users/9", "USERS/1", "users/2", "USERS/1"] []
            = (.ok found', loaded.2)
        ∧ found'.find? "users/9" = some none ∧ found'.find? "USERS/1" = some (some 0) := by
  intro ids loaded
  have hreachable : withFriend.Reachable :=
    .step (.load Shop.anything "users/9" []) (.opened 1 {} {} _ _ _) trivial
  have hsent : loaded.2.connection.sent = withFriend.connection.sent
      ++ [loadRequest ["users/1", "USERS/1", "users/2"] ["friend"]] := by
    decide +kernel
  have hfound : loaded.1
      = .ok [("USERS/1", some 0), ("users/1", some 0), ("users/2", none), ("users/9", none)] := by
    decide +kernel
  have hload : withFriend.loadMany Shop.anything ids ["friend"] = (.ok _, loaded.2) :=
    Prod.ext hfound rfl
  have hagain : ["users/9", "USERS/1", "users/2", "USERS/1"] ⊆ ids := by decide
  have hanswers : ∀ r response, loaded.2.connection.sent = withFriend.connection.sent ++ [r] →
      withFriend.connection.server loaded.2.connection.sent = .ok response →
      AnswersEach r.askedIds response.body := by
    intro r response hr hresponse items hitems id document hmem
    rw [hsent, List.append_cancel_left_eq, List.singleton_inj] at hr
    subst hr
    rw [hsent] at hresponse
    obtain rfl := Except.ok.inj hresponse
    obtain rfl := Option.some.inj hitems
    rw [show (loadRequest ["users/1", "USERS/1", "users/2"] ["friend"]).askedIds
      = ["users/1", "USERS/1", "users/2"] from rfl] at hmem
    simp only [List.zip_cons_cons, List.zip_nil_right, List.mem_cons, Prod.mk.injEq,
      Json.obj.injEq, List.not_mem_nil, or_false, reduceCtorEq, and_false] at hmem
    rcases hmem with ⟨rfl, rfl⟩ | ⟨rfl, rfl⟩ <;> decide +kernel
  obtain ⟨found', hanswer, hsame⟩ :=
    loadMany_again hreachable rfl hload hanswers hagain []
  refine ⟨by rw [hsent]; decide +kernel, _, found', hfound, hanswer, ?_, ?_⟩
  · obtain ⟨answer, hbefore, hafter⟩ := hsame "users/9" (by decide)
    exact hafter.trans hbefore.symm
  · obtain ⟨answer, hbefore, hafter⟩ := hsame "USERS/1" (by decide)
    exact hafter.trans hbefore.symm

end OpenSession

end DocumentSession
