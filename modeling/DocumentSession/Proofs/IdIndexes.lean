import DocumentSession.Proofs.ReplyParts

set_option autoImplicit false

/-! # The indexes of identifiers after a reply

`IdIndexes` are the parts of a `UnitOfWork` that are looked up by identifier: `identities`,
`missing`, `deleted` and `deferred`, with the `nextKey` of new records.

A reply to a read lists documents, and one result for each identifier that was asked for. Each of
these is an `AnswerItem`, also if it comes after a document without identifier, where registering
stops. The items that are registered are its `ReplyPart`s (`AnswerItem.parts`). Registering changes
the indexes by `IdIndexes.take`, which reads nothing else of the workspace, and `entityFor` and
`detached` do not change them. So each kind of reply changes the indexes by `IdIndexes.takeAll` of
its parts (`Workspace.idIndexes_takeLoad`, `idIndexes_takeQuery`, `idIndexes_receive`). -/

namespace DocumentSession

/-! ## Items of a reply -/

/-- A document, or a result for an identifier, that a reply lists. -/
inductive AnswerItem where
  /-- An included document, or a document among the results of a query. -/
  | document (fields : Fields)
  /-- The `result` for a requested `id`. It is registered, or marks `id` as missing, only if
  `taken`. -/
  | place (id : String) (result : Option Fields) (taken : Bool)
  deriving DecidableEq

/-- The documents among `results` that `takeResults` registers: with `tracking`, those with
metadata, up to the first document that cannot be decoded as `type`. -/
def Workspace.registered (w : Workspace) (type : EntityType) (tracking : Bool) :
    List Json → List Fields
  | [] => []
  | .obj document :: rest =>
    if tracking && QueryReply.isDocument document then
      document ::
        match w.trackDocument type document with
        | (.ok _, w) => registered w type tracking rest
        | (.error _, _) => []
    else
      match w.detached type document with
      | (.ok _, w) => registered w type tracking rest
      | (.error _, _) => []
  | _ :: rest => registered w type tracking rest

namespace AnswerItem

/-- The `ReplyPart` that is registered for an item, if it is registered. -/
def part? : AnswerItem → Option ReplyPart
  | .document fields => some (.document fields)
  | .place id result taken => if taken then some (.inPlace id result) else none

/-- The registered parts of `items`, in order. -/
def parts (items : List AnswerItem) : List ReplyPart :=
  items.filterMap part?

theorem parts_append (items items' : List AnswerItem) :
    parts (items ++ items') = parts items ++ parts items' :=
  List.filterMap_append

@[simp] theorem parts_map_document (documents : List Fields) :
    parts (documents.map document) = documents.map .document := by
  induction documents with
  | nil => rfl
  | cons first rest ih => exact congrArg (ReplyPart.document first :: ·) ih

/-- The results for `ids`, which are `taken` up to the first document without identifier. -/
def places (taken : Bool) : List String → List (Option Fields) → List AnswerItem
  | id :: ids, result :: results =>
    let taken := taken && (ReplyPart.inPlace id result).isNamed
    .place id result taken :: places taken ids results
  | _, _ => []

theorem parts_places_untaken (ids : List String) (results : List (Option Fields)) :
    parts (places false ids results) = [] := by
  induction ids generalizing results with
  | nil => rfl
  | cons id ids ih =>
    cases results with
    | nil => rfl
    | cons result results => exact ih results

theorem parts_places (ids : List String) (results : List (Option Fields)) :
    parts (places true ids results)
      = (List.zipWith .inPlace ids results).takeWhile ReplyPart.isNamed := by
  induction ids generalizing results with
  | nil => rfl
  | cons id ids ih =>
    cases results with
    | nil => rfl
    | cons result results =>
      rw [List.zipWith_cons_cons, List.takeWhile_cons, places]
      cases hnamed : (ReplyPart.inPlace id result).isNamed with
      | true => exact congrArg (ReplyPart.inPlace id result :: ·) (ih results)
      | false => exact parts_places_untaken ids results

/-- The items of a `LoadReply` for `ids`. Its `results` are taken only if every included document
has an identifier. -/
def ofReply (ids : List String) (reply : LoadReply) : List AnswerItem :=
  let named := reply.includes.takeWhile (fun fields => (documentId fields).isSome)
  named.map document ++ places (named.length = reply.includes.length) ids reply.results

/-- The items of a response to a load of `ids`: status 404 gives no document for each of them. -/
def ofLoad (ids : List String) (status : Nat) (body : Option Json) : List AnswerItem :=
  if status = 404 then ids.map (.place · none true)
  else if isSuccessStatus status then
    match LoadReply.ofBody body ids.length with
    | .ok reply => ofReply ids reply
    | .error _ => []
  else []

/-- The items where nothing is registered: the results for identifiers, none of them `taken`. -/
def untaken (items : List AnswerItem) : List AnswerItem :=
  items.filterMap fun
    | .document _ => none
    | .place id result _ => some (.place id result false)

theorem parts_untaken (items : List AnswerItem) : parts (untaken items) = [] := by
  induction items with
  | nil => rfl
  | cons first rest ih =>
    cases first with
    | document fields => exact ih
    | place id result taken => exact ih

theorem parts_ofReply (ids : List String) (reply : LoadReply) :
    parts (ofReply ids reply)
      = (reply.includes.map ReplyPart.document
          ++ List.zipWith ReplyPart.inPlace ids reply.results).takeWhile ReplyPart.isNamed := by
  have hincludes : (reply.includes.map ReplyPart.document).takeWhile ReplyPart.isNamed
      = (reply.includes.takeWhile (fun fields => (documentId fields).isSome)).map .document :=
    List.takeWhile_map ..
  unfold ofReply
  rw [List.takeWhile_append, parts_append, parts_map_document, hincludes, List.length_map,
    List.length_map]
  split
  · next hall =>
    have hincluded := (List.takeWhile_prefix (l := reply.includes)
      (fun fields => (documentId fields).isSome)).eq_of_length hall
    rw [decide_eq_true hall, parts_places, hincluded]
  · next hsome =>
    rw [decide_eq_false hsome, parts_places_untaken, List.append_nil]

/-- The items of a `QueryReply` that `w` takes in by `takeQuery`. -/
def ofQuery (w : Workspace) (type : EntityType) (tracking : Bool) (reply : QueryReply) :
    List AnswerItem :=
  let included := if tracking then reply.includes else []
  let found :=
    match w.registerAll included with
    | (.ok (), w) => w.registered type tracking reply.results
    | (.error _, _) => []
  (included.takeWhile (fun fields => (documentId fields).isSome) ++ found).map document

/-- The items of a response to a lazy `read`; a count has none. -/
def ofRead (w : Workspace) (read : LazyRead) (r : SubResponse) : List AnswerItem :=
  match read with
  | .load _ _ _ requested => ofLoad requested r.status r.result
  | .query type _ tracking =>
    match QueryReply.ofBody r.result with
    | .ok reply => ofQuery w type tracking reply
    | .error _ => []
  | .count _ => []

end AnswerItem

/-! ## Indexes of identifiers -/

/-- What a `UnitOfWork` looks up by identifier: records in `identities`, identifiers without
document in `missing`, records to delete in `deleted`, and commands in `deferred`. -/
structure IdIndexes where
  identities : IdentityMap
  missing : KnownMissing
  deleted : Table Unit
  deferred : List Command
  nextKey : RecordKey

/-- The `IdIndexes` of a unit of work. -/
def UnitOfWork.idIndexes (u : UnitOfWork) : IdIndexes where
  identities := u.identities
  missing := u.missing
  deleted := u.deleted
  deferred := u.deferred
  nextKey := u.nextKey

namespace IdIndexes

/-- Register a part of a reply: `.nothing id` marks `id` as missing; a document whose identifier has
no record gets one, under `nextKey`, and its identifier is not missing any more. -/
def take (m : IdIndexes) : ReplyPart → IdIndexes
  | .nothing id => { m with missing := m.missing.insert id }
  | .document fields =>
    match documentId fields with
    | none => m
    | some id =>
      if (m.identities.get? id).isSome then m
      else
        { m with
          identities := m.identities.insert id m.nextKey
          missing := m.missing.remove id
          nextKey := m.nextKey + 1 }

/-- Register `parts` one after the other. -/
def takeAll (m : IdIndexes) (parts : List ReplyPart) : IdIndexes :=
  parts.foldl take m

theorem takeAll_append (m : IdIndexes) (parts rest : List ReplyPart) :
    m.takeAll (parts ++ rest) = (m.takeAll parts).takeAll rest :=
  List.foldl_append ..

end IdIndexes

namespace Workspace

/-- The `IdIndexes` of the unit of work. -/
abbrev idIndexes (w : Workspace) : IdIndexes :=
  w.work.idIndexes

theorem idIndexes_register (w : Workspace) (fields : Fields) :
    (w.register fields).2.idIndexes = w.idIndexes.take (.document fields) := by
  cases hid : documentId fields with
  | none =>
    rw [w.register_of_unnamed hid]
    simp only [IdIndexes.take, hid]
  | some id =>
    cases hkey : w.work.identities.get? id with
    | none =>
      rw [register_of_new hid hkey]
      simp [IdIndexes.take, UnitOfWork.idIndexes, hid, hkey, addLoaded, UnitOfWork.addRecord]
    | some key =>
      obtain ⟨records, hframe⟩ := w.refreshRecord_frame key (Metadata.split fields).1
        (Metadata.split fields).2
      rw [register_of_known hid hkey]
      simp [IdIndexes.take, UnitOfWork.idIndexes, hid, hkey, hframe]

theorem idIndexes_takePart (w : Workspace) (part : ReplyPart) :
    (w.takePart part).idIndexes = w.idIndexes.take part := by
  cases part with
  | document fields => exact w.idIndexes_register fields
  | nothing id => rfl

theorem idIndexes_takeParts (w : Workspace) (parts : List ReplyPart) :
    (w.takeParts parts).idIndexes = w.idIndexes.takeAll parts := by
  induction parts generalizing w with
  | nil => rfl
  | cons part rest ih => exact (ih (w.takePart part)).trans (by rw [idIndexes_takePart]; rfl)

theorem idIndexes_registerAll (w : Workspace) (documents : List Fields) :
    (w.registerAll documents).2.idIndexes
      = w.idIndexes.takeAll
        ((documents.takeWhile (fun fields => (documentId fields).isSome)).map .document) := by
  rw [registerAll_eq_takeNamed]
  refine (idIndexes_takeParts w _).trans (congrArg w.idIndexes.takeAll ?_)
  exact List.takeWhile_map ..

theorem idIndexes_takeLoad (w : Workspace) (ids : List String) (reply : LoadReply) :
    (w.takeLoad ids reply).2.idIndexes =
      w.idIndexes.takeAll (AnswerItem.parts (AnswerItem.ofReply ids reply)) := by
  rw [takeLoad_eq_takeNamed, AnswerItem.parts_ofReply]
  exact idIndexes_takeParts w _

theorem idIndexes_markAllMissing (w : Workspace) (ids : List String) :
    (w.markAllMissing ids).idIndexes
      = w.idIndexes.takeAll (AnswerItem.parts (ids.map (AnswerItem.place · none true))) := by
  unfold markAllMissing
  induction ids generalizing w with
  | nil => rfl
  | cons id rest ih => exact ih (w.markMissing id)

/-! ## Steps that leave the indexes alone -/

theorem idIndexes_entityFor (w : Workspace) (type : EntityType) (key : RecordKey) :
    (w.entityFor type key).2.idIndexes = w.idIndexes := by
  unfold entityFor
  split
  · rfl
  · split
    · dsimp only
      split <;> rfl
    · rfl
    · split <;> rfl

theorem idIndexes_detached (w : Workspace) (type : EntityType) (fields : Fields) :
    (w.detached type fields).2.idIndexes = w.idIndexes := by
  unfold detached
  dsimp only
  split <;> rfl

theorem idIndexes_lookup (w : Workspace) (type : EntityType) (id : String) :
    (w.lookup type id).2.idIndexes = w.idIndexes := by
  have hentity := fun key => w.idIndexes_entityFor type key
  unfold lookup
  split
  · rfl
  · split
    · rfl
    · next key _ =>
      split
      · rfl
      · specialize hentity key
        generalize w.entityFor type key = made at hentity ⊢
        rcases made with ⟨_ | _ | _, w₁⟩
        all_goals exact hentity

theorem idIndexes_unknownIds (w : Workspace) (type : EntityType) (ids : List String) :
    (w.unknownIds type ids).2.idIndexes = w.idIndexes := by
  induction ids generalizing w with
  | nil => rfl
  | cons id rest ih =>
    have hlookup := w.idIndexes_lookup type id
    rw [unknownIds]
    generalize w.lookup type id = looked at hlookup ⊢
    rcases looked with ⟨_ | known, w₁⟩
    · exact hlookup
    · have hrest := (ih w₁).trans hlookup
      dsimp only
      generalize w₁.unknownIds type rest = others at hrest ⊢
      rcases others with ⟨_ | _, w₂⟩
      all_goals exact hrest

theorem idIndexes_collect (w : Workspace) (type : EntityType) (found : Dict (Option EntityRef))
    (ids : List String) : (w.collect type found ids).2.idIndexes = w.idIndexes := by
  induction ids generalizing w found with
  | nil => rfl
  | cons id rest ih =>
    have hlookup := w.idIndexes_lookup type id
    rw [collect]
    generalize w.lookup type id = looked at hlookup ⊢
    rcases looked with ⟨_ | _ | _, w₁⟩
    · exact hlookup
    · exact (ih w₁ _).trans hlookup
    · exact (ih w₁ _).trans hlookup

/-! ## Replies to queries -/

theorem idIndexes_trackDocument (w : Workspace) (type : EntityType) (fields : Fields) :
    (w.trackDocument type fields).2.idIndexes = w.idIndexes.take (.document fields) := by
  have hregister := w.idIndexes_register fields
  unfold trackDocument
  generalize w.register fields = registered at hregister ⊢
  rcases registered with ⟨_ | key, w₁⟩
  · exact hregister
  · have hentity := (w₁.idIndexes_entityFor type key).trans hregister
    dsimp only
    generalize w₁.entityFor type key = made at hentity ⊢
    rcases made with ⟨_ | _ | _, w₂⟩
    all_goals exact hentity

theorem idIndexes_takeResults (w : Workspace) (type : EntityType) (tracking : Bool)
    (results : List Json) :
    (w.takeResults type tracking results).2.idIndexes
      = w.idIndexes.takeAll ((w.registered type tracking results).map .document) := by
  induction results generalizing w with
  | nil => rfl
  | cons result rest ih =>
    cases result with
    | obj document =>
      have htracked := w.idIndexes_trackDocument type document
      have hdetached := w.idIndexes_detached type document
      rw [takeResults, registered]
      by_cases hwhole : (tracking && QueryReply.isDocument document) = true
      · simp only [hwhole, if_true]
        generalize w.trackDocument type document = made at htracked ⊢
        rcases made with ⟨_ | entity, w₁⟩
        · exact htracked
        · have hrest := ih w₁
          rw [htracked] at hrest
          dsimp only
          generalize w₁.takeResults type tracking rest = others at hrest ⊢
          rcases others with ⟨_ | _, w₂⟩
          all_goals exact hrest
      · simp only [hwhole, Bool.false_eq_true, if_false]
        generalize w.detached type document = made at hdetached ⊢
        rcases made with ⟨_ | entity, w₁⟩
        · exact hdetached
        · have hrest := ih w₁
          rw [hdetached] at hrest
          dsimp only
          generalize w₁.takeResults type tracking rest = others at hrest ⊢
          rcases others with ⟨_ | _, w₂⟩
          all_goals exact hrest
    | _ =>
      rw [takeResults, registered]
      · exact ih w
      · simp
      · simp

theorem idIndexes_takeQuery (w : Workspace) (type : EntityType) (tracking : Bool)
    (reply : QueryReply) :
    (w.takeQuery type tracking reply).2.idIndexes
      = w.idIndexes.takeAll (AnswerItem.parts (AnswerItem.ofQuery w type tracking reply)) := by
  have hincluded := w.idIndexes_registerAll (if tracking then reply.includes else [])
  unfold takeQuery AnswerItem.ofQuery
  rw [AnswerItem.parts_map_document, List.map_append, IdIndexes.takeAll_append, ← hincluded]
  generalize w.registerAll (if tracking then reply.includes else []) = included at hincluded ⊢
  rcases included with ⟨_ | _, w₁⟩
  · rfl
  · have hresults := w₁.idIndexes_takeResults type tracking reply.results
    dsimp only
    generalize w₁.takeResults type tracking reply.results = results at hresults ⊢
    rcases results with ⟨_ | _, w₂⟩
    all_goals exact hresults

/-! ## Lazy reads -/

theorem idIndexes_prepare (w : Workspace) (read : LazyRead) :
    (read.prepare w).2.idIndexes = w.idIndexes := by
  cases read with
  | load type ids includes requested =>
    have hunknown := w.idIndexes_unknownIds type ids
    unfold LazyRead.prepare
    dsimp only
    generalize w.unknownIds type ids = unknown at hunknown ⊢
    rcases unknown with ⟨_ | _ | _, w₁⟩
    · exact hunknown
    · exact (w₁.idIndexes_collect type [] ids).trans hunknown
    · exact hunknown
  | query type q tracking => rfl
  | count q => rfl

theorem idIndexes_takeLoaded (w : Workspace) (requested : List String) {r : SubResponse}
    (hr : r.isSuccess = true ∨ r.status = 404) :
    (LazyRead.takeLoaded w requested r).2.idIndexes
      = w.idIndexes.takeAll (AnswerItem.parts (AnswerItem.ofLoad requested r.status r.result)) := by
  unfold LazyRead.takeLoaded AnswerItem.ofLoad
  split
  · exact w.idIndexes_markAllMissing requested
  · next hfound =>
    have hsuccess : isSuccessStatus r.status = true := hr.resolve_right hfound
    rw [if_pos hsuccess]
    cases LoadReply.ofBody r.result requested.length with
    | error e => rfl
    | ok reply => exact w.idIndexes_takeLoad requested reply

theorem idIndexes_receive (w : Workspace) (read : LazyRead) {r : SubResponse}
    (hr : r.isSuccess = true ∨ r.status = 404) :
    (read.receive w r).2.idIndexes
      = w.idIndexes.takeAll (AnswerItem.parts (AnswerItem.ofRead w read r)) := by
  cases read with
  | load type ids includes requested =>
    have htaken := w.idIndexes_takeLoaded requested hr
    unfold LazyRead.receive AnswerItem.ofRead
    dsimp only
    generalize LazyRead.takeLoaded w requested r = taken at htaken ⊢
    rcases taken with ⟨_ | _, w₁⟩
    · exact htaken
    · exact (w₁.idIndexes_collect type [] ids).trans htaken
  | query type q tracking =>
    unfold LazyRead.receive AnswerItem.ofRead
    dsimp only
    cases QueryReply.ofBody r.result with
    | error e => rfl
    | ok reply => exact w.idIndexes_takeQuery type tracking reply
  | count q => rfl

end Workspace

end DocumentSession
