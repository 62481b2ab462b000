import Mathlib.Data.List.TakeWhile
import DocumentSession.Proofs.LoadAgain

set_option autoImplicit false

/-! # The parts of a reply

A reply to a read consists of documents, and of identifiers that have none (`ReplyPart`). They are
registered in order, up to the first document without identifier (`Workspace.takeNamed`). A document
whose identifier has no record gets one; if the identifier has one, the document refreshes the
record unless the record holds an entity.

`LearnsNothing` says that all documents have records that stay as they are, and that all identifiers
without document are in `missing`. This is so if and only if registering the parts changes nothing
of the unit of work (`Workspace.sameKnowledge_takeParts_iff`). -/

namespace DocumentSession

open Identifier (normalize)

/-! ## Parts -/

/-- A part of a reply: a document, or an identifier that has none. -/
inductive ReplyPart where
  | document (fields : Fields)
  | nothing (id : String)
  deriving DecidableEq

namespace ReplyPart

/-- Whether a part can be registered: a document needs an identifier. -/
def isNamed : ReplyPart → Bool
  | .document fields => (documentId fields).isSome
  | .nothing _ => true

/-- The part for the `result` at the position of a requested `id`. -/
def inPlace (id : String) : Option Fields → ReplyPart
  | some fields => .document fields
  | none => .nothing id

/-- The parts of a reply to a load, in the order in which they are registered. -/
def ofLoad (ids : List String) (body : Option Json) : List ReplyPart :=
  match LoadReply.ofBody body ids.length with
  | .ok reply => reply.includes.map document ++ List.zipWith inPlace ids reply.results
  | .error _ => []

/-- The included documents of a reply to a query, which need identifiers. A result without
identifier is a projection. -/
def ofQuery (tracking : Bool) (body : Option Json) : List ReplyPart :=
  match QueryReply.ofBody body with
  | .ok reply => if tracking then reply.includes.map document else []
  | .error _ => []

/-- The parts of a reply to a lazy read. -/
def ofRead (read : LazyRead) (body : Option Json) : List ReplyPart :=
  match read with
  | .load _ _ _ requested => ofLoad requested body
  | .query _ _ tracking => ofQuery tracking body
  | .count _ => []

/-- The error of registering the parts, if one of them has no identifier. -/
def verdict : List ReplyPart → Except Error Unit
  | [] => .ok ()
  | .document fields :: rest =>
    if (documentId fields).isSome then verdict rest
    else .error (Workspace.missingId (Metadata.split fields).2)
  | .nothing _ :: rest => verdict rest

theorem verdict_of_named {parts : List ReplyPart} (h : ∀ part ∈ parts, part.isNamed = true) :
    verdict parts = .ok () := by
  induction parts with
  | nil => rfl
  | cons part rest ih =>
    obtain ⟨hpart, hrest⟩ := List.forall_mem_cons.mp h
    cases part with
    | document fields => exact (if_pos hpart).trans (ih hrest)
    | nothing id => exact ih hrest

theorem isNamed_inPlace {id : String} {result : Option Fields} (hown : IsOwn id result) :
    (inPlace id result).isNamed = true := by
  cases result with
  | none => rfl
  | some document =>
    obtain ⟨own, hdocument, -⟩ := Option.map_eq_some_iff.mp (hown document rfl)
    exact Option.isSome_of_eq_some hdocument

end ReplyPart

/-- A record after some documents, which refresh it unless it holds an entity. -/
def Record.renewed (r : Record) (documents : List Fields) : Record :=
  documents.foldl
    (fun r document =>
      if r.entity.isSome then r
      else r.refreshed (Metadata.split document).1 (Metadata.split document).2)
    r

namespace Workspace

variable {w w' : Workspace}

/-! ## Registering parts -/

/-- Register one part. -/
def takePart (w : Workspace) : ReplyPart → Workspace
  | .document fields => (w.register fields).2
  | .nothing id => w.markMissing id

/-- Register some parts. -/
def takeParts (w : Workspace) (parts : List ReplyPart) : Workspace :=
  parts.foldl takePart w

/-- Register the parts up to the first without identifier. -/
def takeNamed (w : Workspace) (parts : List ReplyPart) : Except Error Unit × Workspace :=
  (ReplyPart.verdict parts, w.takeParts (parts.takeWhile ReplyPart.isNamed))

theorem register_of_unnamed (w : Workspace) {document : Fields}
    (hid : documentId document = none) :
    w.register document = (.error (missingId (Metadata.split document).2), w) := by
  unfold documentId at hid
  unfold register
  dsimp only
  rw [hid]

/-- `takeNamed` registers a document, and goes on if it has an identifier. -/
theorem takeNamed_document (w : Workspace) (fields : Fields) (rest : List ReplyPart) :
    w.takeNamed (.document fields :: rest)
      = match w.register fields with
        | (.error e, w) => (.error e, w)
        | (.ok _, w) => w.takeNamed rest := by
  cases hname : documentId fields with
  | none =>
    rw [w.register_of_unnamed hname]
    simp [takeNamed, ReplyPart.verdict, ReplyPart.isNamed, takeParts, hname]
  | some id =>
    have hregister : ∃ key, (w.register fields).1 = .ok key := by
      unfold documentId at hname
      unfold register
      dsimp only
      rw [hname]
      dsimp only
      split <;> exact ⟨_, rfl⟩
    obtain ⟨key, hkey⟩ := hregister
    rw [show w.register fields = (.ok key, (w.register fields).2) from Prod.ext hkey rfl]
    simp [takeNamed, ReplyPart.verdict, ReplyPart.isNamed, takeParts, takePart, hname]

theorem takeNamed_of_named (w : Workspace) {parts : List ReplyPart}
    (h : ∀ part ∈ parts, part.isNamed = true) :
    w.takeNamed parts = (.ok (), w.takeParts parts) := by
  unfold takeNamed
  rw [ReplyPart.verdict_of_named h, List.takeWhile_eq_self_iff.mpr h]

theorem takeNamed_append (w : Workspace) (parts rest : List ReplyPart) :
    w.takeNamed (parts ++ rest)
      = match w.takeNamed parts with
        | (.error e, w) => (.error e, w)
        | (.ok (), w) => w.takeNamed rest := by
  induction parts generalizing w with
  | nil => rfl
  | cons part parts ih =>
    cases part with
    | nothing id => exact ih (w.markMissing id)
    | document fields =>
      rw [List.cons_append, takeNamed_document, takeNamed_document]
      split
      · rfl
      · exact ih _

theorem registerAll_eq_takeNamed (w : Workspace) (documents : List Fields) :
    w.registerAll documents = w.takeNamed (documents.map .document) := by
  induction documents generalizing w with
  | nil => rfl
  | cons document rest ih =>
    rw [registerAll, List.map_cons, takeNamed_document]
    rcases w.register document with ⟨_ | _, w₁⟩
    · rfl
    · exact ih w₁

theorem takeDocuments_eq_takeNamed (w : Workspace) (ids : List String)
    (results : List (Option Fields)) :
    w.takeDocuments ids results = w.takeNamed (List.zipWith .inPlace ids results) := by
  induction ids generalizing w results with
  | nil => rfl
  | cons id ids ih =>
    cases results with
    | nil => rfl
    | cons result results =>
      cases result with
      | none => exact ih (w.markMissing id) results
      | some document =>
        rw [List.zipWith_cons_cons, ReplyPart.inPlace, takeNamed_document, takeDocuments]
        rcases w.register document with ⟨_ | _, w₁⟩
        · rfl
        · exact ih w₁ results

theorem takeLoad_eq_takeNamed (w : Workspace) (ids : List String) (reply : LoadReply) :
    w.takeLoad ids reply = w.takeNamed
      (reply.includes.map .document ++ List.zipWith .inPlace ids reply.results) := by
  rw [takeNamed_append, ← registerAll_eq_takeNamed]
  unfold takeLoad
  rcases w.registerAll reply.includes with ⟨_ | _, w₁⟩
  · rfl
  · exact takeDocuments_eq_takeNamed w₁ ids reply.results

/-! ## Documents of known and of new identifiers -/

theorem register_of_known {document : Fields} {id : String} {key : RecordKey}
    (hid : documentId document = some id) (hkey : w.work.identities.get? id = some key) :
    w.register document = (.ok key,
      w.refreshRecord key (Metadata.split document).1 (Metadata.split document).2) := by
  unfold documentId at hid
  unfold register
  dsimp only
  rw [hid]
  dsimp only
  rw [hkey]

theorem register_of_new {document : Fields} {id : String} (hid : documentId document = some id)
    (hnew : w.work.identities.get? id = none) :
    w.register document = (.ok w.work.nextKey,
      (w.addLoaded id (Metadata.split document).1 (Metadata.split document).2).2) := by
  unfold documentId at hid
  unfold register
  dsimp only
  rw [hid]
  dsimp only
  rw [hnew]
  rfl

/-- `refreshRecord` refreshes the record `key`, and no other. -/
theorem find?_refreshRecord (w : Workspace) (key : RecordKey) (document : Fields)
    (key' : RecordKey) :
    (w.refreshRecord key (Metadata.split document).1 (Metadata.split document).2).work.records.find?
        key'
      = if key = key' then (w.work.records.find? key').map (·.renewed [document])
        else w.work.records.find? key' := by
  unfold refreshRecord
  split
  · next r hr =>
    split
    · next hheld =>
      split
      · next heq =>
        subst heq
        rw [hr, Option.map_some, Record.renewed, List.foldl_cons, List.foldl_nil, if_pos hheld]
      · rfl
    · next hfree =>
      refine (Keyed.find?_modify w.work.records key
        (·.refreshed (Metadata.split document).1 (Metadata.split document).2) key').trans ?_
      split
      · next heq =>
        subst heq
        rw [hr, Option.map_some, Option.map_some, Record.renewed, List.foldl_cons, List.foldl_nil,
          if_neg hfree]
      · rfl
  · next hnone =>
    split
    · next heq =>
      subst heq
      rw [hnone]
      rfl
    · rfl

/-- A document that is registered has a record. -/
theorem record_of_register (hw : w.Consistent) {document : Fields} {key : RecordKey}
    (h : w.register document = (.ok key, w')) : (w'.work.records.find? key).isSome = true := by
  cases hid : documentId document with
  | none =>
    rw [w.register_of_unnamed hid] at h
    cases (Prod.mk.inj h).1
  | some id =>
    cases hkey : w.work.identities.get? id with
    | none =>
      rw [register_of_new hid hkey] at h
      obtain ⟨hanswer, rfl⟩ := Prod.mk.inj h
      obtain rfl := Except.ok.inj hanswer
      show ((w.work.records.insert w.work.nextKey _).find? w.work.nextKey).isSome = true
      rw [Keyed.find?_insert, if_pos rfl]
      rfl
    | some key' =>
      rw [register_of_known hid hkey] at h
      obtain ⟨hanswer, rfl⟩ := Prod.mk.inj h
      obtain rfl := Except.ok.inj hanswer
      obtain ⟨r, hr, -⟩ := hw.record_of_get? hkey
      rw [find?_refreshRecord, if_pos rfl, hr]
      rfl

/-! ## Replies that change nothing -/

/-- Two workspaces have the same records and indexes, up to the order of `missing`. -/
structure SameKnowledge (w w' : Workspace) : Prop where
  records : w'.work.records = w.work.records
  identities : w'.work.identities = w.work.identities
  registry : w'.work.registry = w.work.registry
  missing : ∀ id, w'.work.missing.contains id = w.work.missing.contains id

/-- The documents among `parts` whose identifier has the record `key`. -/
def documentsOf (w : Workspace) (key : RecordKey) (parts : List ReplyPart) : List Fields :=
  parts.filterMap fun
    | .document fields =>
      if (documentId fields).bind w.work.identities.get? = some key then some fields else none
    | .nothing _ => none

/-- Every document among `parts` has a record. -/
def HasRecords (w : Workspace) (parts : List ReplyPart) : Prop :=
  ∀ fields, .document fields ∈ parts →
    ∃ key, (documentId fields).bind w.work.identities.get? = some key

/-- The documents among `parts` have records that they leave as they are, and the identifiers
without document are in `missing`. -/
structure LearnsNothing (w : Workspace) (parts : List ReplyPart) : Prop where
  hasRecords : w.HasRecords parts
  absent : ∀ id, .nothing id ∈ parts → w.work.missing.contains id = true
  current : ∀ key r, w.work.records.find? key = some r →
    r.renewed (w.documentsOf key parts) = r

/-- From `w` to `w'` the documents among `parts` refresh their records, and nothing else changes. -/
structure OnlyRenews (w : Workspace) (parts : List ReplyPart) (w' : Workspace) : Prop where
  identities : w'.work.identities = w.work.identities
  records : ∀ key, w'.work.records.find? key
    = (w.work.records.find? key).map (·.renewed (w.documentsOf key parts))
  missing : ∀ id, w'.work.missing.contains id = true
    ↔ w.work.missing.contains id = true ∨ ∃ id', .nothing id' ∈ parts ∧ normalize id' = normalize id

theorem consistent_takePart (hw : w.Consistent) (part : ReplyPart) :
    (w.takePart part).Consistent := by
  cases part with
  | document fields => exact hw.register fields
  | nothing id => exact hw.markMissing id

theorem consistent_takeParts (hw : w.Consistent) (parts : List ReplyPart) :
    (w.takeParts parts).Consistent := by
  induction parts generalizing w with
  | nil => exact hw
  | cons part rest ih => exact ih (consistent_takePart hw part)

theorem registry_takeParts (w : Workspace) (parts : List ReplyPart) :
    (w.takeParts parts).work.registry = w.work.registry := by
  induction parts generalizing w with
  | nil => rfl
  | cons part rest ih =>
    refine (ih (w.takePart part)).trans ?_
    cases part with
    | document fields =>
      show (w.register fields).2.work.registry = _
      unfold register refreshRecord
      dsimp only
      repeat' split
      all_goals rfl
    | nothing id => rfl

/-- `refreshRecord` changes nothing of the unit of work but `records`. -/
theorem refreshRecord_frame (w : Workspace) (key : RecordKey) (body metadata : Fields) :
    ∃ records, (w.refreshRecord key body metadata).work = { w.work with records } := by
  unfold refreshRecord
  split
  · split
    · exact ⟨_, rfl⟩
    · exact ⟨_, rfl⟩
  · exact ⟨_, rfl⟩

theorem onlyRenews_takeParts {parts : List ReplyPart} (h : w.HasRecords parts) :
    w.OnlyRenews parts (w.takeParts parts) := by
  induction parts generalizing w with
  | nil => exact ⟨rfl, fun key => Option.map_id'.symm, by simp [takeParts]⟩
  | cons part rest ih =>
    have hrest : w.HasRecords rest := fun fields hmem => h fields (List.mem_cons_of_mem _ hmem)
    cases part with
    | nothing id =>
      have hrenews : (w.markMissing id).OnlyRenews rest ((w.markMissing id).takeParts rest) :=
        ih hrest
      refine ⟨hrenews.identities, hrenews.records, ?_⟩
      intro id'
      refine (hrenews.missing id').trans ?_
      rw [show (w.markMissing id).work.missing.contains id' = true
        ↔ normalize id = normalize id' ∨ w.work.missing.contains id' = true by
          refine iff_of_eq (congrArg (· = true) (KnownMissing.contains_insert ..)) |>.trans ?_
          simp]
      simp only [List.mem_cons, ReplyPart.nothing.injEq]
      constructor
      · rintro ((hid | hmissing) | ⟨id'', hmem, hid⟩)
        · exact Or.inr ⟨id, Or.inl rfl, hid⟩
        · exact Or.inl hmissing
        · exact Or.inr ⟨id'', Or.inr hmem, hid⟩
      · rintro (hmissing | ⟨id'', rfl | hmem, hid⟩)
        · exact Or.inl (Or.inr hmissing)
        · exact Or.inl (Or.inl hid)
        · exact Or.inr ⟨id'', hmem, hid⟩
    | document fields =>
      obtain ⟨key, hfound⟩ := h fields (List.mem_cons_self ..)
      obtain ⟨id, hid, hkey⟩ := Option.bind_eq_some_iff.mp hfound
      have hpart : w.takeParts (.document fields :: rest)
          = (w.refreshRecord key (Metadata.split fields).1 (Metadata.split fields).2).takeParts
            rest :=
        congrArg (takeParts · rest) (congrArg Prod.snd (register_of_known hid hkey))
      have hfind := w.find?_refreshRecord key fields
      obtain ⟨records, hframe⟩ := w.refreshRecord_frame key (Metadata.split fields).1
        (Metadata.split fields).2
      rw [hpart]
      generalize w.refreshRecord key (Metadata.split fields).1 (Metadata.split fields).2 = w₁
        at hfind hframe
      have hidentities : w₁.work.identities = w.work.identities := by rw [hframe]
      have hmissing : w₁.work.missing = w.work.missing := by rw [hframe]
      have hrenews : w₁.OnlyRenews rest (w₁.takeParts rest) := by
        refine ih ?_
        unfold HasRecords
        rw [hidentities]
        exact hrest
      refine ⟨hrenews.identities.trans hidentities, ?_, ?_⟩
      · intro key'
        rw [hrenews.records, hfind]
        have hdocuments : w₁.documentsOf key' rest = w.documentsOf key' rest := by
          unfold documentsOf
          rw [hidentities]
        rw [hdocuments]
        -- the document itself comes first, where it leads to the record
        unfold documentsOf
        rw [List.filterMap_cons]
        dsimp only
        rw [hfound]
        by_cases heq : key = key'
        · subst heq
          rw [if_pos rfl, if_pos rfl, Option.map_map]
          rfl
        · rw [if_neg heq, if_neg (fun hsome => heq (Option.some.inj hsome))]
      · intro id'
        rw [hrenews.missing, hmissing]
        simp

theorem isSome_get?_takePart {id : String} (h : (w.work.identities.get? id).isSome = true)
    (part : ReplyPart) : ((w.takePart part).work.identities.get? id).isSome = true := by
  cases part with
  | nothing id' => exact h
  | document fields =>
    show ((w.register fields).2.work.identities.get? id).isSome = true
    unfold register
    dsimp only
    split
    · exact h
    · next own _ =>
      split
      · obtain ⟨records, hframe⟩ := w.refreshRecord_frame _ (Metadata.split fields).1
          (Metadata.split fields).2
        rw [hframe]
        exact h
      · show ((w.work.identities.insert own w.work.nextKey).get? id).isSome = true
        rw [IdentityMap.get?_insert]
        split
        · rfl
        · exact h

theorem isSome_get?_takeParts {id : String} (h : (w.work.identities.get? id).isSome = true)
    (parts : List ReplyPart) : ((w.takeParts parts).work.identities.get? id).isSome = true := by
  induction parts generalizing w with
  | nil => exact h
  | cons part rest ih => exact ih (isSome_get?_takePart h part)

/-- A document among the registered parts has a record. -/
theorem isSome_get?_of_mem {parts : List ReplyPart} {fields : Fields} {id : String}
    (hmem : .document fields ∈ parts) (hid : documentId fields = some id) :
    ((w.takeParts parts).work.identities.get? id).isSome = true := by
  induction parts generalizing w with
  | nil => cases hmem
  | cons part rest ih =>
    rcases List.mem_cons.mp hmem with rfl | hmem
    · refine isSome_get?_takeParts ?_ rest
      show ((w.register fields).2.work.identities.get? id).isSome = true
      cases hkey : w.work.identities.get? id with
      | none =>
        rw [register_of_new hid hkey]
        show ((w.work.identities.insert id w.work.nextKey).get? id).isSome = true
        rw [IdentityMap.get?_insert, if_pos rfl]
        rfl
      | some key =>
        rw [register_of_known hid hkey]
        obtain ⟨records, hframe⟩ := w.refreshRecord_frame key (Metadata.split fields).1
          (Metadata.split fields).2
        rw [hframe]
        exact Option.isSome_of_eq_some hkey
    · exact ih hmem

/-- Registering `parts` keeps what the workspace knows if and only if `w.LearnsNothing parts`. -/
theorem sameKnowledge_takeParts_iff (hw : w.Consistent) {parts : List ReplyPart}
    (hnamed : ∀ part ∈ parts, part.isNamed = true) :
    w.SameKnowledge (w.takeParts parts) ↔ w.LearnsNothing parts := by
  constructor
  · intro hsame
    have hrecords : w.HasRecords parts := by
      intro fields hmem
      obtain ⟨id, hid⟩ := Option.isSome_iff_exists.mp (hnamed _ hmem)
      have hkey := isSome_get?_of_mem (w := w) hmem hid
      rw [hsame.identities] at hkey
      obtain ⟨key, hkey⟩ := Option.isSome_iff_exists.mp hkey
      exact ⟨key, by rw [hid]; exact hkey⟩
    have hrenews := onlyRenews_takeParts hrecords
    refine ⟨hrecords, ?_, ?_⟩
    · intro id hmem
      rw [← hsame.missing]
      exact (hrenews.missing id).mpr (Or.inr ⟨id, hmem, rfl⟩)
    · intro key r hr
      have hrecord := hrenews.records key
      rw [hsame.records, hr] at hrecord
      exact (Option.some.inj hrecord).symm
  · intro hnothing
    have hrenews := onlyRenews_takeParts hnothing.hasRecords
    refine ⟨?_, hrenews.identities, registry_takeParts w parts, ?_⟩
    · refine Keyed.eq_of_find?_eq (consistent_takeParts hw parts).records_sorted
        hw.records_sorted ?_
      intro key
      rw [hrenews.records]
      cases hr : w.work.records.find? key with
      | none => rfl
      | some r => exact congrArg some (hnothing.current key r hr)
    · intro id
      rw [Bool.eq_iff_iff, hrenews.missing]
      constructor
      · rintro (hmissing | ⟨id', hmem, hid⟩)
        · exact hmissing
        · have hmissing := hnothing.absent id' hmem
          unfold KnownMissing.contains at hmissing ⊢
          rw [← hid]
          exact hmissing
      · exact Or.inl

end Workspace

end DocumentSession
