import DocumentSession.Proofs.Run
import DocumentSession.Proofs.Versions

set_option autoImplicit false

/-! # The versions that a save brings in

The result of a command tells the change vector that its document has now (`Accepts`). Settling a
PUT puts the body that was sent and this change vector into the record together, and so does a PATCH
with a `ModifiedDocument`. For other deferred commands only the change vector is set, beside the
body that the record had (`NotesVersion`).

So a run of results brings in pairs of body and change vector that are versions of their documents,
and beside them only the pairs of these commands (`SettlesAll.learns`). -/

namespace DocumentSession

open Identifier (normalize)

namespace Workspace

variable {V : Versions} {w w' : Workspace}

/-! ## Results of commands -/

/-- The change vector in `result` is, with the body that was written or the `ModifiedDocument`, a
version of the document. -/
def Accepts (V : Versions) (command : Command) (result : Fields) : Prop :=
  match command.action with
  | .put document =>
    ∀ id version, resultId result = some id → Record.changeVectorOf result = some version →
      V (normalize id) (Metadata.split document).1 version
  | .delete => True
  | .patch .. =>
    ∀ document, resultDocument result = some document →
      ∃ version,
        (Record.changeVectorOf (Metadata.split document).2).or (resultVersion result)
            = some version
          ∧ V (normalize command.id) (Metadata.split document).1 version

/-- A planned command with a well-formed result that is its own and tells a version of its
document. -/
structure Answered (V : Versions) (planned : Planned) (result : Fields) : Prop where
  carries : Carries planned
  accepts : Accepts V planned.command result
  wellFormed : (Json.obj result).isWellFormed = true
  named : planned.command.kind = .put →
    (resultId result).isSome = true ∧ (Record.changeVectorOf result).isSome = true

/-- Settling the result sets the change vector beside an old body: a deferred PUT, or a deferred
PATCH without `ModifiedDocument` or with one that cannot be decoded. -/
inductive NotesVersion (planned : Planned) (result : Fields) (failed : Prop) (id version : String) :
    Prop where
  | put (horigin : planned.origin = .deferred) (hkind : planned.command.kind = .put)
    (hid : normalize planned.command.id = id)
    (hversion : Record.changeVectorOf result = some version)
  | patch (horigin : planned.origin = .deferred) (hkind : planned.command.kind = .patch)
    (hid : normalize planned.command.id = id) (hversion : resultVersion result = some version)
    (hdocument : resultDocument result = none ∨ failed)

theorem NotesVersion.mono {planned : Planned} {result : Fields} {failed failed' : Prop}
    {id version : String} (h : NotesVersion planned result failed id version)
    (himp : failed → failed') : NotesVersion planned result failed' id version := by
  cases h with
  | put horigin hkind hid hversion => exact .put horigin hkind hid hversion
  | patch horigin hkind hid hversion hdocument =>
    exact .patch horigin hkind hid hversion (hdocument.imp_right himp)

/-! ## Settling one result -/

/-- A record whose entity was saved shows a version of its document. -/
theorem Answered.isTrue_saved {planned : Planned} {result : Fields}
    (hanswered : Answered V planned result) {key : RecordKey} {body metadata : Fields}
    (horigin : planned.origin = .put key body metadata) {id : String}
    (hid : resultId result = some id) (r : Record) :
    (r.saved id body (overlayResult metadata result)).IsTrue V := by
  obtain ⟨document, haction, hsplit⟩ := hanswered.carries key body metadata horigin
  have hkind : planned.command.kind = .put := by
    unfold Command.kind
    rw [haction]
  obtain ⟨version, hversion⟩ := Option.isSome_iff_exists.mp (hanswered.named hkind).2
  have haccepts := hanswered.accepts
  unfold Accepts at haccepts
  rw [haction] at haccepts
  have htrue := haccepts id version hid hversion
  rw [hsplit] at htrue
  have htold : Record.changeVectorOf (overlayResult metadata result) = some version :=
    changeVectorOf_overlayResult hanswered.wellFormed hversion
  exact .of_body rfl (r.changeVector_withMetadata htold) htrue

/-- A record that took a `ModifiedDocument` shows a version of its document. -/
theorem Answered.isTrue_scripted {planned : Planned} {result document : Fields}
    (hanswered : Answered V planned result) (hkind : planned.command.kind = .patch)
    (hdocument : resultDocument result = some document) {r : Record}
    (hid : normalize r.id = normalize planned.command.id) :
    ((r.atVersion (resultVersion result)).scripted (Metadata.split document).1
      (Metadata.split document).2).IsTrue V := by
  have haccepts := hanswered.accepts
  unfold Accepts at haccepts
  split at haccepts
  · next haction =>
    unfold Command.kind at hkind
    rw [haction] at hkind
    cases hkind
  · next haction =>
    unfold Command.kind at hkind
    rw [haction] at hkind
    cases hkind
  · obtain ⟨version, hversion, htrue⟩ := haccepts document hdocument
    rw [← hid] at htrue
    -- with or without metadata, the version is the one that is told
    unfold Record.scripted
    split
    · next hempty =>
      rw [hempty] at hversion
      replace hversion : resultVersion result = some version := hversion
      refine .of_body rfl ?_ htrue
      show (resultVersion result).or r.changeVector = some version
      rw [hversion]
      rfl
    · refine .of_body rfl ?_ htrue
      show (Record.changeVectorOf (Metadata.split document).2).or
        ((resultVersion result).or r.changeVector) = some version
      rw [← Option.or_assoc, hversion]
      rfl

/-- A record with a new change vector shows what it showed before, or its body at that version. -/
theorem learns_atVersion {r : Record} {version? : Option String}
    (hversion : ∀ body version, version? = some version → V (normalize r.id) body version) :
    r.Learns V (r.atVersion version?) := by
  cases version? with
  | none => exact .of_same rfl rfl rfl
  | some version =>
    have htrue : (r.atVersion (some version)).IsTrue V :=
      .of_version rfl fun body _ => hversion body version rfl
    exact htrue.learns

/-- Settling a result brings in a version of the document, or sets the change vector beside an old
body. -/
theorem Settles.learns {planned : Planned} {result : Fields} {answer : Except Error Unit}
    (hsettles : w.Settles planned result answer w') (h : w.Consistent)
    (hanswered : Answered V planned result) :
    w.Learns (fun id body version => V id body version
      ∨ NotesVersion planned result (answer ≠ .ok ()) id version) w' := by
  cases hsettles with
  | unnamed _ _ => exact .refl w
  | goneBeforePut _ _ => exact .refl w
  | goneBeforeDelete _ _ => exact .refl w
  | @saved key body metadata r id horigin hr hid _ =>
    have htrue := hanswered.isTrue_saved horigin hid r
    exact .modify hr (·.saved id body (overlayResult metadata result)) rfl
      (htrue.mono fun _ _ _ => Or.inl).learns
  | @replaced key body metadata r id other replaced horigin hr hid _ hne _ =>
    have htrue := hanswered.isTrue_saved horigin hid r
    have hforgotten : ∀ V', w.Learns V' { w with work := w.work.withoutRecord other replaced } :=
      fun _ => Keyed.Develops.erase _ other
    have hr' : (w.work.records.erase other).find? key = some r := by
      rw [Keyed.find?_erase, if_neg hne]
      exact hr
    exact (hforgotten _).trans
      (.modify hr' (·.saved id body (overlayResult metadata result)) rfl
        (htrue.mono fun _ _ _ => Or.inl).learns)
  | @deleted key _ _ _ => exact Keyed.Develops.erase _ key
  | @overwritten key r horigin hkind hfound =>
    obtain ⟨hr, hid⟩ := h.record_of_recordForId? hfound
    obtain ⟨version, hversion⟩ := Option.isSome_iff_exists.mp (hanswered.named hkind).2
    have htold : Record.changeVectorOf (overlayResult r.metadata result) = some version :=
      changeVectorOf_overlayResult hanswered.wellFormed hversion
    refine .modify hr (fun r => r.overwritten (overlayResult r.metadata result)) rfl
      (Record.IsTrue.learns ?_)
    exact .of_version (r.changeVector_withMetadata htold) fun _ _ =>
      Or.inr (.put horigin hkind hid.symm hversion)
  | written _ _ _ => exact .of_records rfl
  | @dropped key _ _ _ _ _ => exact Keyed.Develops.erase _ key
  | noted _ _ _ => exact .of_records rfl
  | unknown _ _ _ => exact .refl w
  | @versioned key r horigin hkind hfound hdocument =>
    obtain ⟨hr, hid⟩ := h.record_of_recordForId? hfound
    exact .modify hr (·.atVersion (resultVersion result)) rfl (learns_atVersion fun _ _ hversion =>
      Or.inr (.patch horigin hkind hid.symm hversion (Or.inl hdocument)))
  | @unfit key r e horigin hkind hfound _ =>
    obtain ⟨hr, hid⟩ := h.record_of_recordForId? hfound
    exact .modify hr (·.atVersion (resultVersion result)) rfl (learns_atVersion fun _ _ hversion =>
      Or.inr (.patch horigin hkind hid.symm hversion (Or.inr nofun)))
  | @scripted key r document shared _ hkind hfound hdocument _ =>
    obtain ⟨hr, hid⟩ := h.record_of_recordForId? hfound
    have htrue := hanswered.isTrue_scripted hkind hdocument hid
    -- the record is changed twice, and shows a version of its document only after the second time
    exact .modify hr _
      (Keyed.modify_modify w.work.records key (·.atVersion (resultVersion result))
        (·.scripted (Metadata.split document).1 (Metadata.split document).2))
      (htrue.mono fun _ _ _ => Or.inl).learns

/-! ## Settling a reply -/

/-- A run of results brings in versions of documents, and the pairs of the commands in
`NotesVersion`. -/
theorem SettlesAll.learns {pairs : List (Planned × Fields)} {answers : List (Except Error Unit)}
    (hrun : w.SettlesAll pairs answers w') (h : w.Consistent)
    (hanswered : ∀ pair ∈ pairs, Answered V pair.1 pair.2) :
    w.Learns (fun id body version => V id body version
      ∨ ∃ pair ∈ pairs, NotesVersion pair.1 pair.2 (∃ answer ∈ answers, answer ≠ .ok ()) id version)
      w' := by
  induction hrun with
  | nil w => exact .refl w
  | @cons w w₁ w' planned result answer pairs answers first others ih =>
    obtain ⟨hfirst, hrest⟩ := List.forall_mem_cons.mp hanswered
    refine Learns.trans ((first.learns h hfirst).mono ?_) ((ih (h.settles first) hrest).mono ?_)
    · rintro id body version (htrue | hnotes)
      · exact Or.inl htrue
      · exact Or.inr ⟨_, List.mem_cons_self .., hnotes.mono fun hfailed =>
          ⟨answer, List.mem_cons_self .., hfailed⟩⟩
    · rintro id body version (htrue | ⟨pair, hmem, hnotes⟩)
      · exact Or.inl htrue
      · refine Or.inr ⟨pair, List.mem_cons_of_mem _ hmem, hnotes.mono ?_⟩
        exact fun ⟨answer, hanswer, hfailed⟩ => ⟨answer, List.mem_cons_of_mem _ hanswer, hfailed⟩

/-- `announce` changes nothing of the unit of work, and keeps a failure. -/
theorem announce_work (w : Workspace) (callbacks : Callbacks) (failure : Option Error)
    (keys : List RecordKey) :
    (w.announce callbacks failure keys).2.work = w.work
      ∧ ((w.announce callbacks failure keys).1 = none → failure = none) := by
  induction keys generalizing w failure with
  | nil => exact ⟨rfl, id⟩
  | cons key rest ih =>
    rw [announce]
    split
    · exact ih w failure
    · dsimp only
      obtain ⟨hwork, hnone⟩ := ih { w with shared := _ } (firstError failure _)
      refine ⟨hwork, fun hdone => ?_⟩
      have hfirst := hnone hdone
      unfold firstError at hfirst
      split at hfirst
      · exact (Option.or_eq_none_iff.mp hfirst).1
      · exact hfirst

/-- `settle` brings in versions of documents, and the pairs of the commands in `NotesVersion`. -/
theorem learns_settle (h : w.Consistent) (callbacks : Callbacks) {plan : Plan}
    {answer : Option Json} {results : List Fields}
    (hresults : resultsFor plan answer = .ok results)
    (hanswered : ∀ pair ∈ plan.zip results, Answered V pair.1 pair.2) :
    w.Learns (fun id body version => V id body version
      ∨ ∃ pair ∈ plan.zip results,
        NotesVersion pair.1 pair.2 ((w.settle callbacks plan answer).1 ≠ .ok ()) id version)
      (w.settle callbacks plan answer).2 := by
  obtain ⟨answers, hrun, hfailure⟩ := settleAll_settlesAll h none plan results
  unfold settle
  rw [hresults]
  dsimp only
  rcases hall : w.settleAll none plan results with ⟨failure, w₁⟩
  rw [hall] at hrun hfailure
  dsimp only at hrun hfailure ⊢
  obtain ⟨hwork, hnone⟩ := announce_work { w₁ with work := { w₁.work with deferred := [] } }
    callbacks failure (savedRecords plan)
  have hrecords : ∀ V', w₁.Learns V' (announce { w₁ with work := { w₁.work with deferred := [] } }
      callbacks failure (savedRecords plan)).2 :=
    fun _ => .of_records ((congrArg UnitOfWork.records hwork).trans rfl)
  refine Learns.trans ((hrun.learns h hanswered).mono ?_) (hrecords _)
  rintro id body version (htrue | ⟨pair, hmem, hnotes⟩)
  · exact Or.inl htrue
  · refine Or.inr ⟨pair, hmem, hnotes.mono ?_⟩
    -- a save that succeeds has settled every result well
    rintro ⟨answer, hanswer, hfailed⟩ hok
    refine hfailed (foldl_firstError_eq_none.mp ?_ answer hanswer)
    rw [← hfailure]
    refine hnone ?_
    cases hdone : (announce { w₁ with work := { w₁.work with deferred := [] } } callbacks failure
      (savedRecords plan)).1 with
    | none => rfl
    | some e =>
      rw [hdone] at hok
      cases hok

end Workspace

end DocumentSession
