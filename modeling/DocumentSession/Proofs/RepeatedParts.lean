import DocumentSession.Proofs.ReplyParts

set_option autoImplicit false

/-! # Identifiers that repeat in an answer

When an identifier is asked for twice, the server answers it twice with the same document. A part
that `takePart` took in once is absorbed: it would change nothing if it came again
(`Workspace.takePart_of_absorbs`), and that stays so while other documents are taken in
(`Workspace.Absorbs.takePart`). So `takeParts` of the places of some identifiers is `takeParts` of
their places without repetitions (`Workspace.takeParts_eraseDups`). -/

namespace DocumentSession

open Identifier (normalize)

/-- `renewed` by one document twice is `renewed` by it once. -/
theorem Record.renewed_renewed (r : Record) (document : Fields) :
    (r.renewed [document]).renewed [document] = r.renewed [document] := by
  simp only [renewed, List.foldl_cons, List.foldl_nil]
  by_cases hheld : r.entity.isSome = true
  · simp only [hheld, if_true]
  · rw [if_neg hheld]
    split
    · rfl
    · simp [refreshed, withMetadata, ← Option.or_assoc]

theorem Record.renewed_loaded (id : String) (document : Fields) :
    (Record.loaded id (Metadata.split document).1 (Metadata.split document).2).renewed [document]
      = Record.loaded id (Metadata.split document).1 (Metadata.split document).2 := by
  simp [renewed, loaded, refreshed, withMetadata]

/-- A record that `renewed` leaves as it is has an instance, or no dictionary. -/
theorem Record.of_renewed_eq {r : Record} {document : Fields} (h : r.renewed [document] = r) :
    r.entity.isSome = true
      ∨ (r.refreshed (Metadata.split document).1 (Metadata.split document).2 = r
        ∧ r.dictionary = none) := by
  by_cases hheld : r.entity.isSome = true
  · exact Or.inl hheld
  · simp only [renewed, List.foldl_cons, List.foldl_nil, if_neg hheld] at h
    exact Or.inr ⟨h, by rw [← h]; rfl⟩

namespace Workspace

variable {w : Workspace} {id id' : String} {result result' : Option Fields}

/-- `takePart` of this document in the place of `id` would change nothing: the record of the
document is as the document says, or `id` is already missing. -/
def Absorbs (w : Workspace) (id : String) : Option Fields → Prop
  | none => w.work.missing.insert id = w.work.missing
  | some document => ∃ key r, (documentId document).bind w.work.identities.get? = some key
    ∧ w.work.records.find? key = some r ∧ r.renewed [document] = r

theorem Absorbs.congr (h : w.Absorbs id result) (hid : normalize id = normalize id') :
    w.Absorbs id' result := by
  cases result with
  | none =>
    have hinsert : w.work.missing.insert id' = w.work.missing.insert id := by
      unfold KnownMissing.insert
      rw [hid]
    exact hinsert.trans h
  | some document => exact h

theorem takePart_of_absorbs (hw : w.Consistent) (h : w.Absorbs id result) :
    w.takePart (.inPlace id result) = w := by
  cases result with
  | none =>
    show { w with work := { w.work with missing := w.work.missing.insert id } } = w
    rw [show w.work.missing.insert id = w.work.missing from h]
  | some document =>
    obtain ⟨key, r, hfound, hr, hrenewed⟩ := h
    obtain ⟨own, hown, hkey⟩ := Option.bind_eq_some_iff.mp hfound
    refine (congrArg Prod.snd (register_of_known hown hkey)).trans ?_
    show w.refreshRecord key _ _ = w
    unfold refreshRecord
    rw [hr]
    dsimp only
    rcases Record.of_renewed_eq hrenewed with hheld | ⟨hsame, hclosed⟩
    · rw [if_pos hheld]
    · split
      · rfl
      · have hrecords : Keyed.modify w.work.records key
            (·.refreshed (Metadata.split document).1 (Metadata.split document).2)
              = w.work.records := by
          refine Keyed.eq_of_find?_eq (Keyed.sorted_modify hw.records_sorted key _)
            hw.records_sorted ?_
          intro key'
          rw [Keyed.find?_modify]
          split
          · next heq =>
            subst heq
            rw [hr, Option.map_some, hsame]
          · rfl
        have hshared : w.shared.release r = w.shared := by
          unfold Shared.release Record.releaseDictionary
          rw [hclosed]
          rfl
        unfold UnitOfWork.modifyRecord
        rw [hrecords, hshared]

/-- What `takePart` took in is absorbed. -/
theorem absorbs_takePart (hw : w.Consistent) (hown : IsOwn id result) :
    (w.takePart (.inPlace id result)).Absorbs id result := by
  cases result with
  | none =>
    show (w.work.missing.insert id).insert id = w.work.missing.insert id
    unfold KnownMissing.insert
    rw [Keyed.insert_insert_self]
  | some document =>
    obtain ⟨own, hdocument, -⟩ := Option.map_eq_some_iff.mp (hown document rfl)
    cases hkey : w.work.identities.get? own with
    | none =>
      have hpart : w.takePart (.inPlace id (some document))
          = (w.addLoaded own (Metadata.split document).1 (Metadata.split document).2).2 :=
        congrArg Prod.snd (register_of_new hdocument hkey)
      rw [hpart]
      refine ⟨w.work.nextKey, _, ?_, ?_, Record.renewed_loaded own document⟩
      · rw [hdocument]
        exact (IdentityMap.get?_insert ..).trans (if_pos rfl)
      · exact (Keyed.find?_insert ..).trans (if_pos rfl)
    | some key =>
      have hpart : w.takePart (.inPlace id (some document))
          = w.refreshRecord key (Metadata.split document).1 (Metadata.split document).2 :=
        congrArg Prod.snd (register_of_known hdocument hkey)
      rw [hpart]
      obtain ⟨r, hr, -⟩ := hw.record_of_get? hkey
      obtain ⟨records, hframe⟩ := w.refreshRecord_frame key (Metadata.split document).1
        (Metadata.split document).2
      refine ⟨key, r.renewed [document], ?_, ?_, r.renewed_renewed document⟩
      · rw [hframe, hdocument]
        exact hkey
      · rw [find?_refreshRecord, if_pos rfl, hr]
        rfl

/-- What is absorbed stays so after `takePart` of another identifier. -/
theorem Absorbs.takePart (h : w.Absorbs id result) (hw : w.Consistent)
    (hne : normalize id ≠ normalize id') (hown : IsOwn id result) (hown' : IsOwn id' result') :
    (w.takePart (.inPlace id' result')).Absorbs id result := by
  cases result' with
  | none =>
    cases result with
    | none =>
      show (w.work.missing.insert id').insert id = w.work.missing.insert id'
      have hsame : Keyed.insert w.work.missing.ids (normalize id) () = w.work.missing.ids :=
        congrArg KnownMissing.ids h
      unfold KnownMissing.insert
      rw [Keyed.insert_insert_of_insert hne hsame]
    | some document => exact h
  | some document' =>
    obtain ⟨own', hdocument', hid'⟩ := Option.map_eq_some_iff.mp (hown' document' rfl)
    cases hkey' : w.work.identities.get? own' with
    | none =>
      have hpart : w.takePart (.inPlace id' (some document'))
          = (w.addLoaded own' (Metadata.split document').1 (Metadata.split document').2).2 :=
        congrArg Prod.snd (register_of_new hdocument' hkey')
      rw [hpart]
      cases result with
      | none =>
        show (w.work.missing.remove own').insert id = w.work.missing.remove own'
        have hsame : Keyed.insert w.work.missing.ids (normalize id) () = w.work.missing.ids :=
          congrArg KnownMissing.ids h
        unfold KnownMissing.insert KnownMissing.remove
        dsimp only
        rw [hid', Keyed.insert_erase_of_insert hne hsame]
      | some document =>
        obtain ⟨key, r, hfound, hr, hrenewed⟩ := h
        obtain ⟨own, hdocument, hkey⟩ := Option.bind_eq_some_iff.mp hfound
        obtain ⟨_, hdocument₁, hid⟩ := Option.map_eq_some_iff.mp (hown document rfl)
        obtain rfl := Option.some.inj (hdocument.symm.trans hdocument₁)
        refine ⟨key, r, ?_, ?_, hrenewed⟩
        · rw [hdocument]
          refine (IdentityMap.get?_insert ..).trans ((if_neg ?_).trans hkey)
          rw [hid, hid']
          exact hne.symm
        · refine (Keyed.find?_insert ..).trans ((if_neg ?_).trans hr)
          exact Nat.ne_of_gt (hw.fresh key r hr)
    | some key' =>
      have hpart : w.takePart (.inPlace id' (some document'))
          = w.refreshRecord key' (Metadata.split document').1 (Metadata.split document').2 :=
        congrArg Prod.snd (register_of_known hdocument' hkey')
      rw [hpart]
      obtain ⟨records, hframe⟩ := w.refreshRecord_frame key' (Metadata.split document').1
        (Metadata.split document').2
      cases result with
      | none =>
        show (w.refreshRecord key' _ _).work.missing.insert id = _
        rw [hframe]
        exact h
      | some document =>
        obtain ⟨key, r, hfound, hr, hrenewed⟩ := h
        obtain ⟨own, hdocument, hkey⟩ := Option.bind_eq_some_iff.mp hfound
        obtain ⟨_, hdocument₁, hid⟩ := Option.map_eq_some_iff.mp (hown document rfl)
        obtain rfl := Option.some.inj (hdocument.symm.trans hdocument₁)
        have hother : key' ≠ key := by
          rintro rfl
          obtain ⟨r₁, hr₁, hown₁⟩ := hw.record_of_get? hkey
          obtain ⟨r₂, hr₂, hown₂⟩ := hw.record_of_get? hkey'
          obtain rfl := Option.some.inj (hr₁.symm.trans hr₂)
          rw [← hid, ← hid', ← hown₁, ← hown₂] at hne
          exact hne rfl
        refine ⟨key, r, ?_, ?_, hrenewed⟩
        · rw [hframe]
          exact hfound
        · rw [find?_refreshRecord, if_neg hother]
          exact hr

/-! ## Identifiers that repeat -/

section Repeated

variable {slot : String → Option Fields} (hown : ∀ id, IsOwn id (slot id))
  (hcongr : ∀ id id', normalize id = normalize id' → slot id = slot id')

include hown hcongr

/-- `takeParts` may leave out an identifier that is absorbed. -/
theorem takeParts_filter (hw : w.Consistent) (h : w.Absorbs id (slot id)) (ids : List String) :
    w.takeParts ((ids.filter (fun id' => !id' == id)).map (fun id => .inPlace id (slot id)))
      = w.takeParts (ids.map (fun id => .inPlace id (slot id))) := by
  induction ids generalizing w with
  | nil => rfl
  | cons first rest ih =>
    have hfirst : (w.takePart (.inPlace first (slot first))).Absorbs id (slot id) := by
      by_cases hid : normalize id = normalize first
      · rw [hcongr id first hid] at h ⊢
        rw [takePart_of_absorbs hw (h.congr hid)]
        exact h
      · exact h.takePart hw hid (hown id) (hown first)
    have hrest := ih (consistent_takePart hw _) hfirst
    by_cases heq : first = id
    · subst heq
      rw [List.filter_cons_of_neg (by simp)]
      rw [takePart_of_absorbs hw h] at hrest
      exact hrest.trans (congrArg (takeParts · _) (takePart_of_absorbs hw h).symm)
    · rw [List.filter_cons_of_pos (by simpa using heq)]
      exact hrest

/-- `takeParts` may leave out the repetitions of an identifier. -/
theorem takeParts_eraseDups (hw : w.Consistent) (ids : List String) :
    w.takeParts (ids.eraseDups.map (fun id => .inPlace id (slot id)))
      = w.takeParts (ids.map (fun id => .inPlace id (slot id))) := by
  induction hlength : ids.length using Nat.strongRecOn generalizing w ids with
  | _ n ih =>
    cases ids with
    | nil => rfl
    | cons first rest =>
      have hw₁ := consistent_takePart hw (.inPlace first (slot first))
      have hshorter : (rest.filter (fun id => !id == first)).length < n := by
        rw [← hlength, List.length_cons]
        exact Nat.lt_succ_of_le (List.length_filter_le ..)
      rw [List.eraseDups_cons, List.map_cons, List.map_cons]
      exact (ih _ hshorter hw₁ _ rfl).trans
        (takeParts_filter hown hcongr hw₁ (absorbs_takePart hw (hown first)) rest)

end Repeated

end Workspace

end DocumentSession
