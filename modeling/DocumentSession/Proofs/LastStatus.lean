import DocumentSession.Proofs.LocalIndexChange

set_option autoImplicit false

/-! # The status of a document that the server reported last

The last result for an identifier in a list of items reports its document `present` or `absent`
(`AnswerItem.lastStatus`). The identifier is wrongly missing (`IdIndexes.WronglyMissing`) if it is
in `missing` although the status reported last is neither `absent` nor `deleted`, and no deletion of
its document is pending.

`IdIndexes.take` is described for one part, and `takeAll` for all (`missing_take_iff`,
`missing_takeAll_iff`). A reply makes an identifier wrongly missing if and only if it `Disregards` a
document (`wronglyMissing_takeAll_iff`): the document is the last result for an identifier that is
in `missing` at that point, and the identifier stays there, because it has a record already or
because no document of it is registered from there on. -/

namespace DocumentSession

open Identifier (normalize)

/-- What the server reported of a document: that there is none, that there is one, or that it
carried out a deletion. -/
inductive DocumentStatus where
  | absent
  | present
  /-- The server carried out a deletion. -/
  | deleted
  deriving DecidableEq

namespace AnswerItem

variable {id : String} {items : List AnswerItem} {result : Option Fields}

/-- The result for `id` in an item, if the item is one for `id`. -/
def answerFor? (id : String) : AnswerItem → Option (Option Fields)
  | .document _ => none
  | .place own result _ => if normalize own = normalize id then some result else none

/-- The last result for `id` in `items`. -/
def lastFor? (id : String) (items : List AnswerItem) : Option (Option Fields) :=
  (items.filterMap (answerFor? id)).getLast?

/-- The status that the last result for `id` in `items` reports. -/
def lastStatus (id : String) (items : List AnswerItem) : Option DocumentStatus :=
  (lastFor? id items).map fun result => if result.isSome then .present else .absent

theorem lastFor?_eq_none_iff : lastFor? id items = none ↔ ∀ t ∈ items, t.answerFor? id = none := by
  unfold lastFor?
  rw [List.getLast?_eq_none_iff, List.filterMap_eq_nil_iff]

theorem lastFor?_eq_some_iff :
    lastFor? id items = some result
      ↔ ∃ before own taken after, items = before ++ .place own result taken :: after
        ∧ normalize own = normalize id ∧ ∀ later ∈ after, later.answerFor? id = none := by
  unfold lastFor?
  rw [List.getLast?_eq_some_iff]
  constructor
  · rintro ⟨earlier, heq⟩
    obtain ⟨before, others, rfl, -, hothers⟩ := List.filterMap_eq_append_iff.mp heq
    obtain ⟨documents, last, after, rfl, -, hlast, hafter⟩ := List.filterMap_eq_cons_iff.mp hothers
    cases last with
    | document fields => cases hlast
    | place own result' taken =>
      by_cases hid : normalize own = normalize id
      · simp only [answerFor?, hid, if_true, Option.some.injEq] at hlast
        obtain rfl := hlast
        exact ⟨before ++ documents, own, taken, after, by simp, hid,
          List.filterMap_eq_nil_iff.mp hafter⟩
      · simp [answerFor?, hid] at hlast
  · rintro ⟨before, own, taken, after, rfl, hid, hafter⟩
    refine ⟨before.filterMap (answerFor? id), ?_⟩
    rw [List.filterMap_append, List.filterMap_cons, List.filterMap_eq_nil_iff.mpr hafter]
    simp [answerFor?, hid]

/-- If `items` have no result for `id`, none of their parts is `.nothing id`. -/
theorem ne_of_nothing_mem_parts (hsilent : ∀ t ∈ items, t.answerFor? id = none) {absent : String}
    (hmem : .nothing absent ∈ parts items) : normalize absent ≠ normalize id := by
  intro hid
  obtain ⟨t, ht, hpart⟩ := List.mem_filterMap.mp hmem
  have hnone := hsilent t ht
  cases t with
  | document fields => cases hpart
  | place own result taken =>
    cases result with
    | some fields => cases taken <;> cases hpart
    | none =>
      cases taken with
      | false => cases hpart
      | true =>
        obtain rfl := ReplyPart.nothing.inj (Option.some.inj hpart)
        simp [answerFor?, hid] at hnone

end AnswerItem

/-- The part is a document whose identifier is `id`. -/
def ReplyPart.IsDocumentOf (id : String) : ReplyPart → Prop
  | .document fields => ∃ own, documentId fields = some own ∧ normalize own = normalize id
  | .nothing _ => False

namespace IdIndexes

variable {m : IdIndexes} {id : String} {last : Option DocumentStatus} {items : List AnswerItem}

/-! ## Missing identifiers after a reply -/

theorem isSome_get?_take_iff (m : IdIndexes) (part : ReplyPart) (id : String) :
    ((m.take part).identities.get? id).isSome = true
      ↔ (m.identities.get? id).isSome = true ∨ part.IsDocumentOf id := by
  cases part with
  | nothing absent => simp [take, ReplyPart.IsDocumentOf]
  | document fields =>
    cases hown : documentId fields with
    | none => simp [take, ReplyPart.IsDocumentOf, hown]
    | some own =>
      simp only [ReplyPart.IsDocumentOf, hown, Option.some.injEq, exists_eq_left']
      by_cases hknown : (m.identities.get? own).isSome = true
      · simp only [take, hown, hknown, if_true]
        constructor
        · exact Or.inl
        · rintro (hsome | hid)
          · exact hsome
          · rwa [← m.identities.get?_congr hid]
      · simp only [take, hown, hknown, Bool.false_eq_true, if_false]
        rw [IdentityMap.get?_insert]
        by_cases hid : normalize own = normalize id <;> simp [hid]

/-- After one part `id` is missing if the part is `.nothing id`, or if it was missing, unless the
part is its document and it has no record. -/
theorem missing_take_iff (m : IdIndexes) (part : ReplyPart) (id : String) :
    (m.take part).missing.contains id = true
      ↔ (∃ absent, part = .nothing absent ∧ normalize absent = normalize id)
        ∨ m.missing.contains id = true
          ∧ ((m.identities.get? id).isSome = true ∨ ¬ part.IsDocumentOf id) := by
  cases part with
  | nothing absent =>
    show (m.missing.insert absent).contains id = true ↔ _
    rw [KnownMissing.contains_insert, Bool.or_eq_true, decide_eq_true_eq]
    simp [ReplyPart.IsDocumentOf]
  | document fields =>
    cases hown : documentId fields with
    | none => simp [take, ReplyPart.IsDocumentOf, hown]
    | some own =>
      simp only [ReplyPart.IsDocumentOf, hown, Option.some.injEq, exists_eq_left', reduceCtorEq,
        false_and, exists_false, false_or]
      by_cases hknown : (m.identities.get? own).isSome = true
      · simp only [take, hown, hknown, if_true]
        by_cases hid : normalize own = normalize id
        · rw [m.identities.get?_congr hid] at hknown
          simp [hknown]
        · simp [hid]
      · simp only [take, hown, hknown, Bool.false_eq_true, if_false]
        rw [KnownMissing.contains_remove, Bool.and_eq_true, decide_eq_true_eq]
        by_cases hid : normalize own = normalize id
        · rw [m.identities.get?_congr hid] at hknown
          simp [hid, hknown]
        · simp [hid]

/-- If `parts` have no `.nothing id`, then `id` is missing afterwards if and only if it was missing,
and either has a record or none of the parts is its document. -/
theorem missing_takeAll_iff {parts : List ReplyPart}
    (hsilent : ∀ absent, .nothing absent ∈ parts → normalize absent ≠ normalize id) :
    (m.takeAll parts).missing.contains id = true
      ↔ m.missing.contains id = true
        ∧ ((m.identities.get? id).isSome = true ∨ ∀ part ∈ parts, ¬ part.IsDocumentOf id) := by
  induction parts generalizing m with
  | nil => simp [takeAll]
  | cons part rest ih =>
    have hfirst : ¬ ∃ absent, part = .nothing absent ∧ normalize absent = normalize id := by
      rintro ⟨absent, rfl, hid⟩
      exact hsilent absent (by simp) hid
    show ((m.take part).takeAll rest).missing.contains id = true ↔ _
    rw [ih (fun absent hmem => hsilent absent (by simp [hmem])), missing_take_iff,
      or_iff_right hfirst, isSome_get?_take_iff, List.forall_mem_cons]
    by_cases hknown : (m.identities.get? id).isSome = true
    · simp [hknown]
    · by_cases hdocument : part.IsDocumentOf id
      · simp [hknown, hdocument]
      · simp [hknown, hdocument]

/-! ## Pending deletions -/

/-- Registering documents changes no pending deletion, since `m.nextKey` is not in `m.deleted`. -/
theorem deletionPending_takeAll_iff {parts : List ReplyPart}
    (hfresh : ∀ key, m.nextKey ≤ key → m.deleted.contains key = false) :
    (m.takeAll parts).DeletionPending id ↔ m.DeletionPending id := by
  induction parts generalizing m with
  | nil => exact Iff.rfl
  | cons part rest ih =>
    show ((m.take part).takeAll rest).DeletionPending id ↔ _
    cases part with
    | nothing absent => exact ih (m := m.take (.nothing absent)) hfresh
    | document fields =>
      cases hown : documentId fields with
      | none =>
        rw [show m.take (.document fields) = m by simp only [take, hown]]
        exact ih hfresh
      | some own =>
        by_cases hknown : (m.identities.get? own).isSome = true
        · rw [show m.take (.document fields) = m by simp only [take, hown, hknown, if_true]]
          exact ih hfresh
        · rw [ih]
          · simp only [DeletionPending, take, hown, hknown, Bool.false_eq_true, if_false]
            rw [IdentityMap.get?_insert]
            by_cases hid : normalize own = normalize id
            · rw [m.identities.get?_congr hid, Option.not_isSome_iff_eq_none] at hknown
              have hkept := hfresh m.nextKey (Nat.le_refl _)
              simp [hid, hknown, hkept]
            · simp [hid]
          · simp only [take, hown, hknown, Bool.false_eq_true, if_false]
            intro key hkey
            exact hfresh key (Nat.le_of_succ_le hkey)

/-- A pending deletion of `id` stays pending when another record is removed. -/
theorem DeletionPending.without (hpending : m.DeletionPending id)
    (hsorted : m.identities.entries.Sorted) {key : RecordKey}
    (hother : m.identities.get? id = some key → m.deleted.contains key = false) :
    (m.without key).DeletionPending id := by
  rcases hpending with ⟨key', hget, hdelete⟩ | hwaits
  · have hne : key' ≠ key := by
      rintro rfl
      rw [hother hget] at hdelete
      cases hdelete
    refine Or.inl ⟨key', (IdentityMap.get?_removeRecord_eq_some_iff hsorted).mpr ⟨hget, hne⟩, ?_⟩
    show Keyed.contains (m.deleted.erase key) key' = true
    rw [Keyed.contains_erase]
    simp [Ne.symm hne, hdelete]
  · exact Or.inr hwaits

/-! ## Wrongly missing identifiers -/

/-- `id` is in `missing`, but the `last` status is neither `absent` nor `deleted`, and no deletion
of its document is pending. -/
def WronglyMissing (m : IdIndexes) (last : Option DocumentStatus) (id : String) : Prop :=
  m.missing.contains id = true ∧ last ≠ some .absent ∧ last ≠ some .deleted
    ∧ ¬ m.DeletionPending id

/-- The last result for `id` in `items` is a document, no deletion of `id` is pending, and yet `id`
stays missing: it is missing before this item, and it has a record there already, or no document of
`id` is registered from there on. -/
def Disregards (m : IdIndexes) (items : List AnswerItem) (id : String) : Prop :=
  ∃ before own fields taken after, items = before ++ .place own (some fields) taken :: after
    ∧ normalize own = normalize id ∧ (∀ later ∈ after, later.answerFor? id = none)
    ∧ (m.takeAll (AnswerItem.parts before)).missing.contains id = true
    ∧ (((m.takeAll (AnswerItem.parts before)).identities.get? id).isSome = true
      ∨ ∀ part ∈ AnswerItem.parts (.place own (some fields) taken :: after), ¬ part.IsDocumentOf id)
    ∧ ¬ m.DeletionPending id

theorem not_disregards_nil (m : IdIndexes) (id : String) : ¬ m.Disregards [] id := by
  rintro ⟨before, own, fields, taken, after, heq, -⟩
  exact absurd heq (by simp)

/-- If the item after `before` is the last result for `id`, and it is a document, then `id` is
missing after all items if and only if the last two conditions of `Disregards` hold. -/
theorem missing_takeAll_place_iff {before after : List AnswerItem} {own : String} {fields : Fields}
    {taken : Bool} (hafter : ∀ later ∈ after, later.answerFor? id = none) :
    (m.takeAll
      (AnswerItem.parts (before ++ .place own (some fields) taken :: after))).missing.contains id
        = true
      ↔ (m.takeAll (AnswerItem.parts before)).missing.contains id = true
        ∧ (((m.takeAll (AnswerItem.parts before)).identities.get? id).isSome = true
          ∨ ∀ part ∈ AnswerItem.parts (.place own (some fields) taken :: after),
            ¬ part.IsDocumentOf id) := by
  rw [AnswerItem.parts_append, takeAll_append]
  refine missing_takeAll_iff ?_
  intro absent hmem
  refine AnswerItem.ne_of_nothing_mem_parts hafter ?_
  -- the place itself is no part that tells of an absence
  cases taken with
  | false => exact hmem
  | true =>
    rcases List.mem_cons.mp hmem with hplace | hlater
    · cases hplace
    · exact hlater

/-- If `id` is not wrongly missing, the `items` of a reply make it so if and only if
`m.Disregards items id`. -/
theorem wronglyMissing_takeAll_iff
    (hfresh : ∀ key, m.nextKey ≤ key → m.deleted.contains key = false)
    (hquiet : ¬ m.WronglyMissing last id) :
    (m.takeAll (AnswerItem.parts items)).WronglyMissing
      ((AnswerItem.lastStatus id items).or last) id
      ↔ m.Disregards items id := by
  unfold WronglyMissing
  rw [deletionPending_takeAll_iff hfresh]
  constructor
  · rintro ⟨hmissing, habsent, hdeleted, hkept⟩
    unfold AnswerItem.lastStatus at habsent hdeleted
    cases hlast : AnswerItem.lastFor? id items with
    | none =>
      rw [hlast] at habsent hdeleted
      have hsilent : ∀ absent, .nothing absent ∈ AnswerItem.parts items →
          normalize absent ≠ normalize id := by
        intro absent hmem
        exact AnswerItem.ne_of_nothing_mem_parts (AnswerItem.lastFor?_eq_none_iff.mp hlast) hmem
      exact absurd ⟨((missing_takeAll_iff hsilent).mp hmissing).1, habsent, hdeleted, hkept⟩ hquiet
    | some result =>
      cases result with
      | none => simp [hlast] at habsent
      | some fields =>
        obtain ⟨before, own, taken, after, rfl, hid, hafter⟩ :=
          AnswerItem.lastFor?_eq_some_iff.mp hlast
        obtain ⟨hnoted, hstands⟩ := (missing_takeAll_place_iff hafter).mp hmissing
        exact ⟨before, own, fields, taken, after, rfl, hid, hafter, hnoted, hstands, hkept⟩
  · rintro ⟨before, own, fields, taken, after, rfl, hid, hafter, hnoted, hstands, hkept⟩
    have hstatus : AnswerItem.lastStatus id (before ++ .place own (some fields) taken :: after)
        = some .present := by
      unfold AnswerItem.lastStatus
      rw [AnswerItem.lastFor?_eq_some_iff.mpr ⟨before, own, taken, after, rfl, hid, hafter⟩]
      rfl
    rw [hstatus]
    exact ⟨(missing_takeAll_place_iff hafter).mpr ⟨hnoted, hstands⟩, by simp, by simp, hkept⟩

end IdIndexes

end DocumentSession
