import DocumentSession.Proofs.WellFormed
import DocumentSession.Change

set_option autoImplicit false

/-! # The change detection is exact

`Change.compared` removes from a value the members under the five keys of `Change.isIgnored`, at
every depth. `Change.any` tells that two bodies differ just when they are not `Json.equal` after
that, and `Change.list` is empty just when `Change.any` finds no difference (`detection_exact`). -/

namespace DocumentSession.Change

open Keyed (find?_cons)
open Json (EqualFound equalFound_some equalMembers_iff sorted_of_isWellFormed isWellFormed_of_mem
  isWellFormed_of_mem_items)

/-- The keys that `isIgnored` names. -/
theorem isIgnored_iff (key : String) :
    isIgnored key = true
      ↔ key ∈ ["@last-modified", "@collection", "@change-vector", "@id", "@metadata"] := by
  unfold isIgnored
  rw [List.contains_iff_mem]
  exact Iff.rfl

mutual

/-- A value without the members under the keys that `isIgnored` names, at every depth. -/
def compared : Json → Json
  | .arr items => .arr (comparedItems items)
  | .obj members => .obj (comparedMembers members)
  | value => value

/-- `items`, each as `compared` leaves it. -/
def comparedItems : List Json → List Json
  | [] => []
  | item :: rest => compared item :: comparedItems rest

/-- The members whose keys are not ignored, their values as `compared` leaves them. -/
def comparedMembers : List (String × Json) → List (String × Json)
  | [] => []
  | (key, value) :: rest =>
    if isIgnored key then comparedMembers rest
    else (key, compared value) :: comparedMembers rest

end

theorem keys_comparedMembers_sublist (members : Fields) :
    (Keyed.keys (comparedMembers members)).Sublist members.keys := by
  induction members with
  | nil => simp [comparedMembers]
  | cons member rest ih =>
    obtain ⟨k, v⟩ := member
    rw [comparedMembers]
    split
    · exact List.Sublist.cons _ ih
    · exact List.Sublist.cons_cons _ ih

theorem sorted_comparedMembers {members : Fields} (h : members.Sorted) :
    Keyed.Sorted (comparedMembers members) :=
  List.Pairwise.sublist (keys_comparedMembers_sublist members) h

theorem find?_comparedMembers (members : Fields) (key : String) :
    Keyed.find? (comparedMembers members) key
      = if isIgnored key then none else (members.find? key).map compared := by
  induction members with
  | nil => simp [comparedMembers]
  | cons member rest ih =>
    obtain ⟨k, v⟩ := member
    rw [comparedMembers, find?_cons]
    by_cases hk : k = key
    · subst hk
      split
      · next hi => rw [ih, if_pos hi]
      · simp [find?_cons]
    · rw [if_neg hk]
      split
      · exact ih
      · rw [find?_cons, if_neg hk, ih]

/-! ## `differs` finds the differences of what is `compared` -/

theorem hasForeignKey_eq_false_iff (fields others : Fields) :
    hasForeignKey fields others = false
      ↔ ∀ key, isIgnored key = false → fields.find? key = none → others.find? key = none := by
  unfold hasForeignKey
  rw [List.any_eq_false]
  constructor
  · intro h key hi hnone
    rw [Keyed.find?_eq_none_iff]
    intro hmem
    obtain ⟨member, hmember, rfl⟩ := List.mem_map.mp hmem
    have := h member hmember
    simp [hi, Keyed.contains, hnone] at this
  · intro h member hmember
    simp only [Bool.and_eq_true, Bool.not_eq_true', not_and]
    intro hi hcontains
    have hnone := h member.1 hi (Keyed.contains_eq_false_iff.mp hcontains)
    rw [Keyed.find?_eq_none_iff] at hnone
    exact hnone (List.mem_map_of_mem hmember)

theorem membersDiffer_eq_false_iff (old : Fields) (members : List (String × Json)) :
    membersDiffer old members = false
      ↔ ∀ key new, (key, new) ∈ members → isIgnored key = false →
          ∀ before, old.find? key = some before → differs before new = false := by
  induction members with
  | nil => simp [membersDiffer]
  | cons member rest ih =>
    obtain ⟨k, v⟩ := member
    rw [membersDiffer, Bool.or_eq_false_iff, ih]
    constructor
    · rintro ⟨hhead, hrest⟩ key new hmem hi before hbefore
      rcases List.mem_cons.mp hmem with heq | hmem
      · obtain ⟨rfl, rfl⟩ := Prod.mk.inj heq
        rw [hi, hbefore] at hhead
        exact hhead
      · exact hrest key new hmem hi before hbefore
    · intro h
      refine ⟨?_, fun key new hmem => h key new (List.mem_cons_of_mem _ hmem)⟩
      cases hi : isIgnored k with
      | true => rfl
      | false =>
        cases hbefore : old.find? k with
        | none => rfl
        | some before => exact h k v (List.mem_cons_self ..) hi before hbefore

/-- Two objects are `equal` once `compared` if and only if every key that is not ignored has no
member in both, or members in both that are `equal` once `compared`. -/
theorem equal_compared_obj_iff {old new : Fields} (hold : old.Sorted) (hnew : new.Sorted) :
    (compared (.obj old)).equal (compared (.obj new)) = true
      ↔ ∀ key, isIgnored key = false →
          EqualFound ((old.find? key).map compared) ((new.find? key).map compared) := by
  rw [compared, compared, Json.equal,
    equalMembers_iff (sorted_comparedMembers hold) (sorted_comparedMembers hnew)]
  constructor
  · intro h key hi
    have hkey := h key
    rw [find?_comparedMembers, find?_comparedMembers, hi] at hkey
    exact hkey
  · intro h key
    -- an ignored key has nothing on either side
    rw [find?_comparedMembers, find?_comparedMembers]
    cases hi : isIgnored key with
    | true => exact Option.Rel.none
    | false => exact h key hi

/-- `differs` is exact for two objects if it is for the values of the new one. -/
theorem differs_obj_eq_false_iff {old new : Fields}
    (hold : (Json.obj old).isWellFormed = true) (hnew : (Json.obj new).isWellFormed = true)
    (ih : ∀ key value, (key, value) ∈ new → ∀ before : Json, before.isWellFormed = true →
      (differs before value = false ↔ (compared before).equal (compared value) = true)) :
    differs (.obj old) (.obj new) = false
      ↔ (compared (.obj old)).equal (compared (.obj new)) = true := by
  have hs := sorted_of_isWellFormed hnew
  rw [equal_compared_obj_iff (sorted_of_isWellFormed hold) hs, differs, Bool.or_eq_false_iff,
    Bool.or_eq_false_iff, hasForeignKey_eq_false_iff, hasForeignKey_eq_false_iff,
    membersDiffer_eq_false_iff]
  constructor
  · rintro ⟨⟨hadded, hremoved⟩, hsame⟩ key hi
    cases ho : old.find? key with
    | none =>
      rw [hadded key hi ho]
      exact Option.Rel.none
    | some before =>
      -- a key of the old object is one of the new object, where the values are compared
      cases hn : new.find? key with
      | none => exact absurd (hremoved key hi hn) (by simp [ho])
      | some after =>
        have hmem := Keyed.mem_of_find? hn
        have hbefore := isWellFormed_of_mem hold (Keyed.mem_of_find? ho)
        exact equalFound_some.mpr
          ((ih key after hmem before hbefore).mp (hsame key after hmem hi before ho))
  · intro h
    refine ⟨⟨?_, ?_⟩, ?_⟩
    · intro key hi ho
      have hkey := h key hi
      rw [ho] at hkey
      cases hn : new.find? key with
      | none => rfl
      | some after =>
        rw [hn] at hkey
        exact absurd hkey Json.not_equalFound_none_some
    · intro key hi hn
      have hkey := h key hi
      rw [hn] at hkey
      cases ho : old.find? key with
      | none => rfl
      | some before =>
        rw [ho] at hkey
        exact absurd hkey Json.not_equalFound_some_none
    · intro key after hmem hi before ho
      have hkey := h key hi
      rw [ho, Keyed.find?_of_mem hs hmem] at hkey
      have hbefore := isWellFormed_of_mem hold (Keyed.mem_of_find? ho)
      exact (ih key after hmem before hbefore).mpr (equalFound_some.mp hkey)

/-- `itemsDiffer` is exact for two arrays if `differs` is for the items of the new one. -/
theorem itemsDiffer_eq_false_iff {old new : List Json}
    (hold : ∀ item ∈ old, item.isWellFormed = true)
    (ih : ∀ item ∈ new, ∀ before : Json, before.isWellFormed = true →
      (differs before item = false ↔ (compared before).equal (compared item) = true)) :
    (old.length = new.length ∧ itemsDiffer old new = false)
      ↔ Json.equalItems (comparedItems old) (comparedItems new) = true := by
  induction new generalizing old with
  | nil => cases old <;> simp [itemsDiffer, comparedItems, Json.equalItems]
  | cons item new ihnew =>
    cases old with
    | nil => simp [comparedItems, Json.equalItems]
    | cons before old =>
      -- the first items are compared by the hypothesis, the others by induction on the new list
      have hhead := ih item (List.mem_cons_self ..) before (hold before (List.mem_cons_self ..))
      have htail := ihnew (fun i hi => hold i (List.mem_cons_of_mem _ hi))
        (fun i hi => ih i (List.mem_cons_of_mem _ hi))
      rw [comparedItems, comparedItems, Json.equalItems, Bool.and_eq_true, ← hhead, ← htail,
        itemsDiffer, Bool.or_eq_false_iff, List.length_cons, List.length_cons, Nat.succ_inj]
      constructor
      · rintro ⟨hlength, hdiffers, hrest⟩
        exact ⟨hdiffers, hlength, hrest⟩
      · rintro ⟨hdiffers, hlength, hrest⟩
        exact ⟨hlength, hdiffers, hrest⟩

mutual

/-- `differs` finds no difference between two well-formed values if and only if they are `equal`
once `compared`. -/
theorem differs_eq_false_iff : (new : Json) → new.isWellFormed = true →
    ∀ old : Json, old.isWellFormed = true →
      (differs old new = false ↔ (compared old).equal (compared new) = true)
  | .null, _, old, _ => by cases old <;> simp [differs, compared, Json.equal]
  | .bool _, _, old, _ => by cases old <;> simp [differs, compared, Json.equal]
  | .num _, _, old, _ => by cases old <;> simp [differs, compared, Json.equal]
  | .str _, _, old, _ => by cases old <;> simp [differs, compared, Json.equal]
  | .arr items, hnew, old, hold => by
    cases old with
    | arr before =>
      have hitems := itemsDiffer_eq_false_iff
        (fun item hmem => isWellFormed_of_mem_items hold hmem)
        (differsFromItems_eq_false_iff items
          (fun item hmem => isWellFormed_of_mem_items hnew hmem))
      simp only [differs, compared, Json.equal, Bool.or_eq_false_iff, decide_eq_false_iff_not,
        ne_eq, Decidable.not_not]
      exact hitems
    | _ => simp [differs, compared, Json.equal]
  | .obj members, hnew, old, hold => by
    cases old with
    | obj before =>
      exact differs_obj_eq_false_iff hold hnew
        (differsFromMembers_eq_false_iff members
          (fun key value hmem => isWellFormed_of_mem hnew hmem))
    | _ => simp [differs, compared, Json.equal]

theorem differsFromItems_eq_false_iff : (items : List Json) →
    (∀ item ∈ items, item.isWellFormed = true) →
    ∀ item ∈ items, ∀ before : Json, before.isWellFormed = true →
      (differs before item = false ↔ (compared before).equal (compared item) = true)
  | [], _, _, hmem, _, _ => absurd hmem (List.not_mem_nil)
  | first :: rest, hitems, item, hmem, before, hbefore => by
    rcases List.mem_cons.mp hmem with heq | hmem
    · rw [heq]
      exact differs_eq_false_iff first (hitems first (List.mem_cons_self ..)) before hbefore
    · exact differsFromItems_eq_false_iff rest
        (fun i hi => hitems i (List.mem_cons_of_mem _ hi)) item hmem before hbefore

theorem differsFromMembers_eq_false_iff : (members : List (String × Json)) →
    (∀ key value, (key, value) ∈ members → value.isWellFormed = true) →
    ∀ key value, (key, value) ∈ members → ∀ before : Json, before.isWellFormed = true →
      (differs before value = false ↔ (compared before).equal (compared value) = true)
  | [], _, _, _, hmem, _, _ => absurd hmem (List.not_mem_nil)
  | (k, v) :: rest, hmembers, key, value, hmem, before, hbefore => by
    rcases List.mem_cons.mp hmem with heq | hmem
    · rw [(Prod.mk.inj heq).2]
      exact differs_eq_false_iff v (hmembers k v (List.mem_cons_self ..)) before hbefore
    · exact differsFromMembers_eq_false_iff rest
        (fun k v hv => hmembers k v (List.mem_cons_of_mem _ hv)) key value hmem before hbefore

end

/-! ## `list` is empty without a difference -/

theorem foreign_eq_nil_iff (fields others : Fields) :
    foreign fields others = [] ↔ hasForeignKey fields others = false := by
  unfold foreign hasForeignKey
  rw [List.filter_eq_nil_iff, List.any_eq_false]

theorem oneSided_eq_nil_iff (path : String) (old new : Fields) :
    oneSided path old new = []
      ↔ hasForeignKey old new = false ∧ hasForeignKey new old = false := by
  unfold oneSided
  rw [List.append_eq_nil_iff, List.map_eq_nil_iff, List.map_eq_nil_iff, foreign_eq_nil_iff,
    foreign_eq_nil_iff]

theorem surplus_eq_nil_iff (kind : Kind) (site : Site) (position : Nat) (items : List Json) :
    surplus kind site position items = [] ↔ items = [] := by
  cases items <;> simp [surplus]

/-- Two objects have no changes if and only if they do not differ, provided that this holds of the
members under common keys. -/
theorem objectChanges_eq_nil_iff (path : String) (old new : Fields)
    (ih : inMembers path old new = [] ↔ membersDiffer old new = false) :
    oneSided path old new ++ inMembers path old new = []
      ↔ differs (.obj old) (.obj new) = false := by
  rw [List.append_eq_nil_iff, oneSided_eq_nil_iff, ih, differs, Bool.or_eq_false_iff,
    Bool.or_eq_false_iff]

mutual

/-- `between` is empty if and only if `differs` finds no difference. -/
theorem between_eq_nil_iff : (new : Json) → ∀ (site : Site) (old : Json),
    between site old new = [] ↔ differs old new = false
  | .null, site, old => by cases h : old.equal .null <;> simp [between, differs, h]
  | .bool b, site, old => by cases h : old.equal (.bool b) <;> simp [between, differs, h]
  | .num n, site, old => by cases h : old.equal (.num n) <;> simp [between, differs, h]
  | .str s, site, old => by cases h : old.equal (.str s) <;> simp [between, differs, h]
  | .arr items, site, old => by
    cases old with
    | arr before =>
      simp only [between, inItems_eq_nil_iff items site 0 before, differs,
        Bool.or_eq_false_iff, decide_eq_false_iff_not, ne_eq, Decidable.not_not]
    | _ => simp [between, differs]
  | .obj members, site, old => by
    cases old with
    | obj before =>
      exact objectChanges_eq_nil_iff site.path before members
        (inMembers_eq_nil_iff members site.path before)
    | _ => simp [between, differs]

theorem inMembers_eq_nil_iff : (members : List (String × Json)) → ∀ (path : String) (old : Fields),
    inMembers path old members = [] ↔ membersDiffer old members = false
  | [], _, _ => by simp [inMembers, membersDiffer]
  | (key, new) :: rest, path, old => by
    rw [inMembers, membersDiffer, List.append_eq_nil_iff, Bool.or_eq_false_iff,
      inMembers_eq_nil_iff rest path old]
    cases isIgnored key with
    | true => simp
    | false =>
      cases old.find? key with
      | none => simp
      | some before => simp [between_eq_nil_iff new (.field path key) before]

theorem inItems_eq_nil_iff : (new : List Json) → ∀ (site : Site) (position : Nat)
    (old : List Json),
    inItems site position old new = [] ↔ old.length = new.length ∧ itemsDiffer old new = false
  | [], site, position, old => by
    rw [inItems, surplus_eq_nil_iff]
    cases old <;> simp [itemsDiffer]
  | after :: new, site, position, old => by
    cases old with
    | nil => simp [inItems, surplus_eq_nil_iff]
    | cons before old =>
      rw [inItems, List.append_eq_nil_iff, between_eq_nil_iff after (site.itemAt position) before,
        inItems_eq_nil_iff new site (position + 1) old, itemsDiffer, Bool.or_eq_false_iff,
        List.length_cons, List.length_cons, Nat.succ_inj]
      constructor
      · rintro ⟨hhead, hlength, hrest⟩
        exact ⟨hlength, hhead, hrest⟩
      · rintro ⟨hlength, hhead, hrest⟩
        exact ⟨hhead, hlength, hrest⟩

end

theorem list_eq_nil_iff (old new : Fields) : list old new = [] ↔ any old new = false :=
  objectChanges_eq_nil_iff "" old new (inMembers_eq_nil_iff new "" old)

theorem any_eq_false_iff {old new : Fields} (hold : (Json.obj old).isWellFormed = true)
    (hnew : (Json.obj new).isWellFormed = true) :
    any old new = false ↔ (compared (.obj old)).equal (compared (.obj new)) = true :=
  differs_eq_false_iff (.obj new) hnew (.obj old) hold

/-- `any` and `list` are exact: `any` finds no difference between two bodies if and only if they are
`Json.equal` once `compared` has removed the five ignored keys at every depth, and `list` is empty
if and only if `any` finds none. -/
theorem detection_exact (old new : Fields) (hold : (Json.obj old).isWellFormed = true)
    (hnew : (Json.obj new).isWellFormed = true) :
    (any old new = false ↔ (compared (.obj old)).equal (compared (.obj new)) = true)
      ∧ (list old new = [] ↔ any old new = false)
      ∧ ∀ key, isIgnored key = true
          ↔ key ∈ ["@last-modified", "@collection", "@change-vector", "@id", "@metadata"] :=
  ⟨any_eq_false_iff hold hnew, list_eq_nil_iff old new, isIgnored_iff⟩

/-- Two bodies that differ under an ignored key of an object inside an array. -/
theorem detection_exact_nested :
    let old : Fields := [("tags", .arr [.arr [.obj [("@id", .str "a"), ("n", .int 1)]]])]
    let new : Fields := [("tags", .arr [.arr [.obj [("n", .int 1)]]])]
    ((Json.obj old).isWellFormed = true ∧ (Json.obj new).isWellFormed = true)
      ∧ any old new = false ∧ list old new = [] := by
  intro old new
  have hold : (Json.obj old).isWellFormed = true := by decide +kernel
  have hnew : (Json.obj new).isWellFormed = true := by decide +kernel
  have hexact := detection_exact old new hold hnew
  have hany : any old new = false := hexact.1.mpr (by decide +kernel)
  exact ⟨⟨hold, hnew⟩, hany, hexact.2.1.mpr hany⟩

/-- `any` finds no difference between a body and itself. -/
theorem any_self {body : Fields} (h : (Json.obj body).isWellFormed = true) :
    any body body = false := by
  rw [any_eq_false_iff h h]
  exact Json.equal_self _

end DocumentSession.Change
