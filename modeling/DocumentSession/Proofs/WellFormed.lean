import DocumentSession.Proofs.Keyed
import DocumentSession.Json.Basic
import Mathlib.Data.String.Basic

set_option autoImplicit false

/-! # Well-formed JSON values

In a well-formed value the members of every object, at any depth, are sorted by their keys, so no
key is there twice. Two objects with sorted members are `equal` if and only if every key has `equal`
values in both of them (`Json.equalMembers_iff`). -/

namespace DocumentSession.Json

open Keyed (find?_cons find?_eq_none_iff)

/-! ## Well-formed values -/

instance {α : Type} (d : Dict α) : Decidable (Keyed.Sorted d) :=
  inferInstanceAs (Decidable (List.Pairwise _ _))

mutual

/-- The members of every object in a value are sorted. -/
def isWellFormed : Json → Bool
  | .arr items => areWellFormed items
  | .obj members => decide (Keyed.Sorted members) && membersAreWellFormed members
  | _ => true

/-- Every item is well-formed. -/
def areWellFormed : List Json → Bool
  | [] => true
  | item :: rest => isWellFormed item && areWellFormed rest

/-- The value of every member is well-formed. -/
def membersAreWellFormed : List (String × Json) → Bool
  | [] => true
  | (_, value) :: rest => isWellFormed value && membersAreWellFormed rest

end

theorem areWellFormed_iff (items : List Json) :
    areWellFormed items = true ↔ ∀ item ∈ items, item.isWellFormed = true := by
  induction items with
  | nil => simp [areWellFormed]
  | cons item rest ih => simp [areWellFormed, ih]

theorem membersAreWellFormed_iff (members : List (String × Json)) :
    membersAreWellFormed members = true
      ↔ ∀ key value, (key, value) ∈ members → value.isWellFormed = true := by
  induction members with
  | nil => simp [membersAreWellFormed]
  | cons member rest ih =>
    obtain ⟨k, v⟩ := member
    rw [membersAreWellFormed, Bool.and_eq_true, ih]
    constructor
    · rintro ⟨hv, hrest⟩ key value hmem
      rcases List.mem_cons.mp hmem with heq | hmem
      · obtain ⟨rfl, rfl⟩ := Prod.mk.inj heq
        exact hv
      · exact hrest key value hmem
    · intro h
      exact ⟨h k v (List.mem_cons_self ..), fun key value hmem =>
        h key value (List.mem_cons_of_mem _ hmem)⟩

theorem sorted_of_isWellFormed {members : Fields} (h : (Json.obj members).isWellFormed = true) :
    members.Sorted := by
  rw [isWellFormed, Bool.and_eq_true, decide_eq_true_eq] at h
  exact h.1

theorem isWellFormed_of_mem {members : Fields} (h : (Json.obj members).isWellFormed = true)
    {key : String} {value : Json} (hmem : (key, value) ∈ members) : value.isWellFormed = true := by
  rw [isWellFormed, Bool.and_eq_true] at h
  exact (membersAreWellFormed_iff members).mp h.2 key value hmem

theorem isWellFormed_of_mem_items {items : List Json} (h : (Json.arr items).isWellFormed = true)
    {item : Json} (hmem : item ∈ items) : item.isWellFormed = true :=
  (areWellFormed_iff items).mp h item hmem

theorem isWellFormed_erase {members : Fields} (h : (Json.obj members).isWellFormed = true)
    (key : String) : (Json.obj (Keyed.erase members key)).isWellFormed = true := by
  rw [isWellFormed, Bool.and_eq_true, decide_eq_true_eq, membersAreWellFormed_iff]
  refine ⟨Keyed.sorted_erase (sorted_of_isWellFormed h) key, ?_⟩
  intro k value hmem
  exact isWellFormed_of_mem h (List.mem_of_mem_filter hmem)

theorem isWellFormed_of_find? {members : Fields} (h : (Json.obj members).isWellFormed = true)
    {key : String} {value : Json} (hvalue : Keyed.find? members key = some value) :
    value.isWellFormed = true :=
  isWellFormed_of_mem h (Keyed.mem_of_find? hvalue)

theorem isWellFormed_of_get? {v : Json} (h : v.isWellFormed = true) {key : String} {value : Json}
    (hvalue : v.get? key = some value) : value.isWellFormed = true := by
  cases v with
  | obj members => exact isWellFormed_of_find? h hvalue
  | _ => cases hvalue

/-- The object under a key, if there is one, is well-formed. -/
theorem isWellFormed_of_fields? {value : Option Json}
    (h : ∀ v, value = some v → v.isWellFormed = true) {members : Fields}
    (hmembers : value.bind fields? = some members) : (Json.obj members).isWellFormed = true := by
  obtain ⟨v, rfl, hv⟩ := Option.bind_eq_some_iff.mp hmembers
  cases v with
  | obj fields =>
    obtain rfl := Option.some.inj hv
    exact h _ rfl
  | _ => cases hv

/-- The items under a key, if there are some, are well-formed. -/
theorem isWellFormed_of_items? {value : Option Json}
    (h : ∀ v, value = some v → v.isWellFormed = true) {items : List Json}
    (hitems : value.bind items? = some items) : ∀ item ∈ items, item.isWellFormed = true := by
  obtain ⟨v, rfl, hv⟩ := Option.bind_eq_some_iff.mp hitems
  cases v with
  | arr found =>
    obtain rfl := Option.some.inj hv
    exact fun item hmem => isWellFormed_of_mem_items (h _ rfl) hmem
  | _ => cases hv

theorem isWellFormed_insert {members : Fields} (h : (Json.obj members).isWellFormed = true)
    (key : String) {value : Json} (hvalue : value.isWellFormed = true) :
    (Json.obj (Keyed.insert members key value)).isWellFormed = true := by
  rw [isWellFormed, Bool.and_eq_true, decide_eq_true_eq, membersAreWellFormed_iff]
  refine ⟨Keyed.sorted_insert (sorted_of_isWellFormed h) key value, ?_⟩
  intro k v hmem
  rcases Keyed.mem_of_mem_insert hmem with hnew | hold
  · obtain ⟨-, rfl⟩ := Prod.mk.inj hnew
    exact hvalue
  · exact isWellFormed_of_mem h hold

theorem isWellFormed_overlay {base upper : Fields} (h : (Json.obj base).isWellFormed = true)
    (hupper : ∀ key value, (key, value) ∈ upper → value.isWellFormed = true) :
    (Json.obj (Dict.overlay base upper)).isWellFormed = true := by
  unfold Dict.overlay
  induction upper generalizing base with
  | nil => exact h
  | cons entry rest ih =>
    refine ih (isWellFormed_insert h entry.1 (hupper entry.1 entry.2 (List.mem_cons_self ..))) ?_
    exact fun key value hmem => hupper key value (List.mem_cons_of_mem _ hmem)

/-- `Dict.ofList` sorts the members of an object. -/
theorem isWellFormed_ofList {members : List (String × Json)}
    (h : ∀ key value, (key, value) ∈ members → value.isWellFormed = true) :
    (Json.obj (Dict.ofList members)).isWellFormed = true :=
  isWellFormed_overlay rfl h

/-! ## Equal values -/

theorem number_equal_self (n : Number) : n.equal n = true := by
  cases n <;> simp [Number.equal, Binary64.equal]

mutual

theorem equal_self : (v : Json) → v.equal v = true
  | .null => rfl
  | .bool _ => by simp [equal]
  | .num n => by simp [equal, number_equal_self n]
  | .str _ => by simp [equal]
  | .arr items => by rw [equal, equalItems_self items]
  | .obj members => by rw [equal, equalMembers_self members]

theorem equalItems_self : (items : List Json) → equalItems items items = true
  | [] => rfl
  | item :: rest => by rw [equalItems, equal_self item, equalItems_self rest, Bool.and_self]

theorem equalMembers_self : (members : List (String × Json)) → equalMembers members members = true
  | [] => rfl
  | (_, v) :: rest => by simp [equalMembers, equal_self v, equalMembers_self rest]

end

/-- Two look-ups of one key find nothing, or `equal` values. -/
abbrev EqualFound : Option Json → Option Json → Prop :=
  Option.Rel (fun a b => a.equal b = true)

theorem equalFound_some {a b : Json} : EqualFound (some a) (some b) ↔ a.equal b = true := by
  constructor
  · intro h
    cases h with
    | some h => exact h
  · intro h
    exact Option.Rel.some h

theorem not_equalFound_none_some {b : Json} : ¬ EqualFound none (some b) := by
  intro h
  cases h

theorem not_equalFound_some_none {a : Json} : ¬ EqualFound (some a) none := by
  intro h
  cases h

/-- Keys before the first one of a sorted object have no member. -/
theorem find?_of_lt {k : String} {v : Json} {rest : Fields} (hs : Keyed.Sorted ((k, v) :: rest))
    {key : String} (hlt : key < k ∨ key = k) : Keyed.find? rest key = none := by
  obtain ⟨hk, -⟩ := List.pairwise_cons.mp hs
  rw [find?_eq_none_iff]
  intro hmem
  have hkey : k < key := hk key hmem
  rcases hlt with hlt | rfl
  · exact String.lt_irrefl k (String.lt_trans hkey hlt)
  · exact String.lt_irrefl _ hkey

/-- Two objects with sorted members are equal if and only if each key has nothing in both or `equal`
values in both. -/
theorem equalMembers_iff {a b : Fields} (ha : a.Sorted) (hb : b.Sorted) :
    equalMembers a b = true ↔ ∀ key, EqualFound (a.find? key) (b.find? key) := by
  induction a generalizing b with
  | nil =>
    cases b with
    | nil => simp [equalMembers, EqualFound]
    | cons member bs =>
      obtain ⟨l, y⟩ := member
      simp only [equalMembers, Bool.false_eq_true, false_iff]
      intro h
      have hl := h l
      rw [find?_cons, if_pos rfl] at hl
      exact not_equalFound_none_some hl
  | cons member as ih =>
    obtain ⟨k, x⟩ := member
    cases b with
    | nil =>
      simp only [equalMembers, Bool.false_eq_true, false_iff]
      intro h
      have hk := h k
      rw [find?_cons, if_pos rfl] at hk
      exact not_equalFound_some_none hk
    | cons member bs =>
      obtain ⟨l, y⟩ := member
      have has := (List.pairwise_cons.mp ha).2
      have hbs := (List.pairwise_cons.mp hb).2
      rw [equalMembers, Bool.and_eq_true, Bool.and_eq_true, decide_eq_true_eq, ih has hbs]
      constructor
      · rintro ⟨⟨rfl, hxy⟩, hrest⟩ key
        rw [find?_cons, find?_cons]
        split
        · exact Option.Rel.some hxy
        · exact hrest key
      · intro h
        -- the smaller one of the two first keys is missing on the other side
        have hkl : k = l := by
          by_contra hne
          rcases lt_or_gt_of_ne hne with hlt | hlt
          · have hk := h k
            rw [find?_cons, if_pos rfl, find?_cons, if_neg (Ne.symm hne),
              find?_of_lt hb (Or.inl hlt)] at hk
            exact not_equalFound_some_none hk
          · have hl := h l
            rw [find?_cons, if_neg hne, find?_cons, if_pos rfl,
              find?_of_lt ha (Or.inl hlt)] at hl
            exact not_equalFound_none_some hl
        subst hkl
        refine ⟨⟨rfl, ?_⟩, ?_⟩
        · have hk := h k
          rw [find?_cons, if_pos rfl, find?_cons, if_pos rfl] at hk
          exact equalFound_some.mp hk
        · intro key
          by_cases hkey : k = key
          · subst hkey
            rw [find?_of_lt ha (Or.inr rfl), find?_of_lt hb (Or.inr rfl)]
            exact Option.Rel.none
          · have hk := h key
            rw [find?_cons, if_neg hkey, find?_cons, if_neg hkey] at hk
            exact hk

end DocumentSession.Json
