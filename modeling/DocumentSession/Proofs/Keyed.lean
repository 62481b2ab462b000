import Mathlib.Data.List.Sort
import Mathlib.Order.Defs.Unbundled
import DocumentSession.Dict

set_option autoImplicit false

/-! # Sorted entries

In a sorted list of entries a key has one entry at most, so `find?` finds every entry there is,
`erase` removes an entry from what `find?` finds, and two lists are equal if `find?` finds the same
in them. All operations keep the order. -/

namespace DocumentSession.Keyed

variable {κ α : Type} [DecidableEq κ]

/-! ## Look-up and membership -/

theorem mem_of_find? {t : Keyed κ α} {key : κ} {value : α} (h : t.find? key = some value) :
    (key, value) ∈ t := by
  induction t with
  | nil => simp at h
  | cons entry rest ih =>
    obtain ⟨k, v⟩ := entry
    rw [find?_cons] at h
    split at h
    · next hk =>
      subst hk
      obtain rfl := Option.some.inj h
      exact List.mem_cons_self ..
    · exact List.mem_cons_of_mem _ (ih h)

theorem find?_eq_none_iff {t : Keyed κ α} {key : κ} :
    t.find? key = none ↔ key ∉ t.keys := by
  induction t with
  | nil => simp [keys]
  | cons entry rest ih =>
    obtain ⟨k, v⟩ := entry
    rw [find?_cons]
    by_cases hk : k = key
    · simp [hk, keys]
    · simp only [hk, ↓reduceIte, ih, keys, List.map_cons, List.mem_cons, not_or]
      constructor
      · intro h
        exact ⟨fun e => hk e.symm, h⟩
      · intro h
        exact h.2

theorem contains_iff_mem_keys {t : Keyed κ α} {key : κ} :
    t.contains key = true ↔ key ∈ t.keys := by
  rw [contains, Option.isSome_iff_ne_none, ne_eq, find?_eq_none_iff, Decidable.not_not]

theorem contains_eq_false_iff {t : Keyed κ α} {key : κ} :
    t.contains key = false ↔ t.find? key = none := by
  simp [contains]

theorem contains_erase (t : Keyed κ α) (key key' : κ) :
    (t.erase key).contains key' = (key ≠ key' && t.contains key') := by
  by_cases h : key = key' <;> simp [contains, find?_erase, h]

theorem contains_insert [LT κ] [DecidableLT κ] (t : Keyed κ α) (key : κ) (value : α) (key' : κ) :
    (t.insert key value).contains key' = (key = key' || t.contains key') := by
  by_cases h : key = key' <;> simp [contains, find?_insert, h]

theorem mem_of_mem_insert [LT κ] [DecidableLT κ] {t : Keyed κ α} {key : κ} {value : α}
    {entry : κ × α} (h : entry ∈ t.insert key value) : entry = (key, value) ∨ entry ∈ t := by
  induction t with
  | nil => exact Or.inl (List.mem_singleton.mp h)
  | cons first rest ih =>
    rw [insert] at h
    split at h
    · exact (List.mem_cons.mp h).imp_right (List.mem_cons_of_mem first)
    · split at h
      · exact List.mem_cons.mp h
      · rcases List.mem_cons.mp h with rfl | hrest
        · exact Or.inr (List.mem_cons_self ..)
        · exact (ih hrest).imp_right (List.mem_cons_of_mem first)

/-! ## Changed entries -/

theorem modify_eq_self {t : Keyed κ α} {key : κ} (h : t.find? key = none) (change : α → α) :
    t.modify key change = t := by
  rw [find?_eq_none_iff] at h
  refine (List.map_congr_left ?_).trans (List.map_id t)
  rintro ⟨k, value⟩ hmem
  rw [if_neg]
  · rfl
  · rintro rfl
    exact h (List.mem_map_of_mem hmem)

theorem find?_modify_self {t : Keyed κ α} {key : κ} {value : α} (h : t.find? key = some value)
    (change : α → α) : (t.modify key change).find? key = some (change value) := by
  rw [find?_modify, if_pos rfl, h]
  rfl

theorem find?_modify_of_ne (t : Keyed κ α) {key key' : κ} (hne : key ≠ key') (change : α → α) :
    (t.modify key change).find? key' = t.find? key' := by
  rw [find?_modify, if_neg hne]

theorem modify_modify (t : Keyed κ α) (key : κ) (change change' : α → α) :
    (t.modify key change).modify key change' = t.modify key (change' ∘ change) := by
  unfold modify
  rw [List.map_map]
  apply List.map_congr_left
  intro entry _
  by_cases hkey : entry.1 = key <;> simp [hkey]

theorem modify_comm (t : Keyed κ α) {key key' : κ} (hne : key ≠ key') (change change' : α → α) :
    (t.modify key change).modify key' change' = (t.modify key' change').modify key change := by
  unfold modify
  rw [List.map_map, List.map_map]
  apply List.map_congr_left
  intro entry _
  by_cases hkey : entry.1 = key
  · simp [hkey, hne]
  · simp only [Function.comp_apply, if_neg hkey]
    split <;> simp

theorem erase_modify (t : Keyed κ α) (key key' : κ) (change : α → α) :
    (t.modify key change).erase key' = (t.erase key').modify key change := by
  unfold erase modify
  rw [List.filter_map]
  congr 1
  apply List.filter_congr
  intro entry _
  simp only [Function.comp_apply]
  split <;> rfl

theorem erase_eq_self {t : Keyed κ α} {key : κ} (h : t.find? key = none) : t.erase key = t := by
  rw [find?_eq_none_iff] at h
  refine List.filter_eq_self.mpr ?_
  rintro ⟨k, v⟩ hmem
  rw [decide_eq_true_eq]
  rintro rfl
  exact h (List.mem_map_of_mem hmem)

theorem erase_insert_self [LT κ] [DecidableLT κ] (t : Keyed κ α) (key : κ) (value : α) :
    (t.insert key value).erase key = t.erase key := by
  unfold erase
  induction t with
  | nil => simp [insert]
  | cons entry rest ih =>
    obtain ⟨k, v⟩ := entry
    rw [insert]
    split
    · next hk => simp [hk]
    · next hk =>
      split
      · simp
      · rw [List.filter_cons, List.filter_cons, ih]

section Order

variable [LT κ] [Std.Irrefl (α := κ) (· < ·)]

omit [DecidableEq κ] in
theorem nodup_keys {t : Keyed κ α} (ht : t.Sorted) : t.keys.Nodup := by
  refine List.Pairwise.imp ?_ ht
  rintro key key' hlt rfl
  exact Std.Irrefl.irrefl key hlt

theorem find?_of_mem {t : Keyed κ α} (ht : t.Sorted) {key : κ} {value : α}
    (h : (key, value) ∈ t) : t.find? key = some value := by
  induction t with
  | nil => simp at h
  | cons entry rest ih =>
    obtain ⟨k, v⟩ := entry
    obtain ⟨hk, hs⟩ := List.pairwise_cons.mp ht
    rw [find?_cons]
    rcases List.mem_cons.mp h with heq | hmem
    · obtain ⟨rfl, rfl⟩ := Prod.mk.inj heq
      rw [if_pos rfl]
    · have hlt : k < key := hk key (List.mem_map_of_mem hmem)
      have hne : k ≠ key := by
        rintro rfl
        exact Std.Irrefl.irrefl k hlt
      rw [if_neg hne, ih hs hmem]

/-- `find?` after some entries were filtered out. -/
theorem find?_filter {t : Keyed κ α} (ht : t.Sorted) (p : κ × α → Bool) (key : κ) :
    find? (t.filter p) key = (t.find? key).filter (fun value => p (key, value)) := by
  induction t with
  | nil => rfl
  | cons entry rest ih =>
    obtain ⟨k, v⟩ := entry
    obtain ⟨hk, hs⟩ := List.pairwise_cons.mp ht
    rw [List.filter_cons, find?_cons]
    by_cases he : k = key
    · subst he
      have hrest : find? rest k = none := by
        rw [find?_eq_none_iff]
        intro hmem
        exact Std.Irrefl.irrefl k (hk k hmem)
      cases hp : p (k, v) with
      | true => simp [find?_cons, Option.filter_some, hp]
      | false => simp [ih hs, hrest, Option.filter_some, hp]
    · cases hp : p (k, v) with
      | true => simp [find?_cons, he, ih hs]
      | false => simp [he, ih hs]

/-! ## The operations keep the order -/

omit [DecidableEq κ] [Std.Irrefl (α := κ) (· < ·)] in
theorem sorted_nil : Sorted ([] : Keyed κ α) :=
  List.Pairwise.nil

omit [DecidableEq κ] [Std.Irrefl (α := κ) (· < ·)] in
theorem sorted_filter {t : Keyed κ α} (ht : t.Sorted) (p : κ × α → Bool) :
    Sorted (t.filter p) :=
  List.Pairwise.sublist (List.Sublist.map _ List.filter_sublist) ht

omit [Std.Irrefl (α := κ) (· < ·)] in
theorem sorted_erase {t : Keyed κ α} (ht : t.Sorted) (key : κ) : (t.erase key).Sorted :=
  sorted_filter ht _

omit [LT κ] [Std.Irrefl (α := κ) (· < ·)] in
theorem keys_modify (t : Keyed κ α) (key : κ) (change : α → α) :
    (t.modify key change).keys = t.keys := by
  simp only [keys, modify, List.map_map]
  apply List.map_congr_left
  intro entry _
  simp only [Function.comp_apply]
  split <;> rfl

omit [Std.Irrefl (α := κ) (· < ·)] in
theorem sorted_modify {t : Keyed κ α} (ht : t.Sorted) (key : κ) (change : α → α) :
    (t.modify key change).Sorted := by
  unfold Sorted
  rw [keys_modify]
  exact ht

variable [DecidableLT κ]

omit [Std.Irrefl (α := κ) (· < ·)] in
theorem mem_keys_insert {t : Keyed κ α} {key : κ} {value : α} {key' : κ} :
    key' ∈ (t.insert key value).keys ↔ key' = key ∨ key' ∈ t.keys := by
  rw [← contains_iff_mem_keys, ← contains_iff_mem_keys, contains, contains, find?_insert]
  by_cases h : key = key'
  · simp [h]
  · have h' : key' ≠ key := fun e => h e.symm
    simp [h, h']

omit [Std.Irrefl (α := κ) (· < ·)] in
/-- The keys after `insert` depend on the keys only. -/
theorem keys_insert_congr {t t' : Keyed κ α} (h : t.keys = t'.keys) (key : κ) (value value' : α) :
    (t.insert key value).keys = (t'.insert key value').keys := by
  induction t generalizing t' with
  | nil =>
    obtain rfl : t' = [] := List.map_eq_nil_iff.mp h.symm
    rfl
  | cons entry rest ih =>
    cases t' with
    | nil => cases h
    | cons entry' rest' =>
      obtain ⟨k, v⟩ := entry
      obtain ⟨k', v'⟩ := entry'
      obtain ⟨rfl, hrest⟩ := List.cons.inj h
      simp only [insert]
      split
      · exact congrArg (key :: ·) hrest
      · split
        · exact congrArg (key :: ·) h
        · exact congrArg (k :: ·) (ih hrest)

variable [IsTrans κ (· < ·)] [Std.Trichotomous (α := κ) (· < ·)]

omit [Std.Irrefl (α := κ) (· < ·)] in
theorem sorted_insert {t : Keyed κ α} (ht : t.Sorted) (key : κ) (value : α) :
    (t.insert key value).Sorted := by
  induction t with
  | nil => simp [insert, Sorted, keys]
  | cons entry rest ih =>
    obtain ⟨k, v⟩ := entry
    obtain ⟨hk, hs⟩ := List.pairwise_cons.mp ht
    simp only [insert]
    split
    · next he =>
      subst he
      exact List.pairwise_cons.mpr ⟨hk, hs⟩
    · next he =>
      split
      · next hlt =>
        refine List.pairwise_cons.mpr ⟨?_, ht⟩
        intro k' hk'
        rcases List.mem_cons.mp hk' with rfl | hmem
        · exact hlt
        · exact IsTrans.trans _ _ _ hlt (hk k' hmem)
      · next hlt =>
        refine List.pairwise_cons.mpr ⟨?_, ih hs⟩
        intro k' hk'
        rcases mem_keys_insert.mp hk' with rfl | hmem
        · exact Decidable.byContradiction fun hnot =>
            he (Std.Trichotomous.trichotomous k k' hnot hlt)
        · exact hk k' hmem

end Order

/-- Sorted entries are determined by `find?`. -/
theorem eq_of_find?_eq [LT κ] [Std.Asymm (α := κ) (· < ·)] {t t' : Keyed κ α} (ht : Sorted t)
    (ht' : Sorted t') (h : ∀ key, t.find? key = t'.find? key) : t = t' := by
  have hasymm : Std.Asymm (fun a b : κ × α => a.1 < b.1) :=
    ⟨fun a b => Std.Asymm.asymm a.1 b.1⟩
  refine List.Pairwise.eq_of_mem_iff (List.pairwise_map.mp ht) (List.pairwise_map.mp ht') ?_
  rintro ⟨key, value⟩
  constructor
  · intro hmem
    exact mem_of_find? (by rw [← h]; exact find?_of_mem ht hmem)
  · intro hmem
    exact mem_of_find? (by rw [h]; exact find?_of_mem ht' hmem)

/-! ## Inserting an entry again -/

section Again

variable [LT κ] [DecidableLT κ] [Std.Asymm (α := κ) (· < ·)]

theorem insert_insert_self (t : Keyed κ α) (key : κ) (value value' : α) :
    (t.insert key value).insert key value' = t.insert key value' := by
  have hirrefl : ¬ key < key := fun hlt => Std.Asymm.asymm key key hlt hlt
  induction t with
  | nil => simp [insert]
  | cons entry rest ih =>
    obtain ⟨k, v⟩ := entry
    by_cases heq : k = key
    · simp [insert, heq]
    · by_cases hlt : key < k
      · simp [insert, heq, hlt]
      · simp [insert, heq, hlt, ih]

omit [Std.Asymm (α := κ) (· < ·)] in
/-- An entry that `insert` would not change stays so after another key is erased. -/
theorem insert_erase_of_insert {t : Keyed κ α} {key key' : κ} {value : α} (hne : key ≠ key')
    (h : t.insert key value = t) : (t.erase key').insert key value = t.erase key' := by
  induction t with
  | nil => cases h
  | cons entry rest ih =>
    obtain ⟨k, v⟩ := entry
    rw [erase, List.filter_cons]
    rw [insert] at h
    split at h
    · next heq =>
      obtain ⟨hentry, -⟩ := List.cons.inj h
      obtain ⟨rfl, rfl⟩ := Prod.mk.inj hentry
      rw [if_pos (by simpa using hne), insert, if_pos rfl]
    · next hk =>
      split at h
      · exact absurd (congrArg List.length h) (by simp)
      · next hnot =>
        have hrest := ih (List.cons.inj h).2
        split
        · rw [insert, if_neg hk, if_neg hnot]
          exact congrArg ((k, v) :: ·) hrest
        · exact hrest

/-- An entry that `insert` would not change stays so after another key is inserted. -/
theorem insert_insert_of_insert [IsTrans κ (· < ·)] {t : Keyed κ α} {key key' : κ} {value : α}
    (hne : key ≠ key') (h : t.insert key value = t) (value' : α) :
    (t.insert key' value').insert key value = t.insert key' value' := by
  induction t with
  | nil => cases h
  | cons entry rest ih =>
    obtain ⟨k, v⟩ := entry
    -- no key before the entry comes after it
    have hfirst : ¬ key < k := by
      intro hlt
      rw [insert] at h
      split at h
      · next heq =>
        subst heq
        exact Std.Asymm.asymm _ _ hlt hlt
      · exact absurd (congrArg List.length h) (by simp)
    have hrest : k ≠ key → insert rest key value = rest := by
      intro hk
      rw [insert, if_neg hk, if_neg hfirst] at h
      exact (List.cons.inj h).2
    have hafter : ¬ key < key' ∨ ¬ key' < k := by
      by_contra hboth
      rw [not_or, not_not, not_not] at hboth
      exact hfirst (IsTrans.trans _ _ _ hboth.1 hboth.2)
    by_cases heq' : k = key'
    · subst heq'
      simp only [insert, if_true, if_neg (Ne.symm hne), if_neg hfirst, hrest (Ne.symm hne)]
    · by_cases hlt' : key' < k
      · have hother : ¬ key < key' := hafter.resolve_right (not_not.mpr hlt')
        rw [insert, if_neg heq', if_pos hlt', insert, if_neg (Ne.symm hne), if_neg hother, h]
      · rw [insert, if_neg heq', if_neg hlt', insert]
        split
        · next heq =>
          rw [insert, if_pos heq] at h
          rw [(List.cons.inj h).1]
        · next hk => rw [ih (hrest hk)]

end Again

/-! ## What becomes of the entries -/

section Develops

variable {fit : α → Prop} {comes : α → α → Prop}

/-- Every entry of `t'` is `fit`, or `comes` from the entry of `t` under its key. -/
def Develops (fit : α → Prop) (comes : α → α → Prop) (t t' : Keyed κ α) : Prop :=
  ∀ key v', t'.find? key = some v' → fit v' ∨ ∃ v, t.find? key = some v ∧ comes v v'

theorem Develops.refl [Std.Refl comes] (t : Keyed κ α) : Develops fit comes t t :=
  fun _ v hv => Or.inr ⟨v, hv, Std.Refl.refl v⟩

theorem Develops.trans [IsTrans α comes] {t t' t'' : Keyed κ α}
    (hfit : ∀ v v', fit v → comes v v' → fit v') (h : Develops fit comes t t')
    (h' : Develops fit comes t' t'') : Develops fit comes t t'' := by
  intro key v'' hv''
  rcases h' key v'' hv'' with hdone | ⟨v', hv', hcomes'⟩
  · exact Or.inl hdone
  · rcases h key v' hv' with hdone | ⟨v, hv, hcomes⟩
    · exact Or.inl (hfit v' v'' hdone hcomes')
    · exact Or.inr ⟨v, hv, IsTrans.trans _ _ _ hcomes hcomes'⟩

theorem Develops.mono {fit' : α → Prop} {comes' : α → α → Prop} {t t' : Keyed κ α}
    (h : Develops fit comes t t') (hfit : ∀ v, fit v → fit' v)
    (hcomes : ∀ v v', comes v v' → comes' v v') : Develops fit' comes' t t' := by
  intro key v' hv'
  rcases h key v' hv' with hdone | ⟨v, hv, hfrom⟩
  · exact Or.inl (hfit v' hdone)
  · exact Or.inr ⟨v, hv, hcomes v v' hfrom⟩

theorem Develops.modify [Std.Refl comes] (t : Keyed κ α) (key : κ) (change : α → α)
    (hchange : ∀ v, t.find? key = some v → fit (change v) ∨ comes v (change v)) :
    Develops fit comes t (t.modify key change) := by
  intro key' v' hv'
  rw [find?_modify] at hv'
  split at hv'
  · next hkey =>
    subst hkey
    obtain ⟨v, hv, rfl⟩ := Option.map_eq_some_iff.mp hv'
    exact (hchange v hv).imp_right fun hcomes => ⟨v, hv, hcomes⟩
  · exact Develops.refl t key' v' hv'

theorem Develops.erase [Std.Refl comes] (t : Keyed κ α) (key : κ) :
    Develops fit comes t (t.erase key) := by
  intro key' v' hv'
  rw [find?_erase] at hv'
  split at hv'
  · cases hv'
  · exact Develops.refl t key' v' hv'

theorem Develops.insert [LT κ] [DecidableLT κ] [Std.Refl comes] (t : Keyed κ α) (key : κ) {v : α}
    (hfit : fit v) : Develops fit comes t (t.insert key v) := by
  intro key' v' hv'
  rw [find?_insert] at hv'
  split at hv'
  · obtain rfl := Option.some.inj hv'
    exact Or.inl hfit
  · exact Develops.refl t key' v' hv'

end Develops

/-! ## Dictionaries -/

theorem find?_mapValues {α β : Type} (f : α → β) (d : Dict α) (key : String) :
    find? (d.mapValues f) key = (find? d key).map f := by
  induction d with
  | nil => rfl
  | cons entry rest ih =>
    obtain ⟨k, v⟩ := entry
    rw [Dict.mapValues] at ih ⊢
    rw [List.map_cons, find?_cons, find?_cons, ih]
    split <;> rfl

theorem sorted_mapValues {α β : Type} (f : α → β) {d : Dict α} (hd : Sorted d) :
    Sorted (d.mapValues f) := by
  have hkeys : keys (d.mapValues f) = keys d := by
    unfold keys Dict.mapValues
    rw [List.map_map]
    rfl
  unfold Sorted
  rw [hkeys]
  exact hd

/-! ## Overlays -/

/-- `find?` in an overlaid dictionary asks the upper one first. -/
theorem find?_overlay {α : Type} (base : Dict α) {upper : Dict α} (hupper : Sorted upper)
    (key : String) :
    find? (Dict.overlay base upper) key = (find? upper key).or (find? base key) := by
  induction upper generalizing base with
  | nil => rfl
  | cons entry rest ih =>
    obtain ⟨k, v⟩ := entry
    obtain ⟨hk, hs⟩ := List.pairwise_cons.mp hupper
    have hrest : find? (Dict.overlay (insert base k v) rest) key
        = (find? rest key).or (find? (insert base k v) key) := ih _ hs
    refine hrest.trans ?_
    rw [find?_insert, find?_cons]
    by_cases he : k = key
    · subst he
      have hnone : find? rest k = none := by
        rw [find?_eq_none_iff]
        intro hmem
        exact Std.Irrefl.irrefl k (hk k hmem)
      rw [hnone, if_pos rfl, if_pos rfl]
      rfl
    · rw [if_neg he, if_neg he]

theorem sorted_overlay {α : Type} {base : Dict α} (hbase : Sorted base) (upper : Dict α) :
    Sorted (Dict.overlay base upper) := by
  unfold Dict.overlay
  induction upper generalizing base with
  | nil => exact hbase
  | cons entry rest ih => exact ih (sorted_insert hbase entry.1 entry.2)

/-- An overlay is the upper dictionary if and only if that has every key of the base. -/
theorem overlay_eq_upper_iff {α : Type} {base upper : Dict α} (hbase : Sorted base)
    (hupper : Sorted upper) :
    Dict.overlay base upper = upper
      ↔ ∀ key, base.contains key = true → upper.contains key = true := by
  constructor
  · intro hsame key hkey
    obtain ⟨v, hv⟩ := (contains_iff _ _).mp hkey
    have hfound := find?_overlay base hupper key
    rw [hsame, hv] at hfound
    rw [contains_iff]
    cases hu : find? upper key with
    | none =>
      rw [hu] at hfound
      cases hfound
    | some u => exact ⟨u, rfl⟩
  · intro hkeys
    refine eq_of_find?_eq (sorted_overlay hbase upper) hupper ?_
    intro key
    rw [find?_overlay base hupper]
    cases hu : find? upper key with
    | some u => rfl
    | none =>
      cases hb : find? base key with
      | none => rfl
      | some v =>
        obtain ⟨u, hu'⟩ := (contains_iff _ _).mp (hkeys key ((contains_iff _ _).mpr ⟨v, hb⟩))
        rw [hu] at hu'
        cases hu'

end DocumentSession.Keyed
