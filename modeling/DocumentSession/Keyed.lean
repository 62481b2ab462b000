set_option autoImplicit false

/-! # Keyed entries

Dictionaries and numbered tables are both lists of entries under keys, written in the order of the
keys, so whatever walks one of them meets its keys in this order.

Every operation is read through `Keyed.find?`: the lemmas below say what `insert`, `erase` and
`modify` do to it, and none of them needs the list to be sorted. -/

namespace DocumentSession

/-- Entries under keys. -/
abbrev Keyed (κ α : Type) := List (κ × α)

/-- Entries under numbers. Records and instances are numbered in the order in which they come up, so
walking their table walks them in that order. -/
abbrev Table (α : Type) := Keyed Nat α

namespace Keyed

variable {κ α : Type} [DecidableEq κ]

/-- The entry under a key. -/
def find? (t : Keyed κ α) (key : κ) : Option α :=
  match t with
  | [] => none
  | (k, v) :: rest => if k = key then some v else find? rest key

/-- Whether a key has an entry. -/
def contains (t : Keyed κ α) (key : κ) : Bool :=
  (find? t key).isSome

/-- Put an entry under a key, in the place of the one it had, else at the place where the order of
the keys wants it. -/
def insert [LT κ] [DecidableLT κ] (t : Keyed κ α) (key : κ) (value : α) : Keyed κ α :=
  match t with
  | [] => [(key, value)]
  | (k, v) :: rest =>
    if k = key then (key, value) :: rest
    else if key < k then (key, value) :: (k, v) :: rest
    else (k, v) :: insert rest key value

/-- Forget a key. -/
def erase (t : Keyed κ α) (key : κ) : Keyed κ α :=
  t.filter (fun entry => entry.1 ≠ key)

/-- Change the entry under a key, if there is one. -/
def modify (t : Keyed κ α) (key : κ) (change : α → α) : Keyed κ α :=
  t.map (fun entry => if entry.1 = key then (entry.1, change entry.2) else entry)

/-- The keys, in order. -/
def keys (t : Keyed κ α) : List κ :=
  t.map (·.1)

/-! ## What the operations do to a look-up -/

@[simp] theorem find?_nil (key : κ) : find? ([] : Keyed κ α) key = none := rfl

theorem find?_cons (k : κ) (v : α) (rest : Keyed κ α) (key : κ) :
    find? ((k, v) :: rest) key = if k = key then some v else find? rest key := rfl

theorem find?_insert [LT κ] [DecidableLT κ] (t : Keyed κ α) (key : κ) (value : α) (key' : κ) :
    find? (insert t key value) key' = if key = key' then some value else find? t key' := by
  induction t with
  | nil => rfl
  | cons entry rest ih =>
    obtain ⟨k, v⟩ := entry
    simp only [insert]
    split
    · next hk =>
      subst hk
      simp only [find?_cons]
      split <;> rfl
    · next hk =>
      split
      · simp only [find?_cons]
      · simp only [find?_cons, ih]
        split
        · next hk' =>
          subst hk'
          rw [if_neg (fun h => hk h.symm)]
        · rfl

theorem find?_erase (t : Keyed κ α) (key key' : κ) :
    find? (erase t key) key' = if key = key' then none else find? t key' := by
  induction t with
  | nil => simp [erase]
  | cons entry rest ih =>
    obtain ⟨k, v⟩ := entry
    simp only [erase] at ih ⊢
    by_cases hk : k = key
    · subst hk
      simp only [ne_eq, not_true_eq_false, decide_false, Bool.false_eq_true, not_false_eq_true,
        List.filter_cons_of_neg, ih, find?_cons]
      split <;> rfl
    · simp only [ne_eq, hk, not_false_eq_true, decide_true, List.filter_cons_of_pos, find?_cons, ih]
      split
      · next hk' =>
        subst hk'
        rw [if_neg (fun h => hk h.symm)]
      · rfl

theorem find?_modify (t : Keyed κ α) (key : κ) (change : α → α) (key' : κ) :
    find? (modify t key change) key'
      = if key = key' then (find? t key').map change else find? t key' := by
  induction t with
  | nil => simp [modify]
  | cons entry rest ih =>
    obtain ⟨k, v⟩ := entry
    simp only [modify, List.map_cons] at ih ⊢
    by_cases hk : k = key
    · subst hk
      simp only [↓reduceIte, find?_cons, ih]
      split <;> rfl
    · simp only [hk, ↓reduceIte, find?_cons, ih]
      split
      · next hk' =>
        subst hk'
        rw [if_neg (fun h => hk h.symm)]
      · rfl

theorem contains_iff (t : Keyed κ α) (key : κ) :
    contains t key = true ↔ ∃ v, find? t key = some v := by
  simp [contains, Option.isSome_iff_exists]

/-! ## Order -/

/-- Every key comes before all keys after it. A list built by `insert` from the empty one is. -/
def Sorted [LT κ] (t : Keyed κ α) : Prop :=
  (keys t).Pairwise (· < ·)

end Keyed

end DocumentSession
