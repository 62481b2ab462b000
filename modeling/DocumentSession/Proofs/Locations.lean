import DocumentSession.Proofs.Change

set_option autoImplicit false

/-! # Locations in a value

A `Location` is a path into a value, by keys into objects and by positions into arrays. `spell`
writes it with a dot before every key but the first one, and with the positions in brackets, as in
`Lines[0].Product`.

Not every spelling can be read back: a key may be empty, or have dots and brackets of its own.
`spell` is injective on the locations whose keys are plain (`spell_inj`). -/

namespace DocumentSession.Change

/-- A step into a value. -/
inductive Step where
  /-- To the member of an object under `key`. -/
  | member (key : String)
  /-- To the item of an array at `position`. -/
  | item (position : Nat)
  deriving DecidableEq, Repr

/-- A path from a value to one inside it. -/
abbrev Location := List Step

/-- What a value has behind one step. -/
def part? : Json → Step → Option Json
  | .obj members, .member key => Keyed.find? members key
  | .arr items, .item position => items[position]?
  | _, _ => none

/-- What a value has at a location. -/
def at? : Json → Location → Option Json
  | v, [] => some v
  | v, s :: rest => (part? v s).bind fun w => at? w rest

theorem at?_append (v : Json) (base rest : Location) :
    at? v (base ++ rest) = (at? v base).bind fun w => at? w rest := by
  induction base generalizing v with
  | nil => rfl
  | cons s base ih =>
    rw [List.cons_append, at?, at?, Option.bind_assoc]
    exact congrArg (part? v s).bind (funext ih)

theorem at?_append_step (v : Json) (base : Location) (s : Step) :
    at? v (base ++ [s]) = (at? v base).bind fun w => part? w s := by
  rw [at?_append]
  simp [at?]

/-! ## Spelling -/

/-- How a step is spelled behind other ones. -/
def Step.text : Step → String
  | .member key => "." ++ key
  | .item position => "[" ++ toString position ++ "]"

/-- How steps are spelled behind other ones. -/
def spellSteps : Location → String
  | [] => ""
  | s :: rest => s.text ++ spellSteps rest

/-- How a location is spelled. -/
def spell : Location → String
  | .member key :: rest => key ++ spellSteps rest
  | loc => spellSteps loc

theorem spellSteps_append (base rest : Location) :
    spellSteps (base ++ rest) = spellSteps base ++ spellSteps rest := by
  induction base with
  | nil => simp [spellSteps]
  | cons s base ih => rw [List.cons_append, spellSteps, spellSteps, ih, String.append_assoc]

theorem spell_append_step {base : Location} (hne : base ≠ []) (s : Step) :
    spell (base ++ [s]) = spell base ++ s.text := by
  have hstep : spellSteps [s] = s.text := by simp [spellSteps]
  match base with
  | [] => exact absurd rfl hne
  | .member key :: rest =>
    rw [List.cons_append, spell, spell, spellSteps_append, hstep, String.append_assoc]
  | .item position :: rest =>
    have happend := spellSteps_append (.item position :: rest) [s]
    rwa [hstep] at happend

theorem spell_append_item (base : Location) (position : Nat) :
    spell (base ++ [.item position]) = spell base ++ positionText position := by
  by_cases hne : base = []
  · simp [hne, spell, spellSteps, Step.text, positionText]
  · rw [spell_append_step hne, Step.text, positionText]

/-! ## Plain keys -/

/-- `c` begins no step behind other ones. -/
def isInner (c : Char) : Bool :=
  c ≠ '.' && c ≠ '['

/-- `key` is not empty, and has no character that begins a step. It may have `]`. -/
def isPlainKey (key : String) : Bool :=
  key ≠ "" && key.toList.all isInner

/-- The key of a step is plain; a position has none. -/
def Step.isPlain : Step → Bool
  | .member key => isPlainKey key
  | .item _ => true

mutual

/-- All keys of a value, at any depth, are plain. -/
def keysArePlain : Json → Bool
  | .arr items => itemKeysArePlain items
  | .obj members => memberKeysArePlain members
  | _ => true

/-- All keys of `items` are plain. -/
def itemKeysArePlain : List Json → Bool
  | [] => true
  | item :: rest => keysArePlain item && itemKeysArePlain rest

/-- All keys of `members`, and in their values, are plain. -/
def memberKeysArePlain : List (String × Json) → Bool
  | [] => true
  | (key, value) :: rest => isPlainKey key && keysArePlain value && memberKeysArePlain rest

end

theorem itemKeysArePlain_of_mem {items : List Json} (h : itemKeysArePlain items = true)
    {item : Json} (hmem : item ∈ items) : keysArePlain item = true := by
  induction items with
  | nil => cases hmem
  | cons first rest ih =>
    rw [itemKeysArePlain, Bool.and_eq_true] at h
    rcases List.mem_cons.mp hmem with rfl | hmem
    · exact h.1
    · exact ih h.2 hmem

theorem memberKeysArePlain_of_mem {members : List (String × Json)}
    (h : memberKeysArePlain members = true) {key : String} {value : Json}
    (hmem : (key, value) ∈ members) : isPlainKey key = true ∧ keysArePlain value = true := by
  induction members with
  | nil => cases hmem
  | cons first rest ih =>
    obtain ⟨k, v⟩ := first
    simp only [memberKeysArePlain, Bool.and_eq_true] at h
    rcases List.mem_cons.mp hmem with heq | hmem
    · obtain ⟨rfl, rfl⟩ := Prod.mk.inj heq
      exact h.1
    · exact ih h.2 hmem

theorem keysArePlain_part {v w : Json} {s : Step} (h : keysArePlain v = true)
    (hw : part? v s = some w) : s.isPlain = true ∧ keysArePlain w = true := by
  unfold part? at hw
  split at hw
  · exact memberKeysArePlain_of_mem h (Keyed.mem_of_find? hw)
  · exact ⟨rfl, itemKeysArePlain_of_mem h (List.mem_of_getElem? hw)⟩
  · cases hw

/-- A location in a value with plain keys has plain keys. -/
theorem plain_of_at? {v w : Json} {loc : Location} (h : keysArePlain v = true)
    (hw : at? v loc = some w) : ∀ s ∈ loc, s.isPlain = true := by
  induction loc generalizing v with
  | nil => simp
  | cons s rest ih =>
    rw [at?, Option.bind_eq_some_iff] at hw
    obtain ⟨u, hu, hw⟩ := hw
    obtain ⟨hs, hplain⟩ := keysArePlain_part h hu
    exact List.forall_mem_cons.mpr ⟨hs, ih hplain hw⟩

theorem isWellFormed_of_at? {v w : Json} {loc : Location} (h : v.isWellFormed = true)
    (hw : at? v loc = some w) : w.isWellFormed = true := by
  induction loc generalizing v with
  | nil =>
    obtain rfl := Option.some.inj hw
    exact h
  | cons s rest ih =>
    rw [at?, Option.bind_eq_some_iff] at hw
    obtain ⟨u, hu, hw⟩ := hw
    refine ih ?_ hw
    unfold part? at hu
    split at hu
    · exact Json.isWellFormed_of_mem h (Keyed.mem_of_find? hu)
    · exact Json.isWellFormed_of_mem_items h (List.mem_of_getElem? hu)
    · cases hu

/-! ## Spelled locations of plain keys -/

theorem ne_empty_of_isPlainKey {key : String} (h : isPlainKey key = true) : key ≠ "" := by
  rw [isPlainKey, Bool.and_eq_true] at h
  simpa using h.1

theorem isInner_of_isPlainKey {key : String} (h : isPlainKey key = true) :
    ∀ c ∈ key.toList, isInner c = true := by
  rw [isPlainKey, Bool.and_eq_true] at h
  exact List.all_eq_true.mp h.2

theorem isInner_digits (n : Nat) : ∀ c ∈ Nat.toDigits 10 n, isInner c = true := by
  intro c hc
  have hdigit := Nat.isDigit_of_mem_toDigits (by decide) (by decide) hc
  have hdot : c ≠ '.' := by
    rintro rfl
    simp at hdigit
  have hbracket : c ≠ '[' := by
    rintro rfl
    simp at hdigit
  simp [isInner, hdot, hbracket]

/-- The character that begins a step behind other ones. -/
def Step.mark : Step → Char
  | .member _ => '.'
  | .item _ => '['

/-- What is spelled of a step after its `mark`. -/
def Step.body : Step → List Char
  | .member key => key.toList
  | .item position => Nat.toDigits 10 position ++ [']']

theorem Step.toList_text (s : Step) : s.text.toList = s.mark :: s.body := by
  cases s with
  | member key => simp [Step.text, Step.mark, Step.body]
  | item position =>
    simp [Step.text, Step.mark, Step.body, Nat.toString_eq_repr, Nat.toList_repr]

theorem Step.isInner_body {s : Step} (h : s.isPlain = true) : ∀ c ∈ s.body, isInner c = true := by
  cases s with
  | member key => exact isInner_of_isPlainKey h
  | item position =>
    intro c hc
    rcases List.mem_append.mp hc with hc | hc
    · exact isInner_digits position c hc
    · obtain rfl := List.mem_singleton.mp hc
      decide

theorem Step.eq_of_mark_body {s s' : Step} (hmark : s.mark = s'.mark) (hbody : s.body = s'.body) :
    s = s' := by
  cases s with
  | member key =>
    cases s' with
    | member key' => exact congrArg Step.member (String.toList_inj.mp hbody)
    | item position' => simp [mark] at hmark
  | item position =>
    cases s' with
    | member key' => simp [mark] at hmark
    | item position' =>
      -- the digits are read back as the position
      have hdigits := congrArg (Nat.ofDigitChars 10 · 0) (List.append_cancel_right hbody)
      simp only [Nat.ofDigitChars_toDigits, Nat.reduceLT, Nat.reduceLeDiff] at hdigits
      exact congrArg Step.item hdigits

/-- Texts of inner characters are determined by their concatenation with what follows, where that is
empty or begins with another character. -/
theorem append_inj_of_inner {a a' b b' : List Char} (ha : ∀ c ∈ a, isInner c = true)
    (ha' : ∀ c ∈ a', isInner c = true) (hb : ∀ c ∈ b.head?, isInner c = false)
    (hb' : ∀ c ∈ b'.head?, isInner c = false) (h : a ++ b = a' ++ b') : a = a' ∧ b = b' := by
  induction a generalizing a' with
  | nil =>
    cases a' with
    | nil => exact ⟨rfl, h⟩
    | cons c a' =>
      rw [List.nil_append] at h
      have hout := hb c (by simp [h])
      simp [ha' c (List.mem_cons_self ..)] at hout
  | cons c a ih =>
    cases a' with
    | nil =>
      rw [List.nil_append] at h
      have hout := hb' c (by simp [← h])
      simp [ha c (List.mem_cons_self ..)] at hout
    | cons c' a' =>
      obtain ⟨rfl, hrest⟩ := List.cons.inj h
      obtain ⟨rfl, hb⟩ := ih (List.forall_mem_cons.mp ha).2 (List.forall_mem_cons.mp ha').2 hrest
      exact ⟨rfl, hb⟩

theorem toList_spellSteps_cons (s : Step) (rest : Location) :
    (spellSteps (s :: rest)).toList = s.mark :: (s.body ++ (spellSteps rest).toList) := by
  rw [spellSteps, String.toList_append, Step.toList_text, List.cons_append]

theorem head?_spellSteps (loc : Location) :
    ∀ c ∈ (spellSteps loc).toList.head?, isInner c = false := by
  cases loc with
  | nil => simp [spellSteps]
  | cons s rest =>
    rw [toList_spellSteps_cons]
    cases s <;> simp [Step.mark, isInner]

theorem spellSteps_cons_ne_empty (s : Step) (rest : Location) : spellSteps (s :: rest) ≠ "" := by
  intro h
  have hchars := congrArg String.toList h
  rw [toList_spellSteps_cons] at hchars
  simp at hchars

theorem spellSteps_inj {loc loc' : Location} (hplain : ∀ s ∈ loc, s.isPlain = true)
    (hplain' : ∀ s ∈ loc', s.isPlain = true) (h : spellSteps loc = spellSteps loc') :
    loc = loc' := by
  induction loc generalizing loc' with
  | nil =>
    cases loc' with
    | nil => rfl
    | cons s' rest' => exact absurd h.symm (spellSteps_cons_ne_empty s' rest')
  | cons s rest ih =>
    cases loc' with
    | nil => exact absurd h (spellSteps_cons_ne_empty s rest)
    | cons s' rest' =>
      have hchars := congrArg String.toList h
      rw [toList_spellSteps_cons, toList_spellSteps_cons] at hchars
      obtain ⟨hmark, hchars⟩ := List.cons.inj hchars
      obtain ⟨hs, hplain⟩ := List.forall_mem_cons.mp hplain
      obtain ⟨hs', hplain'⟩ := List.forall_mem_cons.mp hplain'
      obtain ⟨hbody, hrest⟩ := append_inj_of_inner (Step.isInner_body hs) (Step.isInner_body hs')
        (head?_spellSteps rest) (head?_spellSteps rest') hchars
      rw [Step.eq_of_mark_body hmark hbody, ih hplain hplain' (String.toList_inj.mp hrest)]

theorem spell_cases (loc : Location) :
    (∃ key rest, loc = .member key :: rest) ∨ spell loc = spellSteps loc := by
  match loc with
  | [] => exact Or.inr rfl
  | .member key :: rest => exact Or.inl ⟨key, rest, rfl⟩
  | .item _ :: _ => exact Or.inr rfl

/-- A spelling that begins with a plain key is none that begins with `.` or `[`. -/
theorem spell_member_ne_spellSteps {key : String} (h : isPlainKey key = true)
    (rest loc : Location) : spell (.member key :: rest) ≠ spellSteps loc := by
  intro heq
  cases hkey : key.toList with
  | nil => exact ne_empty_of_isPlainKey h (String.toList_eq_nil_iff.mp hkey)
  | cons c cs =>
    have hinner := isInner_of_isPlainKey h c (by simp [hkey])
    have hout := head?_spellSteps loc c (by simp [← heq, spell, hkey])
    simp [hinner] at hout

/-- `spell` is injective on locations with plain keys. -/
theorem spell_inj {loc loc' : Location} (hplain : ∀ s ∈ loc, s.isPlain = true)
    (hplain' : ∀ s ∈ loc', s.isPlain = true) (h : spell loc = spell loc') : loc = loc' := by
  rcases spell_cases loc with ⟨key, rest, rfl⟩ | hsteps <;>
    rcases spell_cases loc' with ⟨key', rest', rfl⟩ | hsteps'
  · -- behind another step both would be written with a dot before them
    refine spellSteps_inj hplain hplain' ?_
    simp only [spell] at h
    rw [spellSteps, spellSteps, Step.text, Step.text, String.append_assoc, h, String.append_assoc]
  · have hkey : isPlainKey key = true := hplain (.member key) (List.mem_cons_self ..)
    exact absurd (h.trans hsteps') (spell_member_ne_spellSteps hkey rest loc')
  · have hkey' : isPlainKey key' = true := hplain' (.member key') (List.mem_cons_self ..)
    exact absurd (h.symm.trans hsteps) (spell_member_ne_spellSteps hkey' rest' loc)
  · exact spellSteps_inj hplain hplain' (hsteps.symm.trans (h.trans hsteps'))

/-- A key with a dot in it is spelled like two keys. -/
example : spell [.member "Address.City"] = spell [.member "Address", .member "City"] := by
  decide +kernel

theorem spell_ne_empty {loc : Location} (hplain : ∀ s ∈ loc, s.isPlain = true)
    (hne : loc ≠ []) : spell loc ≠ "" := by
  intro h
  exact hne (spell_inj hplain (by simp) h)

/-- `join` spells a field below a location. -/
theorem join_spell {base : Location} (hplain : ∀ s ∈ base, s.isPlain = true) (key : String) :
    join (spell base) key = spell (base ++ [.member key]) := by
  unfold join
  by_cases hne : base = []
  · simp [hne, spell, spellSteps]
  · rw [if_neg (spell_ne_empty hplain hne), spell_append_step hne, Step.text, String.append_assoc]

end DocumentSession.Change
