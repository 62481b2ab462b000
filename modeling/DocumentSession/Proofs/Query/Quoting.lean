import DocumentSession.Query.Clause
import Mathlib.Data.List.DropRight

set_option autoImplicit false

/-! # Names between quotes

A text is read as bare characters and sections between quotes. A quote, single or double, begins a
section, which the next quote of the same kind ends; within a section a backslash takes its meaning
from the character behind it (`lexemes`).

A name is safe in a text if every section is closed within it, and if the name is one section where
quotes were put around it (`NamePlace.isSafe`). Quotes within a name get a backslash, but
backslashes do not get one, and a name with quotes of its own may be written as it is. So not every
name is safe (`written_names_safe_iff`). -/

namespace DocumentSession.Query

/-! ## Reading quotes -/

/-- Whether a character begins a section. -/
def isQuote (c : Char) : Bool :=
  c = '\'' || c = '"'

theorem eq_or_eq_of_isQuote {c : Char} (h : isQuote c = true) : c = '\'' ∨ c = '"' := by
  simpa [isQuote] using h

/-- A bare character, or a section without the quotes around it. -/
inductive Lexeme where
  | bare (c : Char)
  | quoted (quote : Char) (body : List Char)
  deriving DecidableEq

/-- Where a reader is: outside of sections, or in one, behind the characters of its body, the last
one first, and maybe directly behind a backslash that takes the next character its meaning. -/
inductive Reader where
  | outside
  | inside (quote : Char) (body : List Char)
  | escaping (quote : Char) (body : List Char)

/-- Read a text to its end; a section that is not closed there cannot be read. -/
def lexemes : Reader → List Char → Option (List Lexeme)
  | .outside, [] => some []
  | .inside .., [] | .escaping .., [] => none
  | .outside, c :: cs =>
    if isQuote c then lexemes (.inside c []) cs else (lexemes .outside cs).map (.bare c :: ·)
  | .inside quote body, c :: cs =>
    if c = '\\' then lexemes (.escaping quote (c :: body)) cs
    else if c = quote then (lexemes .outside cs).map (.quoted quote body.reverse :: ·)
    else lexemes (.inside quote (c :: body)) cs
  | .escaping quote body, c :: cs => lexemes (.inside quote (c :: body)) cs

/-- Whether a text that was read is a single section. -/
def isSection : Option (List Lexeme) → Bool
  | some [.quoted ..] => true
  | _ => false

/-- Outside of sections, at the end, nothing is left to read. -/
theorem of_lexemes_eq_nil {r : Reader} {cs : List Char} (h : lexemes r cs = some []) :
    r = .outside ∧ cs = [] := by
  fun_induction lexemes r cs with
  | case1 => exact ⟨rfl, rfl⟩
  | case2 | case3 => cases h
  | case4 c cs hquote ih | case6 quote body cs ih | case8 quote body c cs _ _ ih
  | case9 quote body c cs ih => cases (ih h).1
  | case5 | case7 => simp at h

/-- A section with more behind it is not all. -/
theorem isSection_cons_quoted (quote : Char) (body : List Char) {rest : Option (List Lexeme)}
    (h : rest ≠ some []) : isSection (rest.map (.quoted quote body :: ·)) = false := by
  match rest with
  | none => rfl
  | some [] => exact absurd rfl h
  | some (l :: ls) => rfl

/-! ## Texts of closed sections -/

/-- The body of a section: no quote of its kind stands in it without a backslash. -/
inductive SectionBody (quote : Char) : List Char → Prop where
  | nil : SectionBody quote []
  | plain {c : Char} {cs : List Char} (quote_ne : c ≠ quote) (backslash_ne : c ≠ '\\')
      (rest : SectionBody quote cs) : SectionBody quote (c :: cs)
  | escaped {c : Char} {cs : List Char} (rest : SectionBody quote cs) :
      SectionBody quote ('\\' :: c :: cs)

/-- A text of bare characters and whole sections. -/
inductive Sectioned : List Char → Prop where
  | nil : Sectioned []
  | bare {c : Char} {cs : List Char} (bare : isQuote c = false) (rest : Sectioned cs) :
      Sectioned (c :: cs)
  | quoted {quote : Char} {cs cs' : List Char} (quote_eq : isQuote quote = true)
      (body : SectionBody quote cs) (rest : Sectioned cs') :
      Sectioned (quote :: (cs ++ quote :: cs'))

theorem lexemes_sectionBody {quote : Char} (hquote : isQuote quote = true) {body : List Char}
    (hbody : SectionBody quote body) (before cs : List Char) :
    lexemes (.inside quote before) (body ++ quote :: cs)
      = (lexemes .outside cs).map (.quoted quote (before.reverse ++ body) :: ·) := by
  induction hbody generalizing before with
  | nil =>
    have hne : quote ≠ '\\' := by
      rintro rfl
      cases hquote
    rw [List.nil_append, lexemes, if_neg hne, if_pos rfl, List.append_nil]
  | plain quote_ne backslash_ne rest ih =>
    rw [List.cons_append, lexemes, if_neg backslash_ne, if_neg quote_ne, ih]
    simp
  | escaped rest ih =>
    rw [List.cons_append, List.cons_append, lexemes, if_pos rfl, lexemes, ih]
    simp

theorem lexemes_isSome_of_sectioned {cs : List Char} (h : Sectioned cs) :
    (lexemes .outside cs).isSome = true := by
  induction h with
  | nil => rfl
  | bare hbare rest ih => simpa [lexemes, hbare] using ih
  | quoted hquote hbody rest ih =>
    rw [lexemes, if_pos hquote, lexemes_sectionBody hquote hbody, Option.isSome_map]
    exact ih

/-- A section that is closed has a body, and what is behind it is read on its own. -/
theorem sectionBody_of_lexemes {quote : Char} (before : List Char) :
    ∀ cs, (lexemes (.inside quote before) cs).isSome = true →
      ∃ body rest, cs = body ++ quote :: rest ∧ SectionBody quote body
        ∧ (lexemes .outside rest).isSome = true := by
  intro cs h
  match cs with
  | [] => cases h
  | c :: cs' =>
    rw [lexemes] at h
    split at h
    · next hc =>
      subst hc
      match cs' with
      | [] => cases h
      | c' :: rest' =>
        obtain ⟨body, rest, rfl, hbody, hrest⟩ := sectionBody_of_lexemes _ rest' h
        exact ⟨'\\' :: c' :: body, rest, rfl, .escaped hbody, hrest⟩
    · next hbackslash =>
      split at h
      · next hc =>
        subst hc
        rw [Option.isSome_map] at h
        exact ⟨[], cs', rfl, .nil, h⟩
      · next hquote =>
        obtain ⟨body, rest, rfl, hbody, hrest⟩ := sectionBody_of_lexemes _ cs' h
        exact ⟨c :: body, rest, rfl, .plain hquote hbackslash hbody, hrest⟩

/-- A text can be read if and only if it is made of bare characters and whole sections. -/
theorem lexemes_isSome_iff (cs : List Char) :
    (lexemes .outside cs).isSome = true ↔ Sectioned cs := by
  refine ⟨?_, lexemes_isSome_of_sectioned⟩
  intro h
  match cs with
  | [] => exact .nil
  | c :: cs' =>
    rw [lexemes] at h
    split at h
    · next hquote =>
      obtain ⟨body, rest, rfl, hbody, hrest⟩ := sectionBody_of_lexemes [] cs' h
      exact .quoted hquote hbody ((lexemes_isSome_iff rest).mp hrest)
    · next hquote =>
      rw [Option.isSome_map] at h
      exact .bare (Bool.not_eq_true _ ▸ hquote) ((lexemes_isSome_iff cs').mp h)
termination_by cs.length

/-- Without quotes there is nothing to close. -/
theorem sectioned_of_bare {cs : List Char} (h : ∀ c ∈ cs, isQuote c = false) : Sectioned cs := by
  induction cs with
  | nil => exact .nil
  | cons c cs ih =>
    exact .bare (h c (List.mem_cons_self ..)) (ih fun c' hc' => h c' (List.mem_cons_of_mem c hc'))

/-! ## Names that get quotes -/

/-- How many backslashes a text ends with. -/
def backslashes (cs : List Char) : Nat :=
  (cs.rtakeWhile (· = '\\')).length

/-- In front of every single quote, and at the end, stands an even number of backslashes. -/
def EvenRuns (cs : List Char) : Prop :=
  ∀ us vs, us ++ vs = cs → (∀ c, vs.head? = some c → c = '\'') → backslashes us % 2 = 0

/-- The same, read from the front, behind an odd or even number of backslashes. -/
def evenRuns (odd : Bool) : List Char → Bool
  | [] => !odd
  | c :: cs =>
    if c = '\\' then evenRuns (!odd) cs
    else if c = '\'' then !odd && evenRuns false cs
    else evenRuns false cs

theorem backslashes_concat (cs : List Char) (c : Char) :
    backslashes (cs ++ [c]) = if c = '\\' then backslashes cs + 1 else 0 := by
  unfold backslashes
  by_cases hc : c = '\\' <;> simp [hc]

theorem evenRuns_iff_behind (before cs : List Char) :
    evenRuns (backslashes before % 2 = 1) cs = true
      ↔ ∀ us vs, us ++ vs = cs → (∀ c, vs.head? = some c → c = '\'') →
          backslashes (before ++ us) % 2 = 0 := by
  induction cs generalizing before with
  | nil =>
    constructor
    · intro h us vs hsplit _
      obtain ⟨rfl, -⟩ := List.append_eq_nil_iff.mp hsplit
      simpa [evenRuns] using h
    · intro h
      simpa [evenRuns] using h [] [] rfl nofun
  | cons c cs ih =>
    -- the cut is in front of the first character or behind it
    have hcuts : (∀ us vs, us ++ vs = c :: cs → (∀ c, vs.head? = some c → c = '\'') →
          backslashes (before ++ us) % 2 = 0)
        ↔ (c = '\'' → backslashes before % 2 = 0)
          ∧ evenRuns (backslashes (before ++ [c]) % 2 = 1) cs = true := by
      rw [ih]
      constructor
      · intro h
        refine ⟨?_, ?_⟩
        · intro hc
          simpa using h [] (c :: cs) rfl (fun c' hc' => (Option.some.inj hc').symm.trans hc)
        · intro us vs hsplit hhead
          rw [List.append_assoc]
          exact h (c :: us) vs (congrArg (c :: ·) hsplit) hhead
      · rintro ⟨hfirst, hrest⟩ us vs hsplit hhead
        cases us with
        | nil =>
          rw [List.nil_append] at hsplit
          rw [List.append_nil]
          exact hfirst (hhead c (by rw [hsplit]; rfl))
        | cons u us =>
          obtain ⟨rfl, hsplit'⟩ := List.cons.inj hsplit
          have hbehind := hrest us vs hsplit' hhead
          rwa [List.append_assoc] at hbehind
    rw [hcuts, evenRuns, backslashes_concat]
    by_cases hbackslash : c = '\\'
    · have hparity : (!decide (backslashes before % 2 = 1))
          = decide ((backslashes before + 1) % 2 = 1) := by
        rw [← decide_not]
        exact decide_eq_decide.mpr (by omega)
      have hquote : c ≠ '\'' := by
        rintro rfl
        cases hbackslash
      rw [if_pos hbackslash, if_pos hbackslash, hparity]
      exact ⟨fun h => ⟨fun hc => absurd hc hquote, h⟩, And.right⟩
    · rw [if_neg hbackslash, if_neg hbackslash]
      by_cases hquote : c = '\''
      · simp [hquote]
      · simp [hquote]

theorem evenRuns_iff (cs : List Char) : evenRuns false cs = true ↔ EvenRuns cs :=
  evenRuns_iff_behind [] cs

/-- A reader in a section of single quotes, maybe behind a backslash. -/
def singleQuoted (odd : Bool) (body : List Char) : Reader :=
  if odd then .escaping '\'' body else .inside '\'' body

theorem escapeQuotes_cons (c : Char) (cs : List Char) :
    Text.escapeQuotes (c :: cs)
      = (if c = '\'' then ['\\', '\''] else [c]) ++ Text.escapeQuotes cs :=
  List.flatMap_cons

/-- The backslash that is put in front of a quote keeps its meaning, and so does the quote at the
end, behind an even number of backslashes only. -/
theorem isSection_escapeQuotes (odd : Bool) (body cs : List Char) :
    isSection (lexemes (singleQuoted odd body) (Text.escapeQuotes cs ++ ['\'']))
      = evenRuns odd cs := by
  induction cs generalizing odd body with
  | nil => cases odd <;> rfl
  | cons c cs ih =>
    have hinside (body : List Char) := ih false body
    have hescaping (body : List Char) := ih true body
    simp only [singleQuoted, if_true, Bool.false_eq_true, if_false] at hinside hescaping
    rw [escapeQuotes_cons, evenRuns]
    by_cases hquote : c = '\''
    · subst hquote
      cases odd with
      | false => simpa [singleQuoted, lexemes] using hinside ('\'' :: '\\' :: body)
      | true =>
        -- the quote ends the section, but the text goes on
        have hmore : lexemes .outside (Text.escapeQuotes cs ++ ['\'']) ≠ some [] := by
          intro h
          simpa using (of_lexemes_eq_nil h).2
        simpa [singleQuoted, lexemes] using isSection_cons_quoted '\'' ('\\' :: body).reverse hmore
    · by_cases hbackslash : c = '\\'
      · subst hbackslash
        cases odd with
        | false => simpa [singleQuoted, lexemes] using hescaping ('\\' :: body)
        | true => simpa [singleQuoted, lexemes] using hinside ('\\' :: body)
      · cases odd with
        | false => simpa [singleQuoted, lexemes, hquote, hbackslash] using hinside (c :: body)
        | true => simpa [singleQuoted, lexemes, hquote, hbackslash] using hinside (c :: body)

theorem isSection_quoteName (name : String) :
    isSection (lexemes .outside (Text.quoteName name).toList) = evenRuns false name.toList := by
  rw [Text.quoteName, String.toList_ofList]
  exact isSection_escapeQuotes false [] name.toList

/-! ## Places for names -/

/-- The places of a query where a name may be put between quotes. -/
inductive NamePlace where
  | field
  | includePath
  | collection (rename : Option String)
  | index (rename : Option String)
  | seed
  deriving DecidableEq

namespace NamePlace

/-- The text that a name is written into. -/
def text : NamePlace → String → String
  | .field, name => fieldName name
  | .includePath, name => Query.includePath name
  | .collection rename, name => From.write { source := .collection name, name := rename }
  | .index rename, name => From.write { source := .index name, name := rename }
  | .seed, name => SortKey.write (.random (some name))

/-- What stands in front of the name in this text, -/
def front : NamePlace → String
  | .field | .includePath => ""
  | .collection _ => "from "
  | .index _ => "from index "
  | .seed => "random("

/-- and behind it. -/
def back : NamePlace → String
  | .field | .includePath => ""
  | .collection rename | .index rename => rename.elim "" (" as " ++ ·)
  | .seed => ")"

/-- Whether quotes are put around a name. -/
def addsQuotes : NamePlace → String → Bool
  | .field, name =>
    if name = "" ∨ pseudoFields.contains name then false
    else !isPlainField true false name.toList
  | .includePath, name => pathNeedsQuotes name
  | .collection _, name => collectionNeedsQuotes name
  | .index _, _ | .seed, _ => true

/-- A name as it stands in the text. -/
def write (p : NamePlace) (name : String) : String :=
  if p.addsQuotes name then Text.quoteName name else name

/-- The name cannot break out: all sections are closed, and it is one section where quotes were put
around it. -/
def isSafe (p : NamePlace) (name : String) : Bool :=
  let read := lexemes .outside (p.write name).toList
  read.isSome && (!p.addsQuotes name || isSection read)

theorem text_eq (p : NamePlace) (name : String) :
    p.text name = p.front ++ p.write name ++ p.back := by
  cases p with
  | field =>
    rw [text, fieldName, front, back, write, addsQuotes, String.empty_append, String.append_empty]
    split
    · rfl
    · cases isPlainField true false name.toList <;> rfl
  | includePath =>
    rw [front, back, String.empty_append, String.append_empty]
    rfl
  | collection rename => rfl
  | index rename =>
    show "from " ++ ("index " ++ Text.quoteName name) ++ _
      = "from index " ++ Text.quoteName name ++ _
    rw [← String.append_assoc]
    rfl
  | seed => rfl

/-- Include paths and collections with quotes of their own are not written as they are. -/
theorem sectioned_of_addsQuotes_eq_false {p : NamePlace} (hp : p ≠ .field) {name : String}
    (h : p.addsQuotes name = false) : Sectioned name.toList := by
  refine sectioned_of_bare fun c hc => ?_
  cases p with
  | field => exact absurd rfl hp
  | includePath =>
    have hplain := List.any_eq_false.mp h c hc
    by_contra hquote
    refine hplain ?_
    rcases eq_or_eq_of_isQuote (Bool.not_eq_false _ ▸ hquote) with rfl | rfl <;> rfl
  | collection =>
    have hplain := List.any_eq_false.mp h c hc
    by_contra hquote
    refine hplain ?_
    rcases eq_or_eq_of_isQuote (Bool.not_eq_false _ ▸ hquote) with rfl | rfl <;> rfl
  | index | seed => cases h

theorem isSafe_of_addsQuotes {p : NamePlace} {name : String} (h : p.addsQuotes name = true) :
    p.isSafe name = evenRuns false name.toList := by
  unfold isSafe write
  rw [if_pos h, h, ← isSection_quoteName]
  -- what was read as a section was read to its end
  rcases lexemes .outside (Text.quoteName name).toList with _ | lexemes <;> rfl

theorem isSafe_of_addsQuotes_eq_false {p : NamePlace} {name : String}
    (h : p.addsQuotes name = false) :
    p.isSafe name = (lexemes .outside name.toList).isSome := by
  unfold isSafe write
  simp [h]

theorem isSafe_iff (p : NamePlace) (name : String) :
    p.isSafe name = true
      ↔ (p.addsQuotes name = true → EvenRuns name.toList)
        ∧ (p = .field → p.addsQuotes name = false → Sectioned name.toList) := by
  cases hadds : p.addsQuotes name with
  | true =>
    rw [isSafe_of_addsQuotes hadds, evenRuns_iff]
    exact ⟨fun h => ⟨fun _ => h, nofun⟩, fun h => h.1 rfl⟩
  | false =>
    rw [isSafe_of_addsQuotes_eq_false hadds, lexemes_isSome_iff]
    refine ⟨fun h => ⟨nofun, fun _ _ => h⟩, ?_⟩
    rintro ⟨-, hfield⟩
    by_cases hp : p = .field
    · exact hfield hp rfl
    · exact sectioned_of_addsQuotes_eq_false hp hadds

end NamePlace

/-- What is written into a text for a name is safe if and only if, where quotes are put around the
name, each of its single quotes and its end have an even number of backslashes in front of them, and
where a field name is written as it is, it is made of bare characters and whole sections. -/
theorem written_names_safe_iff (p : NamePlace) (name : String) :
    p.text name = p.front ++ p.write name ++ p.back
      ∧ (p.isSafe name = true
        ↔ (p.addsQuotes name = true → EvenRuns name.toList)
          ∧ (p = .field → p.addsQuotes name = false → Sectioned name.toList)) :=
  ⟨p.text_eq name, p.isSafe_iff name⟩

/-- A name that ends its section in every place, so that a condition follows, and a field name with
quotes of both kinds. -/
theorem written_names_unsafe :
    (∀ p ∈ [.field, .includePath, .collection none, .index none, .seed],
        NamePlace.isSafe p "a\\' or true or 'b" = false)
      ∧ fieldName "a\\' or true or 'b" = "'a\\\\' or true or \\'b'"
      ∧ NamePlace.isSafe .field "a'\"" = false ∧ fieldName "a'\"" = "a'\"" := by
  decide +kernel

end DocumentSession.Query
