import DocumentSession.Proofs.Query.Building

set_option autoImplicit false

/-! # Reading conditions

Readers of the texts of conditions, from the inside out: names and words, operators and functions
with their arguments, modifiers. Each reads what was written at the beginning of a text and leaves
the rest, if the rest begins with nothing that could be a part of a name (`readCondition_write`). -/

namespace DocumentSession.Query

/-! ## Names and words -/

/-- The words of a clause that are no names of fields. -/
def keywords : List String :=
  ["and", "or", "not", "true"]

/-- The names in front of the parentheses of modifiers. -/
def modifiers : List String :=
  ["exact", "proximity"]

/-- Whether a name can stand in front of arguments that belong to a condition without modifiers. -/
def isFunction (name : String) : Bool :=
  name ≠ "" && isPlainField true false name.toList && !(keywords ++ modifiers).contains name

/-- The name of a field that stands as it is: a pseudo field, or a plain name that is no keyword. -/
def isReadable (name : String) : Bool :=
  pseudoFields.contains name
    || (isPlainField true false name.toList && !keywords.contains name)

/-- Split a text where the name at its beginning ends. -/
def splitName (quoted : Bool) : List Char → List Char × List Char
  | [] => ([], [])
  | c :: cs =>
    if c = '\'' ∨ c = '"' then
      (c :: (splitName (!quoted) cs).1, (splitName (!quoted) cs).2)
    else if quoted || isFieldPart c then (c :: (splitName quoted cs).1, (splitName quoted cs).2)
    else ([], c :: cs)

/-- Whether a text begins with nothing that could be a part of a name. -/
def endsName : List Char → Bool
  | [] => true
  | c :: _ => !(c = '\'' || c = '"' || isFieldPart c)

theorem isFieldPart_of_isFieldStart {c : Char} (h : isFieldStart c = true) :
    isFieldPart c = true := by
  simp only [isFieldStart, isFieldPart, isPlain, Char.isAlphanum, Bool.or_eq_true,
    decide_eq_true_eq, List.contains_iff_mem, List.mem_cons] at h ⊢
  tauto

theorem splitName_append {first quoted : Bool} {name : List Char}
    (hname : isPlainField first quoted name = true) (rest : List Char)
    (hrest : endsName rest = true) :
    splitName quoted (name ++ rest) = (name, rest) := by
  induction name generalizing first quoted with
  | nil =>
    obtain rfl : quoted = false := by simpa [isPlainField] using hname
    cases rest with
    | nil => rfl
    | cons c cs =>
      simp only [endsName, Bool.not_eq_true', Bool.or_eq_false_iff, decide_eq_false_iff_not]
        at hrest
      simp [splitName, hrest]
  | cons c name ih =>
    rw [isPlainField] at hname
    rw [List.cons_append, splitName]
    split at hname
    · next hquote => rw [if_pos hquote, ih hname]
    · next hquote =>
      rw [if_neg hquote]
      split at hname
      · next hquoted =>
        subst hquoted
        simp [ih hname]
      · next hquoted =>
        obtain rfl : quoted = false := by simpa using hquoted
        rw [Bool.and_eq_true] at hname
        have hpart : isFieldPart c = true := by
          cases first with
          | true => exact isFieldPart_of_isFieldStart (by simpa using hname.1)
          | false => simpa using hname.1
        simp [hpart, ih hname.2]

/-- Read a word: letters, digits and `_`. -/
def readWord (cs : List Char) : String × List Char :=
  (String.ofList (cs.takeWhile (isPlain ['_'])), cs.dropWhile (isPlain ['_']))

theorem readWord_append {word : String} (hword : isWord word = true) (rest : List Char)
    (hrest : endsName rest = true) : readWord (word.toList ++ rest) = (word, rest) := by
  have hall : ∀ c ∈ word.toList, isPlain ['_'] c = true := List.all_eq_true.mp hword
  have hhead : rest.takeWhile (isPlain ['_']) = [] ∧ rest.dropWhile (isPlain ['_']) = rest := by
    cases rest with
    | nil => exact ⟨rfl, rfl⟩
    | cons c cs =>
      have hc : isPlain ['_'] c = false := by
        simp only [endsName, isFieldPart, isPlain] at hrest ⊢
        simp_all
      simp [hc]
  rw [readWord, List.takeWhile_append_of_pos hall, List.dropWhile_append_of_pos hall, hhead.1,
    hhead.2, List.append_nil, String.ofList_toList]

/-- Read a text that has to be there. -/
def skip : List Char → List Char → Option (List Char)
  | [], cs => some cs
  | c :: expected, d :: cs => if c = d then skip expected cs else none
  | _ :: _, [] => none

/-! ## Conditions -/

/-- Read the name of a field. -/
def readName (cs : List Char) : String × List Char :=
  match splitName false cs with
  | (name, '(' :: ')' :: rest) => (String.ofList (name ++ ['(', ')']), rest)
  | (name, rest) => (String.ofList name, rest)

/-- Read the parameters behind the sign of an operator. -/
def readOperand (sign : String) (cs : List Char) : Option (Demand × List Char) :=
  if sign = "in" then do
    let p := readWord (← skip " ($".toList cs)
    return (.oneOf p.1, ← skip [')'] p.2)
  else if sign = "all" then do
    let p := readWord (← skip " in ($".toList cs)
    return (.allOf p.1, ← skip [')'] p.2)
  else if sign = "between" then do
    let low := readWord (← skip " $".toList cs)
    let high := readWord (← skip " and $".toList low.2)
    return (.between low.1 high.1, high.2)
  else do
    let comparison ← [Comparison.equal, .notEqual, .greater, .greaterOrEqual, .less,
      .lessOrEqual].find? (·.sign = sign)
    let p := readWord (← skip " $".toList cs)
    return (.compare comparison p.1, p.2)

/-- Read what is demanded of a field whose name was read. -/
def readOperator (cs : List Char) : Option (Demand × List Char) := do
  let cs ← skip [' '] cs
  readOperand (String.ofList (cs.takeWhile (· ≠ ' '))) (cs.dropWhile (· ≠ ' '))

/-- Read the unit of a shape, if it has one. -/
def readUnits (cs : List Char) : Option Units × List Char :=
  match skip ", 'Kilometers'".toList cs, skip ", 'Miles'".toList cs with
  | some rest, _ => (some .kilometers, rest)
  | _, some rest => (some .miles, rest)
  | none, none => (none, cs)

/-- Read a shape, if there is one. -/
def readShape (cs : List Char) : Option (Option Shape × List Char) :=
  let function := splitName false cs
  if function.1 = "spatial.circle".toList then do
    let radius := readWord (← skip "($".toList function.2)
    let latitude := readWord (← skip ", $".toList radius.2)
    let longitude := readWord (← skip ", $".toList latitude.2)
    let units := readUnits longitude.2
    return (some (.circle radius.1 latitude.1 longitude.1 units.1), ← skip [')'] units.2)
  else if function.1 = "spatial.wkt".toList then do
    let shape := readWord (← skip "($".toList function.2)
    let units := readUnits shape.2
    return (some (.wellKnownText shape.1 units.1), ← skip [')'] units.2)
  else some (none, cs)

/-- Read the arguments of a function whose name was read. -/
def readCall (function : String) (cs : List Char) : Option (String × Demand × List Char) :=
  let field := readName cs
  if function = "exists" then do
    return (field.1, .present, ← skip [')'] field.2)
  else if function = "search" then do
    let p := readWord (← skip ", $".toList field.2)
    match skip ", and)".toList p.2 with
    | some rest => return (field.1, .search .and p.1, rest)
    | none => return (field.1, .search .or p.1, ← skip [')'] p.2)
  else
    match [TextMatch.lucene, .startsWith, .endsWith, .regex].find? (·.function = function) with
    | some kind => do
      let p := readWord (← skip ", $".toList field.2)
      return (field.1, .textMatch kind p.1, ← skip [')'] p.2)
    | none => do
      let relation ← [Relation.within, .contains, .disjoint, .intersects].find?
        (·.function = function)
      let shape ← readShape (← skip ", ".toList field.2)
      return (field.1, .spatial relation shape.1, ← skip [')'] shape.2)

/-- Read a condition without modifiers: its field and its demand. -/
def readBare (cs : List Char) : Option (String × Demand × List Char) :=
  match splitName false cs with
  | (name, '(' :: rest) =>
    let function := String.ofList name
    if pseudoFields.contains (function ++ "()") then do
      return (function ++ "()", ← readOperator (← skip [')'] rest))
    else readCall function rest
  | (name, rest) => do return (String.ofList name, ← readOperator rest)

/-! ## Reading what was written -/

theorem fieldName_of_isReadable {name : String} (h : isReadable name = true) :
    fieldName name = name := by
  unfold fieldName
  split
  · rfl
  · next hpseudo =>
    rw [isReadable, Bool.or_eq_true, Bool.and_eq_true] at h
    rw [if_pos (h.resolve_left fun hmem => hpseudo (Or.inr hmem)).1]

theorem isFunction_iff {name : String} :
    isFunction name = true ↔ name ≠ "" ∧ isPlainField true false name.toList = true
      ∧ name ∉ keywords ∧ name ∉ modifiers := by
  simp [isFunction, and_assoc]

theorem splitName_function {function : String} (h : isFunction function = true)
    (arguments : List Char) :
    splitName false (function.toList ++ '(' :: arguments)
      = (function.toList, '(' :: arguments) := by
  obtain ⟨-, hplain, -, -⟩ := isFunction_iff.mp h
  exact splitName_append hplain ('(' :: arguments) rfl

/-- The name of a readable field is split off, and of a pseudo field all but its parentheses. -/
theorem splitName_of_isReadable {name : String} (h : isReadable name = true) (rest : List Char)
    (hrest : endsName rest = true) :
    (name ∉ keywords ∧ splitName false (name.toList ++ rest) = (name.toList, rest))
      ∨ ∃ word : String, isFunction word = true ∧ name ∈ pseudoFields ∧ name = word ++ "()"
        ∧ splitName false (name.toList ++ rest) = (word.toList, '(' :: ')' :: rest) := by
  rw [isReadable, Bool.or_eq_true, Bool.and_eq_true] at h
  rcases h with hpseudo | ⟨hplain, hkeyword⟩
  · right
    rw [List.contains_iff_mem] at hpseudo
    obtain ⟨word, hword, rfl⟩ : ∃ word, isFunction word = true ∧ name = word ++ "()" := by
      simp only [pseudoFields, List.mem_cons, List.not_mem_nil, or_false] at hpseudo
      rcases hpseudo with rfl | rfl | rfl | rfl | rfl
      · exact ⟨"id", by decide⟩
      · exact ⟨"key", by decide⟩
      · exact ⟨"count", by decide⟩
      · exact ⟨"score", by decide⟩
      · exact ⟨"random", by decide⟩
    refine ⟨word, hword, hpseudo, rfl, ?_⟩
    simpa using splitName_function hword (')' :: rest)
  · exact Or.inl ⟨by simpa using hkeyword, splitName_append hplain rest hrest⟩

theorem readName_append {name : String} (h : isReadable name = true) (rest : List Char)
    (hrest : endsName rest = true) (hopen : rest.head? ≠ some '(') :
    readName (name.toList ++ rest) = (name, rest) := by
  unfold readName
  rcases splitName_of_isReadable h rest hrest with ⟨-, hsplit⟩ | ⟨word, -, -, hname, hsplit⟩
  · rw [hsplit]
    split
    · next heq =>
      obtain ⟨-, rfl⟩ := Prod.mk.inj heq
      exact absurd rfl hopen
    · next heq =>
      obtain ⟨rfl, rfl⟩ := Prod.mk.inj heq
      rw [String.ofList_toList]
  · rw [hsplit]
    simp [hname]

theorem readOperator_append {sign : String} (hsign : ' ' ∉ sign.toList) (rest : List Char) :
    readOperator (' ' :: (sign.toList ++ ' ' :: rest)) = readOperand sign (' ' :: rest) := by
  have hall : ∀ c ∈ sign.toList, decide (c ≠ ' ') = true := by
    intro c hc
    rw [decide_eq_true_eq]
    rintro rfl
    exact hsign hc
  rw [readOperator, skip, if_pos rfl, skip, Option.bind_eq_bind, Option.bind_some,
    List.takeWhile_append_of_pos hall, List.dropWhile_append_of_pos hall]
  simp

section Operators

variable {p q : String} (hp : isWord p = true) (hq : isWord q = true) (rest : List Char)
include hp

theorem readOperand_compare (comparison : Comparison) (hrest : endsName rest = true) :
    readOperand comparison.sign (' ' :: (("$" ++ p).toList ++ rest))
      = some (.compare comparison p, rest) := by
  have hread := readWord_append hp rest hrest
  cases comparison <;> simp [Comparison.sign, readOperand, skip, hread]

theorem readOperand_oneOf :
    readOperand "in" (' ' :: (("($" ++ p ++ ")").toList ++ rest)) = some (.oneOf p, rest) := by
  have hread := readWord_append hp (')' :: rest) rfl
  simp [readOperand, skip, hread]

theorem readOperand_allOf :
    readOperand "all" (' ' :: (("in ($" ++ p ++ ")").toList ++ rest)) = some (.allOf p, rest) := by
  have hread := readWord_append hp (')' :: rest) rfl
  simp [readOperand, skip, hread]

include hq in
theorem readOperand_between (hrest : endsName rest = true) :
    readOperand "between" (' ' :: (("$" ++ p ++ " and $" ++ q).toList ++ rest))
      = some (.between p q, rest) := by
  have hlow := readWord_append hp (" and $".toList ++ (q.toList ++ rest)) rfl
  have hhigh := readWord_append hq rest hrest
  simp_all [readOperand, skip]

end Operators

theorem readUnits_write (units : Option Units) (rest : List Char) :
    readUnits ((writeUnits units).toList ++ ')' :: rest) = (units, ')' :: rest) := by
  cases units with
  | none => simp [readUnits, writeUnits, skip]
  | some units => cases units <;> simp [readUnits, writeUnits, skip, Units.name]

theorem endsName_writeUnits (units : Option Units) (rest : List Char) :
    endsName ((writeUnits units).toList ++ ')' :: rest) = true := by
  cases units with
  | none => rfl
  | some units =>
    simp only [writeUnits, String.toList_append, List.append_assoc]
    rfl

theorem write_circle (radius latitude longitude : String) (units : Option Units) :
    (Shape.circle radius latitude longitude units).write
      = "spatial.circle($" ++ radius ++ ", $" ++ latitude ++ ", $" ++ longitude
        ++ writeUnits units ++ ")" := rfl

theorem write_wellKnownText (shape : String) (units : Option Units) :
    (Shape.wellKnownText shape units).write
      = "spatial.wkt($" ++ shape ++ writeUnits units ++ ")" := rfl

theorem readShape_write {shape : Shape} (h : ∀ p ∈ shape.parameters, isWord p = true)
    (rest : List Char) : readShape (shape.write.toList ++ rest) = some (some shape, rest) := by
  cases shape with
  | circle radius latitude longitude units =>
    obtain ⟨hradius, hlatitude, hlongitude⟩ :
        isWord radius = true ∧ isWord latitude = true ∧ isWord longitude = true := by
      simpa [Shape.parameters] using h
    have htext : (Shape.circle radius latitude longitude units).write.toList ++ rest
        = "spatial.circle".toList ++ '(' :: '$' :: (radius.toList ++ ',' :: ' ' :: '$' ::
          (latitude.toList ++ ',' :: ' ' :: '$' :: (longitude.toList
            ++ ((writeUnits units).toList ++ ')' :: rest)))) := by
      simp [write_circle]
    rw [htext, readShape, splitName_function (by decide)]
    simp [skip, readWord_append hradius (',' :: _) rfl, readWord_append hlatitude (',' :: _) rfl,
      readWord_append hlongitude _ (endsName_writeUnits units rest), readUnits_write]
  | wellKnownText shape units =>
    have hshape : isWord shape = true := by simpa [Shape.parameters] using h
    have htext : (Shape.wellKnownText shape units).write.toList ++ rest
        = "spatial.wkt".toList ++ '(' :: '$' :: (shape.toList
          ++ ((writeUnits units).toList ++ ')' :: rest)) := by
      simp [write_wellKnownText]
    rw [htext, readShape, splitName_function (by decide)]
    simp [skip, readWord_append hshape _ (endsName_writeUnits units rest), readUnits_write]

section Calls

variable {field p : String} (hfield : isReadable field = true)
  (hp : isWord p = true) (rest : List Char)
include hfield

theorem readCall_present :
    readCall "exists" (field.toList ++ ')' :: rest) = some (field, .present, rest) := by
  simp [readCall, skip, readName_append hfield (')' :: rest) rfl (by simp)]

include hp in
theorem readCall_search (c : Connective) :
    readCall "search" (field.toList
        ++ ',' :: ((" $" ++ p ++ (if c = .and then ", and)" else ")")).toList ++ rest))
      = some (field, .search c p, rest) := by
  cases c with
  | and =>
    simp [readCall, skip, readName_append hfield (',' :: _) rfl (by simp),
      readWord_append hp (',' :: _) rfl]
  | or =>
    simp [readCall, skip, readName_append hfield (',' :: _) rfl (by simp),
      readWord_append hp (')' :: _) rfl]

include hp in
theorem readCall_textMatch (kind : TextMatch) :
    readCall kind.function (field.toList ++ ',' :: ((" $" ++ p ++ ")").toList ++ rest))
      = some (field, .textMatch kind p, rest) := by
  cases kind <;>
    simp [readCall, TextMatch.function, skip, readName_append hfield (',' :: _) rfl (by simp),
      readWord_append hp (')' :: _) rfl]

theorem readCall_spatial (relation : Relation) {shape : Option Shape}
    (hshape : ∀ s ∈ shape, ∀ p ∈ s.parameters, isWord p = true) :
    readCall relation.function
        (field.toList ++ ',' :: ((" " ++ shape.elim "" Shape.write ++ ")").toList ++ rest))
      = some (field, .spatial relation shape, rest) := by
  have hread : readShape ((shape.elim "" Shape.write).toList ++ ')' :: rest)
      = some (shape, ')' :: rest) := by
    cases shape with
    | none => rfl
    | some s => exact readShape_write (hshape s rfl) (')' :: rest)
  cases relation <;>
    simp [readCall, Relation.function, TextMatch.function, skip,
      readName_append hfield (',' :: _) rfl (by simp), hread]

end Calls

/-! ## Conditions without modifiers -/

/-- A demand is written behind the field or as a function of it. -/
theorem write_operator_or_function (field : String) (demand : Demand) :
    (∃ operator, (demand.write field).toList = field.toList ++ ' ' :: operator)
      ∨ ∃ function arguments, isFunction function = true
        ∧ (demand.write field).toList = function.toList ++ '(' :: arguments := by
  cases demand with
  | compare comparison p => exact Or.inl ⟨_, by simp [Demand.write]; rfl⟩
  | oneOf p => exact Or.inl ⟨_, by simp [Demand.write]; rfl⟩
  | allOf p => exact Or.inl ⟨_, by simp [Demand.write]; rfl⟩
  | between low high => exact Or.inl ⟨_, by simp [Demand.write]; rfl⟩
  | textMatch kind p =>
    exact Or.inr ⟨kind.function, _, by cases kind <;> decide, by simp [Demand.write]; rfl⟩
  | search connective p =>
    cases connective <;>
      exact Or.inr ⟨"search", _, by decide, by simp [Demand.write]; rfl⟩
  | present => exact Or.inr ⟨"exists", _, by decide, by simp [Demand.write]; rfl⟩
  | spatial relation shape =>
    exact Or.inr ⟨relation.function, _, by cases relation <;> decide, by simp [Demand.write]; rfl⟩

/-- A text begins with a name that is no keyword, is none of the names that are kept apart if it is
a function, and is empty only in front of a space. -/
def BeginsCondition (apart : List String) (cs : List Char) : Prop :=
  ∃ name tail, splitName false cs = (String.toList name, tail)
    ∧ (name = "" → tail.head? = some ' ') ∧ name ∉ keywords
    ∧ (tail.head? = some '(' → name ∉ apart)

namespace BeginsCondition

variable {apart : List String} {cs : List Char} (h : BeginsCondition apart cs)
include h

theorem mono {apart' : List String} (hsub : apart' ⊆ apart) : BeginsCondition apart' cs := by
  obtain ⟨name, tail, hsplit, hspace, hkeyword, hapart⟩ := h
  exact ⟨name, tail, hsplit, hspace, hkeyword, fun hopen hmem => hapart hopen (hsub hmem)⟩

theorem ne_parenthesis (rest : List Char) : cs ≠ '(' :: rest ∧ cs ≠ ')' :: rest := by
  obtain ⟨name, tail, hsplit, hspace, -, -⟩ := h
  -- no name is read off a parenthesis, and it is no space
  constructor
  all_goals
    rintro rfl
    obtain ⟨hname, rfl⟩ := Prod.mk.inj hsplit
    cases hspace (String.toList_eq_nil_iff.mp hname.symm)

end BeginsCondition

theorem beginsCondition_bare {field : String} (hfield : isReadable field = true) (demand : Demand)
    (rest : List Char) : BeginsCondition modifiers ((demand.write field).toList ++ rest) := by
  have hfunction {function : String} {tail : List Char} (h : isFunction function = true)
      (hsplit : splitName false ((demand.write field).toList ++ rest) = (function.toList, tail)) :
      BeginsCondition modifiers ((demand.write field).toList ++ rest) := by
    obtain ⟨hne, -, hkeyword, hmodifier⟩ := isFunction_iff.mp h
    exact ⟨function, tail, hsplit, fun hempty => absurd hempty hne, hkeyword, fun _ => hmodifier⟩
  rcases write_operator_or_function field demand with
    ⟨operator, htext⟩ | ⟨function, arguments, h, htext⟩
  · rw [htext, List.append_assoc] at hfunction ⊢
    rcases splitName_of_isReadable hfield (' ' :: (operator ++ rest)) rfl with
      ⟨hkeyword, hsplit⟩ | ⟨word, hword, -, -, hsplit⟩
    · exact ⟨field, _, hsplit, fun _ => rfl, hkeyword, by simp⟩
    · exact hfunction hword hsplit
  · rw [htext, List.append_assoc] at hfunction ⊢
    exact hfunction h (splitName_function h _)

/-- An operator stands behind the field. -/
theorem readBare_operator {field : String} (hfield : isReadable field = true) {sign : String}
    (hsign : ' ' ∉ sign.toList) {cs : List Char} {d : Demand × List Char}
    (hread : readOperand sign (' ' :: cs) = some d) :
    readBare (field.toList ++ ' ' :: (sign.toList ++ ' ' :: cs)) = some (field, d) := by
  have hoperator : readOperator (' ' :: (sign.toList ++ ' ' :: cs)) = some d := by
    rw [readOperator_append hsign, hread]
  unfold readBare
  rcases splitName_of_isReadable hfield (' ' :: (sign.toList ++ ' ' :: cs)) rfl with
    ⟨-, hsplit⟩ | ⟨word, -, hpseudo, hname, hsplit⟩
  · rw [hsplit]
    simp [hoperator]
  · rw [hsplit]
    rw [hname] at hpseudo ⊢
    simp [hpseudo, skip, hoperator]

/-- A function stands in front of the field. -/
theorem readBare_function {function : String}
    (h : isFunction function = true ∧ function ++ "()" ∉ pseudoFields) {arguments : List Char}
    {c : String × Demand × List Char} (hread : readCall function arguments = some c) :
    readBare (function.toList ++ '(' :: arguments) = some c := by
  unfold readBare
  rw [splitName_function h.1]
  simp [h.2, hread]

theorem readBare_write {field : String} (hfield : isReadable field = true) {demand : Demand}
    (hdemand : ∀ p ∈ demand.parameters, isWord p = true) (rest : List Char)
    (hrest : endsName rest = true) :
    readBare ((demand.write field).toList ++ rest) = some (field, demand, rest) := by
  cases demand with
  | compare comparison p =>
    have hp : isWord p = true := by simpa [Demand.parameters] using hdemand
    have hsign : ' ' ∉ comparison.sign.toList := by cases comparison <;> decide
    simpa [Demand.write] using readBare_operator hfield hsign
      (readOperand_compare hp rest comparison hrest)
  | oneOf p =>
    have hp : isWord p = true := by simpa [Demand.parameters] using hdemand
    simpa [Demand.write] using readBare_operator hfield (by decide) (readOperand_oneOf hp rest)
  | allOf p =>
    have hp : isWord p = true := by simpa [Demand.parameters] using hdemand
    simpa [Demand.write] using readBare_operator hfield (by decide) (readOperand_allOf hp rest)
  | between low high =>
    have hp : isWord low = true ∧ isWord high = true := by simpa [Demand.parameters] using hdemand
    simpa [Demand.write] using readBare_operator hfield (by decide)
      (readOperand_between hp.1 hp.2 rest hrest)
  | textMatch kind p =>
    have hp : isWord p = true := by simpa [Demand.parameters] using hdemand
    have hfunction : isFunction kind.function = true ∧ kind.function ++ "()" ∉ pseudoFields := by
      cases kind <;> decide
    simpa [Demand.write] using readBare_function hfunction (readCall_textMatch hfield hp rest kind)
  | search connective p =>
    have hp : isWord p = true := by simpa [Demand.parameters] using hdemand
    have hread := readBare_function (by decide) (readCall_search hfield hp rest connective)
    cases connective <;> simpa [Demand.write] using hread
  | present =>
    simpa [Demand.write] using readBare_function (by decide) (readCall_present hfield rest)
  | spatial relation shape =>
    have hshape : ∀ s ∈ shape, ∀ p ∈ s.parameters, isWord p = true := by
      rintro s rfl
      exact hdemand
    have hfunction :
        isFunction relation.function = true ∧ relation.function ++ "()" ∉ pseudoFields := by
      cases relation <;> decide
    simpa [Demand.write] using readBare_function hfunction
      (readCall_spatial hfield rest relation hshape)

/-! ## Modifiers -/

/-- What stands behind the opening parenthesis of a modifier, if a text begins with it. -/
def unwrap (modifier : String) (cs : List Char) : Option (List Char) :=
  match splitName false cs with
  | (name, '(' :: rest) => if String.ofList name = modifier then some rest else none
  | _ => none

/-- Read a condition that may be exact. -/
def readExact (cs : List Char) : Option (Condition × List Char) :=
  match unwrap "exact" cs with
  | some inner => do
    let (field, demand, rest) ← readBare inner
    return ({ field, demand, exact := true }, ← skip [')'] rest)
  | none => do
    let (field, demand, rest) ← readBare cs
    return ({ field, demand }, rest)

/-- Read a condition that may have a proximity. -/
def readCondition (cs : List Char) : Option (Condition × List Char) :=
  match unwrap "proximity" cs with
  | some inner => do
    let (condition, rest) ← readExact inner
    let (number, rest) := readWord (← skip ", ".toList rest)
    let distance := Nat.ofDigitChars 10 number.toList 0
    return ({ condition with proximity := some distance }, ← skip [')'] rest)
  | none => readExact cs

section Modified

variable {modifier : String} (h : isPlainField true false modifier.toList = true)
  (value : Option String) (inner : String) (rest : List Char)
include h

theorem splitName_modified :
    splitName false ((modified modifier value inner).toList ++ rest)
      = (modifier.toList, '(' :: (inner.toList
        ++ ((value.elim "" (", " ++ ·)).toList ++ ')' :: rest))) := by
  have htext : (modified modifier value inner).toList ++ rest
      = modifier.toList ++ '(' :: (inner.toList
        ++ ((value.elim "" (", " ++ ·)).toList ++ ')' :: rest)) := by
    simp [modified]
  rw [htext, splitName_append h ('(' :: _) rfl]

theorem unwrap_modified :
    unwrap modifier ((modified modifier value inner).toList ++ rest)
      = some (inner.toList ++ ((value.elim "" (", " ++ ·)).toList ++ ')' :: rest)) := by
  rw [unwrap, splitName_modified h]
  simp

theorem beginsCondition_modified (hne : modifier ≠ "") (hkeyword : modifier ∉ keywords)
    {apart : List String} (hapart : modifier ∉ apart) :
    BeginsCondition apart ((modified modifier value inner).toList ++ rest) :=
  ⟨modifier, _, splitName_modified h value inner rest, fun h => absurd h hne, hkeyword,
    fun _ => hapart⟩

end Modified

theorem BeginsCondition.unwrap {apart : List String} {cs : List Char}
    (h : BeginsCondition apart cs) {modifier : String} (hmodifier : modifier ∈ apart) :
    unwrap modifier cs = none := by
  obtain ⟨name, tail, hsplit, -, -, hname⟩ := h
  rw [Query.unwrap, hsplit]
  split
  · next heq =>
    obtain ⟨rfl, rfl⟩ := Prod.mk.inj heq
    rw [String.ofList_toList, if_neg]
    rintro rfl
    exact hname rfl hmodifier
  · rfl

/-- The text of a condition without proximity, boost and fuzziness. -/
def Condition.writeExact (c : Condition) : String :=
  if c.exact then modified "exact" none (c.demand.write c.field) else c.demand.write c.field

section Conditions

variable {c : Condition} (hfield : isReadable c.field = true)
include hfield

theorem write_of_isReadable (hboost : c.boost = none) (hfuzzy : c.fuzzy = none) :
    c.write = c.proximity.elim c.writeExact
      fun n => modified "proximity" (toString n) c.writeExact := by
  rw [Condition.write, fieldName_of_isReadable hfield, hboost, hfuzzy]
  rfl

theorem beginsCondition_writeExact (rest : List Char) :
    BeginsCondition ["proximity"] (c.writeExact.toList ++ rest) := by
  unfold Condition.writeExact
  split
  · exact beginsCondition_modified (by decide) none _ rest (by decide) (by decide) (by decide)
  · exact (beginsCondition_bare hfield c.demand rest).mono (by simp [modifiers])

theorem beginsCondition_write (hboost : c.boost = none) (hfuzzy : c.fuzzy = none)
    (rest : List Char) : BeginsCondition [] (c.write.toList ++ rest) := by
  rw [write_of_isReadable hfield hboost hfuzzy]
  cases c.proximity with
  | some n =>
    exact beginsCondition_modified (by decide) _ _ rest (by decide) (by decide) (by decide)
  | none => exact (beginsCondition_writeExact hfield rest).mono (List.nil_subset _)

variable (hdemand : ∀ p ∈ c.demand.parameters, isWord p = true)
include hdemand

theorem readExact_writeExact (rest : List Char) (hrest : endsName rest = true) :
    readExact (c.writeExact.toList ++ rest)
      = some ({ field := c.field, demand := c.demand, exact := c.exact }, rest) := by
  unfold readExact Condition.writeExact
  cases hexact : c.exact with
  | true =>
    rw [if_pos rfl, unwrap_modified (by decide)]
    simp [readBare_write hfield hdemand (')' :: rest) rfl, skip]
  | false =>
    rw [if_neg (by simp), (beginsCondition_bare hfield c.demand rest).unwrap (by decide)]
    simp [readBare_write hfield hdemand rest hrest]

theorem readCondition_write (hboost : c.boost = none) (hfuzzy : c.fuzzy = none)
    (rest : List Char) (hrest : endsName rest = true) :
    readCondition (c.write.toList ++ rest) = some (c, rest) := by
  rw [write_of_isReadable hfield hboost hfuzzy]
  obtain ⟨field, demand, exact, boost, fuzzy, proximity⟩ := c
  obtain rfl : boost = none := hboost
  obtain rfl : fuzzy = none := hfuzzy
  unfold readCondition
  cases proximity with
  | none =>
    rw [Option.elim_none, (beginsCondition_writeExact hfield rest).unwrap (by decide)]
    exact readExact_writeExact hfield hdemand rest hrest
  | some n =>
    have hnumber := readWord_append (isWord_toString n) (')' :: rest) rfl
    rw [Option.elim_some, unwrap_modified (by decide)]
    simp_all [readExact_writeExact hfield hdemand (',' :: _) rfl, skip,
      Nat.ofDigitChars_ten_toDigits]

end Conditions

end DocumentSession.Query
