import DocumentSession.Text.CaseTable

set_option autoImplicit false

/-! # Lower case

`lower` is the full lower-case mapping of Unicode: character by character, with one character that
becomes two (a capital I with a dot) and one whose form depends on its place: a capital sigma at
the end of a word becomes a final sigma. -/

namespace DocumentSession.Text

/-- The lower-case form of a character by itself. -/
def lowerChar (c : Char) : List Char :=
  let n := c.toNat
  if n < 128 then [c.toLower]
  else if c = 'İ' then ['i', '\u0307']
  else
    match lowerRanges.find? (fun r => r.first ≤ n ∧ n ≤ r.last ∧ (n - r.first) % r.step = 0) with
    | some r => [Char.ofNat ((n : Int) + r.offset).toNat]
    | none => [c]

/-- Whether, past what case looks through, a letter with case comes first. -/
def meetsCased (cs : List Char) : Bool :=
  match cs.dropWhile isCaseIgnorable with
  | c :: _ => isCased c
  | [] => false

/-- Lower the characters `cs` that follow the reversed `before`. A capital sigma is final if a
letter comes before it and none after it. -/
def lowerAfter (before : List Char) : List Char → List Char
  | [] => []
  | c :: cs =>
    let lowered :=
      if c = 'Σ' then [if meetsCased before && !meetsCased cs then 'ς' else 'σ'] else lowerChar c
    lowered ++ lowerAfter (c :: before) cs

/-- A text in lower case. -/
def lower (s : String) : String :=
  String.ofList (lowerAfter [] s.toList)

end DocumentSession.Text
