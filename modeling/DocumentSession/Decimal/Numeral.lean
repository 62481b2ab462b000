import DocumentSession.Decimal.Binary64

set_option autoImplicit false

/-! # Reading numerals

A numeral is a row of digits with at most one point among them, a sign before it and an exponent
after it. `Numeral.read?` takes every numeral with at least one digit, and the names of infinity
and of an undefined result, and gives the nearest number. -/

namespace DocumentSession.Numeral

/-- The digits at the front, and what follows them. -/
def digits (text : List Char) : List Char × List Char :=
  (text.takeWhile Char.isDigit, text.dropWhile Char.isDigit)

/-- The value of a digit. -/
def digitValue (c : Char) : Nat :=
  c.toNat - '0'.toNat

/-- The number that digits write. -/
def value (ds : List Char) : Nat :=
  ds.foldl (fun n c => n * 10 + digitValue c) 0

/-- A sign, if there is one: whether it is a minus, and what follows it. -/
def sign (text : List Char) : Bool × List Char :=
  match text with
  | '-' :: rest => (true, rest)
  | '+' :: rest => (false, rest)
  | rest => (false, rest)

/-- An exponent, if there is one: its value and what follows it. -/
def exponent? (text : List Char) : Option (Option Int × List Char) :=
  match text with
  | e :: rest =>
    if e = 'e' ∨ e = 'E' then
      let (negative, rest) := sign rest
      match digits rest with
      | ([], _) => none
      | (ds, rest) =>
        let n : Int := value ds
        some (some (if negative then -n else n), rest)
    else some (none, text)
  | [] => some (none, text)

/-- The digits after a point, if there is one. There may be none. -/
def fraction (text : List Char) : List Char × List Char :=
  match text with
  | '.' :: rest => digits rest
  | rest => ([], rest)

/-- A numeral without sign, up to the end of the text. -/
def unsigned? (negative : Bool) (text : List Char) : Option Binary64 :=
  let (whole, rest) := digits text
  let (ds, rest) := fraction rest
  if whole = [] ∧ ds = [] then none
  else
    match exponent? rest with
    | some (exp, []) =>
      some (Binary64.ofDecimal negative (value (whole ++ ds)) (exp.getD 0 - ds.length))
    | _ => none

/-- The number that a text writes. Names are read without regard to case. -/
def read? (text : String) : Option Binary64 :=
  let (negative, size) := sign text.toList
  let name := String.ofList (size.map Char.toLower)
  if name = "inf" ∨ name = "infinity" then some (.infinity negative)
  else if name = "nan" then some (if negative then Binary64.nan.negate else .nan)
  else unsigned? negative size

end DocumentSession.Numeral
