import DocumentSession.Json.Basic
import DocumentSession.Decimal.Numeral

set_option autoImplicit false

/-! # Reading JSON

A reader takes characters and gives a value with the characters after it. Every value is at least
one character long, so the length of the text bounds the depth and the number of values, and
`Json.parse` needs no other measure. -/

namespace DocumentSession.Json

/-- Skip the four blank characters of JSON. -/
def skipBlank : List Char → List Char
  | c :: rest => if c = ' ' ∨ c = '\n' ∨ c = '\r' ∨ c = '\t' then skipBlank rest else c :: rest
  | [] => []

/-- The value of a hexadecimal digit. -/
def hexValue? (c : Char) : Option Nat :=
  if '0' ≤ c ∧ c ≤ '9' then some (c.toNat - '0'.toNat)
  else if 'a' ≤ c ∧ c ≤ 'f' then some (c.toNat - 'a'.toNat + 10)
  else if 'A' ≤ c ∧ c ≤ 'F' then some (c.toNat - 'A'.toNat + 10)
  else none

/-- Four hexadecimal digits. -/
def readHex? : List Char → Option (Nat × List Char)
  | a :: b :: c :: d :: rest => do
    let a ← hexValue? a
    let b ← hexValue? b
    let c ← hexValue? c
    let d ← hexValue? d
    some (((a * 16 + b) * 16 + c) * 16 + d, rest)
  | _ => none

/-- The character of an escape after its backslash. A character beyond the first plane is written
as two escapes, a high and a low half. -/
def readEscape? : List Char → Option (Char × List Char)
  | '"' :: rest => some ('"', rest)
  | '\\' :: rest => some ('\\', rest)
  | '/' :: rest => some ('/', rest)
  | 'b' :: rest => some ('\x08', rest)
  | 'f' :: rest => some ('\x0c', rest)
  | 'n' :: rest => some ('\n', rest)
  | 'r' :: rest => some ('\r', rest)
  | 't' :: rest => some ('\t', rest)
  | 'u' :: rest =>
    match readHex? rest with
    | none => none
    | some (high, rest) =>
      if 0xD800 ≤ high ∧ high < 0xDC00 then
        match rest with
        | '\\' :: 'u' :: rest =>
          match readHex? rest with
          | none => none
          | some (low, rest) =>
            if 0xDC00 ≤ low ∧ low < 0xE000 then
              some (Char.ofNat (0x10000 + (high - 0xD800) * 0x400 + (low - 0xDC00)), rest)
            else none
        | _ => none
      else if 0xDC00 ≤ high ∧ high < 0xE000 then none
      else some (Char.ofNat high, rest)
  | _ => none

/-- The characters of a string up to its closing quote, collected backwards. -/
def readString? (fuel : Nat) (acc : List Char) (text : List Char) :
    Option (String × List Char) :=
  match fuel, text with
  | 0, _ => none
  | _, [] => none
  | _ + 1, '"' :: rest => some (String.ofList acc.reverse, rest)
  | fuel + 1, '\\' :: rest =>
    match readEscape? rest with
    | none => none
    | some (c, rest) => readString? fuel (c :: acc) rest
  | fuel + 1, c :: rest => if c.toNat < 32 then none else readString? fuel (c :: acc) rest

/-! ## Numbers

A number without fraction and exponent is an integer if it fits into 64 bits. Any other is read in
rounded steps, so that it may differ from the nearest number in its last bit: as many digits as fit
into 64 bits are a whole number, which a power of ten then multiplies or divides. -/

/-- The digits after a point, if there is one. There is at least one digit. -/
def readFraction? (text : List Char) : Option (Option (List Char) × List Char) :=
  match text with
  | '.' :: rest =>
    match Numeral.digits rest with
    | ([], _) => none
    | (ds, rest) => some (some ds, rest)
  | _ => some (none, text)

/-- Append digits to a number up to the first that takes it beyond 64 bits: the number, and how many
digits are left. -/
def gather (n : Nat) : List Char → Nat × Nat
  | [] => (n, 0)
  | c :: cs =>
    let longer := n * 10 + Numeral.digitValue c
    if longer < UInt64.size then gather longer cs else (n, cs.length + 1)

/-- The greatest power of ten of a floating-point number has this exponent. -/
def greatestPower : Nat := 308

/-- A power of ten. -/
def power (exp : Nat) : Binary64 :=
  .ofDecimal false 1 exp

/-- The number `n · 10^exp` in rounded steps, unless it is too large. -/
def scale? (n : Nat) (exp : Int) : Option Binary64 :=
  let x := Binary64.ofNat n
  let size := exp.natAbs
  if n = 0 then some x
  else if size ≤ greatestPower then
    let y := if 0 ≤ exp then x.mul (power size) else x.div (power size)
    if y.isFinite then some y else none
  else if 0 ≤ exp then none
  else if size ≤ 2 * greatestPower then
    some ((x.div (power greatestPower)).div (power (size - greatestPower)))
  else some (.zero false)

/-- The number of a sign, whole digits, a fraction and an exponent. The negative zero is no
integer. -/
def numberOf? (negative : Bool) (whole : List Char) (fraction : Option (List Char))
    (exp : Option Int) : Option Number :=
  let size := Numeral.value whole
  let fits : Bool := if negative then 0 < size ∧ size ≤ Nat.pow 2 63 else size < UInt64.size
  if fraction.isNone ∧ exp.isNone ∧ fits then
    some (.int (if negative then -(size : Int) else size))
  else
    let ds := fraction.getD []
    let (n, dropped) := gather 0 whole
    let (n, left) := gather n ds
    let shift : Int := (dropped : Int) - ((ds.length : Int) - left)
    (scale? n (exp.getD 0 + shift)).map
      (fun x => .float (if negative then x.negate else x))

/-- A number. No zero stands in front of other whole digits. -/
def readNumber? (text : List Char) : Option (Number × List Char) := do
  let (negative, text) := match text with
    | '-' :: rest => (true, rest)
    | text => (false, text)
  let (whole, text) := Numeral.digits text
  if whole = [] ∨ (whole.head? = some '0' ∧ whole.length > 1) then none
  else
    let (fraction, text) ← readFraction? text
    let (exp, text) ← Numeral.exponent? text
    let n ← numberOf? negative whole fraction exp
    some (n, text)

/-! ## Values -/

/-- Take a fixed text from the front. -/
def expect? (word text : List Char) : Option (List Char) :=
  if word.isPrefixOf text then some (text.drop word.length) else none

mutual

/-- A value after blanks. -/
def readValue? (fuel : Nat) (text : List Char) : Option (Json × List Char) :=
  match fuel with
  | 0 => none
  | fuel + 1 =>
    match skipBlank text with
    | [] => none
    | '"' :: rest => do
      let (s, rest) ← readString? (rest.length + 1) [] rest
      some (.str s, rest)
    | '[' :: rest =>
      match skipBlank rest with
      | ']' :: rest => some (.arr [], rest)
      | _ => readItems? fuel [] rest
    | '\x7b' :: rest =>
      match skipBlank rest with
      | '\x7d' :: rest => some (.obj [], rest)
      | _ => readMembers? fuel [] rest
    | 't' :: rest => (expect? ['r', 'u', 'e'] rest).map (.bool true, ·)
    | 'f' :: rest => (expect? ['a', 'l', 's', 'e'] rest).map (.bool false, ·)
    | 'n' :: rest => (expect? ['u', 'l', 'l'] rest).map (.null, ·)
    | text => (readNumber? text).map (fun (n, rest) => (.num n, rest))

/-- The items of an array up to its end, collected backwards. -/
def readItems? (fuel : Nat) (acc : List Json) (text : List Char) : Option (Json × List Char) :=
  match fuel with
  | 0 => none
  | fuel + 1 =>
    match readValue? fuel text with
    | none => none
    | some (v, rest) =>
      match skipBlank rest with
      | ',' :: rest => readItems? fuel (v :: acc) rest
      | ']' :: rest => some (.arr (v :: acc).reverse, rest)
      | _ => none

/-- The members of an object up to its end; of two members under one key the later one stays. -/
def readMembers? (fuel : Nat) (acc : Fields) (text : List Char) : Option (Json × List Char) :=
  match fuel with
  | 0 => none
  | fuel + 1 =>
    match skipBlank text with
    | '"' :: rest =>
      match readString? (rest.length + 1) [] rest with
      | none => none
      | some (key, rest) =>
        match skipBlank rest with
        | ':' :: rest =>
          match readValue? fuel rest with
          | none => none
          | some (v, rest) =>
            let acc := acc.insert key v
            match skipBlank rest with
            | ',' :: rest => readMembers? fuel acc rest
            | '\x7d' :: rest => some (.obj acc, rest)
            | _ => none
        | _ => none
    | _ => none

end

/-- The value that a text writes, with nothing but blanks around it. -/
def parse (text : String) : Option Json :=
  let chars := text.toList
  match readValue? (2 * chars.length + 2) chars with
  | some (v, rest) => if skipBlank rest = [] then some v else none
  | none => none

end DocumentSession.Json
