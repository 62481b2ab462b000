import DocumentSession.Json.Parser

set_option autoImplicit false

/-! # Arguments of a script

A script is a list of steps in JSON form, each an object or an array that begins with the name of a
call. Reading an argument never fails: what is missing or of another kind counts as empty, zero or
false. -/

namespace DocumentSession.Script

/-! ## Members of a step -/

/-- A member that is there and not null. -/
def member (v : Json) (key : String) : Option Json :=
  (v.get? key).filter (· ≠ .null)

/-- A member, or null. -/
def memberOrNull (v : Json) (key : String) : Json :=
  (v.get? key).getD .null

/-- A text. -/
def text (v : Json) (key : String) : String :=
  (v.getStr? key).getD ""

/-- A truth value. -/
def flag (v : Json) (key : String) : Bool :=
  ((v.get? key).bind Json.bool?).getD false

/-- A natural number, or another one if there is none. -/
def natOr (v : Json) (key : String) (other : Nat) : Nat :=
  ((v.get? key).bind Json.nat?).getD other

/-- The items of an array. -/
def items (v : Json) (key : String) : List Json :=
  ((v.get? key).bind Json.items?).getD []

/-- The members of an object. -/
def fields (v : Json) (key : String) : Fields :=
  ((v.get? key).bind Json.fields?).getD []

/-- The strings among the items of a value. -/
def stringsOf (v : Json) : List String :=
  (v.items?.getD []).filterMap Json.str?

/-- The strings of an array. -/
def strings (v : Json) (key : String) : List String :=
  stringsOf (memberOrNull v key)

/-- Texts under names. -/
def texts (v : Json) (key : String) : Dict String :=
  (fields v key).filterMap (fun (name, value) => value.str?.map (name, ·))

/-- The first character of a text. -/
def char? (v : Json) (key : String) : Option Char :=
  (v.getStr? key).bind (·.toList.head?)

/-! ## Arguments of a call -/

/-- The argument at a place, or null. -/
def arg (args : List Json) (i : Nat) : Json :=
  (args[i]?).getD .null

/-- The text at a place. -/
def argText (args : List Json) (i : Nat) : String :=
  (arg args i).str?.getD ""

/-- The natural number at a place. -/
def argNat (args : List Json) (i : Nat) : Nat :=
  (arg args i).nat?.getD 0

/-- The members of the object at a place. -/
def argFields (args : List Json) (i : Nat) : Fields :=
  (arg args i).fields?.getD []

/-- The name of a call and its arguments. -/
def callParts (v : Json) : String × List Json :=
  let parts := v.items?.getD []
  (argText parts 0, parts.drop 1)

/-! ## Numbers -/

/-- A number that is given as such or as a numeral; anything else is undefined. -/
def number (v : Json) : Binary64 :=
  match v with
  | .num (.int n) => .ofDecimal (n < 0) n.natAbs 0
  | .num (.float x) => x
  | .str s => (Numeral.read? s).getD .nan
  | _ => .nan

end DocumentSession.Script
