import DocumentSession.Dict
import DocumentSession.Decimal.Binary64

set_option autoImplicit false

/-! # JSON values

Numbers without fraction and exponent are integers, all others are binary floating-point numbers,
and `1` and `1.0` are different values. An object is a dictionary, so its members stand in the
order of their keys.

Traversals recurse on a value together with its two companions, lists of items and lists of
members. Whether two values are one and the same is decided by such a traversal, `Json.same`, and
`Json.same_iff` says that it decides it. Two values that only differ in the signs of their zeros are
`Json.equal` without being the same. -/

namespace DocumentSession

/-- A JSON number. -/
inductive Number where
  | int (value : Int)
  | float (value : Binary64)
  deriving DecidableEq, Repr

/-- Whether two numbers are equal: integers with integers, and the two zeros with each other. -/
def Number.equal : Number → Number → Bool
  | .int a, .int b => a = b
  | .float a, .float b => a.equal b
  | _, _ => false

/-- A JSON value. -/
inductive Json where
  | null
  | bool (value : Bool)
  | num (value : Number)
  | str (text : String)
  | arr (items : List Json)
  | obj (members : List (String × Json))
  deriving Inhabited

/-- The members of a JSON object, such as the body of a document. -/
abbrev Fields := Dict Json

namespace Json

/-! ## The same value -/

mutual

/-- Whether two values are the same: numbers of the same kind, items in the same order. -/
def same : Json → Json → Bool
  | .null, .null => true
  | .bool a, .bool b => a = b
  | .num a, .num b => a = b
  | .str a, .str b => a = b
  | .arr a, .arr b => sameItems a b
  | .obj a, .obj b => sameMembers a b
  | _, _ => false

/-- Whether two lists of items are the same. -/
def sameItems : List Json → List Json → Bool
  | [], [] => true
  | a :: as, b :: bs => same a b && sameItems as bs
  | _, _ => false

/-- Whether two lists of members are the same. -/
def sameMembers : List (String × Json) → List (String × Json) → Bool
  | [], [] => true
  | (k, a) :: as, (l, b) :: bs => k = l && same a b && sameMembers as bs
  | _, _ => false

end

mutual

theorem same_iff : (a b : Json) → same a b = true ↔ a = b
  | .null, b => by cases b <;> simp [same]
  | .bool _, b => by cases b <;> simp [same]
  | .num _, b => by cases b <;> simp [same]
  | .str _, b => by cases b <;> simp [same]
  | .arr items, b => by cases b <;> simp [same, sameItems_iff items]
  | .obj members, b => by cases b <;> simp [same, sameMembers_iff members]

theorem sameItems_iff : (a b : List Json) → sameItems a b = true ↔ a = b
  | [], b => by cases b <;> simp [sameItems]
  | a :: as, b => by cases b <;> simp [sameItems, same_iff a, sameItems_iff as]

theorem sameMembers_iff : (a b : List (String × Json)) → sameMembers a b = true ↔ a = b
  | [], b => by cases b <;> simp [sameMembers]
  | (k, a) :: as, b => by
    cases b with
    | nil => simp [sameMembers]
    | cons entry bs =>
      obtain ⟨l, b⟩ := entry
      simp [sameMembers, same_iff a, sameMembers_iff as]

end

/-- Whether two values are the same is decided by a walk through both. -/
instance : DecidableEq Json := fun a b => decidable_of_iff _ (same_iff a b)

/-! ## Equal values -/

mutual

/-- Whether two values are equal: the same, but for the signs of zeros. -/
def equal : Json → Json → Bool
  | .null, .null => true
  | .bool a, .bool b => a = b
  | .num a, .num b => a.equal b
  | .str a, .str b => a = b
  | .arr a, .arr b => equalItems a b
  | .obj a, .obj b => equalMembers a b
  | _, _ => false

/-- Whether two lists of items are equal. -/
def equalItems : List Json → List Json → Bool
  | [], [] => true
  | a :: as, b :: bs => equal a b && equalItems as bs
  | _, _ => false

/-- Whether two lists of members are equal. -/
def equalMembers : List (String × Json) → List (String × Json) → Bool
  | [], [] => true
  | (k, a) :: as, (l, b) :: bs => k = l && equal a b && equalMembers as bs
  | _, _ => false

end

/-! ## Parts of a value -/

/-- An integer. -/
def int (n : Int) : Json := .num (.int n)

/-- A natural number. -/
def nat (n : Nat) : Json := int n

/-- The text of a string. -/
def str? : Json → Option String
  | .str s => some s
  | _ => none

/-- The members of an object. -/
def fields? : Json → Option Fields
  | .obj fields => some fields
  | _ => none

/-- The items of an array. -/
def items? : Json → Option (List Json)
  | .arr items => some items
  | _ => none

/-- The truth value of a boolean. -/
def bool? : Json → Option Bool
  | .bool b => some b
  | _ => none

/-- A number that is an integer and not negative; `200.0` is none. -/
def nat? : Json → Option Nat
  | .num (.int n) => if 0 ≤ n then some n.toNat else none
  | _ => none

/-- The member of an object under a key; other values have no members. -/
def get? (v : Json) (key : String) : Option Json :=
  match v with
  | .obj fields => Keyed.find? fields key
  | _ => none

/-- The string under a key of an object. -/
def getStr? (v : Json) (key : String) : Option String :=
  (v.get? key).bind str?

/-- A string, or null where there is none. -/
def ofStr? : Option String → Json
  | some s => .str s
  | none => .null

/-- An object of members in any order. -/
def object (members : List (String × Json)) : Json :=
  .obj (Dict.ofList members)

/-- What kind of value it is, as errors name it. -/
def kind : Json → String
  | .null => "null"
  | .bool _ => "a boolean"
  | .num _ => "a number"
  | .str _ => "a string"
  | .arr _ => "an array"
  | .obj _ => "an object"

end Json

end DocumentSession
