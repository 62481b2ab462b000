import DocumentSession.Json.Basic
import DocumentSession.Sha256

set_option autoImplicit false

/-! # Frozen queries

The text, the parameters and the paging of a query, ready to send. Its hash is the SHA-256 digest of
a byte form in which every part begins with a tag for its type and every text and list with its
length, so that no two queries have the same bytes. -/

namespace DocumentSession.Query

/-- A query that is ready to send. -/
structure Frozen where
  text : String
  parameters : Fields := []
  start : Option Nat := none
  pageSize : Option Nat := none
  waitForNonStaleResults : Bool := false
  skipDuplicateChecking : Bool := false
  /-- Whether the response cache is to be left aside; this is not sent. -/
  disableCaching : Bool := false
  deriving DecidableEq

/-- A member that stands only where there is a value. -/
def optionalMember (key : String) (n : Option Nat) : List (String × Json) :=
  n.elim [] (fun n => [(key, Json.nat n)])

/-- The body of a request for a query. -/
def Frozen.toJson (q : Frozen) : Json :=
  Json.object (
    [("Query", .str q.text), ("QueryParameters", .obj q.parameters)]
    ++ optionalMember "Start" q.start ++ optionalMember "PageSize" q.pageSize
    ++ [("WaitForNonStaleResults", .bool q.waitForNonStaleResults),
        ("SkipDuplicateChecking", .bool q.skipDuplicateChecking)])

/-! ## The bytes behind the hash -/

namespace Preimage

/-- The byte of a character of ASCII. -/
def tag (c : Char) : UInt8 :=
  c.toUInt8

/-- A number in eight bytes, the lowest first, modulo `2^64`. -/
def eightBytes (n : Nat) : List UInt8 :=
  (List.range 8).map (fun i => UInt8.ofNat (n / Nat.pow 256 i))

/-- A text with its length in bytes. -/
def text (s : String) : List UInt8 :=
  let bytes := s.toList.flatMap String.utf8EncodeChar
  tag 's' :: (eightBytes bytes.length ++ bytes)

/-- A truth value in one byte. -/
def bool (b : Bool) : List UInt8 :=
  [tag 'b', if b then 1 else 0]

/-- An integer that fits into 64 bits with sign; a negative one is written by its complement. -/
def signed (n : Int) : List UInt8 :=
  tag 'i' :: eightBytes (n % UInt64.size).toNat

/-- A natural number that fits into 64 bits. -/
def unsigned (n : Nat) : List UInt8 :=
  tag 'u' :: eightBytes n

/-- A floating-point number by its bit pattern. -/
def float (x : Binary64) : List UInt8 :=
  tag 'f' :: eightBytes x.bits.toNat

/-- The absent value. -/
def null : List UInt8 :=
  [tag 'n']

/-- A natural number, or null where there is none. -/
def optional (n : Option Nat) : List UInt8 :=
  n.elim null unsigned

/-- A number; one without fraction counts as signed if it fits. -/
def number : Number → List UInt8
  | .int n => if n < Nat.pow 2 63 then signed n else unsigned n.toNat
  | .float x => float x

mutual

/-- A JSON value; lists and objects begin with the number of their parts. -/
def value : Json → List UInt8
  | .null => null
  | .bool b => bool b
  | .num n => number n
  | .str s => text s
  | .arr items => tag 'a' :: (eightBytes items.length ++ values items)
  | .obj fields => tag 'o' :: (eightBytes fields.length ++ members fields)

/-- JSON values one after the other. -/
def values : List Json → List UInt8
  | [] => []
  | v :: rest => value v ++ values rest

/-- Members one after the other, each behind its key. -/
def members : List (String × Json) → List UInt8
  | [] => []
  | (k, v) :: rest => text k ++ value v ++ members rest

end

/-- The parameters of a query. -/
def parameters (fields : Fields) : List UInt8 :=
  tag 'p' :: (eightBytes fields.length ++ members fields)

end Preimage

/-- The bytes that stand for a query. -/
def Frozen.preimage (q : Frozen) : List UInt8 :=
  Preimage.text q.text ++ Preimage.bool q.waitForNonStaleResults
    ++ Preimage.bool q.skipDuplicateChecking ++ Preimage.optional q.start
    ++ Preimage.optional q.pageSize ++ Preimage.parameters q.parameters

/-- The hash of a query. -/
def Frozen.hash (q : Frozen) : String :=
  Sha256.hexDigest q.preimage

end DocumentSession.Query
