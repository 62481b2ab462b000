set_option autoImplicit false

/-! # Binary floating-point numbers of 64 bits

A number is held as its bit pattern: one sign bit, eleven bits of exponent, fifty-two bits of
fraction. A finite pattern stands for `m · 2^q` with natural `m` and integer `q`
(`Binary64.significand`, `Binary64.exponent`), and everything else is exact arithmetic on these
two. `Binary64.ofFraction` rounds a fraction to the nearest pattern, a tie to the even one; it is
what rounds decimals, products and quotients. -/

namespace DocumentSession

/-- A binary floating-point number, held as its bit pattern. -/
structure Binary64 where
  bits : UInt64
  deriving DecidableEq, Repr

namespace Binary64

/-- The number of patterns of the fifty-two fraction bits. -/
def fractionCount : Nat :=
  Nat.pow 2 52

/-- The sign bit. -/
def isNegative (x : Binary64) : Bool :=
  x.bits ≥ 0x8000000000000000

/-- The eleven exponent bits. -/
def exponentBits (x : Binary64) : Nat :=
  x.bits.toNat / fractionCount % 2048

/-- The fifty-two fraction bits. -/
def fractionBits (x : Binary64) : Nat :=
  x.bits.toNat % fractionCount

/-- Neither infinite nor the result of an undefined operation. -/
def isFinite (x : Binary64) : Bool :=
  x.exponentBits ≠ 2047

/-- The pattern of an undefined result. -/
def isNaN (x : Binary64) : Bool :=
  x.exponentBits = 2047 ∧ x.fractionBits ≠ 0

/-- The natural `m` of a finite number `± m · 2^q`. -/
def significand (x : Binary64) : Nat :=
  if x.exponentBits = 0 then x.fractionBits else fractionCount + x.fractionBits

/-- The integer `q` of a finite number `± m · 2^q`. -/
def exponent (x : Binary64) : Int :=
  if x.exponentBits = 0 then -1074 else (x.exponentBits : Int) - 1075

/-- Either of the two zeros. -/
def isZero (x : Binary64) : Bool :=
  x.isFinite ∧ x.significand = 0

/-- Whether two finite numbers are equal; the two zeros are. -/
def equal (x y : Binary64) : Bool :=
  x = y || (x.isZero && y.isZero)

/-- The pattern of an undefined result that operations give. -/
def nan : Binary64 := ⟨0x7ff8000000000000⟩

/-- Infinity of a sign. -/
def infinity (negative : Bool) : Binary64 :=
  ⟨if negative then 0xfff0000000000000 else 0x7ff0000000000000⟩

/-- Zero of a sign. -/
def zero (negative : Bool) : Binary64 :=
  ⟨if negative then 0x8000000000000000 else 0⟩

/-- A finite number as a fraction `(numerator, denominator)` without its sign. -/
def magnitude (x : Binary64) : Nat × Nat :=
  (x.significand * Nat.pow 2 x.exponent.toNat, Nat.pow 2 (-x.exponent).toNat)

/-- `num / den` rounded to the nearest natural, a tie to the even one. -/
def roundDiv (num den : Nat) : Nat :=
  let q := num / den
  let r := num % den
  if 2 * r < den ∨ (2 * r = den ∧ q % 2 = 0) then q else q + 1

/-- The nearest pattern without sign to `num / den`, `num` not zero: the exponent is the least one
that keeps fifty-three bits, and a carry out of the fraction moves into the exponent by itself. -/
def roundFraction (num den : Nat) : Nat :=
  let guess : Int := (num.log2 : Int) - (den.log2 : Int)
  -- the quotient lies in `[2^(guess-1), 2^(guess+1))`
  let reached := num * Nat.pow 2 (-guess).toNat ≥ den * Nat.pow 2 guess.toNat
  let top : Int := if reached then guess else guess - 1
  let q : Int := max (top - 52) (-1074)
  (q + 1074).toNat * fractionCount
    + roundDiv (num * Nat.pow 2 (-q).toNat) (den * Nat.pow 2 q.toNat)

/-- The number nearest to `± num / den`, a tie to the even pattern; what is too large is
infinite. -/
def ofFraction (negative : Bool) (num den : Nat) : Binary64 :=
  if num = 0 then zero negative
  else
    let pattern := roundFraction num den
    if pattern ≥ 2047 * fractionCount then infinity negative
    else ⟨UInt64.ofNat (pattern + if negative then Nat.pow 2 63 else 0)⟩

/-- The number nearest to `± digits · 10^exp`; decimals far out of range are not computed. -/
def ofDecimal (negative : Bool) (digits : Nat) (exp : Int) : Binary64 :=
  if digits = 0 then zero negative
  else
    let size : Int := (digits.log2 : Int) / 3 + exp
    if size < -400 then zero negative
    else if exp > 400 then infinity negative
    else ofFraction negative (digits * Nat.pow 10 exp.toNat) (Nat.pow 10 (-exp).toNat)

/-- A natural number, rounded if it has more than fifty-three bits. -/
def ofNat (n : Nat) : Binary64 :=
  ofDecimal false n 0

/-- The number with the other sign. -/
def negate (x : Binary64) : Binary64 :=
  ⟨x.bits ^^^ 0x8000000000000000⟩

/-- The product of two finite numbers, rounded. -/
def mul (x y : Binary64) : Binary64 :=
  let (xn, xd) := x.magnitude
  let (yn, yd) := y.magnitude
  ofFraction (x.isNegative != y.isNegative) (xn * yn) (xd * yd)

/-- The quotient of two finite numbers, rounded; the second is not zero. -/
def div (x y : Binary64) : Binary64 :=
  let (xn, xd) := x.magnitude
  let (yn, yd) := y.magnitude
  ofFraction (x.isNegative != y.isNegative) (xn * yd) (xd * yn)

/-- Whether one finite number is at most another; the two zeros are equal. -/
def atMost (x y : Binary64) : Bool :=
  let (xn, xd) := x.magnitude
  let (yn, yd) := y.magnitude
  match x.isNegative && !x.isZero, y.isNegative && !y.isZero with
  | false, false => xn * yd ≤ yn * xd
  | true, true => yn * xd ≤ xn * yd
  | true, false => true
  | false, true => false

end Binary64

end DocumentSession
