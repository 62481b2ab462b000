import DocumentSession.Decimal.Shortest

set_option autoImplicit false

/-! # Decimal text of a number

A `Decimal.Format` says how the shortest decimal of a number is written: between which sizes
without an exponent, whether a whole number keeps a fraction of `.0`, and which of two equally near
decimals it is. -/

namespace DocumentSession

namespace Decimal

/-- The decisions of a written form. The `point` of a decimal is the place of the decimal point
counted from its first digit, so that the number is below `10^point`. -/
structure Format where
  /-- Numbers with a point of at most this are written with an exponent, if given. -/
  smallBelow : Option Int
  /-- Numbers with a point above this are written with an exponent, if given. -/
  largeAbove : Option Int
  /-- A number without fraction is written with the fraction `.0`. -/
  keepFraction : Bool
  tie : Tie

/-- Drop the zeros at the end of the digits. -/
def stripZeros (digits : Nat) (exp : Int) (fuel : Nat) : Decimal :=
  match fuel with
  | 0 => ⟨digits, exp⟩
  | fuel + 1 =>
    if digits ≠ 0 ∧ digits % 10 = 0 then stripZeros (digits / 10) (exp + 1) fuel
    else ⟨digits, exp⟩

/-- The digits of a natural number. -/
def digitText (n : Nat) : List Char :=
  Nat.toDigits 10 n

/-- A decimal without exponent: zeros fill up to the point on either side. -/
def positional (digits : List Char) (point : Int) (keepFraction : Bool) : List Char :=
  let fractionless := if keepFraction then ['.', '0'] else []
  if point ≤ 0 then '0' :: '.' :: (List.replicate (-point).toNat '0' ++ digits)
  else
    let whole := point.toNat
    if digits.length ≤ whole then
      digits ++ List.replicate (whole - digits.length) '0' ++ fractionless
    else digits.take whole ++ '.' :: digits.drop whole

/-- A decimal with one digit before the point and a signed exponent. -/
def scientific (digits : List Char) (point : Int) : List Char :=
  let mantissa := match digits with
    | first :: second :: rest => first :: '.' :: second :: rest
    | short => short
  let exp := point - 1
  mantissa ++ 'e' :: (if exp < 0 then '-' else '+') :: digitText exp.natAbs

/-- Write a decimal. -/
def Format.write (f : Format) (d : Decimal) : List Char :=
  if d.digits = 0 then '0' :: (if f.keepFraction then ['.', '0'] else [])
  else
    let d := stripZeros d.digits d.exp 17
    let digits := digitText d.digits
    let point : Int := digits.length + d.exp
    if f.smallBelow.any (point ≤ ·) || f.largeAbove.any (· < point) then scientific digits point
    else positional digits point f.keepFraction

end Decimal

/-- Write a number; what is not finite has the names `NaN`, `inf` and `-inf`. -/
def Binary64.write (f : Decimal.Format) (x : Binary64) : String :=
  if x.isNaN then "NaN"
  else
    let sign := if x.isNegative then ['-'] else []
    let size := if x.isFinite then f.write (x.shortest f.tie) else ['i', 'n', 'f']
    String.ofList (sign ++ size)

end DocumentSession
