import DocumentSession.Decimal.Binary64

set_option autoImplicit false

/-! # The fewest decimal digits that read back

A finite number `m · 2^q` is the nearest pattern to every real of an interval around it, from half
way to the pattern below up to half way to the pattern above, ends included exactly when `m` is
even. `Binary64.shortest` gives the decimal in that interval with the fewest digits, and of those
with equally few the one nearest to the number. Two may be equally near; which of them is taken is
part of a written form.

A grid of step `10^k` has a point in the interval only if one of the number's two neighbours on
that grid is in it, so two tests for each count of digits are enough. -/

namespace DocumentSession

/-- The natural `digits` times `10^exp`. -/
structure Decimal where
  digits : Nat
  exp : Int
  deriving DecidableEq, Repr

/-- Which of two neighbouring decimals stands for a number half way between them. -/
inductive Tie where
  /-- The one whose last digit is even. -/
  | toEven
  /-- The greater one. -/
  | up
  deriving DecidableEq, Repr

/-- Whether a tie goes to the lower of two neighbours, which has these digits. -/
def Tie.goesDown (tie : Tie) (digits : Nat) : Bool :=
  match tie with
  | .toEven => digits % 2 = 0
  | .up => false

namespace Binary64

/-- The interval of reals that round to a finite number, in quarters of its unit `2^q`: the ends,
and whether they belong to it. -/
structure Rounding where
  low : Nat
  high : Nat
  closed : Bool

/-- A power of two has a lower neighbour at half the distance, unless it is the least one of full
precision. -/
def rounding (x : Binary64) : Rounding :=
  let m := x.significand
  let near := m = fractionCount ∧ x.exponentBits > 1
  { low := if near then 4 * m - 1 else 4 * m - 2
    high := 4 * m + 2
    closed := m % 2 = 0 }

/-- Whether `d · 10^k` lies in the interval `r` in units of `2^q / 4`. -/
def Rounding.holds (r : Rounding) (q : Int) (d : Nat) (k : Int) : Bool :=
  -- both sides times `4 · 10^(-k) · 2^(-q)` as far as these are whole
  let point := 4 * d * Nat.pow 10 k.toNat * Nat.pow 2 (-q).toNat
  let unit := Nat.pow 2 q.toNat * Nat.pow 10 (-k).toNat
  if r.closed then r.low * unit ≤ point ∧ point ≤ r.high * unit
  else r.low * unit < point ∧ point < r.high * unit

/-- The number of decimal digits of a natural number, one for zero. -/
def digitCount (n : Nat) : Nat :=
  (Nat.toDigits 10 n).length

/-- The `e` with `10^(e-1) ≤ num / den < 10^e`. -/
def decimalPoint (num den : Nat) : Int :=
  let guess : Int := (digitCount num : Int) - (digitCount den : Int)
  -- the quotient lies in `(10^(guess-1), 10^(guess+1))`
  if num * Nat.pow 10 (-guess).toNat ≥ den * Nat.pow 10 guess.toNat then guess + 1
  else guess

/-- The decimal with `count` digits that is nearest to the number, if it reads back. -/
def onGrid? (tie : Tie) (x : Binary64) (point : Int) (count : Nat) : Option Decimal :=
  let k := point - count
  let (num, den) := x.magnitude
  let scaled := num * Nat.pow 10 (-k).toNat
  let step := den * Nat.pow 10 k.toNat
  let below := scaled / step
  let rest := scaled % step
  let r := x.rounding
  let low? := r.holds x.exponent below k
  let high? := r.holds x.exponent (below + 1) k
  let nearLow := 2 * rest < step || (2 * rest == step && tie.goesDown below)
  if low? && (!high? || nearLow) then some ⟨below, k⟩
  else if high? then some ⟨below + 1, k⟩
  else none

/-- The shortest decimal that reads back as a finite number, without its sign. Seventeen digits
always do. -/
def shortest (tie : Tie) (x : Binary64) : Decimal :=
  if x.significand = 0 then ⟨0, 0⟩
  else
    let (num, den) := x.magnitude
    let point := decimalPoint num den
    ((List.range 17).findSome? (fun i => onGrid? tie x point (i + 1))).getD ⟨0, 0⟩

end Binary64

end DocumentSession
