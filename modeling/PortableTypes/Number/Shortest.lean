import PortableTypes.Number.Binary64

/-!
# The fewest digits that read back

The reals that round to a given number form an interval around it. The digits chosen for a number
are the fewest whose value lies in that interval, and of those the nearest to the number. Digit
counts are tried in turn; on the grid of each count only the two neighbours of the number matter.
-/
namespace PortableTypes

/-- Decimal digits `d₁ d₂ …` with the value `0.d₁d₂… * 10 ^ point`. -/
structure Decimal where
  digits : List Char
  point : Int
  deriving DecidableEq, Repr

/-- Which of two equally near digit strings is taken. -/
inductive Tie
  | toEven
  | up
  deriving DecidableEq, Repr

namespace Decimal

/-- How often `num` has to be multiplied by ten to reach `den`, looked for up to `fuel` times. -/
def leadingZeros : (fuel num den : Nat) → Nat
  | 0, _, _ => 0
  | fuel + 1, num, den => if den ≤ num then 0 else leadingZeros fuel (num * 10) den + 1

/-- The power of ten of the leading digit of `num / den`. -/
def leadingPower (num den : Nat) : Int :=
  if den ≤ num then (Nat.toDigits 10 (num / den)).length - 1
  else -(leadingZeros 400 num den : Int)

/-- A number together with the ends of its rounding interval, over one denominator. -/
structure Interval where
  low : Nat
  value : Nat
  high : Nat
  den : Nat
  closed : Bool

/-- The rounding interval of a finite number that is not zero. Just above a power of two the
numbers lie twice as far apart as below it. The ends round to the number iff its significand is
even. -/
def Interval.of (x : Binary64) : Interval :=
  let step := 2 ^ x.scale
  let value := 4 * x.units
  let below := if x.fraction.val = 0 && 1 < x.exponent.val then step else 2 * step
  { low := value - below, value, high := value + 2 * step, den := 4 * Binary64.unitsOfOne,
    closed := x.significand % 2 == 0 }

/-- The same interval measured in units of `10 ^ power`. -/
def Interval.scaled (i : Interval) (power : Int) : Interval :=
  match power with
  | .ofNat p => { i with den := i.den * 10 ^ p }
  | .negSucc p =>
    let k := 10 ^ (p + 1)
    { i with low := i.low * k, value := i.value * k, high := i.high * k }

def Interval.contains (i : Interval) (n : Nat) : Bool :=
  let m := n * i.den
  if i.closed then i.low ≤ m && m ≤ i.high else i.low < m && m < i.high

/-- The whole number in the interval nearest to its value, if a neighbour of the value lies in it.
-/
def Interval.nearest (i : Interval) (tie : Tie) : Option Nat :=
  let n := i.value / i.den
  match i.contains n, i.contains (n + 1) with
  | false, false => none
  | true, false => some n
  | false, true => some (n + 1)
  | true, true =>
    let r := 2 * (i.value % i.den)
    if r < i.den then some n
    else if i.den < r then some (n + 1)
    else match tie with
      | .up => some (n + 1)
      | .toEven => some (if n % 2 = 0 then n else n + 1)

/-- The decimal `n * 10 ^ power` without zeros at its end. -/
def ofScaled (n : Nat) (power : Int) : Decimal :=
  let digits := Nat.toDigits 10 n
  { digits := (digits.reverse.dropWhile (· == '0')).reverse, point := digits.length + power }

/-- The fewest digits that read back as the finite nonzero number `x`; seventeen always do. -/
def shortest (tie : Tie) (x : Binary64) : Decimal :=
  let i := Interval.of x
  let lead := leadingPower i.value i.den
  ((List.range 17).findSome? fun (n : Nat) =>
    ((i.scaled (lead - n)).nearest tie).map (ofScaled · (lead - n))).getD ⟨[], 0⟩

end Decimal
end PortableTypes
