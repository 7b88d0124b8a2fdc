import PortableTypes.Number.Shortest

/-!
# Texts of numbers

A layout says how the digits of a number are set out. Two layouts are in use: the one of JSON
documents and the plain one of type texts.
-/
namespace PortableTypes

/-- The decisions that turn digits into a text. -/
structure Layout where
  /-- Which of two equally near digit strings is taken. -/
  tie : Tie
  /-- Whether a number whose leading digit stands at this power of ten is written out in full. -/
  positional : Int → Bool
  /-- What follows a whole number. -/
  wholeMark : List Char

namespace Layout

/-- JSON documents write out powers from `-5` to `15` and mark whole numbers as fractional. -/
def json : Layout := ⟨.toEven, fun e => -5 ≤ e && e ≤ 15, ['.', '0']⟩

/-- Type texts write out every number. -/
def plain : Layout := ⟨.up, fun _ => true, []⟩

/-- Digits around a decimal point. -/
def placed (wholeMark : List Char) (d : Decimal) : List Char :=
  match d.point with
  | .negSucc p => '0' :: '.' :: (List.replicate (p + 1) '0' ++ d.digits)
  | .ofNat p =>
    if p = 0 then '0' :: '.' :: d.digits
    else if d.digits.length ≤ p then
      d.digits ++ List.replicate (p - d.digits.length) '0' ++ wholeMark
    else d.digits.take p ++ '.' :: d.digits.drop p

/-- Digits with a power of ten. -/
def scientific (d : Decimal) : List Char :=
  let e := d.point - 1
  let mantissa := match d.digits with
    | [] => []
    | [c] => [c]
    | c :: cs => c :: '.' :: cs
  let sign := if e < 0 then '-' else '+'
  mantissa ++ 'e' :: sign :: Nat.toDigits 10 e.natAbs

/-- The text of the magnitude of a finite number. -/
def magnitude (l : Layout) (x : Binary64) : List Char :=
  if x.isZero then '0' :: l.wholeMark
  else
    let d := Decimal.shortest l.tie x
    if l.positional (d.point - 1) then placed l.wholeMark d else scientific d

/-- The text of a finite number. -/
def text (l : Layout) (x : Binary64) : List Char :=
  if x.negative then '-' :: l.magnitude x else l.magnitude x

end Layout

/-- The text of a number in a type: in full, with names for the values that have no digits. -/
def Binary64.display (x : Binary64) : String :=
  if x.isNaN then "NaN"
  else if x.isInfinite then (if x.negative then "-inf" else "inf")
  else String.ofList (Layout.plain.text x)

end PortableTypes
