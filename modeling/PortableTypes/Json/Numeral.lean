import PortableTypes.Json.Basic
import PortableTypes.Text.Basic

/-!
# Numerals of documents

The value of a numeral is computed from at most the leading digits that fit into 64 bits. Further
digits of the whole part count as zeros and further digits of the fraction are left out.
-/
namespace PortableTypes

/-- A number as it is written. -/
structure Numeral where
  negative : Bool
  whole : List Char
  /-- The digits behind the point, if there is one. -/
  fraction : Option (List Char)
  /-- The digits of the power of ten with its sign, if there is one. -/
  exponent : Option (Bool × List Char)
  deriving DecidableEq, Repr

namespace Numeral

/-- Appends digits to a significand as long as it stays below `2 ^ 64`; gives also the digits that
are left. -/
def absorb (significand : Nat) : List Char → Nat × List Char
  | [] => (significand, [])
  | d :: ds =>
    let next := significand * 10 + Text.digitValue d
    if next < 2 ^ 64 then absorb next ds else (significand, d :: ds)

/-- The largest power of ten that is taken at its word. -/
def maxExponent : Nat := 2 ^ 31 - 1

/-- The number `± significand * 10 ^ (power ± exponent)`, if it is in range. -/
def scaled (n : Numeral) (significand : Nat) (power : Int) : Option Binary64 :=
  match n.exponent with
  | none => Binary64.ofDecimal n.negative significand power
  | some (negative, digits) =>
    let e := Text.digitsValue digits
    if maxExponent < e then
      if significand ≠ 0 && !negative then none else some (Binary64.zero n.negative)
    else
      Binary64.ofDecimal n.negative significand (if negative then power - e else power + e)

/-- A whole number that fits into 64 bits, signed or unsigned, is exact; all else is a double. -/
def whole64 (negative : Bool) (n : Nat) : Number :=
  if !negative then .natural n
  else if 0 < n && n ≤ 2 ^ 63 then .negative n
  else .real (Binary64.ofNat n).neg

/-- The value of a numeral, unless it is too large. -/
def value (n : Numeral) : Option Number :=
  let (significand, left) := absorb 0 n.whole
  match n.fraction with
  | none =>
    if left.isEmpty && n.exponent.isNone then some (whole64 n.negative significand)
    else (n.scaled significand left.length).map .real
  | some fraction =>
    let (significand, unread) := absorb significand fraction
    (n.scaled significand (left.length - (fraction.length - unread.length : Nat) : Int)).map .real

end Numeral

namespace Json

/-- The digits behind a point, if one stands here, and the rest. -/
def readFraction : List Char → Except Fault (Option (List Char) × List Char)
  | '.' :: cs =>
    if (cs.takeWhile Char.isDigit).isEmpty then
      .error (if cs.isEmpty then .cutNumber else .malformed)
    else .ok (some (cs.takeWhile Char.isDigit), cs.dropWhile Char.isDigit)
  | cs => .ok (none, cs)

/-- The power of ten, if one stands here, and the rest. -/
def readExponent : List Char → Except Fault (Option (Bool × List Char) × List Char)
  | [] => .ok (none, [])
  | c :: cs =>
    if c = 'e' || c = 'E' then
      let (negative, cs) := match cs with
        | '-' :: cs => (true, cs)
        | '+' :: cs => (false, cs)
        | cs => (false, cs)
      if (cs.takeWhile Char.isDigit).isEmpty then
        .error (if cs.isEmpty then .cutNumber else .malformed)
      else .ok (some (negative, cs.takeWhile Char.isDigit), cs.dropWhile Char.isDigit)
    else .ok (none, c :: cs)

/-- The whole part of a number and the rest: a zero, or digits that do not start with one. -/
def readWhole : List Char → Except Fault (List Char × List Char)
  | [] => .error .cutNumber
  | c :: cs =>
    if c = '0' then
      if (cs.head?.map Char.isDigit).getD false then .error .malformed else .ok ([c], cs)
    else if c.isDigit then
      .ok (c :: cs.takeWhile Char.isDigit, cs.dropWhile Char.isDigit)
    else .error .malformed

/-- A numeral behind its sign, and the rest. -/
def readNumeral (negative : Bool) (cs : List Char) : Except Fault (Numeral × List Char) := do
  let (whole, cs) ← readWhole cs
  let (fraction, cs) ← readFraction cs
  let (exponent, cs) ← readExponent cs
  return ({ negative, whole, fraction, exponent }, cs)

end Json
end PortableTypes
