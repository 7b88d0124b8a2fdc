/-!
# Double-precision numbers

A number is held by its sign, its exponent field and its fraction field. Every finite number is a
whole multiple of the smallest positive one, `2 ^ (-1074)`, and all arithmetic here is exact
arithmetic on those multiples followed by a single rounding to the nearest number, ties to even.
-/
namespace PortableTypes

/-- Powers of natural numbers are those of the core library, whatever else a module imports. -/
@[default_instance 20000]
instance (priority := 20000) powNat : Pow Nat Nat := instPowNat

/-- A double-precision number by its three fields. -/
structure Binary64 where
  negative : Bool
  exponent : Fin 2048
  fraction : Fin (2 ^ 52)
  deriving DecidableEq, Repr

namespace Binary64

/-- One as a multiple of the smallest positive number. -/
def unitsOfOne : Nat := 2 ^ 1074

/-- The exponent field of the infinities and of the values that are not numbers. -/
def topExponent : Nat := 2047

def zero (negative : Bool) : Binary64 := ⟨negative, 0, 0⟩
def infinity (negative : Bool) : Binary64 := ⟨negative, Fin.ofNat 2048 topExponent, 0⟩
def nan : Binary64 := ⟨false, Fin.ofNat 2048 topExponent, Fin.ofNat (2 ^ 52) (2 ^ 51)⟩

def isFinite (x : Binary64) : Bool := x.exponent.val != topExponent
def isInfinite (x : Binary64) : Bool := x.exponent.val == topExponent && x.fraction.val == 0
def isNaN (x : Binary64) : Bool := x.exponent.val == topExponent && x.fraction.val != 0
def isZero (x : Binary64) : Bool := x.exponent.val == 0 && x.fraction.val == 0

def neg (x : Binary64) : Binary64 := { x with negative := !x.negative }

/-- The whole number `m` of the magnitude `m * 2 ^ s` of a finite number. -/
def significand (x : Binary64) : Nat :=
  if x.exponent.val = 0 then x.fraction.val else 2 ^ 52 + x.fraction.val

/-- The power `s` of the magnitude `m * 2 ^ s`, counted in units of `2 ^ (-1074)`. -/
def scale (x : Binary64) : Nat := x.exponent.val - 1

/-- The magnitude of a finite number as a multiple of `2 ^ (-1074)`. -/
def units (x : Binary64) : Nat := x.significand * 2 ^ x.scale

/-- Equality of the values: no value equals a value that is not a number, and the two zeros agree.
-/
def sameValue (x y : Binary64) : Bool :=
  !x.isNaN && !y.isNaN && (x == y || (x.isZero && y.isZero))

/-- The whole number nearest to `num / den`, an exact half going to the even neighbour. -/
def roundHalfEven (num den : Nat) : Nat :=
  let q := num / den
  let r := num % den
  if den < 2 * r || (2 * r == den && q % 2 == 1) then q + 1 else q

/-- The number whose exponent and fraction fields, read as one whole number, are `bits`; from the
fields of infinity on it is infinity. -/
def ofMagnitude (negative : Bool) (bits : Nat) : Binary64 :=
  if bits < topExponent * 2 ^ 52 then
    ⟨negative, Fin.ofNat 2048 (bits / 2 ^ 52), Fin.ofNat (2 ^ 52) (bits % 2 ^ 52)⟩
  else
    infinity negative

/-- The number nearest to `num / den`. Rounding up past the last significand of a power of two
carries into the exponent field by itself. -/
def ofRatio (negative : Bool) (num den : Nat) : Binary64 :=
  let n := num * unitsOfOne
  let s := (n / den).log2 - 52
  ofMagnitude negative (s * 2 ^ 52 + roundHalfEven n (den * 2 ^ s))

def ofNat (n : Nat) : Binary64 := ofRatio false n 1

/-- The product of two finite numbers. -/
def mul (x y : Binary64) : Binary64 :=
  ofRatio (x.negative != y.negative) (x.units * y.units) (unitsOfOne * unitsOfOne)

/-- The quotient of a finite number by a finite number that is not zero. -/
def div (x y : Binary64) : Binary64 :=
  ofRatio (x.negative != y.negative) x.units y.units

/-- The number nearest to `10 ^ n`. -/
def powTen (n : Nat) : Binary64 := ofNat (10 ^ n)

/-- The largest power of ten that is scaled by in one step. -/
def maxPowTen : Nat := 308

/-- `significand * 10 ^ exponent`, computed in double precision: the significand is rounded first,
then multiplied or divided by a rounded power of ten. Exponents under `-308` divide twice; under
`-616` nothing is left of a significand below `2 ^ 64`. There is no result where it is infinite. -/
def ofDecimal (negative : Bool) (significand : Nat) (exponent : Int) : Option Binary64 :=
  let f := ofNat significand
  let signed (x : Binary64) : Binary64 := if negative then x.neg else x
  match exponent with
  | .ofNat e =>
    if e ≤ maxPowTen then
      let x := f.mul (powTen e)
      if x.isInfinite then none else some (signed x)
    else if f.isZero then some (signed f) else none
  | .negSucc e =>
    let e := e + 1
    if e ≤ maxPowTen then some (signed (f.div (powTen e)))
    else if e ≤ 2 * maxPowTen then
      some (signed ((f.div (powTen maxPowTen)).div (powTen (e - maxPowTen))))
    else some (zero negative)

end Binary64
end PortableTypes
