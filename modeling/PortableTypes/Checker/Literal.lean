import PortableTypes.Number.Layout
import PortableTypes.Text.Basic

/-!
# Literal values

The values of literal types: null, booleans, doubles, strings and whole numbers of any size.
-/
namespace PortableTypes

/-- A whole number of any size by its sign and decimal digits. -/
structure BigInteger where
  negative : Bool
  digits : String
  deriving DecidableEq, Repr

namespace BigInteger

/-- Digits without zeros in front; zero keeps one. -/
def stripZeros (digits : List Char) : List Char :=
  match digits.dropWhile (· == '0') with
  | [] => ['0']
  | ds => ds

/-- The text without a trailing `n`. -/
def stripMark (cs : List Char) : List Char :=
  if cs.getLast? = some 'n' then cs.dropLast else cs

/-- Reads an optional minus, decimal digits and an optional `n`, between white space. -/
def parse? (text : String) : Option BigInteger :=
  let (minus, rest) := match Text.trim Text.isBlank text.toList with
    | '-' :: rest => (true, rest)
    | cs => (false, cs)
  let digits := stripMark rest
  if digits.isEmpty || !digits.all Char.isDigit then none
  else
    let magnitude := stripZeros digits
    some { negative := minus && magnitude != ['0'], digits := String.ofList magnitude }

def display (b : BigInteger) : String := (if b.negative then "-" else "") ++ b.digits ++ "n"

end BigInteger

inductive Literal
  | null
  | boolean (b : Bool)
  | number (x : Binary64)
  | string (s : String)
  | bigInteger (b : BigInteger)
  deriving DecidableEq, Repr

namespace Literal

def kindName : Literal → String
  | .null => "null"
  | .boolean _ => "boolean"
  | .number _ => "number"
  | .string _ => "string"
  | .bigInteger _ => "bigint"

/-- The text of a literal as a type. Strings stand in quotes as they are. -/
def display : Literal → String
  | .null => "null"
  | .boolean b => if b then "true" else "false"
  | .number x => x.display
  | .string s => "\"" ++ s ++ "\""
  | .bigInteger b => b.display

/-- Whether two literals have the same value. -/
def sameValue : Literal → Literal → Bool
  | .number x, .number y => x.sameValue y
  | a, b => a == b

end Literal
end PortableTypes
