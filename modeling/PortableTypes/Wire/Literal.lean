import PortableTypes.Checker.Literal
import PortableTypes.Json.Record

/-!
# Literals in documents

A literal stands in a document as the value it is. A number that has no digits is written as null,
and a whole number of any size as a record of its sign and digits.
-/
namespace PortableTypes

namespace BigInteger

def encode (b : BigInteger) : Json :=
  .object [("negative", .boolean b.negative), ("base10Value", .string b.digits)]

def decode (medium : Medium) : Decoder BigInteger := fun j => do
  let (negative, digits, ()) ←
    (Row.field "negative" Decode.boolean .required <|
      .field "base10Value" Decode.string .required .done).decode medium "struct PseudoBigInt" j
  return { negative, digits }

end BigInteger

namespace Literal

def encode : Literal → Json
  | .null => .null
  | .boolean b => .boolean b
  | .number x => if x.isFinite then .number (.real x) else .null
  | .string s => .string s
  | .bigInteger b => b.encode

/-- A literal carries no tag: the document is set aside and its form decides. -/
def decode : Decoder Literal := fun j => do
  Decode.flawed j.check
  match j with
  | .null => return .null
  | .boolean b => return .boolean b
  | .number n => return .number n.toBinary64
  | .string s => return .string s
  | j =>
    match BigInteger.decode .buffer j with
    | .ok b => return .bigInteger b
    | .error _ => Decode.fail (.noVariant "LiteralValue")

end Literal
end PortableTypes
