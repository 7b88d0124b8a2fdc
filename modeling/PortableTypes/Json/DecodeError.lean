import PortableTypes.Json.Basic
import PortableTypes.Text.Quoted

/-!
# Why a document does not decode

Decoding stops at the first fault of the text or at the first value that does not have the expected
form. Every mismatch is a cause with its own data; the wording is in `Mismatch.message`.
-/
namespace PortableTypes

/-- What decoding expected. -/
inductive Expected
  | string
  | boolean
  | natural32
  | sequence
  | map
  | unit
  | stringOrMap
  | singleKeyMap
  | identifier
  /-- A number that names one of so many variants. -/
  | variantIndex (count : Nat)
  /-- Anything with a name of its own. -/
  | named (name : String)
  /-- A record written as an array of its fields. -/
  | fields (record : String) (count : Nat)
  /-- An array of so many items. -/
  | items (count : Nat)
  deriving DecidableEq, Repr

/-- Why a value does not have the expected form. -/
inductive Mismatch
  | invalidType (found : Found) (expected : Expected)
  | invalidValue (found : Found) (expected : Expected)
  | invalidLength (length : Nat) (expected : Expected)
  | missingField (name : String)
  | duplicateField (name : String)
  | unknownVariant (name : String) (variants : List String)
  | noVariant (record : String)
  | tooFewMembers (count : Nat)
  deriving DecidableEq, Repr

inductive DecodeError
  | flaw (f : Flaw)
  | mismatch (m : Mismatch)
  deriving DecidableEq, Repr

namespace Found

def describe : Found → String
  | .null => "null"
  | .boolean b => s!"boolean `{b}`"
  | .number (.natural n) => s!"integer `{n}`"
  | .number (.negative n) => s!"integer `-{n}`"
  | .number (.real x) => "floating point `" ++ String.ofList (Layout.json.text x) ++ "`"
  | .string s => "string " ++ Text.quoted s
  | .sequence => "sequence"
  | .map => "map"

end Found

/-- A count with its noun. -/
def countedElements (count : Nat) : String :=
  if count = 1 then "1 element" else s!"{count} elements"

namespace Expected

def describe : Expected → String
  | .string => "a string"
  | .boolean => "a boolean"
  | .natural32 => "u32"
  | .sequence => "a sequence"
  | .map => "a map"
  | .unit => "unit"
  | .stringOrMap => "string or map"
  | .singleKeyMap => "map with a single key"
  | .identifier => "variant identifier"
  | .variantIndex count => s!"variant index 0 <= i < {count}"
  | .named name => name
  | .fields record count => record ++ " with " ++ countedElements count
  | .items count => countedElements count ++ " in sequence"

end Expected

/-- A list of names as an alternative. -/
def oneOf : List String → String
  | [] => "there are no variants"
  | [a] => "expected `" ++ a ++ "`"
  | [a, b] => "expected `" ++ a ++ "` or `" ++ b ++ "`"
  | names => "expected one of " ++ ", ".intercalate (names.map fun n => "`" ++ n ++ "`")

/-- The wording for a union with fewer than two members. -/
def tooFewMembersMessage (count : Nat) : String :=
  s!"a union needs at least 2 members, got {count}"

namespace Mismatch

def message : Mismatch → String
  | .invalidType found expected =>
    "invalid type: " ++ found.describe ++ ", expected " ++ expected.describe
  | .invalidValue found expected =>
    "invalid value: " ++ found.describe ++ ", expected " ++ expected.describe
  | .invalidLength length expected => s!"invalid length {length}, expected " ++ expected.describe
  | .missingField name => "missing field `" ++ name ++ "`"
  | .duplicateField name => "duplicate field `" ++ name ++ "`"
  | .unknownVariant name variants => "unknown variant `" ++ name ++ "`, " ++ oneOf variants
  | .noVariant record => "data did not match any variant of untagged enum " ++ record
  | .tooFewMembers count => tooFewMembersMessage count

end Mismatch

namespace DecodeError

/-- The text of an error; a flaw of the text has none. -/
def message? : DecodeError → Option String
  | .flaw _ => none
  | .mismatch m => some m.message

end DecodeError
end PortableTypes
