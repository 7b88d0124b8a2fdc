import PortableTypes.Json.DecodeError
import PortableTypes.Json.Reader

/-!
# Decoding values

Decoders take documents to values of the library. A document comes out of one of two media: a text
that is still being read, or a part of a document that was set aside whole before it is decoded. The
media differ only in how they treat items too many and tags that are not strings.
-/
namespace PortableTypes

/-- Where a document that is decoded comes from. -/
inductive Medium
  | text
  | buffer
  deriving DecidableEq, Repr

abbrev Decoder (α : Type) : Type := Json → Except DecodeError α

namespace Decode

def fail {α : Type} (m : Mismatch) : Except DecodeError α := .error (.mismatch m)

/-- Reports a flaw as an error of decoding. -/
def flawed {α : Type} (r : Except Flaw α) : Except DecodeError α :=
  match r with
  | .ok a => .ok a
  | .error f => .error (.flaw f)

/-- A document does not have the expected form; a fault in its place comes first. -/
def wrongType (expected : Expected) (j : Json) : DecodeError :=
  match j.found with
  | .ok found => .mismatch (.invalidType found expected)
  | .error f => .flaw f.needed

def string : Decoder String
  | .string s => .ok s
  | j => .error (wrongType .string j)

def boolean : Decoder Bool
  | .boolean b => .ok b
  | j => .error (wrongType .boolean j)

/-- A whole number below `2 ^ 32`. -/
def natural32 : Decoder Nat
  | .number (.natural n) =>
    if n < 2 ^ 32 then .ok n else fail (.invalidValue (.number (.natural n)) .natural32)
  | .number (.negative n) => fail (.invalidValue (.number (.negative n)) .natural32)
  | j => .error (wrongType .natural32 j)

def word32 : Decoder UInt32 := fun j => UInt32.ofNat <$> natural32 j

def list {α : Type} (item : Decoder α) : Decoder (List α)
  | .array items => items.mapM item
  | j => .error (wrongType .sequence j)

def nullable {α : Type} (value : Decoder α) : Decoder (Option α)
  | .null => .ok none
  | j => some <$> value j

/-- The fields of an object with their values decoded, in the order of the document. -/
def entries {α : Type} (value : Decoder α) : Decoder (List (String × α))
  | .object fields => fields.mapM fun (name, j) => (name, ·) <$> value j
  | j => .error (wrongType .map j)

/-- The element of `all` with a wire name. -/
def byName {α : Type} (all : List α) (wire : α → String) (name : String) :
    Except DecodeError α :=
  match all.find? (wire · == name) with
  | some a => .ok a
  | none => fail (.unknownVariant name (all.map wire))

/-- One of a list of names, alone or as the only field of an object with nothing in it. -/
def oneOfNames {α : Type} (all : List α) (wire : α → String) : Decoder α
  | .string name => byName all wire name
  | .object [(name, payload)] => do
    let a ← byName all wire name
    match payload with
    | .null | .object [] => .ok a
    | j => .error (wrongType .unit j)
  | .object _ => fail (.invalidValue .map .singleKeyMap)
  | j => .error (wrongType .stringOrMap j)

/-- A tag. In a document that was set aside it may also be given by its place in the list. -/
def tag {α : Type} (medium : Medium) (all : List α) (wire : α → String) : Decoder α
  | .string name => byName all wire name
  | .number (.natural n) =>
    if medium = .buffer then
      match all[n]? with
      | some a => .ok a
      | none => fail (.invalidValue (.number (.natural n)) (.variantIndex all.length))
    else .error (wrongType .identifier (.number (.natural n)))
  | j => .error (wrongType .identifier j)

/-- The fields of a tagged object: the tag, and the other fields set aside. -/
def splitFields {α : Type} (medium : Medium) (all : List α) (wire : α → String)
    (tagName : String) : List (String × Json) → (found : Option α) →
    Except DecodeError (α × List (String × Json))
  | [], none => fail (.missingField tagName)
  | [], some a => .ok (a, [])
  | (name, j) :: fields, found =>
    if name = tagName then
      match found with
      | some _ => fail (.duplicateField tagName)
      | none => do
        let a ← tag medium all wire j
        splitFields medium all wire tagName fields (some a)
    else do
      flawed j.check
      let (a, rest) ← splitFields medium all wire tagName fields found
      return (a, (name, j) :: rest)

/-- A tagged value: its tag and the rest of it, which is set aside. An array has the tag first. -/
def tagged {α : Type} (medium : Medium) (all : List α) (wire : α → String) (tagName : String)
    (what : String) : Json → Except DecodeError (α × Json)
  | .object fields => do
    let (a, rest) ← splitFields medium all wire tagName fields none
    return (a, .object rest)
  | .array [] => fail (.missingField tagName)
  | .array (j :: items) => do
    let a ← tag medium all wire j
    flawed (Json.checkItems items)
    return (a, .array items)
  | j => .error (wrongType (.named what) j)

/-- Items behind the last field of a record that is written as an array. -/
def surplus (medium : Medium) (count total : Nat) : List Json → Except DecodeError Unit
  | [] => .ok ()
  | j :: _ =>
    match medium with
    | .text => match j with
      | .fault f => .error (.flaw f.surplus)
      | _ => .error (.flaw .malformed)
    | .buffer => fail (.invalidLength total (.items count))

/-- A text that is one document. What follows the document is looked at last. -/
def ofText {α : Type} (decode : Decoder α) (text : String) : Except DecodeError α := do
  let (j, ended) := Json.read Json.maxDepth text
  let a ← decode j
  if ended then return a else throw (.flaw .malformed)

end Decode
end PortableTypes
