import PortableTypes.Json.Printer
import PortableTypes.TypeObject.Basic
import PortableTypes.Wire.Literal

/-!
# Type objects in documents

A type object is a record tagged by its form. Locations of literals and callables may be left out.
-/
namespace PortableTypes

namespace Position

def encode (p : Position) : Json :=
  .object [("line", .nat p.line.toNat), ("character", .nat p.character.toNat)]

def decode (medium : Medium) : Decoder Position := fun j => do
  let (line, character, ()) ←
    (Row.field "line" Decode.word32 .required <|
      .field "character" Decode.word32 .required .done).decode medium "struct Position" j
  return { line, character }

end Position

namespace Range

def encode (r : Range) : Json := .object [("start", r.start.encode), ("end", r.stop.encode)]

def decode (medium : Medium) : Decoder Range := fun j => do
  let (start, stop, ()) ←
    (Row.field "start" (Position.decode medium) .required <|
      .field "end" (Position.decode medium) .required .done).decode medium "struct Range" j
  return { start, stop }

end Range

namespace Location

def encode (l : Location) : Json :=
  .object [("fileName", .string l.fileName), ("range", l.range.encode)]

def decode (medium : Medium) : Decoder Location := fun j => do
  let (fileName, range, ()) ←
    (Row.field "fileName" Decode.string .required <|
      .field "range" (Range.decode medium) .required .done).decode medium
      "struct SourceFileLocation" j
  return { fileName, range }

def encodeAll (ls : List Location) : Json := .array (ls.map encode)

def decodeAll (medium : Medium) : Decoder (List Location) := Decode.list (decode medium)

end Location

namespace LocatedLiteral

def encode (l : LocatedLiteral) : Json :=
  .object [("value", l.value.encode), ("locations", Location.encodeAll l.locations)]

def decode : Decoder LocatedLiteral := fun j => do
  let (value, locations, ()) ←
    (Row.field "value" Literal.decode .required <|
      .field "locations" (Location.decodeAll .buffer) (.default []) .done).decode .buffer
      "struct LiteralType" j
  return { value, locations }

end LocatedLiteral

namespace EnumMember

def encode (m : EnumMember) : Json :=
  .object [("name", .string m.name), ("value", m.value.encode)]

def decode : Decoder EnumMember := fun j => do
  let (name, value, ()) ←
    (Row.field "name" Decode.string .required <|
      .field "value" LocatedLiteral.decode .required .done).decode .buffer "struct EnumMember" j
  return { name, value }

end EnumMember

namespace TypeObject

/-- An object with the tag of a form in front. -/
def tagged (tag : TypeTag) (fields : List (String × Json)) : Json :=
  .object (("__type", .string tag.wire) :: fields)

mutual

def encode : TypeObject → Json
  | .primitive kind locations =>
    tagged .primitive [("kind", .string kind.wire), ("locations", Location.encodeAll locations)]
  | .special kind locations =>
    tagged .special [("kind", .string kind.wire), ("locations", Location.encodeAll locations)]
  | .literal value locations =>
    tagged .literal [("value", value.encode), ("locations", Location.encodeAll locations)]
  | .array typeName child locations =>
    tagged .array [("typeName", .string typeName), ("child", encode child),
      ("locations", Location.encodeAll locations)]
  | .tuple typeName items locations =>
    tagged .tuple [("typeName", .string typeName), ("items", .array (encodeItems items)),
      ("locations", Location.encodeAll locations)]
  | .union typeName first second rest locations =>
    tagged .union [("typeName", .string typeName),
      ("members", .array (encode first :: encode second :: encodeItems rest)),
      ("locations", Location.encodeAll locations)]
  | .enum typeName members locations =>
    tagged .enum [("typeName", .string typeName), ("members", .array (members.map (·.encode))),
      ("locations", Location.encodeAll locations)]
  | .callable arguments result locations =>
    tagged .callable [("argTypes", .array (encodeArguments arguments)),
      ("returnType", encode result), ("locations", Location.encodeAll locations)]
  | .promise child locations =>
    tagged .promise [("child", encode child), ("locations", Location.encodeAll locations)]
  | .promiseLike child locations =>
    tagged .promiseLike [("child", encode child), ("locations", Location.encodeAll locations)]
  | .object typeName storeKey locations =>
    tagged .object [("typeName", .string typeName), ("storeKey", .string storeKey),
      ("locations", Location.encodeAll locations)]
  | .unsupported gap typeText locations =>
    tagged .unsupported (("kind", .string gap.wire) :: match typeText with
      | some text => [("typeText", .string text), ("locations", Location.encodeAll locations)]
      | none => [("locations", Location.encodeAll locations)])
termination_by structural t => t

def encodeItems : List TypeObject → List Json
  | [] => []
  | t :: ts => encode t :: encodeItems ts
termination_by structural ts => ts

def encodeArguments : List (String × TypeObject) → List Json
  | [] => []
  | (name, t) :: as =>
    .object [("name", .string name), ("type", encode t)] :: encodeArguments as
termination_by structural as => as

end

/-- The arguments of a callable. -/
def decodeArgument (type : Decoder TypeObject) : Decoder (String × TypeObject) := fun j => do
  let (name, t, ()) ←
    (Row.field "name" Decode.string .required <| .field "type" type .required .done).decode .buffer
      "struct CallableArgument" j
  return (name, t)

/-- The members of a union, of which there have to be two. -/
def decodeMembers (type : Decoder TypeObject) :
    Decoder (TypeObject × TypeObject × List TypeObject) := fun j => do
  match ← Decode.list type j with
  | a :: b :: rest => return (a, b, rest)
  | members => Decode.fail (.tooFewMembers members.length)

/-- The fields of a type object behind its tag; `type` decodes the type objects in them. -/
def decodeFields (type : Decoder TypeObject) (tag : TypeTag) : Decoder TypeObject := fun j =>
  let locations := Location.decodeAll .buffer
  match tag with
  | .primitive => do
    let (kind, ls, ()) ←
      (Row.field "kind" (Decode.oneOfNames Primitive.all Primitive.wire) .required <|
        .field "locations" locations .required .done).decode .buffer "struct PrimitiveType" j
    return .primitive kind ls
  | .special => do
    let (kind, ls, ()) ←
      (Row.field "kind" (Decode.oneOfNames Special.all Special.wire) .required <|
        .field "locations" locations .required .done).decode .buffer "struct SpecialType" j
    return .special kind ls
  | .literal => do
    let l ← LocatedLiteral.decode j
    return .literal l.value l.locations
  | .array => do
    let (typeName, child, ls, ()) ←
      (Row.field "typeName" Decode.string .required <| .field "child" type .required <|
        .field "locations" locations .required .done).decode .buffer "struct ArrayType" j
    return .array typeName child ls
  | .tuple => do
    let (typeName, items, ls, ()) ←
      (Row.field "typeName" Decode.string .required <|
        .field "items" (Decode.list type) .required <|
        .field "locations" locations .required .done).decode .buffer "struct TupleType" j
    return .tuple typeName items ls
  | .union => do
    let (typeName, (first, second, rest), ls, ()) ←
      (Row.field "typeName" Decode.string .required <|
        .field "members" (decodeMembers type) .required <|
        .field "locations" locations .required .done).decode .buffer "struct UnionType" j
    return .union typeName first second rest ls
  | .enum => do
    let (typeName, members, ls, ()) ←
      (Row.field "typeName" Decode.string .required <|
        .field "members" (Decode.list EnumMember.decode) .required <|
        .field "locations" locations .required .done).decode .buffer "struct EnumType" j
    return .enum typeName members ls
  | .callable => do
    let (arguments, result, ls, ()) ←
      (Row.field "argTypes" (Decode.list (decodeArgument type)) .required <|
        .field "returnType" type .required <|
        .field "locations" locations (.default []) .done).decode .buffer "struct CallableType" j
    return .callable arguments result ls
  | .promise => do
    let (child, ls, ()) ←
      (Row.field "child" type .required <|
        .field "locations" locations .required .done).decode .buffer "struct PromiseType" j
    return .promise child ls
  | .promiseLike => do
    let (child, ls, ()) ←
      (Row.field "child" type .required <|
        .field "locations" locations .required .done).decode .buffer "struct PromiseType" j
    return .promiseLike child ls
  | .object => do
    let (typeName, storeKey, ls, ()) ←
      (Row.field "typeName" Decode.string .required <|
        .field "storeKey" Decode.string .required <|
        .field "locations" locations .required .done).decode .buffer "struct ObjectType" j
    return .object typeName storeKey ls
  | .unsupported => do
    let (gap, typeText, ls, ()) ←
      (Row.field "kind" (Decode.oneOfNames Gap.all Gap.wire) .required <|
        .field "typeText" (Decode.nullable Decode.string) (.default none) <|
        .field "locations" locations .required .done).decode .buffer "struct UnsupportedType" j
    return .unsupported gap typeText ls

/-- Decodes type objects nested less than `fuel` deep. -/
def decodeNested : (fuel : Nat) → Medium → Decoder TypeObject
  | 0, _, _ => .error (.flaw .malformed)
  | fuel + 1, medium, j => do
    let (tag, content) ← Decode.tagged medium TypeTag.all TypeTag.wire "__type"
      "internally tagged enum TypeObject" j
    decodeFields (decodeNested fuel .buffer) tag content

/-- Decodes a type object. A part of a document is nested less deeply than the document. -/
def decode (medium : Medium) : Decoder TypeObject := fun j => decodeNested (j.depth + 1) medium j

def toText (t : TypeObject) : String := t.encode.compact
def toPrettyText (t : TypeObject) : String := t.encode.pretty

/-- The type object of a text. -/
def ofText (text : String) : Except DecodeError TypeObject := Decode.ofText (decode .text) text

/-- The message for a document that is no type object. -/
def mismatchMessage (m : Mismatch) : String :=
  "type object (de)serialization failed: " ++ m.message

end TypeObject

namespace Declaration

def encode (d : Declaration) : Json :=
  .object [("declaredName", Json.nullable .string d.name), ("type", d.type.encode)]

end Declaration

namespace Property

def encode (p : Property) : Json :=
  .object [("propName", .string p.name), ("type", p.type.encode)]

end Property
end PortableTypes
