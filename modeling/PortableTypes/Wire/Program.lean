import PortableTypes.Json.Printer
import PortableTypes.Program.Build
import PortableTypes.Wire.Form
import PortableTypes.Wire.Literal

/-!
# Programs in documents

A program is written as its five tables. On reading, tables and most fields of their records may be
left out.
-/
namespace PortableTypes

/-- A list of handles, or of records. -/
def encodeList {α : Type} (encode : α → Json) (as : List α) : Json := .array (as.map encode)

namespace Span

def encode (s : Span) : Json := .object [("start", .nat s.start.toNat), ("end", .nat s.stop.toNat)]

def decode : Decoder Span := fun j => do
  let (start, stop, ()) ←
    (Row.field "start" Decode.word32 .required <|
      .field "end" Decode.word32 .required .done).decode .text "struct Span" j
  return { start, stop }

end Span

namespace ModuleTable

def encode (t : ModuleTable) : Json := .object (t.entries.map fun (s, target) => (s, .string target))

def decode : Decoder ModuleTable := fun j => ofList <$> Decode.entries Decode.string j

end ModuleTable

namespace SourceFile

def encode (f : SourceFile) : Json :=
  .object [("name", .string f.name), ("text", .string f.text),
    ("statements", encodeList NodeId.encode f.statements),
    ("resolvedModules", Json.nullable ModuleTable.encode f.modules)]

def decode : Decoder SourceFile := fun j => do
  let (name, text, statements, modules, ()) ←
    (Row.field "name" Decode.string .required <|
      .field "text" Decode.string .required <|
      .field "statements" (Decode.list NodeId.decode) (.default []) <|
      .field "resolvedModules" (Decode.nullable ModuleTable.decode) (.default none) .done).decode
      .text "struct FileSnapshot" j
  return { name, text, statements, modules }

end SourceFile

namespace Node

def encode (n : Node) : Json :=
  .object [("file", n.file.encode), ("span", Json.nullable Span.encode n.span),
    ("parent", Json.nullable NodeId.encode n.parent), ("syntax", n.form.encode),
    ("declaredSymbol", Json.nullable SymbolId.encode n.declares),
    ("locationSymbol", Json.nullable SymbolId.encode n.refersTo),
    ("ty", Json.nullable TypeId.encode n.type)]

def decode : Decoder Node := fun j => do
  let (file, span, parent, form, declares, refersTo, type, ()) ←
    (Row.field "file" FileId.decode .required <|
      .field "span" (Decode.nullable Span.decode) (.default none) <|
      .field "parent" (Decode.nullable NodeId.decode) (.default none) <|
      .field "syntax" (Form.decode .text) .required <|
      .field "declaredSymbol" (Decode.nullable SymbolId.decode) (.default none) <|
      .field "locationSymbol" (Decode.nullable SymbolId.decode) (.default none) <|
      .field "ty" (Decode.nullable TypeId.decode) (.default none) .done).decode
      .text "struct NodeRecord" j
  return { file, span, parent, form, declares, refersTo, type }

end Node

namespace Symbol

def encode (s : Symbol) : Json :=
  .object [("name", .string s.name), ("declarations", encodeList NodeId.encode s.declarations),
    ("valueDeclaration", Json.nullable NodeId.encode s.valueDeclaration),
    ("exports", encodeList SymbolId.encode s.exports), ("isModule", .boolean s.isModule),
    ("mappedTemplate", Json.nullable TypeId.encode s.mappedTemplate),
    ("ty", Json.nullable TypeId.encode s.type),
    ("declaredType", Json.nullable TypeId.encode s.declaredType)]

def decode : Decoder Symbol := fun j => do
  let (name, declarations, valueDeclaration, exports, isModule, mappedTemplate, type,
      declaredType, ()) ←
    (Row.field "name" Decode.string .required <|
      .field "declarations" (Decode.list NodeId.decode) (.default []) <|
      .field "valueDeclaration" (Decode.nullable NodeId.decode) (.default none) <|
      .field "exports" (Decode.list SymbolId.decode) (.default []) <|
      .field "isModule" Decode.boolean (.default false) <|
      .field "mappedTemplate" (Decode.nullable TypeId.decode) (.default none) <|
      .field "ty" (Decode.nullable TypeId.decode) (.default none) <|
      .field "declaredType" (Decode.nullable TypeId.decode) (.default none) .done).decode
      .text "struct SymbolRecord" j
  return { name, declarations, valueDeclaration, exports, isModule, mappedTemplate, type,
           declaredType }

end Symbol

/-- The kinds of types without what they hold. -/
inductive TypeKindTag
  | error
  | intrinsic
  | literal
  | union
  | typeParameter
  | object
  deriving DecidableEq, Repr

namespace TypeKindTag

/-- Every tag, in declared order. -/
def all : List TypeKindTag := [.error, .intrinsic, .literal, .union, .typeParameter, .object]

def wire : TypeKindTag → String
  | .error => "error"
  | .intrinsic => "intrinsic"
  | .literal => "literal"
  | .union => "union"
  | .typeParameter => "typeParameter"
  | .object => "object"

/-- The kind of a tag that has no data, with its name in messages. -/
def plain? : TypeKindTag → Option (TypeKind × String)
  | .error => some (.error, "Error")
  | .intrinsic => some (.intrinsic, "Intrinsic")
  | .typeParameter => some (.typeParameter, "TypeParameter")
  | .object => some (.object, "Object")
  | .literal | .union => none

end TypeKindTag

namespace TypeKind

def encode : TypeKind → Json
  | .error => .object [("kind", .string "error")]
  | .intrinsic => .object [("kind", .string "intrinsic")]
  | .literal value => .object [("kind", .string "literal"), ("data", value.encode)]
  | .union members =>
    .object [("kind", .string "union"), ("data", encodeList TypeId.encode members)]
  | .typeParameter => .object [("kind", .string "typeParameter")]
  | .object => .object [("kind", .string "object")]

/-- The tag beside the data: a name, or an object with a name as its only field and nothing in it.
What starts like neither is not looked at. -/
def decodeTag : Decoder TypeKindTag
  | .string name => Decode.byName TypeKindTag.all TypeKindTag.wire name
  | .object [] => .error (.flaw .malformed)
  | .object ((_, .fault (.name f)) :: _) => .error (.flaw f.needed)
  | .object ((_, .fault (.noName found)) :: _) => Decode.fail (.invalidType found .identifier)
  | .object ((name, payload) :: rest) => do
    let tag ← Decode.byName TypeKindTag.all TypeKindTag.wire name
    match payload with
    | .null => match rest with
      | [] => return tag
      | (_, .fault (.name f)) :: _ => .error (.flaw f.surplus)
      | _ => .error (.flaw .malformed)
    | j => .error (Decode.wrongType .unit j)
  | .fault f => .error (.flaw f.ofString.needed)
  | .null | .boolean _ | .number _ | .array _ => .error (.flaw .malformed)

/-- The data beside a tag. -/
def decodeData (tag : TypeKindTag) : Decoder TypeKind := fun j =>
  match tag.plain?, tag with
  | some (kind, name), _ =>
    match j with
    | .null => return kind
    | j => .error (Decode.wrongType (.named ("unit variant TypeKind::" ++ name)) j)
  | none, .literal => .literal <$> Literal.decode j
  | none, _ => .union <$> Decode.list TypeId.decode j

/-- The next field that is the tag (`true`) or the data, with the fields behind it. Other fields are
passed over. -/
def nextField : List (String × Json) →
    Except DecodeError (Option (Bool × Json × List (String × Json)))
  | [] => .ok none
  | (name, j) :: fields =>
    if name = "kind" then .ok (some (true, j, fields))
    else if name = "data" then .ok (some (false, j, fields))
    else do
      Row.passOver j
      nextField fields

/-- The kind, if neither tag nor data come again. -/
def closeFields (kind : TypeKind) (fields : List (String × Json)) :
    Except DecodeError TypeKind := do
  match ← nextField fields with
  | none => return kind
  | some (true, _) => Decode.fail (.duplicateField "kind")
  | some (false, _) => Decode.fail (.duplicateField "data")

/-- Tag and data in either order. Data in front of its tag is set aside. -/
def decodeFields (fields : List (String × Json)) : Except DecodeError TypeKind := do
  match ← nextField fields with
  | none => Decode.fail (.missingField "kind")
  | some (true, j, fields) =>
    let tag ← decodeTag j
    match ← nextField fields with
    | none => match tag.plain? with
      | some (kind, _) => return kind
      | none => Decode.fail (.missingField "data")
    | some (true, _) => Decode.fail (.duplicateField "kind")
    | some (false, j, fields) => closeFields (← decodeData tag j) fields
  | some (false, data, fields) =>
    Decode.flawed data.check
    match ← nextField fields with
    | none => Decode.fail (.missingField "kind")
    | some (false, _) => Decode.fail (.duplicateField "data")
    | some (true, j, fields) =>
      let tag ← decodeTag j
      closeFields (← decodeData tag data) fields

/-- The name of kinds in messages. -/
def what : Expected := .named "adjacently tagged enum TypeKind"

def decode : Decoder TypeKind
  | .object fields => decodeFields fields
  | .array [] => Decode.fail (.invalidLength 0 what)
  | .array [j] => do
    discard <| Decode.tag .text TypeKindTag.all TypeKindTag.wire j
    Decode.fail (.invalidLength 1 what)
  | .array (j :: data :: left) => do
    let tag ← Decode.tag .text TypeKindTag.all TypeKindTag.wire j
    let kind ← decodeData tag data
    Decode.surplus .text 2 (left.length + 2) left
    return kind
  | j => .error (Decode.wrongType what j)

end TypeKind

namespace TypeRecord

def encode (t : TypeRecord) : Json :=
  .object [("text", .string t.text), ("kind", t.kind.encode),
    ("symbol", Json.nullable SymbolId.encode t.symbol),
    ("aliasSymbol", Json.nullable SymbolId.encode t.aliasSymbol),
    ("aliasTypeArguments", encodeList TypeId.encode t.aliasArguments),
    ("typeArguments", encodeList TypeId.encode t.arguments),
    ("originNode", Json.nullable NodeId.encode t.origin),
    ("properties", encodeList SymbolId.encode t.properties),
    ("callSignatures", encodeList SignatureId.encode t.callSignatures)]

def decode : Decoder TypeRecord := fun j => do
  let (text, kind, symbol, aliasSymbol, aliasArguments, arguments, origin, properties,
      callSignatures, ()) ←
    (Row.field "text" Decode.string .required <|
      .field "kind" TypeKind.decode .required <|
      .field "symbol" (Decode.nullable SymbolId.decode) (.default none) <|
      .field "aliasSymbol" (Decode.nullable SymbolId.decode) (.default none) <|
      .field "aliasTypeArguments" (Decode.list TypeId.decode) (.default []) <|
      .field "typeArguments" (Decode.list TypeId.decode) (.default []) <|
      .field "originNode" (Decode.nullable NodeId.decode) (.default none) <|
      .field "properties" (Decode.list SymbolId.decode) (.default []) <|
      .field "callSignatures" (Decode.list SignatureId.decode) (.default []) .done).decode
      .text "struct TypeRecord" j
  return { text, kind, symbol, aliasSymbol, aliasArguments, arguments, origin, properties,
           callSignatures }

end TypeRecord

namespace Signature

def encode (s : Signature) : Json :=
  .object [("parameters", encodeList SymbolId.encode s.parameters), ("returnType", s.result.encode)]

def decode : Decoder Signature := fun j => do
  let (parameters, result, ()) ←
    (Row.field "parameters" (Decode.list SymbolId.decode) .required <|
      .field "returnType" TypeId.decode .required .done).decode .text "struct SignatureRecord" j
  return { parameters, result }

end Signature

namespace Program

def encode (p : Program) : Json :=
  .object [("files", encodeList SourceFile.encode p.files.toList),
    ("nodes", encodeList Node.encode p.nodes.toList),
    ("symbols", encodeList Symbol.encode p.symbols.toList),
    ("types", encodeList TypeRecord.encode p.types.toList),
    ("signatures", encodeList Signature.encode p.signatures.toList)]

def decode : Decoder Program := fun j => do
  let (files, nodes, symbols, types, signatures, ()) ←
    (Row.field "files" (Decode.list SourceFile.decode) (.default []) <|
      .field "nodes" (Decode.list Node.decode) (.default []) <|
      .field "symbols" (Decode.list Symbol.decode) (.default []) <|
      .field "types" (Decode.list TypeRecord.decode) (.default []) <|
      .field "signatures" (Decode.list Signature.decode) (.default []) .done).decode
      .text "struct ProgramSnapshot" j
  return ofTables files nodes symbols types signatures

/-- The snapshot text of a program. -/
def toText (p : Program) : String := p.encode.compact

/-- The program of a snapshot text. -/
def ofText (text : String) : Except DecodeError Program := Decode.ofText decode text

end Program
end PortableTypes
