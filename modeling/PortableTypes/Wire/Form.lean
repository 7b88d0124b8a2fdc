import PortableTypes.Checker.Form
import PortableTypes.Json.Record

/-!
# Node forms in documents

A form is tagged with its kind. Handles are plain numbers.
-/
namespace PortableTypes

def FileId.encode (id : FileId) : Json := .nat id.index
def NodeId.encode (id : NodeId) : Json := .nat id.index
def SymbolId.encode (id : SymbolId) : Json := .nat id.index
def TypeId.encode (id : TypeId) : Json := .nat id.index
def SignatureId.encode (id : SignatureId) : Json := .nat id.index

def FileId.decode : Decoder FileId := fun j => FileId.mk <$> Decode.natural32 j
def NodeId.decode : Decoder NodeId := fun j => NodeId.mk <$> Decode.natural32 j
def SymbolId.decode : Decoder SymbolId := fun j => SymbolId.mk <$> Decode.natural32 j
def TypeId.decode : Decoder TypeId := fun j => TypeId.mk <$> Decode.natural32 j
def SignatureId.decode : Decoder SignatureId := fun j => SignatureId.mk <$> Decode.natural32 j

namespace ExportItem

/-- The declared name is left out where it is the exported one. -/
def encode (e : ExportItem) : Json :=
  .object (("name", .string e.name) :: match e.declared with
    | some declared => [("propertyName", .string declared)]
    | none => [])

def decode : Decoder ExportItem := fun j => do
  let (name, declared, ()) ←
    (Row.field "name" Decode.string .required <|
      .field "propertyName" (Decode.nullable Decode.string) (.default none) .done).decode
      .buffer "struct ExportSpecifier" j
  return { name, declared }

end ExportItem

namespace ExportClause

def encode : ExportClause → Json
  | .named items => .object [("kind", .string "named"), ("elements", .array (items.map (·.encode)))]
  | .everything name =>
    .object [("kind", .string "namespace"), ("alias", Json.nullable .string name)]

def decode : Decoder ExportClause := fun j => do
  let (byName, content) ← Decode.tagged .buffer [true, false]
    (fun byName => if byName then "named" else "namespace") "kind"
    "internally tagged enum ExportClause" j
  if byName then
    let (items, ()) ← (Row.field "elements" (Decode.list ExportItem.decode) .required .done).decode
      .buffer "struct variant ExportClause::Named" content
    return .named items
  else
    let (name, ()) ←
      (Row.field "alias" (Decode.nullable Decode.string) (.inObject none) .done).decode
      .buffer "struct variant ExportClause::Namespace" content
    return .everything name

end ExportClause

namespace Form

def encode (f : Form) : Json :=
  .object (("kind", .string f.kind.wire) :: match f with
    | .typeAlias name exported typeNode =>
      [("name", .string name), ("exported", .boolean exported),
        ("typeNode", Json.nullable NodeId.encode typeNode)]
    | .interface name exported | .enumeration name exported =>
      [("name", .string name), ("exported", .boolean exported)]
    | .enumMember name => [("name", .string name)]
    | .variableStatement exported declarations =>
      [("exported", .boolean exported), ("declarations", .array (declarations.map (·.encode)))]
    | .variableDeclaration name typeNode | .propertySignature name typeNode
    | .parameter name typeNode =>
      [("name", .string name), ("typeNode", Json.nullable NodeId.encode typeNode)]
    | .exportDeclaration specifier clause =>
      [("moduleSpecifier", Json.nullable .string specifier),
        ("clause", Json.nullable ExportClause.encode clause)]
    | .identifier text => [("text", .string text)]
    | .tupleType elements => [("elements", .array (elements.map (·.encode)))]
    | .arrayType element => [("elementType", element.encode)]
    | .typeReference name arguments =>
      [("typeName", .string name), ("typeArguments", .array (arguments.map (·.encode)))]
    | .otherType | .other => [])

/-- A form without fields of its own. -/
def decodeEmpty (f : Form) : Decoder Form
  | .array (j :: js) => Decode.fail (.invalidLength (j :: js).length (.items 0))
  | _ => return f

/-- The fields of a form, behind its tag. -/
def decodeFields (kind : FormKind) : Decoder Form := fun j =>
  let what := "struct variant SyntaxNode::" ++ kind.title
  let typeNode := Decode.nullable NodeId.decode
  match kind with
  | .typeAlias => do
    let (name, exported, node, ()) ←
      (Row.field "name" Decode.string .required <| .field "exported" Decode.boolean .required <|
        .field "typeNode" typeNode (.inObject none) .done).decode .buffer what j
    return .typeAlias name exported node
  | .interface => do
    let (name, exported, ()) ←
      (Row.field "name" Decode.string .required <|
        .field "exported" Decode.boolean .required .done).decode .buffer what j
    return .interface name exported
  | .enumeration => do
    let (name, exported, ()) ←
      (Row.field "name" Decode.string .required <|
        .field "exported" Decode.boolean .required .done).decode .buffer what j
    return .enumeration name exported
  | .enumMember => do
    let (name, ()) ← (Row.field "name" Decode.string .required .done).decode .buffer what j
    return .enumMember name
  | .variableStatement => do
    let (exported, declarations, ()) ←
      (Row.field "exported" Decode.boolean .required <|
        .field "declarations" (Decode.list NodeId.decode) .required .done).decode .buffer what j
    return .variableStatement exported declarations
  | .variableDeclaration => do
    let (name, node, ()) ←
      (Row.field "name" Decode.string .required <|
        .field "typeNode" typeNode (.inObject none) .done).decode .buffer what j
    return .variableDeclaration name node
  | .exportDeclaration => do
    let (specifier, clause, ()) ←
      (Row.field "moduleSpecifier" (Decode.nullable Decode.string) (.inObject none) <|
        .field "clause" (Decode.nullable ExportClause.decode) (.inObject none) .done).decode
        .buffer what j
    return .exportDeclaration specifier clause
  | .propertySignature => do
    let (name, node, ()) ←
      (Row.field "name" Decode.string .required <|
        .field "typeNode" typeNode (.inObject none) .done).decode .buffer what j
    return .propertySignature name node
  | .parameter => do
    let (name, node, ()) ←
      (Row.field "name" Decode.string .required <|
        .field "typeNode" typeNode (.inObject none) .done).decode .buffer what j
    return .parameter name node
  | .identifier => do
    let (text, ()) ← (Row.field "text" Decode.string .required .done).decode .buffer what j
    return .identifier text
  | .tupleType => do
    let (elements, ()) ←
      (Row.field "elements" (Decode.list NodeId.decode) .required .done).decode .buffer what j
    return .tupleType elements
  | .arrayType => do
    let (element, ()) ←
      (Row.field "elementType" NodeId.decode .required .done).decode .buffer what j
    return .arrayType element
  | .typeReference => do
    let (name, arguments, ()) ←
      (Row.field "typeName" Decode.string .required <|
        .field "typeArguments" (Decode.list NodeId.decode) .required .done).decode .buffer what j
    return .typeReference name arguments
  | .otherType => decodeEmpty .otherType j
  | .other => decodeEmpty .other j

def decode (medium : Medium) : Decoder Form := fun j => do
  let (kind, content) ← Decode.tagged medium FormKind.all FormKind.wire "kind"
    "internally tagged enum SyntaxNode" j
  decodeFields kind content

end Form
end PortableTypes
