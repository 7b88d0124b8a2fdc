import PortableTypes.Checker.Handle

/-!
# Forms of syntax nodes

Of the syntax of a program only what projection looks at is kept: declarations with their names and
annotations, export declarations, and the type expressions whose parts are read.
-/
namespace PortableTypes

/-- One name of an export list: the exported name, and the declared one where it differs. -/
structure ExportItem where
  name : String
  declared : Option String
  deriving DecidableEq, Repr

/-- The name an export item has in the module it comes from. -/
def ExportItem.sourceName (e : ExportItem) : String := e.declared.getD e.name

/-- What an export declaration exports: some names, or everything under at most one name. -/
inductive ExportClause
  | named (items : List ExportItem)
  | everything (name : Option String)
  deriving DecidableEq, Repr

/-- The kinds of syntax nodes. -/
inductive FormKind
  | typeAlias
  | interface
  | enumeration
  | enumMember
  | variableStatement
  | variableDeclaration
  | exportDeclaration
  | propertySignature
  | parameter
  | identifier
  | tupleType
  | arrayType
  | typeReference
  | otherType
  | other
  deriving DecidableEq, Repr

namespace FormKind

/-- Every kind, in declared order. -/
def all : List FormKind :=
  [.typeAlias, .interface, .enumeration, .enumMember, .variableStatement, .variableDeclaration,
    .exportDeclaration, .propertySignature, .parameter, .identifier, .tupleType, .arrayType,
    .typeReference, .otherType, .other]

/-- The name of a kind in events and messages. -/
def title : FormKind → String
  | .typeAlias => "TypeAliasDeclaration"
  | .interface => "InterfaceDeclaration"
  | .enumeration => "EnumDeclaration"
  | .enumMember => "EnumMember"
  | .variableStatement => "VariableStatement"
  | .variableDeclaration => "VariableDeclaration"
  | .exportDeclaration => "ExportDeclaration"
  | .propertySignature => "PropertySignature"
  | .parameter => "Parameter"
  | .identifier => "Identifier"
  | .tupleType => "TupleType"
  | .arrayType => "ArrayType"
  | .typeReference => "TypeReference"
  | .otherType => "OtherType"
  | .other => "Other"

/-- The name of a kind in documents. -/
def wire : FormKind → String
  | .typeAlias => "typeAliasDeclaration"
  | .interface => "interfaceDeclaration"
  | .enumeration => "enumDeclaration"
  | .enumMember => "enumMember"
  | .variableStatement => "variableStatement"
  | .variableDeclaration => "variableDeclaration"
  | .exportDeclaration => "exportDeclaration"
  | .propertySignature => "propertySignature"
  | .parameter => "parameter"
  | .identifier => "identifier"
  | .tupleType => "tupleType"
  | .arrayType => "arrayType"
  | .typeReference => "typeReference"
  | .otherType => "otherType"
  | .other => "other"

end FormKind

/-- The form of a syntax node. -/
inductive Form
  | typeAlias (name : String) (exported : Bool) (typeNode : Option NodeId)
  | interface (name : String) (exported : Bool)
  | enumeration (name : String) (exported : Bool)
  | enumMember (name : String)
  | variableStatement (exported : Bool) (declarations : List NodeId)
  | variableDeclaration (name : String) (typeNode : Option NodeId)
  | exportDeclaration (specifier : Option String) (clause : Option ExportClause)
  | propertySignature (name : String) (typeNode : Option NodeId)
  | parameter (name : String) (typeNode : Option NodeId)
  | identifier (text : String)
  | tupleType (elements : List NodeId)
  | arrayType (element : NodeId)
  | typeReference (name : String) (arguments : List NodeId)
  | otherType
  | other
  deriving DecidableEq, Repr

namespace Form

/-- The node of the type a declaration is annotated with. -/
def typeNode? : Form → Option NodeId
  | .typeAlias _ _ a | .variableDeclaration _ a | .propertySignature _ a | .parameter _ a => a
  | _ => none

def kind : Form → FormKind
  | .typeAlias .. => .typeAlias
  | .interface .. => .interface
  | .enumeration .. => .enumeration
  | .enumMember _ => .enumMember
  | .variableStatement .. => .variableStatement
  | .variableDeclaration .. => .variableDeclaration
  | .exportDeclaration .. => .exportDeclaration
  | .propertySignature .. => .propertySignature
  | .parameter .. => .parameter
  | .identifier _ => .identifier
  | .tupleType _ => .tupleType
  | .arrayType _ => .arrayType
  | .typeReference .. => .typeReference
  | .otherType => .otherType
  | .other => .other

end Form
end PortableTypes
